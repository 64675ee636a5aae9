import BencodePlan.Generate
import BencodePlan.Proofs.Pairs
import BencodePlan.Proofs.Member.Collected
import BencodePlan.Proofs.Schema.Validity
/-!
# Which types are chosen

What a request chooses is said by `Asks`, without the order in which the names come and without the repeats among them.  The
types that are chosen stand in strictly ascending order of their names (`select_ascends`), and they are those that are asked
for (`mem_select`).
-/
namespace BencodePlan

/-! ## Without repeats -/

namespace Schema

theorem withoutRepeats_sublist (l : List (String × TypeId)) : (withoutRepeats l).Sublist l := by
  induction l using withoutRepeats.induct with
  | case1 =>
    rw [withoutRepeats]
  | case2 a =>
    rw [withoutRepeats]
  | case3 a b rest heq ih =>
    rw [withoutRepeats, if_pos heq]
    exact ih.trans ((List.sublist_cons_self b rest).cons_cons a)
  | case4 a b rest hne ih =>
    rw [withoutRepeats, if_neg hne]
    exact ih.cons_cons a

theorem mem_names_withoutRepeats {l : List (String × TypeId)} {name : String} :
    name ∈ (withoutRepeats l).map Prod.fst ↔ name ∈ l.map Prod.fst := by
  induction l using withoutRepeats.induct with
  | case1 => rw [withoutRepeats]
  | case2 a => rw [withoutRepeats]
  | case3 a b rest heq ih =>
    rw [withoutRepeats, if_pos heq, ih]
    simp only [List.map_cons, List.mem_cons, ← heq, or_self_left]
  | case4 a b rest hne ih =>
    rw [withoutRepeats, if_neg hne, List.map_cons, List.mem_cons, ih]
    simp only [List.map_cons, List.mem_cons]

theorem withoutRepeats_ascends {l : List (String × TypeId)} (h : l.Pairwise fun a b => a.1 ≤ b.1) :
    (withoutRepeats l).Pairwise fun a b => a.1 < b.1 := by
  induction l using withoutRepeats.induct with
  | case1 =>
    rw [withoutRepeats]
    exact .nil
  | case2 a =>
    rw [withoutRepeats]
    exact List.pairwise_singleton _ a
  | case3 a b rest heq ih =>
    rw [withoutRepeats, if_pos heq]
    exact ih (h.sublist ((List.sublist_cons_self b rest).cons_cons a))
  | case4 a b rest hne ih =>
    rw [withoutRepeats, if_neg hne]
    rw [List.pairwise_cons] at h ⊢
    refine ⟨fun c hc => ?_, ih h.2⟩
    have hbc : b.1 ≤ c.1 := by
      rcases List.mem_cons.1 ((withoutRepeats_sublist (b :: rest)).subset hc) with rfl | hrest
      · exact String.le_refl _
      · exact (List.pairwise_cons.1 h.2).1 c hrest
    refine String.not_le.1 fun hca => hne ?_
    exact String.le_antisymm (h.1 b List.mem_cons_self) (String.le_trans hbc hca)

end Schema

/-! ## What is asked for -/

namespace TypeTable

/-- Whether some field that a declared type is written with has a tag. -/
def IsTagged (t : TypeTable) (id : TypeId) : Prop := ∃ f ∈ t.fieldsOf (t.underlying id), f.tag.isSome = true

theorem value_hasTagged (t : TypeTable) (owner : String) (id : TypeId) :
    (Field.hasTagged t owner id).value = true ↔ t.IsTagged id := by
  have hfields : (Field.collect t owner id).value = t.fieldsOf (t.underlying id) := by
    unfold Field.collect fieldsOf
    rw [Field.value_collectFrom, Field.value_collectFrom]
  unfold Field.hasTagged IsTagged
  rw [Noted.value_bind, hfields]
  exact List.any_eq_true

end TypeTable

namespace Schema

open TypeTable

def isOpen (requested : List String) : Bool := requested.isEmpty || requested.contains selectAll

/-- **What a request asks for.** -/
def Asks (t : TypeTable) (config : GeneratorConfig) (requested : List String) (name : String) (id : TypeId) : Prop :=
  t.isNative id = false ∧
    if isOpen requested = true then isStructBased t id = true ∧ t.IsTagged id
    else name ∈ requested ∧ (config.aliasRoots = true ∨ isStructBased t id = true)

theorem mem_taggedStructs {t : TypeTable} {name : String} {id : TypeId} : (name, id) ∈ (taggedStructs t).value ↔
    (name, id) ∈ t.names ∧ t.isNative id = false ∧ isStructBased t id = true ∧ t.IsTagged id := by
  unfold taggedStructs
  simp only [Noted.value_bind, Noted.value_mapM, Noted.value_pure, List.mem_flatten, List.mem_map]
  constructor
  · rintro ⟨_, ⟨⟨name', id'⟩, hmem, rfl⟩, hin⟩
    simp only at hin
    split at hin
    · cases hin
    · rename_i hnot
      rw [Bool.or_eq_true, not_or, Bool.not_eq_true, Bool.not_eq_true, Bool.not_eq_false'] at hnot
      rw [Noted.value_bind] at hin
      split at hin
      · rename_i htagged
        cases List.mem_singleton.1 hin
        exact ⟨hmem, hnot.1, hnot.2, (t.value_hasTagged name id).1 htagged⟩
      · cases hin
  · rintro ⟨hmem, hnative, hstruct, htagged⟩
    refine ⟨_, ⟨⟨name, id⟩, hmem, rfl⟩, ?_⟩
    simp only [hnative, hstruct, Bool.not_true, Bool.or_self, Bool.false_eq_true, if_false, Noted.value_bind,
      (t.value_hasTagged name id).2 htagged, if_true]
    exact List.mem_singleton.2 rfl

theorem mem_requestedType {t : TypeTable} {aliasRoots : Bool} {asked name : String} {id : TypeId} :
    (name, id) ∈ (requestedType t aliasRoots asked).value ↔ asked = name ∧ t.lookup name = some id ∧
      t.isNative id = false ∧ (aliasRoots = true ∨ isStructBased t id = true) := by
  unfold requestedType
  cases hl : t.lookup asked with
  | none =>
    simp only [Noted.value_bind, Noted.value_pure, List.not_mem_nil, false_iff]
    rintro ⟨rfl, hl', -⟩
    rw [hl] at hl'
    cases hl'
  | some found =>
    simp only
    by_cases hnative : t.isNative found = true
    · simp only [hnative, if_true, Noted.value_bind, Noted.value_pure, List.not_mem_nil, false_iff]
      rintro ⟨rfl, hl', hnot, -⟩
      rw [hl] at hl'
      cases hl'
      rw [hnative] at hnot
      cases hnot
    · by_cases hroot : (!aliasRoots && !isStructBased t found) = true
      · simp only [hnative, hroot, Bool.false_eq_true, if_false, if_true, Noted.value_bind, Noted.value_pure,
          List.not_mem_nil, false_iff]
        rintro ⟨rfl, hl', -, hor⟩
        rw [hl] at hl'
        cases hl'
        rcases hor with h | h <;> simp [h] at hroot
      · simp only [hnative, hroot, Bool.false_eq_true, if_false, Noted.value_pure, List.mem_singleton, Prod.mk.injEq]
        constructor
        · rintro ⟨rfl, rfl⟩
          refine ⟨rfl, hl, Bool.eq_false_iff.2 hnative, ?_⟩
          cases ha : aliasRoots with
          | true => exact Or.inl rfl
          | false =>
            cases hs : isStructBased t id with
            | true => exact Or.inr rfl
            | false => simp [ha, hs] at hroot
        · rintro ⟨rfl, hl', -⟩
          rw [hl] at hl'
          exact ⟨rfl, (Option.some.inj hl').symm⟩

def chosen (s : Schema) (config : GeneratorConfig) (requested : List String) : List (String × TypeId) :=
  if isOpen requested then (taggedStructs s.table).value
  else requested.flatMap fun name => (requestedType s.table config.aliasRoots name).value

theorem value_select (s : Schema) (config : GeneratorConfig) (requested : List String) :
    (s.select config requested).value =
      withoutRepeats ((s.chosen config requested).mergeSort fun a b => a.1 ≤ b.1) := by
  unfold select chosen isOpen
  simp only
  split
  · rfl
  · rw [Noted.value_bind, Noted.value_mapM, List.flatMap_def]
    rfl

/-- **What is chosen stands in strictly ascending order of the names.** -/
theorem select_ascends (s : Schema) (config : GeneratorConfig) (requested : List String) :
    (s.select config requested).value.Pairwise fun a b => a.1 < b.1 := by
  rw [value_select]
  exact withoutRepeats_ascends (pairwise_mergeSort_by Prod.fst (s.chosen config requested))

theorem mem_names_iff {raw : RawSchema} {s : Schema} (hs : (ofRaw raw).value = .ok s) {name : String} {id : TypeId} :
    (name, id) ∈ s.table.names ↔ s.table.lookup name = some id := by
  obtain ⟨-, hlists⟩ := coherent_of_ofRaw hs
  refine ⟨fun hmem => ?_, lookup_mem⟩
  rw [hlists.names] at hmem
  have hget := List.mk_mem_zipIdx_iff_getElem?.1 hmem
  rw [List.getElem?_map] at hget
  obtain ⟨decl, hdecl, rfl⟩ := Option.map_eq_some_iff.1 hget
  exact Lower.lookup_decl hlists.names (valid_of_ofRaw hs).distinct hdecl

theorem mem_chosen {raw : RawSchema} {s : Schema} (hs : (ofRaw raw).value = .ok s) {config : GeneratorConfig}
    {requested : List String} {name : String} {id : TypeId} : (name, id) ∈ s.chosen config requested ↔
      s.table.lookup name = some id ∧ Asks s.table config requested name id := by
  unfold chosen Asks
  cases isOpen requested with
  | true =>
    simp only [if_true]
    rw [mem_taggedStructs, mem_names_iff hs]
  | false =>
    simp only [Bool.false_eq_true, if_false, List.mem_flatMap, mem_requestedType]
    constructor
    · rintro ⟨asked, hasked, rfl, hl, hnative, hroot⟩
      exact ⟨hl, hnative, hasked, hroot⟩
    · rintro ⟨hl, hnative, hasked, hroot⟩
      exact ⟨name, hasked, rfl, hl, hnative, hroot⟩

/-- **What is chosen is what the request asks for.** -/
theorem mem_select {raw : RawSchema} {s : Schema} (hs : (ofRaw raw).value = .ok s) {config : GeneratorConfig}
    {requested : List String} {name : String} {id : TypeId} : (name, id) ∈ (s.select config requested).value ↔
      s.table.lookup name = some id ∧ Asks s.table config requested name id := by
  have hsub : ∀ p ∈ (s.select config requested).value, p ∈ s.chosen config requested := by
    intro p hp
    rw [value_select] at hp
    exact List.mem_mergeSort.1 ((withoutRepeats_sublist _).subset hp)
  refine ⟨fun hp => (mem_chosen hs).1 (hsub _ hp), fun h => ?_⟩
  have hname : name ∈ (s.select config requested).value.map Prod.fst := by
    rw [value_select, mem_names_withoutRepeats]
    exact List.mem_map.2 ⟨_, List.mem_mergeSort.2 ((mem_chosen hs).2 h), rfl⟩
  obtain ⟨⟨name', id'⟩, hmem, rfl⟩ := List.mem_map.1 hname
  have hl := ((mem_chosen hs).1 (hsub _ hmem)).1
  rw [h.1] at hl
  cases hl
  exact hmem

end Schema
end BencodePlan
