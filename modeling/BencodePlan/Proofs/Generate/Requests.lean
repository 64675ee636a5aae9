import BencodePlan.Proofs.Generate.Isolation
import Mathlib
/-!
# What a request comes to

What is chosen is a matter of which names are asked for, not of their order or of repeats among them (`select_same`).  A
request by name warns of each name that is not declared and of each that is skipped because it stands for no struct, once and
of nothing else (`messages_select_perm`).
-/
namespace BencodePlan

theorem DiagnosticKind.message_injective (k : DiagnosticKind) {a b : String} (h : k.message (some a) = k.message (some b)) :
    a = b := by
  have hlists := congrArg String.toList h
  simp only [DiagnosticKind.message, String.toList_append, List.append_cancel_right_eq, List.append_cancel_left_eq] at hlists
  exact String.toList_inj.1 hlists

namespace Schema

open TypeTable Noted

theorem unknownRequest_injective : Function.Injective unknownRequest :=
  fun _ _ h => DiagnosticKind.message_injective .unknownRequestedType (congrArg Diagnostic.message h)

theorem noStructRequest_injective : Function.Injective noStructRequest :=
  fun _ _ h => DiagnosticKind.message_injective .nonStructRoot (congrArg Diagnostic.message h)

theorem unknownRequest_ne_noStructRequest (a b : String) : unknownRequest a ≠ noStructRequest b :=
  fun h => nomatch congrArg Diagnostic.kind h

/-! ## The names that are warned of -/

def isSkipped (t : TypeTable) (aliasRoots : Bool) (name : String) : Bool :=
  match t.lookup name with
  | none => false
  | some id => !t.isNative id && (!aliasRoots && !isStructBased t id)

def unknownNames (t : TypeTable) (requested : List String) : List String :=
  (requested.filter fun name => (t.lookup name).isNone).dedup

def skippedNames (t : TypeTable) (aliasRoots : Bool) (requested : List String) : List String :=
  (requested.filter (isSkipped t aliasRoots)).dedup

/-- **What a request by name warns of.** -/
def requestWarnings (t : TypeTable) (aliasRoots : Bool) (requested : List String) : List Diagnostic :=
  (unknownNames t requested).map unknownRequest ++ (skippedNames t aliasRoots requested).map noStructRequest

section

variable {t : TypeTable} {aliasRoots : Bool} {requested : List String}

theorem requestWarnings_nodup : (requestWarnings t aliasRoots requested).Nodup := by
  refine List.Nodup.append ((List.nodup_dedup _).map unknownRequest_injective)
    ((List.nodup_dedup _).map noStructRequest_injective) fun d hd hd' => ?_
  obtain ⟨a, -, rfl⟩ := List.mem_map.1 hd
  obtain ⟨b, -, hb⟩ := List.mem_map.1 hd'
  exact unknownRequest_ne_noStructRequest a b hb.symm

theorem mem_requestWarnings {d : Diagnostic} :
    d ∈ requestWarnings t aliasRoots requested ↔ ∃ name ∈ requested, d ∈ (requestedType t aliasRoots name).reports := by
  unfold requestWarnings unknownNames skippedNames
  simp only [List.mem_append, List.mem_map, List.mem_dedup, List.mem_filter, reports_requestedType, isSkipped]
  constructor
  · rintro (⟨name, ⟨hname, hnone⟩, rfl⟩ | ⟨name, ⟨hname, hskip⟩, rfl⟩)
    · refine ⟨name, hname, ?_⟩
      rw [Option.isNone_iff_eq_none.1 hnone]
      exact List.mem_singleton.2 rfl
    · refine ⟨name, hname, ?_⟩
      cases hl : t.lookup name with
      | none =>
        rw [hl] at hskip
        cases hskip
      | some id =>
        rw [hl] at hskip
        simp only at hskip ⊢
        rw [if_pos hskip]
        exact List.mem_singleton.2 rfl
  · rintro ⟨name, hname, hd⟩
    cases hl : t.lookup name with
    | none =>
      rw [hl] at hd
      exact Or.inl ⟨name, ⟨hname, by rw [hl]; rfl⟩, (List.mem_singleton.1 hd).symm⟩
    | some id =>
      rw [hl] at hd
      simp only at hd
      split at hd
      · rename_i hskip
        exact Or.inr ⟨name, ⟨hname, by rw [hl]; exact hskip⟩, (List.mem_singleton.1 hd).symm⟩
      · cases hd

end

/-! ## What is chosen, and what is told of it -/

variable {raw : RawSchema} {s : Schema}

theorem isOpen_iff {requested : List String} : isOpen requested = true ↔ requested = [] ∨ selectAll ∈ requested := by
  unfold isOpen
  rw [Bool.or_eq_true, List.isEmpty_iff, List.contains_iff_mem]

theorem asks_congr {t : TypeTable} {config : GeneratorConfig} {requested requested' : List String}
    (h : ∀ name, name ∈ requested' ↔ name ∈ requested) (name : String) (id : TypeId) :
    Asks t config requested' name id ↔ Asks t config requested name id := by
  have hempty : requested' = [] ↔ requested = [] := by
    simp only [List.eq_nil_iff_forall_not_mem, h]
  have hopen : isOpen requested' = true ↔ isOpen requested = true := by
    rw [isOpen_iff, isOpen_iff, hempty, h]
  unfold Asks
  simp only [hopen, h]

/-- **Only which names are asked for matters.** -/
theorem select_same (hs : (ofRaw raw).value = .ok s) (config : GeneratorConfig) {requested requested' : List String}
    (h : ∀ name, name ∈ requested' ↔ name ∈ requested) :
    (s.select config requested').value = (s.select config requested).value := by
  have hirrefl : Std.Irrefl fun a b : String × TypeId => a.1 < b.1 := ⟨fun a => String.lt_irrefl a.1⟩
  have hasymm : Std.Antisymm fun a b : String × TypeId => a.1 < b.1 :=
    ⟨fun a b hab hba => absurd hba (String.lt_asymm hab)⟩
  refine List.Pairwise.eq_of_mem_iff (select_ascends s config requested') (select_ascends s config requested) ?_
  rintro ⟨name, id⟩
  rw [mem_select hs, mem_select hs, asks_congr h]

/-- **A request by name adds one warning for each name that calls for one**, unless it is there already. -/
theorem messages_select_perm (s : Schema) (config : GeneratorConfig) {requested : List String}
    (hnamed : isOpen requested = false) (ds : Diagnostics) : ∃ added,
      (ds.addAll (s.select config requested).reports).messages = ds.messages ++ added ∧
      added.Perm ((requestWarnings s.table config.aliasRoots requested).filter (· ∉ ds.messages)) := by
  have hreports : (s.select config requested).reports =
      requested.flatMap fun name => (requestedType s.table config.aliasRoots name).reports := by
    unfold select
    unfold isOpen at hnamed
    simp only [hnamed, Bool.false_eq_true, if_false]
    rw [reports_bind, reports_bind, reports_mapM]
    exact List.append_nil _
  obtain ⟨added, hadded, hnodup, hmem⟩ := Diagnostics.messages_addAll (s.select config requested).reports ds
  refine ⟨added, hadded, (List.perm_ext_iff_of_nodup hnodup (requestWarnings_nodup.filter _)).2 fun d => ?_⟩
  rw [hmem, hreports, List.mem_flatMap, List.mem_filter, mem_requestWarnings, decide_eq_true_iff]

/-- **What a request comes to.**  The types that are chosen stand in strictly ascending order and are those that are asked
for, whatever the order of the names and the repeats among them; and a request by name warns of each name that is not
declared and of each that is skipped as it stands for no struct, once and of nothing else. -/
theorem select_exactly (hs : (ofRaw raw).value = .ok s) (config : GeneratorConfig) (requested : List String) :
    let chosen := (s.select config requested).value
    (chosen.map Prod.fst).Pairwise (· < ·) ∧
    (∀ name id, (name, id) ∈ chosen ↔ s.table.lookup name = some id ∧ s.table.isNative id = false ∧
      if requested = [] ∨ selectAll ∈ requested then
        isStructBased s.table id = true ∧ ∃ f ∈ (Field.collect s.table name id).value, f.tag.isSome = true
      else name ∈ requested ∧ (config.aliasRoots = true ∨ isStructBased s.table id = true)) ∧
    (∀ requested' : List String, (∀ name, name ∈ requested' ↔ name ∈ requested) →
      (s.select config requested').value = chosen) ∧
    (¬ (requested = [] ∨ selectAll ∈ requested) → ∀ ds : Diagnostics, ∃ added,
      (ds.addAll (s.select config requested).reports).messages = ds.messages ++ added ∧
      added.Perm (((unknownNames s.table requested).map unknownRequest ++
        (skippedNames s.table config.aliasRoots requested).map noStructRequest).filter (· ∉ ds.messages))) := by
  refine ⟨names_select_ascend s config requested, fun name id => ?_, fun requested' h => select_same hs config h,
    fun hnamed ds => ?_⟩
  · have htagged : s.table.IsTagged id ↔ ∃ f ∈ (Field.collect s.table name id).value, f.tag.isSome = true := by
      rw [← value_hasTagged s.table name, Field.hasTagged, value_bind]
      exact List.any_eq_true
    rw [mem_select hs, Asks, htagged]
    simp only [isOpen_iff]
  · exact messages_select_perm s config (Bool.eq_false_iff.2 fun h => hnamed (isOpen_iff.1 h)) ds

def rootsDocument : RawSchema :=
  ⟨none, [⟨"A", some [⟨"X", "i64", some "x", false⟩], none, false⟩, ⟨"L", none, some "Vec<A>", false⟩, ⟨"N", none, none, true⟩]⟩

def rootsTable : TypeTable :=
  ⟨[.named ⟨"A", some 4⟩, .named ⟨"L", some 5⟩, .native ⟨"N", none⟩, .scalar (.int .i64), .struct [⟨"X", 3, some "x", false⟩],
      .sequence 0 .slice],
    [(.scalar (.int .i64), 3), (.struct [⟨"X", 3, some "x", false⟩], 4), (.sequence 0 .slice, 5)],
    [("A", 0), ("L", 1), ("N", 2)]⟩

def roots : Schema := ⟨none, rootsTable⟩

def rootsRequest : List String := ["L", "G", "A", "N", "L", "G", "A"]

/-- One type is chosen, one name is unknown and one is no struct; the native type is passed over in silence. -/
theorem roots_exactly : (ofRaw rootsDocument).value = .ok roots ∧
    ("A", 0) ∈ (roots.select ⟨true, false⟩ rootsRequest).value ∧ ("L", 1) ∈ (roots.select ⟨true, true⟩ rootsRequest).value ∧
    ("A", 0) ∈ (roots.select ⟨true, false⟩ ["A", selectAll]).value ∧
    (roots.select ⟨true, false⟩ ["N", "A", "L", "G"]).value = (roots.select ⟨true, false⟩ rootsRequest).value ∧
    ∃ added, (roots.select ⟨true, false⟩ rootsRequest).diagnostics.messages = added ∧
      added.Perm [unknownRequest "G", noStructRequest "L"] := by
  have hs : (ofRaw rootsDocument).value = .ok roots := ofRaw_eq_ok (by decide +kernel)
  obtain ⟨-, hchosen, hsame, hwarned⟩ := select_exactly hs ⟨true, false⟩ rootsRequest
  obtain ⟨-, haliases, -⟩ := select_exactly hs ⟨true, true⟩ rootsRequest
  obtain ⟨-, hopen, -⟩ := select_exactly hs ⟨true, false⟩ ["A", selectAll]
  obtain ⟨added, hadded, hperm⟩ := hwarned (by decide) Diagnostics.empty
  have hwarnings : ((unknownNames roots.table rootsRequest).map unknownRequest ++
      (skippedNames roots.table false rootsRequest).map noStructRequest).filter (· ∉ Diagnostics.empty.messages) =
        [unknownRequest "G", noStructRequest "L"] := by
    decide +kernel
  refine ⟨hs, (hchosen _ _).2 ⟨rfl, rfl, ?_⟩, (haliases _ _).2 ⟨rfl, rfl, ?_⟩, (hopen _ _).2 ⟨rfl, rfl, ?_⟩,
    hsame ["N", "A", "L", "G"] fun name => ?_, added, hadded, hwarnings ▸ hperm⟩
  · rw [if_neg (by decide)]
    decide
  · rw [if_neg (by decide)]
    decide
  · rw [if_pos (by decide)]
    decide +kernel
  · simp only [rootsRequest, List.mem_cons, List.not_mem_nil, or_false]
    tauto

end Schema
end BencodePlan
