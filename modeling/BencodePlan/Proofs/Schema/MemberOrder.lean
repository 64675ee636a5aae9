import BencodePlan.Proofs.Member.Embedding
import BencodePlan.Proofs.Member.Shuffled
import BencodePlan.Proofs.Schema.Permuted
import BencodePlan.Proofs.Schema.Display
/-!
# Members may come in any order

Documents that differ in the order of the members of their structs have the same declared types, but bodies that are one in
the one table may be two in the other, and structural types are met in another order.  `Resembles` relates the types of the
two tables all the same: those with one expression, and struct bodies with the same members in some order.  It is a
likeness (`likeness_of_rearranged`), since what has an expression has one number.

An orderly type is then written alike in both, or fails for the same reason (`compile_rearranged`).
-/
namespace BencodePlan

/-- **The same declaration with its members in another order.** -/
structure RawDecl.Rearranged (decl decl' : RawDecl) : Prop where
  name : decl.name = decl'.name
  fields : Option.Rel List.Perm decl.fields decl'.fields
  body : decl.body = decl'.body
  native : decl.native = decl'.native

theorem RawDecl.Rearranged.entry_eq {decl decl' : RawDecl} (h : decl.Rearranged decl') (body : Option TypeId) :
    decl.entry body = decl'.entry body := by
  unfold RawDecl.entry
  rw [h.name, h.native]

namespace TypeTable

/-- **The same type, but for the order of members.** -/
def Resembles (t t' : TypeTable) (a b : TypeId) : Prop :=
  SameType t t' a b ∨ ∃ ms ms₁ ms', t.get? a = some (.struct ms) ∧ t'.get? b = some (.struct ms') ∧ ms.Perm ms₁ ∧
    List.Forall₂ (MemberAlike (SameType t t')) ms₁ ms'

variable {t t' : TypeTable} {decls decls' : List RawDecl} {a b : TypeId}

theorem Same.resembles (h : Same t t' a b) : Resembles t t' a b := by
  rcases h with h | ⟨ms, ms', hget, hget', hms⟩
  · exact Or.inl h
  · exact Or.inr ⟨ms, ms, ms', hget, hget', .refl ms, hms⟩

/-! ## Descriptors -/

theorem BodyMeans.resembles {decl decl' : RawDecl} {body body' : Option TypeId} (h : t.BodyMeans decl body)
    (hdecl : decl.Rearranged decl') (h' : t'.BodyMeans decl' body') : Option.Rel (Resembles t t') body body' := by
  have hfields := hdecl.fields
  unfold BodyMeans at h h'
  rw [hdecl.body] at h
  generalize decl.fields = fields, decl'.fields = fields' at hfields h h'
  cases hfields with
  | some hperm =>
    obtain ⟨id, ms, rfl, hget, hms⟩ := h
    obtain ⟨id', ms', rfl, hget', hms'⟩ := h'
    -- the members of the first body in the order of the second
    obtain ⟨ms₁, hms₁, hperm'⟩ := List.perm_comp_forall₂ hperm.symm hms
    have halike := forall₂_of_common (fun _ _ _ hm hm' => hm.alike hm') hms₁ hms'
    exact .some (Or.inr ⟨ms, ms₁, ms', hget, hget', hperm'.symm, halike⟩)
  | none =>
    cases hbody : decl'.body with
    | some source =>
      rw [hbody] at h h'
      obtain ⟨id, e, rfl, hparse, hden⟩ := h
      obtain ⟨id', e', rfl, hparse', hden'⟩ := h'
      cases hparse.symm.trans hparse'
      exact .some (Or.inl ⟨e, hden, hden'⟩)
    | none =>
      rw [hbody] at h h'
      rw [h, h']
      exact .none

theorem Lists.names_eq (hlists : t.Lists decls) (hlists' : t'.Lists decls')
    (hdecls : List.Forall₂ RawDecl.Rearranged decls decls') : t.names = t'.names := by
  rw [hlists.names, hlists'.names, map_eq_map_iff_forall₂.2 (hdecls.imp fun _ _ h => h.name)]

theorem exists_getElem?_of_forall₂ {α β : Type} {R : α → β → Prop} : ∀ {l : List α} {l' : List β}, List.Forall₂ R l l' →
    ∀ {i : Nat} {a : α}, l[i]? = some a → ∃ b, l'[i]? = some b ∧ R a b
  | _ :: _, _ :: _, .cons hab _, 0, _, rfl => ⟨_, rfl, hab⟩
  | _ :: _, _ :: _, .cons _ h, _ + 1, _, ha => exists_getElem?_of_forall₂ h ha

/-- **Types that resemble each other are described alike**, but for the order of members. -/
theorem Resembles.describes (hlists : t.Lists decls) (hlists' : t'.Lists decls')
    (hdecls : List.Forall₂ RawDecl.Rearranged decls decls') (h : Resembles t t' a b) :
    ∃ d d₁ d', t.get? a = some d ∧ t'.get? b = some d' ∧ d.Shuffles d₁ ∧ DescAlike (Resembles t t') d₁ d' := by
  rcases h with h | ⟨ms, ms₁, ms', hget, hget', hperm, hms⟩
  · rcases h.describes with ⟨d, d', hget, hget', halike⟩ | ⟨name, hl, hl'⟩
    · exact ⟨d, d, d', hget, hget', .same d, halike.mono fun _ _ => Or.inl⟩
    · unfold lookup at hl hl'
      rw [hlists.names_eq hlists' hdecls, hl'] at hl
      cases hl
      obtain ⟨decl', hdecl', -⟩ := Lower.exists_decl_of_lookup hlists'.names hl'
      obtain ⟨decl, hdecl, hrearranged⟩ := exists_getElem?_of_forall₂ hdecls.flip hdecl'
      obtain ⟨body, hget, hmeans⟩ := hlists.defined hdecl
      obtain ⟨body', hget', hmeans'⟩ := hlists'.defined hdecl'
      refine ⟨_, _, _, hget, hget', .same _, ?_⟩
      rw [hrearranged.entry_eq]
      exact descAlike_entry decl' (hmeans.resembles hrearranged hmeans')
  · exact ⟨_, _, _, hget, hget', .struct hperm, .struct (hms.imp fun _ _ hm => hm.mono fun _ _ => Or.inl)⟩

/-! ## Numbers -/

/-- **What has an expression has one number.** -/
theorem SameType.left (h : t.Coherent) (h' : t'.Formed) {a' : TypeId} (hab : SameType t t' a b)
    (hab' : SameType t t' a' b) : a = a' := by
  obtain ⟨e, hden, hden'⟩ := hab
  obtain ⟨f, hf, hf'⟩ := hab'
  refine hden.unique h ?_
  rw [← denotes_bare, hden'.bare_eq h' hf', denotes_bare]
  exact hf

theorem Resembles.sameType (h : Resembles t t' a b) (hnot : t.isStruct a = false ∨ t'.isStruct b = false) :
    SameType t t' a b := by
  rcases h with h | ⟨ms, ms₁, ms', hget, hget', -⟩
  · exact h
  · rw [(isStruct_iff _ _).2 ⟨ms, hget⟩, (isStruct_iff _ _).2 ⟨ms', hget'⟩] at hnot
    rcases hnot with hnot | hnot <;> cases hnot

/-! ## Texts -/

theorem SameType.displayFrom_eq (h : t.Formed) (h' : t'.Formed) (hab : SameType t t' a b) {opened opened' : List TypeId}
    (hopened : ∀ o ∈ opened, a < o) (hopened' : ∀ o ∈ opened', b < o) :
    t.displayFrom opened a = t'.displayFrom opened' b := by
  obtain ⟨e, hden, hden'⟩ := hab
  rw [← String.toList_inj, displayFrom_of_denotes h hden opened hopened, displayFrom_of_denotes h' hden' opened' hopened']

/-- **The same types are shown alike.** -/
theorem Same.display_eq (h : t.Formed) (h' : t'.Formed) (hab : Same t t' a b) : t.display a = t'.display b := by
  rcases hab with hab | ⟨ms, ms', hget, hget', hms⟩
  · exact hab.displayFrom_eq h h' (List.forall_mem_nil _) (List.forall_mem_nil _)
  · refine displayFrom_struct_eq hget hget' List.not_mem_nil List.not_mem_nil ?_
    have hmember : ∀ m ∈ ms, ∀ m' ∈ ms', MemberAlike (SameType t t') m m' → m.name = m'.name ∧
        t.displayFrom [a] m.type = t'.displayFrom [b] m'.type := by
      intro m hm m' hm' halike
      have hlt := h.part_lt hget (List.mem_map_of_mem hm)
      have hlt' := h'.part_lt hget' (List.mem_map_of_mem hm')
      exact ⟨halike.name, halike.type.displayFrom_eq h h' (List.forall_mem_singleton.2 hlt)
        (List.forall_mem_singleton.2 hlt')⟩
    refine List.forall₂_iff_zip.2 ⟨hms.length_eq, fun {m m'} hmm' => ?_⟩
    obtain ⟨hm, hm'⟩ := List.of_mem_zip hmm'
    exact hmember m hm m' hm' (List.forall₂_zip hms hmm')

end TypeTable

namespace Schema

open TypeTable Compile

variable {raw raw' : RawSchema} {s s' : Schema}

/-- **Documents that differ in the order of members have tables that are alike.** -/
theorem likeness_of_rearranged (hs : (ofRaw raw).value = .ok s) (hs' : (ofRaw raw').value = .ok s')
    (hdecls : List.Forall₂ RawDecl.Rearranged raw.types raw'.types) :
    s.table.Likeness s'.table (Resembles s.table s'.table) := by
  obtain ⟨hcoh, hlists⟩ := coherent_of_ofRaw hs
  obtain ⟨hcoh', hlists'⟩ := coherent_of_ofRaw hs'
  refine ⟨fun h => h.describes hlists hlists' hdecls, fun hab hab' hnot => ?_, fun hab hab' hnot => ?_⟩
  · obtain ⟨e, hden, hden'⟩ := hab.sameType (.inl hnot)
    have hsame := hab'.sameType (.inr (hden'.isPart hcoh'.toFormed).2)
    exact SameType.left hcoh hcoh'.toFormed ⟨e, hden, hden'⟩ hsame
  · exact (hab.sameType (.inl hnot)).symm.left hcoh' hcoh.toFormed (hab'.sameType (.inl hnot)).symm

/-- **Members may come in any order.**  A declared type has the same number in both tables, and types that are the same come
to the same plan or fail for the same reason, if no struct in them embeds itself or has two fields of one name. -/
theorem compile_rearranged (hs : (ofRaw raw).value = .ok s) (hs' : (ofRaw raw').value = .ok s')
    (hdecls : List.Forall₂ RawDecl.Rearranged raw.types raw'.types) :
    (∀ name id, s.table.lookup name = some id → s'.table.lookup name = some id ∧ Same s.table s'.table id id) ∧
    ∀ id id', Same s.table s'.table id id' → s.table.Orderly id →
      ∀ name, result (s.table.compile name id) = result (s'.table.compile name id') := by
  have hsound := sound_of_ofRaw hs
  have hsound' := sound_of_ofRaw hs'
  refine ⟨fun name id hl => ?_, fun id id' hsame horderly name => ?_⟩
  · have hl' : s'.table.lookup name = some id := by
      rw [← hl]
      unfold TypeTable.lookup
      rw [(coherent_of_ofRaw hs).2.names_eq (coherent_of_ofRaw hs').2 hdecls]
    exact ⟨hl', Or.inl ⟨.named name ⟨0, 0⟩, .named hl, .named hl'⟩⟩
  · have hsimulates : s.table.Simulates s'.table (Resembles s.table s'.table) s.table.Orderly :=
      (likeness_of_rearranged hs hs' hdecls).simulates hsound hsound' fun hab hnot =>
        (hab.sameType (.inl hnot)).displayFrom_eq hsound.toFormed hsound'.toFormed (List.forall_mem_nil _)
          (List.forall_mem_nil _)
    exact hsimulates.result_compile_eq hsame.resembles horderly
      (hsame.display_eq hsound.toFormed hsound'.toFormed) name

def turnedDocument : RawSchema :=
  ⟨none, [⟨"Stamp", some [⟨"Id", "i64", some "n", false⟩, ⟨"Scores", "Map<str, i64>", none, false⟩], none, false⟩,
    ⟨"Entry", some [⟨"Name", "str", none, false⟩, ⟨"Stamp", "Stamp", none, true⟩], none, false⟩,
    ⟨"Row", some [⟨"Name", "str", none, false⟩, ⟨"Id", "i64", some "n", false⟩,
      ⟨"Scores", "Map<str, i64>", none, false⟩], none, false⟩]⟩

def turnedTable : TypeTable :=
  let stamp : TypeDesc := .struct [⟨"Id", 3, some "n", false⟩, ⟨"Scores", 5, none, false⟩]
  let entry : TypeDesc := .struct [⟨"Name", 4, none, false⟩, ⟨"Stamp", 0, none, true⟩]
  let row : TypeDesc := .struct [⟨"Name", 4, none, false⟩, ⟨"Id", 3, some "n", false⟩, ⟨"Scores", 5, none, false⟩]
  ⟨[.named ⟨"Stamp", some 6⟩, .named ⟨"Entry", some 7⟩, .named ⟨"Row", some 8⟩, .scalar (.int .i64), .scalar .str,
      .mapping 4 3, stamp, entry, row],
    [(.scalar (.int .i64), 3), (.scalar .str, 4), (.mapping 4 3, 5), (stamp, 6), (entry, 7), (row, 8)],
    [("Stamp", 0), ("Entry", 1), ("Row", 2)]⟩

theorem orderly_entryTable (id : TypeId) : entryTable.Orderly id := by
  refine orderly_of_lt (by decide +kernel) (fun a b hembeds => ?_) id
  obtain ⟨ms, m, hget, hm, hembedded, rfl, -⟩ := hembeds
  have ha : a < 9 := get?_lt hget
  interval_cases a <;> cases hget
  all_goals
    revert hembedded
    revert m
    decide

theorem plan_of_turned_entry : (ofRaw turnedDocument).value = .ok ⟨none, turnedTable⟩ ∧
    Same entryTable turnedTable 1 1 ∧
    result (turnedTable.compile "Entry" 1) = .ok ⟨"Entry", entryInstructions (.field (.field .root "Stamp") "Id")
      (.field .root "Name") (.field (.field .root "Stamp") "Scores")⟩ := by
  have hs : (ofRaw entryDocument).value = .ok ⟨none, entryTable⟩ := ofRaw_eq_ok (by decide +kernel)
  have hs' : (ofRaw turnedDocument).value = .ok ⟨none, turnedTable⟩ := ofRaw_eq_ok (by decide +kernel)
  have hdecls : List.Forall₂ RawDecl.Rearranged entryDocument.types turnedDocument.types :=
    .cons ⟨rfl, .some (.swap _ _ _), rfl, rfl⟩ (.cons ⟨rfl, .some (.swap _ _ _), rfl, rfl⟩
      (.cons ⟨rfl, .some (.refl _), rfl, rfl⟩ .nil))
  have hp : result (entryTable.compile "Entry" 1) = .ok ⟨"Entry", entryInstructions (.field (.field .root "Stamp") "Id")
      (.field .root "Name") (.field (.field .root "Stamp") "Scores")⟩ := by cbv
  obtain ⟨hdeclared, hplans⟩ := compile_rearranged hs hs' hdecls
  obtain ⟨-, hsame⟩ := hdeclared "Entry" 1 rfl
  exact ⟨hs', hsame, (hplans 1 1 hsame (orderly_entryTable 1) "Entry").symm.trans hp⟩

end Schema
end BencodePlan
