import BencodePlan.Proofs.Types.Sound
import BencodePlan.Proofs.Types.Reading
/-!
# What expressions stand for in a table

`Denotes` gives a type expression its meaning in a table, without the lowering: the scalar that it names, the reference
to what its inner expression stands for, the declared type under its name.  Meanings stay when a table develops.

A `Coherent` table holds each structural type once, where its descriptor is looked up, and each of them but struct bodies
is what some expression stands for.  Entering a structural type and giving a declared type its body keep a table
coherent.
-/
namespace BencodePlan
namespace TypeExpr

def mentions : TypeExpr → List String
  | .scalar _ | .duration => []
  | .option e | .vec e | .array e _ => e.mentions
  | .map k v => k.mentions ++ v.mentions
  | .named name _ => [name]

end TypeExpr

namespace TypeTable

/-- **What an expression stands for.** -/
inductive Denotes (t : TypeTable) : TypeExpr → TypeId → Prop
  | scalar {kind : ScalarKind} {id : TypeId} : t.get? id = some (.scalar kind) → Denotes t (.scalar kind) id
  | duration {id : TypeId} : t.get? id = some .duration → Denotes t .duration id
  | option {e : TypeExpr} {a id : TypeId} : Denotes t e a → t.get? id = some (.pointer a) → Denotes t (.option e) id
  | vec {e : TypeExpr} {a id : TypeId} : Denotes t e a → t.get? id = some (.sequence a .slice) → Denotes t (.vec e) id
  | array {e : TypeExpr} {n : Nat} {a id : TypeId} : Denotes t e a → t.get? id = some (.sequence a (.array n)) →
      Denotes t (.array e n) id
  | map {k v : TypeExpr} {a b id : TypeId} : Denotes t k a → Denotes t v b → t.get? id = some (.mapping a b) →
      Denotes t (.map k v) id
  | named {name : String} {span : Span} {id : TypeId} : t.lookup name = some id → Denotes t (.named name span) id

/-- **A table with more structural types**: what was there is as it was. -/
structure Extends (t t' : TypeTable) : Prop extends Develops t t' where
  kept : ∀ {id d}, t.get? id = some d → t'.get? id = some d

/-- **A table that holds each structural type once**, each with an expression for it. -/
structure Coherent (t : TypeTable) : Prop extends Formed t where
  found : ∀ {id d}, t.get? id = some d → d.isDeclared = false → t.interned.lookup d = some id
  written : ∀ {id d}, t.get? id = some d → d.isDeclared = false → t.isStruct id = false →
    ∃ e : TypeExpr, e.Admissible ∧ t.Denotes e id

namespace Extends

theorem refl (t : TypeTable) : t.Extends t := ⟨Develops.refl t, id⟩

theorem trans {t t' t'' : TypeTable} (h : t.Extends t') (h' : t'.Extends t'') : t.Extends t'' :=
  ⟨h.toDevelops.trans h'.toDevelops, fun hd => h'.kept (h.kept hd)⟩

end Extends

/-! ## Meanings -/

/-- **Meanings stay** when a table develops. -/
theorem Denotes.develops {t t' : TypeTable} (h : t.Develops t') {e : TypeExpr} {id : TypeId} (hden : t.Denotes e id) :
    t'.Denotes e id := by
  induction hden with
  | scalar hget => exact .scalar (h.structural hget rfl)
  | duration hget => exact .duration (h.structural hget rfl)
  | option _ hget ih => exact .option ih (h.structural hget rfl)
  | vec _ hget ih => exact .vec ih (h.structural hget rfl)
  | array _ hget ih => exact .array ih (h.structural hget rfl)
  | map _ _ hget ihk ihv => exact .map ihk ihv (h.structural hget rfl)
  | named hl => exact .named (by rw [h.lookup, hl])

theorem denotes_bare {t : TypeTable} {e : TypeExpr} {id : TypeId} : t.Denotes e.bare id ↔ t.Denotes e id := by
  constructor
  · intro h
    induction e generalizing id with
    | scalar kind => exact h
    | duration => exact h
    | option e ih => cases h with | option ha hget => exact .option (ih ha) hget
    | vec e ih => cases h with | vec ha hget => exact .vec (ih ha) hget
    | array e n ih => cases h with | array ha hget => exact .array (ih ha) hget
    | map k v ihk ihv => cases h with | map hk hv hget => exact .map (ihk hk) (ihv hv) hget
    | named name span => cases h with | named hl => exact .named hl
  · intro h
    induction h with
    | scalar hget => exact .scalar hget
    | duration hget => exact .duration hget
    | option _ hget ih => exact .option ih hget
    | vec _ hget ih => exact .vec ih hget
    | array _ hget ih => exact .array ih hget
    | map _ _ hget ihk ihv => exact .map ihk ihv hget
    | named hl => exact .named hl

theorem Denotes.isPart {t : TypeTable} (h : t.Formed) {e : TypeExpr} {id : TypeId} (hden : t.Denotes e id) :
    id < t.size ∧ t.isStruct id = false := by
  have hget {d : TypeDesc} (hd : t.get? id = some d) (hs : ∀ ms, d ≠ .struct ms) :
      id < t.size ∧ t.isStruct id = false := by
    refine ⟨get?_lt hd, Bool.eq_false_iff.2 fun hstruct => ?_⟩
    obtain ⟨ms, hms⟩ := (isStruct_iff _ _).1 hstruct
    rw [hd] at hms
    exact hs ms (Option.some.inj hms)
  cases hden with
  | scalar hd | duration hd | option _ hd | vec _ hd | array _ hd | map _ _ hd => exact hget hd fun _ hne => nomatch hne
  | named hl =>
    obtain ⟨d, hd, -⟩ := h.names (lookup_mem hl)
    exact ⟨lt_of_declared? hd, isStruct_of_declared? hd⟩

/-- **The descriptor of a type gives the form of each expression for it.** -/
theorem Denotes.form {t : TypeTable} (h : t.Formed) {e : TypeExpr} {id : TypeId} (hden : t.Denotes e id) {d : TypeDesc}
    (hd : t.get? id = some d) :
    match d with
    | .scalar kind => e = .scalar kind
    | .duration => e = .duration
    | .pointer a => ∃ e', e = .option e' ∧ t.Denotes e' a
    | .sequence a .slice => ∃ e', e = .vec e' ∧ t.Denotes e' a
    | .sequence a (.array n) => ∃ e', e = .array e' n ∧ t.Denotes e' a
    | .mapping a b => ∃ k v, e = .map k v ∧ t.Denotes k a ∧ t.Denotes v b
    | .named entry | .native entry => ∃ span, e = .named entry.name span
    | .struct _ => False := by
  cases hden with
  | scalar hget | duration hget =>
    cases hget.symm.trans hd
    rfl
  | option ha hget | vec ha hget | array ha hget =>
    cases hget.symm.trans hd
    exact ⟨_, rfl, ha⟩
  | map hk hv hget =>
    cases hget.symm.trans hd
    exact ⟨_, _, rfl, hk, hv⟩
  | named hl =>
    obtain ⟨entry, hentry, rfl⟩ := h.names (lookup_mem hl)
    rcases get?_of_declared? hentry with hget | hget
    all_goals
      cases hget.symm.trans hd
      exact ⟨_, rfl⟩

/-- **A type has one expression**, but for the places of names in a text. -/
theorem Denotes.bare_eq {t : TypeTable} (h : t.Formed) {e e' : TypeExpr} {id : TypeId} (hden : t.Denotes e id)
    (hden' : t.Denotes e' id) : e.bare = e'.bare := by
  induction hden generalizing e' with
  | scalar hget | duration hget =>
    obtain rfl := hden'.form h hget
    rfl
  | option _ hget ih | vec _ hget ih | array _ hget ih =>
    obtain ⟨f, rfl, hf⟩ := hden'.form h hget
    rw [TypeExpr.bare, TypeExpr.bare, ih hf]
  | map _ _ hget ihk ihv =>
    obtain ⟨k, v, rfl, hk, hv⟩ := hden'.form h hget
    rw [TypeExpr.bare, TypeExpr.bare, ihk hk, ihv hv]
  | named hl =>
    obtain ⟨entry, hentry, rfl⟩ := h.names (lookup_mem hl)
    rcases get?_of_declared? hentry with hget | hget
    all_goals
      obtain ⟨span, rfl⟩ := hden'.form h hget
      rfl

/-! ## Coherent tables -/

/-- **A structural type occurs once.** -/
theorem Coherent.eq_of_get? {t : TypeTable} (h : t.Coherent) {i j : TypeId} {d : TypeDesc} (hi : t.get? i = some d)
    (hj : t.get? j = some d) (hd : d.isDeclared = false) : i = j := by
  have hfound := h.found hi hd
  rw [h.found hj hd] at hfound
  exact (Option.some.inj hfound).symm

/-- **An expression stands for one type.** -/
theorem Denotes.unique {t : TypeTable} (h : t.Coherent) {e : TypeExpr} {i j : TypeId} (hi : t.Denotes e i)
    (hj : t.Denotes e j) : i = j := by
  induction hi generalizing j with
  | scalar hget => cases hj with | scalar hget' => exact h.eq_of_get? hget hget' rfl
  | duration hget => cases hj with | duration hget' => exact h.eq_of_get? hget hget' rfl
  | option _ hget ih =>
    cases hj with
    | option ha hget' => exact h.eq_of_get? hget (ih ha ▸ hget') rfl
  | vec _ hget ih =>
    cases hj with
    | vec ha hget' => exact h.eq_of_get? hget (ih ha ▸ hget') rfl
  | array _ hget ih =>
    cases hj with
    | array ha hget' => exact h.eq_of_get? hget (ih ha ▸ hget') rfl
  | map _ _ hget ihk ihv =>
    cases hj with
    | map hk hv hget' => exact h.eq_of_get? hget (ihk hk ▸ ihv hv ▸ hget') rfl
  | named hl => cases hj with | named hl' => exact Option.some.inj (hl.symm.trans hl')

/-- **A structural type may be entered**, if it is a struct body or what some expression stands for. -/
theorem Coherent.intern {t : TypeTable} (h : t.Coherent) {d : TypeDesc} (hd : d.isDeclared = false)
    (hparts : ∀ c ∈ d.parts, c < t.size ∧ t.isStruct c = false)
    (hwritten : (∃ ms, d = .struct ms) ∨
      ∃ e : TypeExpr, e.Admissible ∧ ∀ {t'}, t.Develops t' → ∀ {id}, t'.get? id = some d → t'.Denotes e id) :
    (t.intern d).2.Coherent ∧ t.Extends (t.intern d).2 ∧ (t.intern d).2.get? (t.intern d).1 = some d := by
  have hformed := h.toFormed.intern hd hparts
  have hdev := develops_intern t hd
  have hget := h.toFormed.get?_intern_self d
  refine ⟨⟨hformed, fun {id e} he hnot => ?_, fun {id e} he hnot hs => ?_⟩, ⟨hdev, kept_intern t d⟩, hget⟩
  · cases hl : t.interned.lookup d with
    | some i =>
      rw [intern_of_found hl] at he ⊢
      exact h.found he hnot
    | none =>
      rw [intern_of_new hl, List.lookup_append]
      obtain he | ⟨-, rfl, rfl⟩ := get?_intern.1 he
      · rw [h.found he hnot]
        rfl
      · rw [hl, List.lookup_cons_self]
        rfl
  · have he' := he
    obtain he | ⟨-, -, rfl⟩ := get?_intern.1 he
    · obtain ⟨e', hadm, hden⟩ := h.written he hnot (by rw [← hdev.isStruct (get?_lt he)]; exact hs)
      exact ⟨e', hadm, hden.develops hdev⟩
    · rcases hwritten with ⟨ms, rfl⟩ | ⟨e', hadm, hden⟩
      · rw [(isStruct_iff _ _).2 ⟨ms, he'⟩] at hs
        cases hs
      · exact ⟨e', hadm, hden hdev he'⟩

/-- **A declared type may be given a body.** -/
theorem Coherent.define {t : TypeTable} (h : t.Coherent) {id body : TypeId} {d : TypeDesc} (hget : t.get? id = some d)
    (hd : d.isDeclared = true) (hbody : body < t.size) :
    (t.define id body).2.Coherent ∧ t.Develops (t.define id body).2 := by
  have hdev := develops_define hget hd body
  have hold {i : TypeId} {c : TypeDesc} (hc : (t.define id body).2.get? i = some c) (hnot : c.isDeclared = false) :
      t.get? i = some c := by
    rw [get?_define hget hd] at hc
    split at hc
    · cases hc
      rw [TypeDesc.isDeclared_withBody, hd] at hnot
      cases hnot
    · exact hc
  refine ⟨⟨h.toFormed.define hget hd hbody, fun hc hnot => ?_, fun hc hnot hs => ?_⟩, hdev⟩
  · rw [interned_define]
    exact h.found (hold hc hnot) hnot
  · obtain ⟨e', hadm, hden⟩ := h.written (hold hc hnot) hnot (by rw [← hdev.isStruct (get?_lt (hold hc hnot))]; exact hs)
    exact ⟨e', hadm, hden.develops hdev⟩

end TypeTable
end BencodePlan
