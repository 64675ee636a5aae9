import BencodePlan.Proofs.Shape.Shapes
import BencodePlan.Proofs.Schema.Validity
/-!
# Types that contain themselves

Where the opening of a type has come to is part of the expansion of the type it began at, and each declared type that is
being opened leads there (`Reached`).  So a type is reported to contain itself only if it does, and a type that has a plan
has nothing in its expansion that does (`compileAt_ends`).

The expansion meant here is that of `Follows`: the opening leaps over a native declaration in the middle of a chain, and a
circle behind it is found although no native type is ever opened (`recursiveType_without_holding_itself`).
-/
namespace BencodePlan
namespace TypeTable

open Compile Relation

variable {t : TypeTable}

theorem Calls.follows {w w' : Walk} (hc : t.Calls w w') : t.Follows w.current w'.current := by
  cases hc with
  | target hget => exact .holds (.target hget)
  | element hget => exact .holds (.element hget)
  | key hget => exact .holds (.key hget)
  | value hget => exact .holds (.value hget)
  | field hget hf => exact .holds (.field hget hf)
  | unwrap hget => exact .base hget

/-- **How a walk is placed in the expansion it began at.** -/
structure Reached (t : TypeTable) (id : TypeId) (w : Walk) : Prop where
  current : t.Expands id w.current
  top : t.Expands id w.top
  expanding : ∀ a ∈ w.expanding, TransGen t.Follows a w.current

theorem Reached.start (t : TypeTable) (id : TypeId) : t.Reached id (t.startWalk [] id) :=
  ⟨Expands.refl id, Expands.refl id, fun _ ha => nomatch ha⟩

theorem Reached.calls {id : TypeId} {w w' : Walk} (h : t.Reached id w) (hc : t.Calls w w') : t.Reached id w' := by
  have hcur := h.current.follows hc.follows
  have hexp : ∀ a ∈ w.expanding, TransGen t.Follows a w'.current := fun a ha => (h.expanding a ha).tail hc.follows
  have hself : TransGen t.Follows w.current w'.current := .single hc.follows
  cases hc with
  | target => exact ⟨hcur, h.top, hexp⟩
  | element => exact ⟨hcur, hcur, hexp⟩
  | key => exact ⟨hcur, hcur, hexp⟩
  | value => exact ⟨hcur, hcur, hexp⟩
  | field => exact ⟨hcur, hcur, hexp⟩
  | unwrap =>
    refine ⟨hcur, h.top, fun a ha => ?_⟩
    rcases List.mem_cons.1 ha with rfl | ha
    · exact hself
    · exact hexp a ha

/-- **A failure comes from one call that fails by itself**, somewhere in the expansion. -/
theorem exists_fails_of_result (h : t.Sound) {I : Walk → Prop} (hI : ∀ w w', I w → t.Calls w w' → I w') {w : Walk}
    (hw : w.current < t.size) (hIw : I w) {e : CompileError} (he : result (t.shapeAt w) = .error e) :
    ∃ w', I w' ∧ t.Fails w' e := by
  refine h.walk_induction (P := fun w => I w → result (t.shapeAt w) = .error e → ∃ w', I w' ∧ t.Fails w' e) ?_ w hw
    hIw he
  intro w hw ih hIw he
  rcases fails_of_result h hw he with ⟨w', hc, he'⟩ | hf
  · exact ih w' hc (hI w w' hIw hc) he'
  · exact ⟨w, hIw, hf⟩

theorem display_of_named {id : TypeId} {d : Declared} (hd : t.get? id = some (.named d)) : t.display id = d.name := by
  unfold display
  rw [displayFrom, dif_pos ⟨get?_lt hd, List.not_mem_nil⟩]
  simp only [hd]

/-- **A type is reported to contain itself only if it does.** -/
theorem containsItself_of_result (h : t.Sound) {id : TypeId} (hid : id < t.size) {name : String}
    (he : result (t.shape id) = .error (.recursiveType name)) :
    ∃ a d, t.get? a = some (.named d) ∧ d.name = name ∧ t.Expands id a ∧ t.ContainsItself a := by
  obtain ⟨w, hr, hf⟩ := exists_fails_of_result h (I := t.Reached id) (fun _ _ hr hc => hr.calls hc)
    (w := t.startWalk [] id) hid (Reached.start t id) he
  cases hf with
  | circle hget _ hin => exact ⟨_, _, hget, (display_of_named hget).symm, hr.current, hr.expanding _ hin⟩

/-- **A type that has a shape has none in its expansion that contains itself.** -/
theorem not_containsItself_of_result (h : t.Sound) {id : TypeId} (hid : id < t.size) {s : Shape}
    (hs : result (t.shape id) = .ok s) {a : TypeId} (ha : t.Expands id a) : ¬ t.ContainsItself a :=
  not_containsItself_of_endsAt ((Shapes.endsAt h s id (shapes_of_result h (w := t.startWalk [] id) hid hs)).expands ha)

theorem result_compileAt (t : TypeTable) (source : Selector) (id : TypeId) (depth : Nat) :
    result (t.compileAt source id depth) = (result (t.shape id)).map fun s => s.plan source depth := by
  unfold compileAt
  rw [result_bind]
  cases result (t.shape id) <;> rfl

theorem result_compile (t : TypeTable) (name : String) (id : TypeId) :
    result (t.compile name id) = (result (t.shape id)).map fun s => ⟨name, s.plan .root 0⟩ := by
  unfold compile
  rw [result_bind, result_compileAt]
  cases result (t.shape id) <;> rfl

end TypeTable

namespace Schema

open TypeTable Compile

/-- **Compilation ends, and finds the circles.** -/
theorem compileAt_ends {raw : RawSchema} {s : Schema} (hs : (ofRaw raw).value = .ok s) {id : TypeId}
    (hid : id < s.table.size) (source : Selector) (depth : Nat) :
    (∀ w w', w.current < s.table.size → s.table.Calls w w' → s.table.rank w' < s.table.rank w) ∧
    (∀ go, (do return (← (s.table.shapeStep)^[s.table.callBound] go (s.table.startWalk [] id)).plan source depth) =
      s.table.compileAt source id depth) ∧
    (∀ is, result (s.table.compileAt source id depth) = .ok is →
      ∀ a, s.table.Expands id a → ¬ s.table.ContainsItself a) ∧
    ∀ name, result (s.table.compileAt source id depth) = .error (.recursiveType name) →
      ∃ a d, s.table.get? a = some (.named d) ∧ d.name = name ∧ s.table.Expands id a ∧ s.table.ContainsItself a := by
  have h := sound_of_ofRaw hs
  refine ⟨fun w w' hw hc => hc.rank_lt h hw, fun go => ?_, fun is his a ha => ?_, fun name he => ?_⟩
  · rw [iterate_shapeStep h hid go]
    rfl
  · rw [result_compileAt] at his
    cases hr : result (s.table.shape id) with
    | ok shape => exact not_containsItself_of_result h hid hr ha
    | error e =>
      rw [hr] at his
      cases his
  · rw [result_compileAt] at he
    cases hr : result (s.table.shape id) with
    | ok shape =>
      rw [hr] at he
      cases he
    | error e =>
      rw [hr] at he
      cases he
      exact containsItself_of_result h hid hr

def treeDocument : RawSchema := ⟨none, [⟨"Tree", none, some "Vec<Tree>", false⟩]⟩

def treeTable : TypeTable :=
  ⟨[.named ⟨"Tree", some 1⟩, .sequence 0 .slice], [(.sequence 0 .slice, 1)], [("Tree", 0)]⟩

theorem tree_containsItself : (ofRaw treeDocument).value = .ok ⟨none, treeTable⟩ ∧
    ∃ a d, treeTable.get? a = some (.named d) ∧ d.name = "Tree" ∧ treeTable.Expands 0 a ∧ treeTable.ContainsItself a := by
  have hs : (ofRaw treeDocument).value = .ok ⟨none, treeTable⟩ := ofRaw_eq_ok (by decide +kernel)
  exact ⟨hs, (compileAt_ends hs (show 0 < treeTable.size by decide) .root 0).2.2.2 "Tree" (by cbv)⟩

/-- An alias of a native type whose body leads back to the alias. -/
def nativeCircleDocument : RawSchema :=
  ⟨none, [⟨"A", none, some "Blob", false⟩, ⟨"Blob", none, some "Vec<A>", true⟩]⟩

def nativeCircleTable : TypeTable :=
  ⟨[.named ⟨"A", some 1⟩, .native ⟨"Blob", some 2⟩, .sequence 0 .slice], [(.sequence 0 .slice, 2)],
    [("A", 0), ("Blob", 1)]⟩

theorem nativeCircle_named {d : Declared} : ∀ a, nativeCircleTable.get? a = some (.named d) → a = 0
  | 0, _ => rfl
  | 1, hd => nomatch hd
  | 2, hd => nomatch hd
  | _ + 3, hd => nomatch hd

/-- A circle behind a native type is reported, though nothing that the types are made of leads back. -/
theorem recursiveType_without_holding_itself :
    (ofRaw nativeCircleDocument).value = .ok ⟨none, nativeCircleTable⟩ ∧
    result (nativeCircleTable.compileAt .root 0 0) = .error (.recursiveType "A") ∧
    ∀ a d, nativeCircleTable.get? a = some (.named d) → ¬ Relation.TransGen nativeCircleTable.Holds a a := by
  refine ⟨ofRaw_eq_ok (by decide +kernel), by cbv, fun a d hd hcyc => ?_⟩
  obtain rfl := nativeCircle_named a hd
  -- the alias holds the native type, which holds nothing
  obtain ⟨b, hab, hba⟩ := Relation.TransGen.head'_iff.1 hcyc
  have hb : nativeCircleTable.get? b = some (.native ⟨"Blob", some 2⟩) := by
    cases hab with
    | body hget hbody =>
      cases hget
      cases hbody
      rfl
    | target hget => cases hget
    | element hget => cases hget
    | key hget => cases hget
    | value hget => cases hget
    | field hget => cases hget
  rcases hba.cases_head with rfl | ⟨c, hc, -⟩
  · cases hb
  · exact not_follows_of_native hb (.holds hc)

end Schema
end BencodePlan
