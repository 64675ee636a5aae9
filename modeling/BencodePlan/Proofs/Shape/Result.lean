import BencodePlan.Proofs.Shape.Walk
/-!
# What one call of the opening results in

The result of work towards a plan is a shape or an error, apart from what is told on the way.  One call results in a shape
only as `Yields` lists, and in an error only if a call it makes does or for one of the reasons in `Fails`.  Everything about
results is proved from these two lists by induction along the calls.
-/
namespace BencodePlan
namespace Compile

variable {α β : Type}

/-- **The result of work towards a plan.** -/
def result (x : Compile α) : Except CompileError α := x.run.value

@[simp] theorem result_pure (a : α) : result (pure a) = .ok a := rfl

@[simp] theorem result_lift (x : Noted α) : result (ExceptT.lift x) = .ok x.value := rfl

@[simp] theorem result_mk_pure (r : Except CompileError α) : result (ExceptT.mk (pure r)) = r := rfl

theorem result_bind (x : Compile α) (f : α → Compile β) : result (x >>= f) =
    match result x with
    | .ok a => result (f a)
    | .error e => .error e := by
  change (ExceptT.bindCont f x.run.value).value = _
  unfold result
  cases x.run.value <;> rfl

theorem result_bind_ok {x : Compile α} {f : α → Compile β} {b : β} (h : result (x >>= f) = .ok b) :
    ∃ a, result x = .ok a ∧ result (f a) = .ok b := by
  rw [result_bind] at h
  cases hx : result x with
  | ok a =>
    rw [hx] at h
    exact ⟨a, rfl, h⟩
  | error e =>
    rw [hx] at h
    cases h

theorem result_bind_error {x : Compile α} {f : α → Compile β} {e : CompileError} (h : result (x >>= f) = .error e) :
    result x = .error e ∨ ∃ a, result x = .ok a ∧ result (f a) = .error e := by
  rw [result_bind] at h
  cases hx : result x with
  | ok a =>
    rw [hx] at h
    exact Or.inr ⟨a, rfl, h⟩
  | error e' =>
    rw [hx] at h
    cases h
    exact Or.inl rfl

theorem result_mapM_ok {f : α → Compile β} : ∀ {l : List α} {bs : List β}, result (l.mapM f) = .ok bs →
    List.Forall₂ (fun a b => result (f a) = .ok b) l bs
  | [], bs, h => by
    rw [List.mapM_nil, result_pure] at h
    cases h
    exact .nil
  | a :: l, bs, h => by
    rw [List.mapM_cons] at h
    obtain ⟨b, hb, h⟩ := result_bind_ok h
    obtain ⟨bs', hbs, h⟩ := result_bind_ok h
    rw [result_pure] at h
    cases h
    exact .cons hb (result_mapM_ok hbs)

theorem result_mapM_error {f : α → Compile β} {e : CompileError} : ∀ {l : List α}, result (l.mapM f) = .error e →
    ∃ a ∈ l, result (f a) = .error e
  | [], h => by
    rw [List.mapM_nil, result_pure] at h
    cases h
  | a :: l, h => by
    rw [List.mapM_cons] at h
    rcases result_bind_error h with ha | ⟨b, -, h⟩
    · exact ⟨a, List.mem_cons_self, ha⟩
    · rcases result_bind_error h with hl | ⟨bs, -, h⟩
      · obtain ⟨a', hmem, ha'⟩ := result_mapM_error hl
        exact ⟨a', List.mem_cons_of_mem _ hmem, ha'⟩
      · cases h

end Compile

namespace TypeTable

open Compile

/-- **How one call results in a shape.** -/
inductive Yields (t : TypeTable) (w : Walk) : Shape → Prop
  | native {d : Declared} : t.get? w.current = some (.native d) → Yields t w .native
  | duration : t.get? w.current = some .duration → Yields t w .duration
  | bool : t.get? w.current = some (.scalar .bool) → Yields t w .bool
  | int {kind : IntKind} : t.get? w.current = some (.scalar (.int kind)) → Yields t w .int
  | string : t.get? w.current = some (.scalar .str) → Yields t w .string
  | optional {target : TypeId} {inner : Shape} : t.get? w.current = some (.pointer target) →
    result (t.shapeAt (t.deref w target)) = .ok inner → Yields t w (.optional inner)
  | list {element : TypeId} {kind : SequenceKind} {inner : Shape} :
    t.get? w.current = some (.sequence element kind) →
    result (t.shapeAt (t.startWalk w.expanding element)) = .ok inner → Yields t w (.list inner)
  | map {k v : TypeId} {key value : Shape} : t.get? w.current = some (.mapping k v) → t.isStringKey k = true →
    result (t.shapeAt (t.startWalk w.expanding k)) = .ok key →
    result (t.shapeAt (t.startWalk w.expanding v)) = .ok value → Yields t w (.map (t.nameOf k) key value)
  | struct {members : List Member} {fields : List (Slot × Shape)} : t.get? w.current = some (.struct members) →
    List.Forall₂ (fun f p => result (t.shapeAt (t.startWalk w.expanding f.type)) = .ok p.2 ∧
      t.slotOf (w.owner.getD (t.display w.current)) f = .ok p.1) (writingOrder (t.fieldsOf w.current)) fields →
    Yields t w (.struct fields)
  | unwrap {d : Declared} {s : Shape} : t.get? w.current = some (.named d) → w.unwraps ≠ maxUnwraps →
    w.current ∉ w.expanding → result (t.shapeAt (t.unwrap w)) = .ok s → Yields t w s

/-- **How one call fails by itself.** -/
inductive Fails (t : TypeTable) (w : Walk) : CompileError → Prop
  | float {kind : FloatKind} : t.get? w.current = some (.scalar (.float kind)) →
    Fails t w (.unsupportedType (t.display w.top))
  | unwraps {d : Declared} : t.get? w.current = some (.named d) → w.unwraps = maxUnwraps →
    Fails t w (.unsupportedType (t.display w.top))
  | circle {d : Declared} : t.get? w.current = some (.named d) → w.unwraps ≠ maxUnwraps → w.current ∈ w.expanding →
    Fails t w (.recursiveType (t.display w.current))
  | key {k v : TypeId} : t.get? w.current = some (.mapping k v) → t.isStringKey k = false →
    Fails t w (.nonStringMapKey (t.display w.current) (t.display k))
  | test {members : List Member} {f : Field} : t.get? w.current = some (.struct members) →
    f ∈ t.fieldsOf w.current → f.omitEmpty = true → t.emptinessTest f.type = none →
    Fails t w (.omitEmptyUnsupported (w.owner.getD (t.display w.current) ++ "." ++ f.name) (t.display f.type))

theorem slotOf_error {t : TypeTable} {owner : String} {f : Field} {e : CompileError} (h : t.slotOf owner f = .error e) :
    f.omitEmpty = true ∧ t.emptinessTest f.type = none ∧
      e = .omitEmptyUnsupported (owner ++ "." ++ f.name) (t.display f.type) := by
  unfold slotOf at h
  split at h
  · rename_i homit
    split at h
    · cases h
    · rename_i htest
      cases h
      exact ⟨homit, htest, rfl⟩
  · cases h

theorem yields_of_result {t : TypeTable} (h : t.Sound) {w : Walk} (hw : w.current < t.size) {s : Shape}
    (hs : result (t.shapeAt w) = .ok s) : t.Yields w s := by
  obtain ⟨d, hget⟩ := exists_get? hw
  rw [shapeAt_eq h hw] at hs
  unfold shapeStep at hs
  cases d with
  | native d =>
    simp only [hget] at hs
    obtain ⟨_, -, hs⟩ := result_bind_ok hs
    cases hs
    exact .native hget
  | duration =>
    simp only [hget] at hs
    cases hs
    exact .duration hget
  | scalar kind =>
    cases kind with
    | bool =>
      simp only [hget] at hs
      cases hs
      exact .bool hget
    | int kind =>
      simp only [hget] at hs
      cases hs
      exact .int hget
    | str =>
      simp only [hget] at hs
      cases hs
      exact .string hget
    | float kind =>
      simp only [hget, underlying_of_not_declared hget rfl, true_or, if_true] at hs
      cases hs
  | pointer target =>
    simp only [hget] at hs
    obtain ⟨inner, hi, hs⟩ := result_bind_ok hs
    cases hs
    exact .optional hget hi
  | sequence element kind =>
    simp only [hget] at hs
    obtain ⟨inner, hi, hs⟩ := result_bind_ok hs
    cases hs
    exact .list hget hi
  | mapping k v =>
    simp only [hget] at hs
    cases hkey : t.isStringKey k with
    | false =>
      simp only [hkey, Bool.false_eq_true, if_false] at hs
      cases hs
    | true =>
      simp only [hkey, if_true] at hs
      obtain ⟨key, hk, hs⟩ := result_bind_ok hs
      obtain ⟨value, hv, hs⟩ := result_bind_ok hs
      cases hs
      exact .map hget hkey hk hv
  | struct members =>
    simp only [hget] at hs
    obtain ⟨found, hf, hs⟩ := result_bind_ok hs
    rw [result_lift, value_collect (underlying_of_not_declared hget rfl)] at hf
    cases hf
    obtain ⟨fields, hfs, hs⟩ := result_bind_ok hs
    cases hs
    refine .struct hget ((result_mapM_ok hfs).imp fun f p hp => ?_)
    obtain ⟨shape, hsh, hp⟩ := result_bind_ok hp
    obtain ⟨slot, hsl, hp⟩ := result_bind_ok hp
    cases hp
    exact ⟨hsh, hsl⟩
  | named d =>
    simp only [hget] at hs
    split at hs
    · cases hs
    · rename_i hgo
      split at hs
      · rename_i hnew
        exact .unwrap hget (fun hu => hgo (Or.inr hu)) hnew hs
      · cases hs

theorem fails_of_result {t : TypeTable} (h : t.Sound) {w : Walk} (hw : w.current < t.size) {e : CompileError}
    (he : result (t.shapeAt w) = .error e) :
    (∃ w', t.Calls w w' ∧ result (t.shapeAt w') = .error e) ∨ t.Fails w e := by
  obtain ⟨d, hget⟩ := exists_get? hw
  rw [shapeAt_eq h hw] at he
  unfold shapeStep at he
  cases d with
  | native d =>
    simp only [hget] at he
    rcases result_bind_error he with he | ⟨_, -, he⟩ <;> cases he
  | duration =>
    simp only [hget] at he
    cases he
  | scalar kind =>
    cases kind with
    | float kind =>
      simp only [hget, underlying_of_not_declared hget rfl, true_or, if_true] at he
      cases he
      exact Or.inr (.float hget)
    | _ =>
      simp only [hget] at he
      cases he
  | pointer target =>
    simp only [hget] at he
    rcases result_bind_error he with he | ⟨_, -, he⟩
    · exact Or.inl ⟨_, .target hget, he⟩
    · cases he
  | sequence element kind =>
    simp only [hget] at he
    rcases result_bind_error he with he | ⟨_, -, he⟩
    · exact Or.inl ⟨_, .element hget, he⟩
    · cases he
  | mapping k v =>
    simp only [hget] at he
    cases hkey : t.isStringKey k with
    | false =>
      simp only [hkey, Bool.false_eq_true, if_false] at he
      cases he
      exact Or.inr (.key hget hkey)
    | true =>
      simp only [hkey, if_true] at he
      rcases result_bind_error he with he | ⟨_, -, he⟩
      · exact Or.inl ⟨_, .key hget, he⟩
      · rcases result_bind_error he with he | ⟨_, -, he⟩
        · exact Or.inl ⟨_, .value hget, he⟩
        · cases he
  | struct members =>
    simp only [hget] at he
    rcases result_bind_error he with he | ⟨found, hf, he⟩
    · cases he
    · rw [result_lift, value_collect (underlying_of_not_declared hget rfl)] at hf
      cases hf
      rcases result_bind_error he with he | ⟨_, -, he⟩
      · obtain ⟨f, hf, he⟩ := result_mapM_error he
        have hf' := mem_writingOrder.1 hf
        rcases result_bind_error he with he | ⟨_, -, he⟩
        · exact Or.inl ⟨_, .field hget hf', he⟩
        · rcases result_bind_error he with he | ⟨_, -, he⟩
          · rw [result_mk_pure] at he
            obtain ⟨homit, htest, rfl⟩ := slotOf_error he
            exact Or.inr (.test hget hf' homit htest)
          · cases he
      · cases he
  | named d =>
    simp only [hget] at he
    split at he
    · rename_i hstop
      rcases hstop with hu | hu
      · exact absurd hu (h.underlying_ne_self hget)
      · cases he
        exact Or.inr (.unwraps hget hu)
    · rename_i hgo
      split at he
      · rename_i hnew
        exact Or.inl ⟨_, .unwrap hget (fun hu => hgo (Or.inr hu)) hnew, he⟩
      · rename_i hnew
        cases he
        exact Or.inr (.circle hget (fun hu => hgo (Or.inr hu)) (not_not.1 hnew))

end TypeTable
end BencodePlan
