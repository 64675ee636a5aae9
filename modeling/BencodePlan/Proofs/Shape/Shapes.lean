import BencodePlan.Proofs.Shape.Result
import BencodePlan.Proofs.Types.Expansion
import BencodePlan.Proofs.Encoding.Basic
/-!
# Shapes fit their types

`Shapes` says which type a shape is the shape of, without the way on which it is found: node by node, the shape has the
form of the type that its type is built on.  What the opening of a type results in fits it (`shapes_of_result`), and as a
shape is a finite tree, a type that a shape fits has a well-founded expansion (`Shapes.endsAt`).
-/
namespace BencodePlan
namespace TypeTable

open Compile

/-- **The type at which a type is written**: a native one writes itself, another is written as what it is built on. -/
def base (t : TypeTable) (id : TypeId) : TypeId := if t.isNative id then id else t.underlying id

mutual
/-- **The shape fits the type.** -/
def Shapes (t : TypeTable) : Shape → TypeId → Prop
  | .native, id => t.isNative (t.base id) = true
  | .duration, id => t.get? (t.base id) = some .duration
  | .bool, id => t.get? (t.base id) = some (.scalar .bool)
  | .int, id => ∃ kind, t.get? (t.base id) = some (.scalar (.int kind))
  | .string, id => t.get? (t.base id) = some (.scalar .str)
  | .optional inner, id => ∃ target, t.get? (t.base id) = some (.pointer target) ∧ Shapes t inner target
  | .list inner, id => ∃ element kind, t.get? (t.base id) = some (.sequence element kind) ∧ Shapes t inner element
  | .map cast key value, id => ∃ k v, t.get? (t.base id) = some (.mapping k v) ∧ t.isStringKey k = true ∧
    cast = t.nameOf k ∧ Shapes t key k ∧ Shapes t value v
  | .struct fields, id => (∃ ms, t.get? (t.base id) = some (.struct ms)) ∧
    ShapesAll t fields (writingOrder (t.fieldsOf (t.base id)))
termination_by structural s => s

def ShapesAll (t : TypeTable) : List (Slot × Shape) → List Field → Prop
  | [], fs => fs = []
  | (slot, s) :: rest, fs => ∃ f more, fs = f :: more ∧ slot = t.slot f ∧
    (f.omitEmpty = true → (t.emptinessTest f.type).isSome = true) ∧ Shapes t s f.type ∧ ShapesAll t rest more
termination_by structural fields => fields
end

variable {t : TypeTable}

theorem base_of_native {id : TypeId} {d : Declared} (h : t.get? id = some (.native d)) : t.base id = id := by
  unfold base
  rw [if_pos ((isNative_iff _ _).2 ⟨d, h⟩)]

theorem base_of_not_native {id : TypeId} {d : TypeDesc} (h : t.get? id = some d) (hd : ∀ e, d ≠ .native e) :
    t.base id = t.underlying id := by
  unfold base
  rw [isNative_of_get? h hd]
  rfl

theorem base_of_structural {id : TypeId} {d : TypeDesc} (h : t.get? id = some d) (hd : d.isDeclared = false) :
    t.base id = id := by
  rw [base_of_not_native h, underlying_of_not_declared h hd]
  rintro e rfl
  cases hd

theorem Sound.base_underlying (h : t.Sound) (id : TypeId) : t.base (t.underlying id) = t.underlying id := by
  unfold base
  split
  · rfl
  · exact h.underlying_underlying id

theorem Sound.base_named (h : t.Sound) {id : TypeId} {d : Declared} (hd : t.get? id = some (.named d)) :
    t.base (t.underlying id) = t.base id := by
  rw [h.base_underlying, base_of_not_native hd fun _ hne => by cases hne]

theorem base_eq_underlying {id : TypeId} {d : TypeDesc} (hget : t.get? (t.base id) = some d) (hd : d.isDeclared = false) :
    t.base id = t.underlying id := by
  unfold base
  split
  · rename_i hid
    obtain ⟨e, he⟩ := (isNative_iff _ _).1 hid
    rw [base_of_native he, he] at hget
    cases hget
    cases hd
  · rfl

theorem expands_base {id : TypeId} (hid : id < t.size) : t.Expands id (t.base id) := by
  obtain ⟨d, hget⟩ := exists_get? hid
  cases d with
  | named e =>
    rw [base_of_not_native hget fun _ hne => by cases hne]
    exact Expands.follows (.refl id) (.base hget)
  | native e =>
    rw [base_of_native hget]
    exact .refl id
  | _ =>
    rw [base_of_structural hget rfl]
    exact .refl id

theorem shapes_congr {a b : TypeId} (h : t.base a = t.base b) (s : Shape) : t.Shapes s a ↔ t.Shapes s b := by
  cases s <;> rw [Shapes, Shapes, h]

theorem slotOf_ok {owner : String} {f : Field} {slot : Slot} (h : t.slotOf owner f = .ok slot) :
    slot = t.slot f ∧ (f.omitEmpty = true → (t.emptinessTest f.type).isSome = true) := by
  unfold slotOf at h
  unfold TypeTable.slot
  cases homit : f.omitEmpty with
  | true =>
    cases htest : t.emptinessTest f.type with
    | some test =>
      simp only [homit, htest, if_true] at h
      cases h
      exact ⟨rfl, fun _ => rfl⟩
    | none =>
      simp only [homit, htest, if_true] at h
      cases h
  | false =>
    simp only [homit, Bool.false_eq_true, if_false] at h
    cases h
    exact ⟨rfl, fun hne => nomatch hne⟩

theorem shapesAll_of_forall₂ {fields : List (Slot × Shape)} {fs : List Field}
    (h : List.Forall₂ (fun f p => t.Shapes p.2 f.type ∧ p.1 = t.slot f ∧
      (f.omitEmpty = true → (t.emptinessTest f.type).isSome = true)) fs fields) : t.ShapesAll fields fs := by
  induction h with
  | nil => rfl
  | cons hp _ ih => exact ⟨_, _, rfl, hp.2.1, hp.2.2, hp.1, ih⟩

/-- **What a call results in fits the type it opens.** -/
theorem shapes_of_result (h : t.Sound) {w : Walk} (hw : w.current < t.size) {s : Shape}
    (hs : result (t.shapeAt w) = .ok s) : t.Shapes s w.current := by
  refine h.walk_induction (P := fun w => ∀ s, result (t.shapeAt w) = .ok s → t.Shapes s w.current) ?_ w hw s hs
  intro w hw ih s hs
  cases yields_of_result h hw hs with
  | native hget =>
    rw [Shapes, base_of_native hget]
    exact (isNative_iff _ _).2 ⟨_, hget⟩
  | duration hget => rw [Shapes, base_of_structural hget rfl]; exact hget
  | bool hget => rw [Shapes, base_of_structural hget rfl]; exact hget
  | int hget => rw [Shapes, base_of_structural hget rfl]; exact ⟨_, hget⟩
  | string hget => rw [Shapes, base_of_structural hget rfl]; exact hget
  | optional hget hi =>
    rw [Shapes, base_of_structural hget rfl]
    exact ⟨_, hget, ih _ (.target hget) _ hi⟩
  | list hget hi =>
    rw [Shapes, base_of_structural hget rfl]
    exact ⟨_, _, hget, ih _ (.element hget) _ hi⟩
  | map hget hkey hk hv =>
    rw [Shapes, base_of_structural hget rfl]
    exact ⟨_, _, hget, hkey, rfl, ih _ (.key hget) _ hk, ih _ (.value hget) _ hv⟩
  | struct hget hfs =>
    rw [Shapes, base_of_structural hget rfl]
    have hmem : ∀ f ∈ writingOrder (t.fieldsOf w.current), f ∈ t.fieldsOf w.current := fun _ => mem_writingOrder.1
    refine ⟨⟨_, hget⟩, shapesAll_of_forall₂ (((List.forall₂_and_left _ _).2 ⟨hmem, hfs⟩).imp ?_)⟩
    rintro f p ⟨hf, hsh, hsl⟩
    exact ⟨ih _ (.field hget hf) _ hsh, slotOf_ok hsl⟩
  | unwrap hget hu hnew hs =>
    exact (shapes_congr (h.base_named hget) s).1 (ih _ (.unwrap hget hu hnew) s hs)

/-! ## What has a shape ends -/

theorem Sound.endsAt_of_base (h : t.Sound) {id : TypeId} (hb : t.EndsAt (t.base id)) : t.EndsAt id := by
  unfold base at hb
  split at hb
  · exact hb
  · exact h.endsAt_of_underlying hb

mutual
/-- **A type that a shape fits has a well-founded expansion**: below each node of the shape there are only the nodes that
the shape has there. -/
theorem Shapes.endsAt (h : t.Sound) : ∀ (s : Shape) (id : TypeId), t.Shapes s id → t.EndsAt id
  | .native, id, hs => by
    rw [Shapes] at hs
    obtain ⟨d, hd⟩ := (isNative_iff _ _).1 hs
    exact h.endsAt_of_base (endsAt_of_native hd)
  | .duration, id, hs => by
    rw [Shapes] at hs
    exact h.endsAt_of_base (Acc.intro _ fun _ hf => (hf.inv hs).elim)
  | .bool, id, hs => by
    rw [Shapes] at hs
    exact h.endsAt_of_base (Acc.intro _ fun _ hf => (hf.inv hs).elim)
  | .int, id, hs => by
    rw [Shapes] at hs
    obtain ⟨kind, hs⟩ := hs
    exact h.endsAt_of_base (Acc.intro _ fun _ hf => (hf.inv hs).elim)
  | .string, id, hs => by
    rw [Shapes] at hs
    exact h.endsAt_of_base (Acc.intro _ fun _ hf => (hf.inv hs).elim)
  | .optional inner, id, hs => by
    rw [Shapes] at hs
    obtain ⟨target, hget, hi⟩ := hs
    refine h.endsAt_of_base (Acc.intro _ fun b hf => ?_)
    rw [show b = target from hf.inv hget]
    exact Shapes.endsAt h inner target hi
  | .list inner, id, hs => by
    rw [Shapes] at hs
    obtain ⟨element, kind, hget, hi⟩ := hs
    refine h.endsAt_of_base (Acc.intro _ fun b hf => ?_)
    rw [show b = element from hf.inv hget]
    exact Shapes.endsAt h inner element hi
  | .map cast key value, id, hs => by
    rw [Shapes] at hs
    obtain ⟨k, v, hget, -, -, hk, hv⟩ := hs
    refine h.endsAt_of_base (Acc.intro _ fun b hf => ?_)
    rcases hf.inv hget with rfl | rfl
    · exact Shapes.endsAt h key _ hk
    · exact Shapes.endsAt h value _ hv
  | .struct fields, id, hs => by
    rw [Shapes] at hs
    obtain ⟨⟨ms, hget⟩, hfs⟩ := hs
    refine h.endsAt_of_base (Acc.intro _ fun b hf => ?_)
    obtain ⟨f, hmem, rfl⟩ := hf.inv hget
    exact ShapesAll.endsAt h fields _ hfs f (mem_writingOrder.2 hmem)
termination_by structural s => s

theorem ShapesAll.endsAt (h : t.Sound) : ∀ (fields : List (Slot × Shape)) (fs : List Field), t.ShapesAll fields fs →
    ∀ f ∈ fs, t.EndsAt f.type
  | [], fs, hs, f, hf => by
    rw [ShapesAll] at hs
    rw [hs] at hf
    cases hf
  | (slot, s) :: rest, fs, hs, f, hf => by
    rw [ShapesAll] at hs
    obtain ⟨g, more, rfl, -, -, hg, hmore⟩ := hs
    rcases List.mem_cons.1 hf with rfl | hf
    · exact Shapes.endsAt h s _ hg
    · exact ShapesAll.endsAt h rest more hmore f hf
termination_by structural fields => fields
end

end TypeTable
end BencodePlan
