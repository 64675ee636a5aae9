import BencodePlan.Proofs.Shape.Shapes
/-!
# A type has one shape

Node by node the form of a shape is that of the type it fits, and the parts of the shape fit the parts of the type.  So no
two shapes fit one type (`Shapes.unique`).
-/
namespace BencodePlan
namespace TypeTable

variable {t : TypeTable}

/-- **What a shape is, by the type at which it is written.** -/
theorem Shapes.inv {s : Shape} {id : TypeId} (hs : t.Shapes s id) {d : TypeDesc} (hget : t.get? (t.base id) = some d) :
    match d with
    | .native _ => s = .native
    | .duration => s = .duration
    | .scalar .bool => s = .bool
    | .scalar (.int _) => s = .int
    | .scalar .str => s = .string
    | .pointer target => ∃ inner, s = .optional inner ∧ t.Shapes inner target
    | .sequence element _ => ∃ inner, s = .list inner ∧ t.Shapes inner element
    | .mapping k v => ∃ key value, s = .map (t.nameOf k) key value ∧ t.Shapes key k ∧ t.Shapes value v
    | .struct _ => ∃ fields, s = .struct fields ∧ t.ShapesAll fields (writingOrder (t.fieldsOf (t.base id)))
    | .scalar (.float _) | .named _ => False := by
  cases s with
  | native =>
    rw [Shapes] at hs
    obtain ⟨e, he⟩ := (isNative_iff _ _).1 hs
    rw [he] at hget
    cases hget
    rfl
  | duration =>
    rw [Shapes, hget] at hs
    cases hs
    rfl
  | bool =>
    rw [Shapes, hget] at hs
    cases hs
    rfl
  | int =>
    rw [Shapes, hget] at hs
    obtain ⟨kind, hs⟩ := hs
    cases hs
    rfl
  | string =>
    rw [Shapes, hget] at hs
    cases hs
    rfl
  | optional inner =>
    rw [Shapes, hget] at hs
    obtain ⟨target, hs, hi⟩ := hs
    cases hs
    exact ⟨inner, rfl, hi⟩
  | list inner =>
    rw [Shapes, hget] at hs
    obtain ⟨element, kind, hs, hi⟩ := hs
    cases hs
    exact ⟨inner, rfl, hi⟩
  | map cast key value =>
    rw [Shapes, hget] at hs
    obtain ⟨k, v, hs, -, hcast, hk, hv⟩ := hs
    cases hs
    exact ⟨key, value, by rw [hcast], hk, hv⟩
  | struct fields =>
    rw [Shapes, hget] at hs
    obtain ⟨⟨ms, hs⟩, hfs⟩ := hs
    cases hs
    exact ⟨fields, rfl, hfs⟩

theorem ShapesAll.nil_inv {fields : List (Slot × Shape)} (h : t.ShapesAll fields []) : fields = [] := by
  cases fields with
  | nil => rfl
  | cons p rest =>
    rw [ShapesAll] at h
    obtain ⟨f, more, h, -⟩ := h
    cases h

theorem ShapesAll.cons_inv {fields : List (Slot × Shape)} {f : Field} {fs : List Field} (h : t.ShapesAll fields (f :: fs)) :
    ∃ s rest, fields = (t.slot f, s) :: rest ∧ t.Shapes s f.type ∧ t.ShapesAll rest fs := by
  cases fields with
  | nil =>
    rw [ShapesAll] at h
    cases h
  | cons p rest =>
    obtain ⟨slot, s⟩ := p
    rw [ShapesAll] at h
    obtain ⟨g, more, heq, rfl, -, hs, hrest⟩ := h
    cases heq
    exact ⟨s, rest, rfl, hs, hrest⟩

mutual
/-- **A type has at most one shape.** -/
theorem Shapes.unique : ∀ (s : Shape) {s' : Shape} {id : TypeId}, t.Shapes s id → t.Shapes s' id → s' = s
  | .native, s', id, hs, hs' => by
    rw [Shapes] at hs
    obtain ⟨d, hget⟩ := (isNative_iff _ _).1 hs
    exact hs'.inv hget
  | .duration, s', id, hs, hs' => by
    rw [Shapes] at hs
    exact hs'.inv hs
  | .bool, s', id, hs, hs' => by
    rw [Shapes] at hs
    exact hs'.inv hs
  | .int, s', id, hs, hs' => by
    rw [Shapes] at hs
    obtain ⟨kind, hget⟩ := hs
    exact hs'.inv hget
  | .string, s', id, hs, hs' => by
    rw [Shapes] at hs
    exact hs'.inv hs
  | .optional inner, s', id, hs, hs' => by
    rw [Shapes] at hs
    obtain ⟨target, hget, hi⟩ := hs
    obtain ⟨inner', rfl, hi'⟩ := hs'.inv hget
    rw [Shapes.unique inner hi hi']
  | .list inner, s', id, hs, hs' => by
    rw [Shapes] at hs
    obtain ⟨element, kind, hget, hi⟩ := hs
    obtain ⟨inner', rfl, hi'⟩ := hs'.inv hget
    rw [Shapes.unique inner hi hi']
  | .map cast key value, s', id, hs, hs' => by
    rw [Shapes] at hs
    obtain ⟨k, v, hget, -, hcast, hk, hv⟩ := hs
    obtain ⟨key', value', rfl, hk', hv'⟩ := hs'.inv hget
    rw [hcast, Shapes.unique key hk hk', Shapes.unique value hv hv']
  | .struct fields, s', id, hs, hs' => by
    rw [Shapes] at hs
    obtain ⟨⟨ms, hget⟩, hfs⟩ := hs
    obtain ⟨fields', rfl, hfs'⟩ := hs'.inv hget
    rw [ShapesAll.unique fields hfs hfs']
termination_by structural s => s

theorem ShapesAll.unique : ∀ (fields : List (Slot × Shape)) {fields' : List (Slot × Shape)} {fs : List Field},
    t.ShapesAll fields fs → t.ShapesAll fields' fs → fields' = fields
  | [], fields', fs, h, h' => by
    rw [ShapesAll] at h
    rw [h] at h'
    exact h'.nil_inv
  | (slot, s) :: rest, fields', fs, h, h' => by
    rw [ShapesAll] at h
    obtain ⟨f, more, rfl, hslot, -, hs, hmore⟩ := h
    obtain ⟨s', rest', rfl, hs', hmore'⟩ := h'.cons_inv
    rw [ShapesAll.unique rest hmore hmore', Shapes.unique s hs hs', hslot]
termination_by structural fields => fields
end

theorem lt_size_of_base {id : TypeId} {d : TypeDesc} (hget : t.get? (t.base id) = some d) : id < t.size := by
  by_contra hid
  have hnone : t.get? id = none := List.getElem?_eq_none (Nat.le_of_not_lt hid)
  have hbody : t.bodyOf id = none := by
    unfold bodyOf declared?
    rw [hnone]
    rfl
  have hnative : t.isNative id = false := by
    unfold isNative
    rw [hnone]
  unfold base at hget
  rw [hnative, underlying_of_none hbody] at hget
  simp only [Bool.false_eq_true, if_false] at hget
  rw [hnone] at hget
  cases hget

end TypeTable
end BencodePlan
