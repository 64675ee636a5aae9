import BencodePlan.Shape.OfType
import BencodePlan.Proofs.Member.Collected
/-!
# Opening a type always ends

The opening of a type is a recursion whose calls depend on the table alone: `shapeStep` is its body, with the calls left
open.  On a sound table every call leads from a `Walk` to one of lower `rank`: opening a declared type leaves fewer of them
to open, and between two of them the walk goes down through the structural types.  So the recursion unrolled to a depth
that only the size of the table decides never gets to its bottom (`iterate_shapeStep`), and what it gives is the shape,
whose guard against circles of structural types never speaks up (`shapeFrom_eq`).
-/
namespace BencodePlan

/-- **Where the opening of a type has come to.** -/
structure Walk where
  expanding : List TypeId
  top : TypeId
  unwraps : Nat
  owner : Option String
  current : TypeId

namespace TypeTable

def startWalk (t : TypeTable) (expanding : List TypeId) (id : TypeId) : Walk := ⟨expanding, id, 0, t.nameOf id, id⟩

def deref (t : TypeTable) (w : Walk) (target : TypeId) : Walk := { w with owner := t.nameOf target, current := target }

def unwrap (t : TypeTable) (w : Walk) : Walk :=
  ⟨w.current :: w.expanding, w.top, w.unwraps + 1, t.nameOf w.current, t.underlying w.current⟩

/-- **One call of the opening**, with the calls it makes left open.  Nothing here remembers the places passed. -/
def shapeStep (t : TypeTable) (go : Walk → Compile Shape) (w : Walk) : Compile Shape :=
  match t.get? w.current with
  | some (.native _) => do
    Compile.tell (.nativeFound (t.display w.current))
    return .native
  | some .duration => return .duration
  | some (.scalar .bool) => return .bool
  | some (.scalar (.int _)) => return .int
  | some (.scalar .str) => return .string
  | some (.pointer target) => do return .optional (← go (t.deref w target))
  | some (.sequence element _) => do return .list (← go (t.startWalk w.expanding element))
  | some (.mapping key value) =>
    if t.isStringKey key then do
      let k ← go (t.startWalk w.expanding key)
      let v ← go (t.startWalk w.expanding value)
      return .map (t.nameOf key) k v
    else throw (.nonStringMapKey (t.display w.current) (t.display key))
  | some (.struct _) => do
    let owner := w.owner.getD (t.display w.current)
    let fields ← ExceptT.lift (Field.collect t owner w.current)
    return .struct (← (writingOrder fields).mapM fun f => do
      let shape ← go (t.startWalk w.expanding f.type)
      let slot ← ExceptT.mk (pure (t.slotOf owner f))
      return (slot, shape))
  | some (.scalar (.float _)) | some (.named _) | none =>
    if t.underlying w.current = w.current ∨ w.unwraps = maxUnwraps then throw (.unsupportedType (t.display w.top))
    else if w.current ∉ w.expanding then go (t.unwrap w)
    else throw (.recursiveType (t.display w.current))

/-- **The calls that the opening makes.** -/
inductive Calls (t : TypeTable) (w : Walk) : Walk → Prop
  | target {target : TypeId} : t.get? w.current = some (.pointer target) → Calls t w (t.deref w target)
  | element {element : TypeId} {kind : SequenceKind} : t.get? w.current = some (.sequence element kind) →
    Calls t w (t.startWalk w.expanding element)
  | key {key value : TypeId} : t.get? w.current = some (.mapping key value) → Calls t w (t.startWalk w.expanding key)
  | value {key value : TypeId} : t.get? w.current = some (.mapping key value) →
    Calls t w (t.startWalk w.expanding value)
  | field {members : List Member} {f : Field} : t.get? w.current = some (.struct members) →
    f ∈ t.fieldsOf w.current → Calls t w (t.startWalk w.expanding f.type)
  | unwrap {d : Declared} : t.get? w.current = some (.named d) → w.unwraps ≠ maxUnwraps → w.current ∉ w.expanding →
    Calls t w (t.unwrap w)

def shapeAt (t : TypeTable) (w : Walk) : Compile Shape :=
  t.shapeFrom w.expanding [] w.top w.unwraps w.owner w.current

/-! ## The measure -/

/-- How far down the structural types go from a place: parts have smaller numbers, and the types of fields, which may
come from the body of an embedded struct, are no struct bodies themselves. -/
def height (t : TypeTable) (id : TypeId) : Nat := if t.isStruct id then t.size else id

/-- **The measure of a walk**: declared types that are not being opened, and the structural types in between. -/
def rank (t : TypeTable) (w : Walk) : Nat := t.unseen w.expanding * (t.size + 1) + t.height w.current

def callBound (t : TypeTable) : Nat := (t.size + 1) * (t.size + 1)

theorem height_le {t : TypeTable} {id : TypeId} (hid : id < t.size) : t.height id ≤ t.size := by
  unfold height
  split
  · exact Nat.le_refl _
  · exact Nat.le_of_lt hid

theorem height_of_not_struct {t : TypeTable} {id : TypeId} (h : t.isStruct id = false) : t.height id = id := by
  unfold height
  rw [if_neg (Bool.eq_false_iff.1 h)]

theorem unseen_le (t : TypeTable) (seen : List TypeId) : t.unseen seen ≤ t.size := by
  have h := List.length_filter_le (fun i => decide (i ∉ seen)) (List.range t.size)
  rw [List.length_range] at h
  exact h

theorem rank_lt_callBound {t : TypeTable} {w : Walk} (hw : w.current < t.size) : t.rank w < t.callBound := by
  have hu : t.unseen w.expanding * (t.size + 1) ≤ t.size * (t.size + 1) := Nat.mul_le_mul_right _ (t.unseen_le _)
  have hh := height_le hw
  have hsum : t.callBound = t.size * (t.size + 1) + t.size + 1 := Nat.succ_mul t.size (t.size + 1)
  unfold rank
  omega

theorem Formed.height_part {t : TypeTable} (h : t.Formed) {id c : TypeId} {d : TypeDesc} (hd : t.get? id = some d)
    (hc : c ∈ d.parts) (hs : ∀ ms, d ≠ .struct ms) : t.height c < t.height id := by
  have hnot : t.isStruct id = false := by
    rw [Bool.eq_false_iff]
    intro hid
    obtain ⟨ms, hms⟩ := (isStruct_iff _ _).1 hid
    rw [hms] at hd
    exact hs ms (Option.some.inj hd).symm
  rw [height_of_not_struct (h.part_struct hd hc), height_of_not_struct hnot]
  exact h.part_lt hd hc

theorem height_field {t : TypeTable} (h : t.Formed) {id : TypeId} {ms : List Member} {f : Field}
    (hid : t.get? id = some (.struct ms)) (hf : f ∈ t.fieldsOf id) : t.height f.type < t.height id := by
  obtain ⟨hlt, hnot⟩ := isStruct_of_mem_fieldsOf h hf
  rw [height_of_not_struct hnot]
  unfold height
  rw [if_pos ((isStruct_iff _ _).2 ⟨ms, hid⟩)]
  exact hlt

theorem rank_lt_of_height {t : TypeTable} {w w' : Walk} (he : w'.expanding = w.expanding)
    (hh : t.height w'.current < t.height w.current) : t.rank w' < t.rank w := by
  unfold rank
  rw [he]
  exact Nat.add_lt_add_left hh _

theorem Calls.current_lt {t : TypeTable} (h : t.Sound) {w w' : Walk} (hc : t.Calls w w') (hw : w.current < t.size) :
    w'.current < t.size := by
  cases hc with
  | target hget => exact Nat.lt_trans (h.part_lt hget (List.mem_singleton.2 rfl)) hw
  | element hget => exact Nat.lt_trans (h.part_lt hget (List.mem_singleton.2 rfl)) hw
  | key hget => exact Nat.lt_trans (h.part_lt hget List.mem_cons_self) hw
  | value hget => exact Nat.lt_trans (h.part_lt hget (List.mem_cons_of_mem _ (List.mem_singleton.2 rfl))) hw
  | field hget hf => exact (isStruct_of_mem_fieldsOf h.toFormed hf).1
  | unwrap hget => exact h.underlying_lt hw

/-- **Every call is to a walk of lower rank.** -/
theorem Calls.rank_lt {t : TypeTable} (h : t.Sound) {w w' : Walk} (hc : t.Calls w w') (hw : w.current < t.size) :
    t.rank w' < t.rank w := by
  cases hc with
  | target hget =>
    exact rank_lt_of_height rfl (h.height_part hget (List.mem_singleton.2 rfl) (fun _ hne => by cases hne))
  | element hget =>
    exact rank_lt_of_height rfl (h.height_part hget (List.mem_singleton.2 rfl) (fun _ hne => by cases hne))
  | key hget => exact rank_lt_of_height rfl (h.height_part hget List.mem_cons_self (fun _ hne => by cases hne))
  | value hget =>
    exact rank_lt_of_height rfl
      (h.height_part hget (List.mem_cons_of_mem _ (List.mem_singleton.2 rfl)) (fun _ hne => by cases hne))
  | field hget hf => exact rank_lt_of_height rfl (height_field h.toFormed hget hf)
  | unwrap hget hu hnew =>
    have hlt : t.unseen (w.current :: w.expanding) < t.unseen w.expanding := t.unseen_cons_lt hw hnew
    have hmul : (t.unseen (w.current :: w.expanding) + 1) * (t.size + 1) ≤ t.unseen w.expanding * (t.size + 1) :=
      Nat.mul_le_mul_right _ hlt
    have hh : t.height (t.underlying w.current) ≤ t.size := height_le (h.underlying_lt hw)
    rw [Nat.succ_mul] at hmul
    unfold rank TypeTable.unwrap
    simp only
    omega

/-- **Induction along the calls of the opening.** -/
theorem Sound.walk_induction {t : TypeTable} (h : t.Sound) {P : Walk → Prop}
    (step : ∀ w, w.current < t.size → (∀ w', t.Calls w w' → P w') → P w) (w : Walk) (hw : w.current < t.size) : P w :=
  step w hw fun w' hc => h.walk_induction step w' (hc.current_lt h hw)
termination_by t.rank w
decreasing_by exact hc.rank_lt h hw

/-! ## The calls decide the result -/

theorem mapM_congr {α β : Type} {f g : α → Compile β} : ∀ l : List α, (∀ a ∈ l, f a = g a) → l.mapM f = l.mapM g
  | [], _ => rfl
  | a :: l, h => by
    rw [List.mapM_cons, List.mapM_cons, h a List.mem_cons_self,
      mapM_congr l fun b hb => h b (List.mem_cons_of_mem _ hb)]

theorem lift_bind_congr {α β : Type} (x : Noted α) {f g : α → Compile β} (h : f x.value = g x.value) :
    ((ExceptT.lift x : Compile α) >>= f) = (ExceptT.lift x >>= g) := by
  change (⟨x.notices ++ [] ++ (f x.value).notices, (f x.value).value⟩ : Noted (Except CompileError β)) =
    ⟨x.notices ++ [] ++ (g x.value).notices, (g x.value).value⟩
  rw [h]

theorem mem_writingOrder {fields : List Field} {f : Field} : f ∈ writingOrder fields ↔ f ∈ fields :=
  List.mem_mergeSort

/-- **Two ways to go on that agree on the calls give the same.** -/
theorem shapeStep_congr {t : TypeTable} {go go' : Walk → Compile Shape} {w : Walk} (hw : w.current < t.size)
    (hgo : ∀ w', t.Calls w w' → go w' = go' w') : t.shapeStep go w = t.shapeStep go' w := by
  obtain ⟨d, hget⟩ := exists_get? hw
  unfold shapeStep
  cases d with
  | native d => simp only [hget]
  | duration => simp only [hget]
  | scalar kind =>
    cases kind with
    | float kind => simp only [hget, underlying_of_not_declared hget rfl, true_or, if_true]
    | _ => simp only [hget]
  | pointer target => simp only [hget, hgo _ (.target hget)]
  | sequence element kind => simp only [hget, hgo _ (.element hget)]
  | mapping key value => simp only [hget, hgo _ (.key hget), hgo _ (.value hget)]
  | struct members =>
    simp only [hget]
    refine lift_bind_congr _ ?_
    rw [value_collect (underlying_of_not_declared hget rfl)]
    congr 1
    refine mapM_congr _ fun f hf => ?_
    rw [hgo _ (.field hget (mem_writingOrder.1 hf))]
  | named d =>
    simp only [hget]
    split
    · rfl
    · rename_i hgo'
      split
      · rename_i hnew
        exact hgo _ (.unwrap hget (fun hu => hgo' (Or.inr hu)) hnew)
      · rfl

/-! ## The guard against circles of structural types -/

/-- The places passed since a declared type was opened are above the one that is reached, but for a struct body they
began at. -/
def Descent (t : TypeTable) (walked : List TypeId) (current : TypeId) : Prop :=
  walked = [] ∨ t.isStruct current = false ∧ ∀ id ∈ walked, current < id ∨ t.isStruct id = true

theorem Descent.not_mem {t : TypeTable} {walked : List TypeId} {current : TypeId} (h : t.Descent walked current) :
    current ∉ walked := by
  intro hm
  rcases h with rfl | ⟨hnot, hall⟩
  · cases hm
  · rcases hall current hm with hlt | hs
    · exact Nat.lt_irrefl _ hlt
    · rw [hnot] at hs
      cases hs

theorem Descent.part {t : TypeTable} (h : t.Formed) {walked : List TypeId} {current c : TypeId} {d : TypeDesc}
    (hw : t.Descent walked current) (hd : t.get? current = some d) (hc : c ∈ d.parts) :
    t.Descent (current :: walked) c := by
  refine Or.inr ⟨h.part_struct hd hc, fun id hid => ?_⟩
  rcases List.mem_cons.1 hid with rfl | hid
  · exact Or.inl (h.part_lt hd hc)
  · rcases hw with rfl | ⟨-, hall⟩
    · cases hid
    · exact (hall id hid).imp_left (Nat.lt_trans (h.part_lt hd hc))

/-- Down to a field.  Nothing is walked before a struct body is reached, as struct bodies are parts of nothing. -/
theorem Descent.field {t : TypeTable} (h : t.Formed) {walked : List TypeId} {current : TypeId} {ms : List Member}
    {f : Field} (hw : t.Descent walked current) (hd : t.get? current = some (.struct ms))
    (hf : f ∈ t.fieldsOf current) : t.Descent (current :: walked) f.type := by
  have hs : t.isStruct current = true := (isStruct_iff _ _).2 ⟨ms, hd⟩
  refine Or.inr ⟨(isStruct_of_mem_fieldsOf h hf).2, fun id hid => ?_⟩
  rcases List.mem_cons.1 hid with rfl | hid
  · exact Or.inr hs
  · rcases hw with rfl | ⟨hnot, -⟩
    · cases hid
    · rw [hs] at hnot
      cases hnot

/-- **On a sound table the guard never speaks up**: the shape is what the recursion without it gives. -/
theorem shapeFrom_eq {t : TypeTable} (h : t.Sound) (w : Walk) (hw : w.current < t.size) : ∀ walked,
    t.Descent walked w.current →
    t.shapeFrom w.expanding walked w.top w.unwraps w.owner w.current = t.shapeStep t.shapeAt w := by
  refine h.walk_induction (P := fun w => ∀ walked, t.Descent walked w.current →
    t.shapeFrom w.expanding walked w.top w.unwraps w.owner w.current = t.shapeStep t.shapeAt w) ?_ w hw
  intro w hw ih walked hd
  -- a call gives the same whatever was walked before it
  have hcall : ∀ w' walked', t.Calls w w' → t.Descent walked' w'.current →
      t.shapeFrom w'.expanding walked' w'.top w'.unwraps w'.owner w'.current = t.shapeAt w' :=
    fun w' walked' hc hd' => (ih w' hc walked' hd').trans (ih w' hc [] (Or.inl rfl)).symm
  obtain ⟨d, hget⟩ := exists_get? hw
  rw [shapeFrom, dif_pos ⟨hw, hd.not_mem⟩]
  unfold shapeStep
  cases d with
  | native d => simp only [hget]
  | duration => simp only [hget]
  | scalar kind =>
    cases kind with
    | float kind => simp only [hget, underlying_of_not_declared hget rfl, true_or, if_true]
    | _ => simp only [hget]
  | pointer target =>
    simp only [hget]
    rw [← hcall _ _ (.target hget) (hd.part h.toFormed hget (List.mem_singleton.2 rfl))]
    rfl
  | sequence element kind =>
    simp only [hget]
    rw [← hcall _ _ (.element hget) (hd.part h.toFormed hget (List.mem_singleton.2 rfl))]
    rfl
  | mapping key value =>
    simp only [hget]
    rw [← hcall _ _ (.key hget) (hd.part h.toFormed hget List.mem_cons_self),
      ← hcall _ _ (.value hget) (hd.part h.toFormed hget (List.mem_cons_of_mem _ (List.mem_singleton.2 rfl)))]
    rfl
  | struct members =>
    simp only [hget]
    refine lift_bind_congr _ ?_
    rw [value_collect (underlying_of_not_declared hget rfl)]
    congr 1
    refine mapM_congr _ fun f hf => ?_
    have hf' := mem_writingOrder.1 hf
    rw [← hcall _ _ (.field hget hf') (hd.field h.toFormed hget hf')]
    rfl
  | named d =>
    simp only [hget]
    split
    · rfl
    · rename_i hgo
      split
      · rename_i hnew
        exact hcall _ [] (.unwrap hget (fun hu => hgo (Or.inr hu)) hnew) (Or.inl rfl)
      · rfl

theorem shapeAt_eq {t : TypeTable} (h : t.Sound) {w : Walk} (hw : w.current < t.size) :
    t.shapeAt w = t.shapeStep t.shapeAt w :=
  shapeFrom_eq h w hw [] (Or.inl rfl)

/-! ## The end -/

/-- **So many calls are enough**: what is done below them never matters. -/
theorem iterate_shapeStep_of_lt {t : TypeTable} (h : t.Sound) (go : Walk → Compile Shape) : ∀ (n : Nat) (w : Walk),
    w.current < t.size → t.rank w < n → (t.shapeStep)^[n] go w = t.shapeAt w
  | 0, _, _, hr => absurd hr (Nat.not_lt_zero _)
  | n + 1, w, hw, hr => by
    rw [Function.iterate_succ_apply', shapeAt_eq h hw]
    exact shapeStep_congr hw fun w' hc =>
      iterate_shapeStep_of_lt h go n w' (hc.current_lt h hw)
        (Nat.lt_of_lt_of_le (hc.rank_lt h hw) (Nat.le_of_lt_succ hr))

/-- **The opening of a type ends** within a depth of calls that the size of the table decides. -/
theorem iterate_shapeStep {t : TypeTable} (h : t.Sound) {id : TypeId} (hid : id < t.size) (go : Walk → Compile Shape) :
    (t.shapeStep)^[t.callBound] go (t.startWalk [] id) = t.shape id :=
  iterate_shapeStep_of_lt h go _ _ hid (rank_lt_callBound hid)

end TypeTable
end BencodePlan
