import BencodePlan.Proofs.Run.Loops
/-!
# The plan of a shape writes its encoding

A plan names values by selectors, and what a selector finds depends on the loops around.  `Reads` says what it finds there
and in all the loops further in, whose variables are bound at greater depths.  From this, by induction on the shape, the
plan gives what the encoder of the shape gives (`plan_gives`), as long as loops are not nested deeper than depths are
counted.
-/
namespace BencodePlan

theorem toOption_bind {α β : Type} (x : Except RunError α) (f : α → Except RunError β) :
    (x >>= f).toOption = x.toOption.bind fun a => (f a).toOption := by
  cases x <;> rfl

/-- **What a selector finds** inside so many loops, and in the loops further in. -/
structure Reads (whole : Value) (source : Selector) (depth : Nat) (s : State) (v : Option Value) : Prop where
  addressable : source.isComputed = false
  resolve : ∀ s', s.Agree depth s' → (source.resolve whole s').toOption = v

namespace Reads

variable {whole : Value} {source : Selector} {depth : Nat} {s : State} {v : Option Value}

theorem here (h : Reads whole source depth s v) : (source.resolve whole s).toOption = v :=
  h.resolve s (State.Agree.refl depth s)

theorem resolveAddressed (h : Reads whole source depth s v) {β : Type} (f : Value → Except RunError β) :
    (source.resolveAddressed whole s >>= f).toOption = v.bind fun x => (f x).toOption := by
  rw [toOption_bind, Selector.resolveAddressed, toOption_bind, h.here, Option.bind_assoc]
  congr 1
  funext x
  unfold Selector.addressed
  rw [h.addressable]
  rfl

theorem addressed (h : Reads whole source depth s v) {β : Type} (f : Value → Except RunError β) {s' : State}
    (hs : s.Agree depth s') : (source.resolve whole s' >>= fun x => source.addressed x >>= f).toOption =
      v.bind fun x => (f x).toOption := by
  rw [toOption_bind, h.resolve s' hs]
  congr 1
  funext x
  unfold Selector.addressed
  rw [h.addressable]
  rfl

theorem root (whole : Value) (depth : Nat) (s : State) : Reads whole .root depth s (some whole) :=
  ⟨rfl, fun _ _ => rfl⟩

theorem field (h : Reads whole source depth s v) (name : String) :
    Reads whole (.field source name) depth s (Value.member? v name) := by
  refine ⟨rfl, fun s' hs => ?_⟩
  rw [Selector.resolve, h.addressed _ hs]
  cases v with
  | none => rfl
  | some x =>
    cases x with
    | struct fields =>
      change (source.fieldOf name (.struct fields)).toOption = fields.lookup name
      simp only [Selector.fieldOf]
      cases fields.lookup name <;> rfl
    | _ => rfl

theorem fields : ∀ (path : List String) {source : Selector} {v : Option Value}, Reads whole source depth s v →
    Reads whole (source.fields path) depth s (Value.along v path)
  | [], _, _, h => h
  | name :: path, _, _, h => fields path (h.field name)

theorem deref (h : Reads whole source depth s v) : Reads whole (.deref source) depth s (Value.target? v) := by
  refine ⟨h.addressable, fun s' hs => ?_⟩
  rw [Selector.resolve, toOption_bind, h.resolve s' hs]
  cases v with
  | none => rfl
  | some x => cases x <;> rfl

theorem elem (whole : Value) (depth : Nat) (s : State) (x : Value) :
    Reads whole (.elem depth) (depth + 1) (s.bindElem depth x) (some x) := by
  refine ⟨rfl, fun s' hs => ?_⟩
  rw [Selector.resolve, (hs depth (Nat.lt_succ_self _)).1, State.bindElem, Slots.lookup_bind_self]
  rfl

theorem keyAt_bindKey {k : Bytes} {s' : State} (hs : (s.bindKey depth k).Agree (depth + 1) s') :
    Selector.keyAt s' depth = .ok k := by
  unfold Selector.keyAt
  rw [(hs depth (Nat.lt_succ_self _)).2, State.bindKey, Slots.lookup_bind_self]

theorem key (whole : Value) (depth : Nat) (s : State) (k : Bytes) :
    Reads whole (.key depth) (depth + 1) (s.bindKey depth k) (some (.string k)) := by
  refine ⟨rfl, fun s' hs => ?_⟩
  rw [Selector.resolve, keyAt_bindKey hs]
  rfl

theorem value {pairs : List (Value × Value)} (h : Reads whole source depth s (some (.map pairs))) (k : Bytes) :
    Reads whole (.value source depth) (depth + 1) (s.bindKey depth k) (Value.valueAt? k pairs) := by
  refine ⟨rfl, fun s' hs => ?_⟩
  rw [Selector.resolve, h.addressed _ hs.of_bindKey, keyAt_bindKey hs]
  change (source.entryOf depth k (.map pairs)).toOption = _
  simp only [Selector.entryOf]
  cases Value.valueAt? k pairs <;> rfl

end Reads

namespace Instruction

variable {whole : Value} {source : Selector} {depth : Nat} {s : State} {v : Option Value}

theorem gives_leaf (hs : s.Inside depth) (h : Reads whole source depth s v) (bytesOf : Value → Except RunError Bytes) :
    (Step.withValue s (source.resolve whole s >>= bytesOf) fun b => Step.write b s).Gives s
      (v.bind fun x => (bytesOf x).toOption) := by
  rw [← h.here, ← toOption_bind]
  exact Step.gives_writeFound hs.room _

/-- **Framing** around instructions. -/
theorem gives_framed (hs : s.Inside depth) {text : String} {opening : Char} (htext : text.toList = [opening])
    {is : List Instruction} {r : Option Bytes} (h : (runAll whole is s).Gives s r) :
    (runAll whole (.ascii text :: (is ++ [.ascii "e"])) s).Gives s (Encoder.framed opening r) := by
  have hopening : ((Instruction.ascii text).run whole s).Gives s (some (Wire.ascii [opening])) := by
    rw [← htext]
    exact Step.gives_write hs.room _
  have hclosing : (runAll whole [.ascii "e"] s).Gives s (some (Wire.ascii ['e'])) := by
    rw [runAll_singleton]
    exact Step.gives_write hs.room _
  rw [runAll_cons]
  refine hopening.andThen ?_
  rw [runAll_append]
  exact h.andThen hclosing

theorem gives_framedOne (hs : s.Inside depth) {text : String} {opening : Char} (htext : text.toList = [opening])
    {i : Instruction} {r : Option Bytes} (h : (i.run whole s).Gives s r) :
    (runAll whole [.ascii text, i, .ascii "e"] s).Gives s (Encoder.framed opening r) :=
  gives_framed hs htext (by rw [runAll_singleton]; exact h)

/-! ## Loops -/

theorem gives_list (hs : s.Inside depth) (h : Reads whole source depth s v) {body : List Instruction}
    {element : Encoder}
    (hbody : ∀ x, (runAll whole body (s.bindElem depth x)).Gives (s.bindElem depth x) (element (some x))) :
    (runAll whole [.ascii "l", .list source depth body, .ascii "e"] s).Gives s (Encoder.list element v) := by
  have hloop : ((Instruction.list source depth body).run whole s).Gives s
      ((v.bind fun x => (elementsOf source x).toOption).bind fun items =>
        Encoder.concat (items.map fun x => element (some x))) := by
    rw [← h.resolveAddressed (elementsOf source), run]
    refine Step.gives_withValue fun items => ?_
    exact Step.gives_each (State.bindElem depth) (State.unbindElem depth)
      (fun s x => by simp only [State.bindElem, State.unbindElem, Slots.bind_unbind])
      (fun s x => by simp only [State.bindElem, State.unbindElem, Slots.unbind_bind]) hs.unbindElem
      (runAll whole body) items (fun x _ => hbody x) s hs.unbindElem
  have heq : Encoder.list element v = Encoder.framed 'l' ((v.bind fun x => (elementsOf source x).toOption).bind
      fun items => Encoder.concat (items.map fun x => element (some x))) := by
    cases v with
    | none => rfl
    | some x => cases x <;> rfl
  rw [heq]
  exact gives_framedOne hs rfl hloop

theorem toOption_keysOfPairs (source : Selector) : ∀ pairs : List (Value × Value),
    (keysOfPairs source pairs).toOption = Value.stringKeys? pairs
  | [] => rfl
  | (k, x) :: rest => by
    cases k with
    | string k =>
      rw [keysOfPairs, toOption_bind, toOption_keysOfPairs source rest]
      rfl
    | _ => rfl

theorem gives_map (hs : s.Inside depth) (h : Reads whole source depth s v) {cast : Option String}
    {body : List Instruction} {key value : Encoder}
    (hbody : ∀ pairs k, v = some (.map pairs) → (runAll whole body (s.bindKey depth k)).Gives (s.bindKey depth k)
      (Encoder.append (key (some (.string k))) (value (Value.valueAt? k pairs)))) :
    (runAll whole [.ascii "d", .map source depth cast body, .ascii "e"] s).Gives s (Encoder.map key value v) := by
  have hframed : ∀ r, ((Instruction.map source depth cast body).run whole s).Gives s r →
      (runAll whole [.ascii "d", .map source depth cast body, .ascii "e"] s).Gives s (Encoder.framed 'd' r) :=
    fun r hr => gives_framedOne hs rfl hr
  have hfound := h.resolveAddressed (sortedKeysOf source)
  have hnone : (v.bind fun x => (sortedKeysOf source x).toOption) = none →
      (runAll whole [.ascii "d", .map source depth cast body, .ascii "e"] s).Gives s none := fun hn =>
    hframed none (by rw [run]; exact Step.gives_withValue_none _ (hfound.trans hn))
  cases v with
  | none => exact hnone rfl
  | some x =>
    cases x with
    | map pairs =>
      have hkeys : (sortedKeysOf source (.map pairs)).toOption = (Value.stringKeys? pairs).map Wire.sortedKeys := by
        rw [sortedKeysOf, toOption_bind, toOption_keysOfPairs]
        cases Value.stringKeys? pairs <;> rfl
      have hloop : ((Instruction.map source depth cast body).run whole s).Gives s
          (((Value.stringKeys? pairs).map Wire.sortedKeys).bind fun keys => Encoder.concat (keys.map fun k =>
            Encoder.append (key (some (.string k))) (value (Value.valueAt? k pairs)))) := by
        rw [← hkeys, ← Option.bind_some (Value.map pairs) fun x => (sortedKeysOf source x).toOption, ← hfound, run]
        refine Step.gives_withValue fun keys => ?_
        exact Step.gives_each (State.bindKey depth) (State.unbindKey depth)
          (fun s x => by simp only [State.bindKey, State.unbindKey, Slots.bind_unbind])
          (fun s x => by simp only [State.bindKey, State.unbindKey, Slots.unbind_bind]) hs.unbindKey
          (runAll whole body) keys (fun k _ => hbody pairs k rfl) s hs.unbindKey
      have hgives := hframed _ hloop
      rw [Encoder.map]
      cases hk : Value.stringKeys? pairs with
      | none =>
        rw [hk] at hgives
        exact hgives
      | some keys =>
        rw [hk] at hgives
        exact hgives
    | _ => exact hnone rfl

/-! ## Fields -/

theorem toOption_isPresent (source : Selector) (test : EmptinessTest) (x : Value) :
    (test.isPresent source x).toOption = test.presence? x := by
  cases test <;> cases x <;> rfl

theorem gives_when (h : Reads whole source depth s v) (test : EmptinessTest) {body : List Instruction}
    {r : Option Bytes} (hbody : (runAll whole body s).Gives s r) :
    ((Instruction.when source test body).run whole s).Gives s
      ((v.bind test.presence?).bind fun present => if present then r else some []) := by
  have hfound : (source.resolve whole s >>= test.isPresent source).toOption = v.bind test.presence? := by
    rw [toOption_bind, h.here]
    congr 1
    funext x
    exact toOption_isPresent source test x
  rw [← hfound, run]
  refine Step.gives_withValue fun present => ?_
  cases present with
  | true => exact hbody
  | false => exact Step.gives_done

end Instruction

namespace Shape

open Instruction

theorem deeper_eq {depth n : Nat} (h : depth + (n + 1) < 65536) : deeper depth = depth + 1 :=
  Nat.mod_eq_of_lt (by omega)

theorem gives_framedInt {whole : Value} {source : Selector} {s : State} {depth : Nat} (hs : s.Inside depth)
    {v : Option Value} (h : (source.resolve whole s).toOption = v) :
    (runAll whole (framedInt source) s).Gives s (Encoder.int v) := by
  have hleaf : ((Instruction.int source).run whole s).Gives s (v.bind fun x => (intBytes source x).toOption) := by
    rw [← h, ← toOption_bind, run]
    exact Step.gives_writeFound hs.room _
  have hframed : (runAll whole (framedInt source) s).Gives s _ := gives_framedOne hs rfl hleaf
  cases v with
  | none => exact hframed
  | some x => cases x <;> exact hframed

mutual
/-- **The plan of a shape gives what its encoder gives** for what is found at the selector. -/
theorem plan_gives (whole : Value) : ∀ (shape : Shape) {source : Selector} {depth : Nat} {s : State} {v : Option Value},
    s.Inside depth → Reads whole source depth s v → depth + nestingAll (shape.plan source depth) < 65536 →
    (runAll whole (shape.plan source depth) s).Gives s (shape.encode v)
  | .native, source, depth, s, v, hs, hr, _ => by
    rw [plan, runAll_singleton, encode]
    have hleaf := gives_leaf hs hr (nativeBytes source)
    cases v with
    | none => exact hleaf
    | some x => cases x <;> exact hleaf
  | .string, source, depth, s, v, hs, hr, _ => by
    rw [plan, runAll_singleton, encode]
    have hleaf := gives_leaf hs hr (stringBytes source)
    cases v with
    | none => exact hleaf
    | some x => cases x <;> exact hleaf
  | .bool, source, depth, s, v, hs, hr, _ => by
    rw [plan, encode]
    have hleaf : ((Instruction.bool source).run whole s).Gives s _ := gives_leaf hs hr (boolBytes source)
    have hframed : (runAll whole [.ascii "i", .bool source, .ascii "e"] s).Gives s _ := gives_framedOne hs rfl hleaf
    cases v with
    | none => exact hframed
    | some x => cases x <;> exact hframed
  | .int, source, depth, s, v, hs, hr, _ => by
    rw [plan, encode]
    exact gives_framedInt hs hr.here
  | .duration, source, depth, s, v, hs, hr, _ => by
    rw [plan, encode]
    have hseconds : ((Selector.seconds source).resolve whole s).toOption = v.bind fun x => match x with
        | .duration seconds _ => some (.int seconds)
        | _ => none := by
      rw [Selector.resolve, toOption_bind, hr.here]
      congr 1
      funext x
      cases x <;> rfl
    have hint := gives_framedInt hs hseconds
    cases v with
    | none => exact hint
    | some x => cases x <;> exact hint
  | .optional inner, source, depth, s, v, hs, hr, hn => by
    rw [plan] at hn ⊢
    rw [encode]
    exact plan_gives whole inner hs hr.deref hn
  | .list element, source, depth, s, v, hs, hr, hn => by
    rw [plan] at hn ⊢
    rw [encode]
    simp only [nestingAll, nesting, ascii, Nat.zero_max, Nat.max_zero] at hn
    have hdeep := deeper_eq hn
    rw [hdeep] at hn ⊢
    exact gives_list hs hr fun x => plan_gives whole element (hs.bindElem x) (Reads.elem whole depth s x) (by omega)
  | .map cast key value, source, depth, s, v, hs, hr, hn => by
    rw [plan] at hn ⊢
    rw [encode]
    simp only [nestingAll, nesting, ascii, Nat.zero_max, Nat.max_zero, nestingAll_append] at hn
    have hdeep := deeper_eq hn
    rw [hdeep] at hn ⊢
    refine gives_map hs hr fun pairs k hv => ?_
    rw [hv] at hr
    rw [runAll_append]
    exact (plan_gives whole key (hs.bindKey k) (Reads.key whole depth s k) (by omega)).andThen
      (plan_gives whole value (hs.bindKey k) (hr.value k) (by omega))
  | .struct fields, source, depth, s, v, hs, hr, hn => by
    rw [plan] at hn ⊢
    rw [encode]
    simp only [nestingAll, nesting, ascii, Nat.zero_max, Nat.max_zero, nestingAll_append, List.cons_append] at hn
    exact gives_framed hs rfl (planFields_gives whole fields hs hr hn)
termination_by structural shape => shape

theorem planFields_gives (whole : Value) : ∀ (fields : List (Slot × Shape)) {source : Selector} {depth : Nat} {s : State}
    {v : Option Value}, s.Inside depth → Reads whole source depth s v →
    depth + nestingAll (planFields source depth fields) < 65536 →
    (runAll whole (planFields source depth fields) s).Gives s
      (Encoder.concat ((encoders fields).map fun p => Encoder.field p.1 p.2 v))
  | [], _, _, _, _, _, _, _ => Step.gives_done
  | (slot, shape) :: rest, source, depth, s, v, hs, hr, hn => by
    have hfound : Reads whole (slot.selector source) depth s (Value.along v (slot.path ++ [slot.name])) := hr.fields _
    have hwritten : depth + nestingAll (shape.plan (slot.selector source) depth) < 65536 →
        (runAll whole (.literal (Wire.key slot.key) :: shape.plan (slot.selector source) depth) s).Gives s
          (Encoder.append (some (Wire.key slot.key)) (shape.encode (Value.along v (slot.path ++ [slot.name])))) :=
      fun hlt => (Step.gives_write hs.room _).andThen (plan_gives whole shape hs hfound hlt)
    rw [planFields] at hn ⊢
    rw [encoders, List.map_cons, Encoder.concat, runAll_append]
    simp only [nestingAll_append] at hn
    refine Step.Gives.andThen ?_ (planFields_gives whole rest hs hr (by omega))
    unfold Encoder.field
    cases htest : slot.test with
    | none =>
      simp only [htest, nestingAll, nesting, Nat.zero_max] at hn ⊢
      exact hwritten (by omega)
    | some test =>
      simp only [htest, nestingAll, nesting, Nat.zero_max, Nat.max_zero] at hn ⊢
      rw [runAll_singleton]
      exact gives_when hfound test (hwritten (by omega))
termination_by structural fields => fields
end

end Shape
end BencodePlan
