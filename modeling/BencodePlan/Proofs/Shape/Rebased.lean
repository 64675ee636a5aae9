import BencodePlan.Proofs.Run.Rerouted
import BencodePlan.Proofs.Schema.Validity
import BencodePlan.Proofs.Shape.Result
import Mathlib
/-!
# Plans at other selectors

A type is compiled wherever it occurs: at some selector, inside so many loops, while the types around it are being opened.
`compileFrom_eq` is that recursion in one pass, where the selector grows on the way down and starts anew in the loops.

What is compiled does not depend on where it begins.  Another selector gives the same instructions from there
(`plan_eq_onto`), and the types that are being opened around a type can only make it fail, never change its instructions
(`shapeAt_of_fewer`).
-/
namespace BencodePlan

namespace Selector

/-- **A selector from another place**: the base takes the place of the value being encoded. -/
def onto (base : Selector) : Selector → Selector
  | root => base
  | field s name => field (onto base s) name
  | deref s => deref (onto base s)
  | seconds s => seconds (onto base s)
  | elem depth => elem depth
  | key depth => key depth
  | value s depth => value (onto base s) depth

theorem carries_onto (base : Selector) : Carries fun s s' => s' = onto base s where
  field name h := by rw [h, onto]
  deref h := by rw [h, onto]
  seconds h := by rw [h, onto]
  elem _ := rfl
  key _ := rfl
  value depth h := by rw [h, onto]

end Selector

open Instruction

/-- **The plan of a shape at a selector** is the plan at the value being encoded, from that selector. -/
theorem Shape.plan_eq_onto (shape : Shape) (source : Selector) (depth : Nat) :
    shape.plan source depth = withSelectorsAll (Selector.onto source) (shape.plan .root depth) :=
  parallelAll_eq_withSelectors (fun _ _ h => h) _ (shape.plan_parallel (Selector.carries_onto source) rfl)

namespace TypeTable

open Compile

variable {t : TypeTable}

/-! ## Compilation in one pass -/

/-- **The instructions for what a walk has come to**, found at a selector, inside so many loops. -/
def compileFrom (t : TypeTable) (w : Walk) (source : Selector) (depth : Nat) : Compile (List Instruction) := do
  return (← t.shapeAt w).plan source depth

def compileWithin (t : TypeTable) (expanding : List TypeId) (source : Selector) (id : TypeId) (depth : Nat) :
    Compile (List Instruction) :=
  t.compileFrom (t.startWalk expanding id) source depth

theorem compileWithin_nil (t : TypeTable) : t.compileWithin [] = t.compileAt := rfl

def fieldPlan (source : Selector) (slot : Slot) (body : List Instruction) : List Instruction :=
  match slot.test with
  | none => .literal (Wire.key slot.key) :: body
  | some test => [.when (slot.selector source) test (.literal (Wire.key slot.key) :: body)]

theorem planFields_cons (source : Selector) (depth : Nat) (p : Slot × Shape) (rest : List (Slot × Shape)) :
    Shape.planFields source depth (p :: rest) =
      fieldPlan source p.1 (p.2.plan (p.1.selector source) depth) ++ Shape.planFields source depth rest := by
  cases htest : p.1.test with
  | none => simp only [Shape.planFields, fieldPlan, htest]
  | some test => simp only [Shape.planFields, fieldPlan, htest]

theorem planFields_mapM {α : Type} (source : Selector) (depth : Nat) (g : α → Compile (Slot × Shape)) : ∀ l : List α,
    (do return Shape.planFields source depth (← l.mapM g)) =
      (do
        let parts ← l.mapM fun a => do
          let p ← g a
          return fieldPlan source p.1 (p.2.plan (p.1.selector source) depth)
        return parts.flatten)
  | [] => rfl
  | a :: l => by
    simp only [List.mapM_cons, bind_assoc, pure_bind, planFields_cons, List.flatten_cons]
    refine bind_congr fun p => ?_
    have ih := congrArg (fun x : Compile (List Instruction) => do
      return fieldPlan source p.1 (p.2.plan (p.1.selector source) depth) ++ (← x)) (planFields_mapM source depth g l)
    simpa only [bind_assoc, pure_bind] using ih

/-- **Compilation in one pass.** -/
theorem compileFrom_eq (h : t.Sound) {w : Walk} (hw : w.current < t.size) (source : Selector) (depth : Nat) :
    t.compileFrom w source depth =
    match t.get? w.current with
    | some (.native _) => do
      Compile.tell (.nativeFound (t.display w.current))
      return [.native source]
    | some .duration => return Shape.framedInt (.seconds source)
    | some (.scalar .bool) => return [.ascii "i", .bool source, .ascii "e"]
    | some (.scalar (.int _)) => return Shape.framedInt source
    | some (.scalar .str) => return [.string source]
    | some (.pointer target) => t.compileFrom (t.deref w target) (.deref source) depth
    | some (.sequence element _) => do
      let body ← t.compileWithin w.expanding (.elem depth) element (Shape.deeper depth)
      return [.ascii "l", .list source depth body, .ascii "e"]
    | some (.mapping key value) =>
      if t.isStringKey key then do
        let k ← t.compileWithin w.expanding (.key depth) key (Shape.deeper depth)
        let v ← t.compileWithin w.expanding (.value source depth) value (Shape.deeper depth)
        return [.ascii "d", .map source depth (t.nameOf key) (k ++ v), .ascii "e"]
      else throw (.nonStringMapKey (t.display w.current) (t.display key))
    | some (.struct _) => do
      let owner := w.owner.getD (t.display w.current)
      let fields ← ExceptT.lift (Field.collect t owner w.current)
      let parts ← (writingOrder fields).mapM fun f => do
        let body ← t.compileWithin w.expanding (source.fields (f.path ++ [f.name])) f.type depth
        let slot ← ExceptT.mk (pure (t.slotOf owner f))
        return fieldPlan source slot body
      return .ascii "d" :: parts.flatten ++ [.ascii "e"]
    | some (.scalar (.float _)) | some (.named _) | none =>
      if t.underlying w.current = w.current ∨ w.unwraps = maxUnwraps then throw (.unsupportedType (t.display w.top))
      else if w.current ∉ w.expanding then t.compileFrom (t.unwrap w) source depth
      else throw (.recursiveType (t.display w.current)) := by
  obtain ⟨d, hget⟩ := exists_get? hw
  unfold compileFrom
  rw [shapeAt_eq h hw]
  unfold shapeStep
  cases d with
  | native d =>
    simp only [hget]
    rfl
  | duration =>
    simp only [hget]
    rfl
  | scalar kind =>
    cases kind with
    | float kind =>
      simp only [hget, underlying_of_not_declared hget rfl, true_or, if_true]
      rfl
    | _ =>
      simp only [hget]
      rfl
  | pointer target =>
    simp only [hget, bind_assoc, pure_bind, Shape.plan]
  | sequence element kind =>
    simp only [hget, compileWithin, compileFrom, bind_assoc, pure_bind, Shape.plan]
  | mapping key value =>
    simp only [hget]
    split
    · simp only [compileWithin, compileFrom, bind_assoc, pure_bind, Shape.plan]
    · rfl
  | struct members =>
    simp only [hget, bind_assoc, pure_bind, Shape.plan]
    refine bind_congr fun fields => ?_
    have hfields := congrArg (fun x : Compile (List Instruction) => do
      return Instruction.ascii "d" :: (← x) ++ [Instruction.ascii "e"]) (planFields_mapM source depth (fun f => do
        let shape ← t.shapeAt (t.startWalk w.expanding f.type)
        let slot ← ExceptT.mk (pure (t.slotOf (w.owner.getD (t.display w.current)) f))
        return (slot, shape)) (writingOrder fields))
    simp only [bind_assoc, pure_bind] at hfields
    rw [hfields]
    congr 1
    refine mapM_congr _ fun f _ => ?_
    simp only [compileWithin, compileFrom, bind_assoc, pure_bind]
    refine bind_congr fun shape => ?_
    cases hslot : t.slotOf (w.owner.getD (t.display w.current)) f with
    | error e => rfl
    | ok slot =>
      rw [(slotOf_ok hslot).1]
      rfl
  | named d =>
    simp only [hget]
    split
    · rfl
    · split <;> rfl

/-! ## The types around -/

/-- **What is opened inside some types is opened the same inside fewer of them.** -/
theorem shapeAt_of_fewer (h : t.Sound) {w : Walk} (hw : w.current < t.size) : ∀ {fewer : List TypeId} {s : Shape},
    (∀ id ∈ fewer, id ∈ w.expanding) → result (t.shapeAt w) = .ok s →
    t.shapeAt { w with expanding := fewer } = t.shapeAt w := by
  refine h.walk_induction (P := fun w => ∀ {fewer : List TypeId} {s : Shape}, (∀ id ∈ fewer, id ∈ w.expanding) →
    result (t.shapeAt w) = .ok s → t.shapeAt { w with expanding := fewer } = t.shapeAt w) ?_ w hw
  intro w hw ih fewer s hfewer hs
  -- at the types below nothing more is being opened
  have hbelow : ∀ {id : TypeId} {s : Shape}, t.Calls w (t.startWalk w.expanding id) →
      result (t.shapeAt (t.startWalk w.expanding id)) = .ok s →
      t.shapeAt (t.startWalk fewer id) = t.shapeAt (t.startWalk w.expanding id) :=
    fun hc hs => ih _ hc hfewer hs
  have hyields := yields_of_result h hw hs
  rw [shapeAt_eq h hw, shapeAt_eq h (w := { w with expanding := fewer }) hw]
  unfold shapeStep
  cases hyields with
  | native hget | duration hget | bool hget | int hget | string hget => simp only [hget]
  | optional hget hi =>
    have htarget : t.shapeAt (t.deref { w with expanding := fewer } _) = _ := ih _ (.target hget) hfewer hi
    simp only [hget, htarget]
  | list hget hi => simp only [hget, hbelow (.element hget) hi]
  | map hget hkey hk hv => simp only [hget, hkey, hbelow (.key hget) hk, hbelow (.value hget) hv]
  | struct hget hfields =>
    simp only [hget]
    refine lift_bind_congr _ ?_
    rw [value_collect (underlying_of_not_declared hget rfl)]
    congr 1
    refine mapM_congr _ fun f hf => ?_
    obtain ⟨p, -, hp, -⟩ := exists_of_forall₂ hfields hf
    rw [hbelow (.field hget (mem_writingOrder.1 hf)) hp]
  | unwrap hget hun hnew hi =>
    have hnew' : w.current ∉ fewer := fun hmem => hnew (hfewer _ hmem)
    have hmore : ∀ id ∈ w.current :: fewer, id ∈ (t.unwrap w).expanding :=
      List.forall_mem_cons.2 ⟨List.mem_cons_self, fun id hid => List.mem_cons_of_mem _ (hfewer id hid)⟩
    have hbody : t.shapeAt (t.unwrap { w with expanding := fewer }) = t.shapeAt (t.unwrap w) :=
      ih _ (.unwrap hget hun hnew) hmore hi
    simp only [hget, hun, h.underlying_ne_self hget, hnew, hnew', hbody, or_self, if_false, not_false_eq_true, if_true]

/-! ## The same type elsewhere -/

/-- **Compilation at a selector** is compilation at the value being encoded, with that selector in its place afterwards. -/
theorem compileFrom_eq_onto (t : TypeTable) (w : Walk) (source : Selector) (depth : Nat) :
    t.compileFrom w source depth = withSelectorsAll (Selector.onto source) <$> t.compileFrom w .root depth := by
  simp only [compileFrom, Shape.plan_eq_onto _ source, map_bind, map_pure]

theorem compileWithin_of_ok (h : t.Sound) {id : TypeId} (hid : id < t.size) {expanding : List TypeId} {source : Selector}
    {depth : Nat} {is : List Instruction} (his : result (t.compileWithin expanding source id depth) = .ok is) :
    t.compileWithin expanding source id depth = t.compileAt source id depth := by
  obtain ⟨shape, hshape, -⟩ := result_bind_ok his
  have hnone : ∀ a ∈ ([] : List TypeId), a ∈ (t.startWalk expanding id).expanding := List.forall_mem_nil _
  have hsame := shapeAt_of_fewer h hid hnone hshape
  rw [compileWithin, compileFrom, ← hsame]
  rfl

end TypeTable

namespace Compile

variable {α β : Type}

theorem notices_map (f : α → β) (x : Compile α) : (f <$> x).run.notices = x.run.notices := by
  rw [ExceptT.run_map]
  exact List.append_nil _

theorem result_map (f : α → β) (x : Compile α) : result (f <$> x) = (result x).map f := by
  rw [result, ExceptT.run_map]
  rfl

end Compile

namespace Schema

open TypeTable Compile

/-- **Compilation commutes with the selector it begins at.**  A type is compiled at a selector with the same notices as at
the value being encoded, fails with the same error, and else has the same instructions from that selector.  Where it is
compiled inside other types, its instructions are also those that it has by itself. -/
theorem compile_onto {raw : RawSchema} {s : Schema} (hs : (ofRaw raw).value = .ok s) {id : TypeId} (hid : id < s.table.size)
    (expanding : List TypeId) (source : Selector) (depth : Nat) :
    (s.table.compileWithin expanding source id depth).run.notices =
      (s.table.compileWithin expanding .root id depth).run.notices ∧
    (∀ e, result (s.table.compileWithin expanding source id depth) = .error e ↔
      result (s.table.compileWithin expanding .root id depth) = .error e) ∧
    (∀ is, result (s.table.compileWithin expanding source id depth) = .ok is ↔
      ∃ is', result (s.table.compileWithin expanding .root id depth) = .ok is' ∧
        is = withSelectorsAll (Selector.onto source) is') ∧
    (∀ is, result (s.table.compileWithin expanding source id depth) = .ok is →
      s.table.compileWithin expanding source id depth =
        withSelectorsAll (Selector.onto source) <$> s.table.compileAt .root id depth) := by
  have heq : s.table.compileWithin expanding source id depth =
      withSelectorsAll (Selector.onto source) <$> s.table.compileWithin expanding .root id depth :=
    compileFrom_eq_onto ..
  have hresult := congrArg result heq
  rw [result_map] at hresult
  refine ⟨by rw [heq, notices_map], fun e => ?_, fun is => ?_, fun is his => ?_⟩
  · rw [hresult]
    cases result (s.table.compileWithin expanding .root id depth) <;> simp [Except.map]
  · rw [hresult]
    cases result (s.table.compileWithin expanding .root id depth) <;> simp [Except.map, eq_comm]
  · rw [compileWithin_of_ok (sound_of_ofRaw hs) hid his, ← compileWithin_nil]
    exact compileFrom_eq_onto ..

def branchDocument : RawSchema :=
  ⟨none, [⟨"Branch", none, some "Map<str, Option<Leaf>>", false⟩,
    ⟨"Leaf", some [⟨"weight", "i64", none, false⟩], none, false⟩]⟩

def branchTable : TypeTable :=
  ⟨[.named ⟨"Branch", some 4⟩, .named ⟨"Leaf", some 6⟩, .scalar .str, .pointer 1, .mapping 2 3, .scalar (.int .i64),
    .struct [⟨"weight", 5, none, false⟩]],
    [(.scalar .str, 2), (.pointer 1, 3), (.mapping 2 3, 4), (.scalar (.int .i64), 5),
      (.struct [⟨"weight", 5, none, false⟩], 6)], [("Branch", 0), ("Leaf", 1)]⟩

def leafPlan : List Instruction :=
  [.ascii "d", .literal (Wire.key "weight"), .ascii "i", .int (.field (.deref .root) "weight"), .ascii "e", .ascii "e"]

/-- **The entries of a branch** are written as a reference by itself is. -/
theorem leaf_onto_entry : (ofRaw branchDocument).value = .ok ⟨none, branchTable⟩ ∧
    result (branchTable.compileWithin [0] (.value .root 0) 3 1) =
      .ok (withSelectorsAll (Selector.onto (.value .root 0)) leafPlan) ∧
    branchTable.compileWithin [0] (.value .root 0) 3 1 =
      withSelectorsAll (Selector.onto (.value .root 0)) <$> branchTable.compileAt .root 3 1 := by
  have hs : (ofRaw branchDocument).value = .ok ⟨none, branchTable⟩ := ofRaw_eq_ok (by decide +kernel)
  have hleaf : result (branchTable.compileWithin [0] .root 3 1) = .ok leafPlan := by cbv
  obtain ⟨-, -, hok, hsame⟩ := compile_onto hs (show 3 < branchTable.size by decide) [0] (.value .root 0) 1
  have hentry := (hok _).2 ⟨leafPlan, hleaf, rfl⟩
  exact ⟨hs, hentry, hsame _ hentry⟩

end Schema
end BencodePlan
