import BencodePlan.Run.Machine
import BencodePlan.Plan.Fold
/-!
# Folded plans run alike

Steps can be regrouped (`Step.andThen_assoc`), and writing bytes in two parts is writing them at once, also where the output
is full in the middle (`Step.write_append`).  So a folded list of instructions does what the list does from every state:
the same bytes, the same state after them, the same error (`runAll_fold`).
-/
namespace BencodePlan
namespace Step

theorem andThen_of_error {a : Step} {e : RunError} (h : a.error? = some e) (f : State → Step) : a.andThen f = a := by
  simp only [andThen, h]

theorem andThen_of_none {a : Step} (h : a.error? = none) (f : State → Step) :
    a.andThen f = ⟨a.bytes ++ (f a.state).bytes, (f a.state).state, (f a.state).error?⟩ := by
  simp only [andThen, h]

theorem andThen_done (a : Step) : a.andThen done = a := by
  obtain ⟨bytes, state, error?⟩ := a
  cases error? with
  | none =>
    change (⟨bytes ++ [], state, none⟩ : Step) = ⟨bytes, state, none⟩
    rw [List.append_nil]
  | some e => rfl

theorem andThen_assoc (a : Step) (f g : State → Step) :
    (a.andThen f).andThen g = a.andThen fun s => (f s).andThen g := by
  obtain ⟨bytes, state, error?⟩ := a
  cases error? with
  | some e => rfl
  | none =>
    unfold andThen
    simp only
    cases he : (f state).error? with
    | some e => simp only [he]
    | none => simp only [List.append_assoc]

/-- **Bytes that are written in two parts.** -/
theorem write_append (a b : Bytes) (s : State) : (write a s).andThen (write b) = write (a ++ b) s := by
  obtain ⟨elems, keys, room⟩ := s
  cases room with
  | none => rfl
  | some n =>
    unfold write
    simp only [List.length_append]
    by_cases ha : a.length ≤ n
    · rw [if_pos ha]
      unfold andThen
      simp only
      by_cases hb : b.length ≤ n - a.length
      · rw [if_pos hb, if_pos (by omega), Nat.sub_sub]
      · rw [if_neg hb, if_neg (by omega), List.take_append, List.take_of_length_le ha]
    · rw [if_neg ha, if_neg (by omega), List.take_append_of_le_length (by omega)]
      rfl

theorem write_nil (s : State) : write [] s = done s := by
  obtain ⟨elems, keys, room⟩ := s
  cases room <;> rfl

end Step

namespace Instruction

variable (whole : Value)

theorem runAll_cons (i : Instruction) (is : List Instruction) (s : State) :
    runAll whole (i :: is) s = (i.run whole s).andThen (runAll whole is) := rfl

theorem runAll_append : ∀ (is js : List Instruction) (s : State),
    runAll whole (is ++ js) s = (runAll whole is s).andThen (runAll whole js)
  | [], _, _ => rfl
  | i :: is, js, s => by
    rw [List.cons_append, runAll_cons, runAll_cons, Step.andThen_assoc]
    congr 1
    funext s'
    exact runAll_append is js s'

theorem runAll_singleton (i : Instruction) (s : State) : runAll whole [i] s = i.run whole s :=
  Step.andThen_done _

theorem runAll_writeBefore (bytes : Bytes) (is : List Instruction) (s : State) :
    runAll whole (writeBefore bytes is) s = (Step.write bytes s).andThen (runAll whole is) := by
  unfold writeBefore
  cases bytes with
  | nil =>
    rw [Step.write_nil]
    rfl
  | cons b bytes =>
    simp only [List.isEmpty_cons, Bool.false_eq_true, if_false]
    split
    · rename_i more rest
      rw [runAll_cons]
      change (Step.write (b :: bytes ++ more) s).andThen _ =
        (Step.write (b :: bytes) s).andThen fun s => (Step.write more s).andThen _
      rw [← Step.write_append, Step.andThen_assoc]
    · rfl

mutual
theorem run_foldedBody : ∀ i : Instruction, i.foldedBody.run whole = i.run whole
  | .literal _ => rfl
  | .bool _ => rfl
  | .int _ => rfl
  | .string _ => rfl
  | .native _ => rfl
  | .list source depth body => by
    funext s
    rw [foldedBody, run, run, runAll_fold body]
  | .map source depth cast body => by
    funext s
    rw [foldedBody, run, run, runAll_fold body]
  | .when source test body => by
    funext s
    rw [foldedBody, run, run, runAll_fold body]
termination_by structural i => i

/-- **Folded instructions run alike.** -/
theorem runAll_fold : ∀ is : List Instruction, runAll whole (fold is) = runAll whole is
  | [] => rfl
  | i :: rest => by
    funext s
    have hrest := runAll_fold rest
    have hi := run_foldedBody i
    cases i with
    | literal bytes =>
      rw [fold, runAll_writeBefore, runAll_cons, hrest]
      rfl
    | _ =>
      rw [fold, runAll_cons, runAll_cons, hrest, hi]
      intro bytes hne
      cases hne
termination_by structural is => is
end

end Instruction

namespace Plan

/-- **A folded plan runs like the plan**, into outputs of any size. -/
theorem run_folded (p : Plan) (v : Value) (room : Option Nat) : p.folded.run v room = p.run v room := by
  unfold run folded
  rw [Instruction.runAll_fold]

end Plan
end BencodePlan
