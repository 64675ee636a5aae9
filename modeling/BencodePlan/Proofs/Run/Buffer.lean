import BencodePlan.Proofs.Run.Room
/-!
# Runs into a buffer

A buffer that is too short cuts the output and changes nothing else (`Plan.run_into_buffer`): what fits is what a run
without a limit writes first, and the run fails because the output is full exactly if something does not fit, also where
the run without a limit fails later on.  The converse needs that a run without a limit is never told that the output is
full; nothing that is looked up in a value says so (`Readable`), and only writing could.

It is of no account in how many parts something is written (`each_write`).
-/
namespace BencodePlan

/-! ## Writing in parts -/

namespace Step

/-- **Bytes that are written in any number of parts**, some of which may be empty. -/
theorem each_write : ∀ (parts : List Bytes) (s : State), each write parts s = write parts.flatten s
  | [], s => (write_nil s).symm
  | part :: parts, s => by
    have hrest : each write parts = write parts.flatten := funext (each_write parts)
    rw [each, hrest, List.flatten_cons, write_append]

end Step

/-! ## What is looked up -/

def Readable {α : Type} (found : Except RunError α) : Prop := found ≠ .error .outputFull

section

variable {α β : Type}

theorem readable_ok (a : α) : Readable (.ok a) := by
  intro h
  cases h

theorem readable_error {e : RunError} (he : e ≠ .outputFull) : Readable (.error e : Except RunError α) := by
  intro h
  cases h
  exact he rfl

theorem readable_mismatch (source : Selector) (expected : String) (v : Value) :
    Readable (.error (.mismatch source expected v) : Except RunError α) := readable_error (by simp [RunError.mismatch])

theorem Readable.bind {found : Except RunError α} {next : α → Except RunError β} (h : Readable found)
    (hnext : ∀ a, Readable (next a)) : Readable (found >>= next) := by
  cases found with
  | ok a => exact hnext a
  | error e =>
    intro he
    cases he
    exact h rfl

end

namespace Selector

theorem addressed_readable (source : Selector) (v : Value) : Readable (source.addressed v) := by
  unfold addressed
  split
  · exact readable_mismatch _ _ _
  · exact readable_ok v

theorem fieldOf_readable (base : Selector) (name : String) (v : Value) : Readable (base.fieldOf name v) := by
  unfold fieldOf
  split
  · split
    · exact readable_ok _
    · exact readable_error (by simp)
  · exact readable_mismatch _ _ _

theorem entryOf_readable (base : Selector) (depth : Nat) (key : Bytes) (v : Value) :
    Readable (base.entryOf depth key v) := by
  unfold entryOf
  split
  · split
    · exact readable_ok _
    · exact readable_error (by simp)
  · exact readable_mismatch _ _ _

theorem keyAt_readable (s : State) (depth : Nat) : Readable (keyAt s depth) := by
  unfold keyAt
  split
  · exact readable_ok _
  · exact readable_error (by simp)

variable (whole : Value) (s : State)

theorem resolve_readable : ∀ source : Selector, Readable (source.resolve whole s)
  | root => readable_ok whole
  | field base name => by
    rw [resolve]
    exact (resolve_readable base).bind fun v => (addressed_readable base v).bind fun v => fieldOf_readable base name v
  | deref base => by
    rw [resolve]
    refine (resolve_readable base).bind fun v => ?_
    split
    · exact readable_error (by simp)
    · exact readable_ok _
  | seconds base => by
    rw [resolve]
    refine (resolve_readable base).bind fun v => ?_
    split
    · exact readable_ok _
    · exact readable_mismatch _ _ _
  | elem depth => by
    rw [resolve]
    split
    · exact readable_ok _
    · exact readable_error (by simp)
  | key depth => by
    rw [resolve]
    exact (keyAt_readable s depth).bind fun k => readable_ok _
  | value base depth => by
    rw [resolve]
    exact (resolve_readable base).bind fun v => (addressed_readable base v).bind fun v =>
      (keyAt_readable s depth).bind fun k => entryOf_readable base depth k v

theorem resolveAddressed_readable (source : Selector) : Readable (source.resolveAddressed whole s) :=
  (resolve_readable whole s source).bind (addressed_readable source)

end Selector

namespace Instruction

variable (source : Selector) (v : Value)

theorem boolBytes_readable : Readable (boolBytes source v) := by
  cases v <;> first | exact readable_ok _ | exact readable_mismatch _ _ _

theorem intBytes_readable : Readable (intBytes source v) := by
  cases v <;> first | exact readable_ok _ | exact readable_mismatch _ _ _

theorem stringBytes_readable : Readable (stringBytes source v) := by
  cases v <;> first | exact readable_ok _ | exact readable_mismatch _ _ _

theorem nativeBytes_readable : Readable (nativeBytes source v) := by
  cases v <;> first | exact readable_ok _ | exact readable_mismatch _ _ _

theorem elementsOf_readable : Readable (elementsOf source v) := by
  cases v <;> first | exact readable_ok _ | exact readable_mismatch _ _ _

theorem keysOfPairs_readable : ∀ pairs : List (Value × Value), Readable (keysOfPairs source pairs)
  | [] => readable_ok []
  | (k, _) :: rest => by
    cases k with
    | string k => exact (keysOfPairs_readable rest).bind fun _ => readable_ok _
    | _ => exact readable_mismatch _ _ _

theorem sortedKeysOf_readable : Readable (sortedKeysOf source v) := by
  cases v with
  | map pairs => exact (keysOfPairs_readable source pairs).bind fun _ => readable_ok _
  | _ => exact readable_mismatch _ _ _

theorem isPresent_readable (test : EmptinessTest) : Readable (test.isPresent source v) := by
  cases test <;> cases v <;> first | exact readable_ok _ | exact readable_mismatch _ _ _

end Instruction

/-! ## Runs without a limit -/

namespace Step

/-- A step into an output without a limit: it is not full, then or afterwards. -/
structure Unlimited (a : Step) : Prop where
  error : a.error? ≠ some .outputFull
  room : a.state.room = none

variable {s : State}

theorem unlimited_done (hs : s.room = none) : Unlimited (done s) := ⟨by simp [done], hs⟩

theorem unlimited_write (hs : s.room = none) (bytes : Bytes) : Unlimited (write bytes s) := by
  simp only [write, hs]
  exact ⟨by simp, hs⟩

theorem Unlimited.andThen {a : Step} {f : State → Step} (h : Unlimited a)
    (hf : ∀ s : State, s.room = none → Unlimited (f s)) : Unlimited (a.andThen f) := by
  cases he : a.error? with
  | some e =>
    rw [andThen_of_error he]
    exact h
  | none =>
    have hnext := hf a.state h.room
    rw [andThen_of_none he]
    exact ⟨hnext.error, hnext.room⟩

theorem unlimited_withValue {α : Type} (hs : s.room = none) {found : Except RunError α} (h : Readable found)
    {next : α → Step} (hnext : ∀ a, Unlimited (next a)) : Unlimited (withValue s found next) := by
  cases found with
  | ok a => exact hnext a
  | error e =>
    refine ⟨fun he => ?_, hs⟩
    cases he
    exact h rfl

theorem unlimited_each {α : Type} {body : α → State → Step}
    (h : ∀ (x : α) (s : State), s.room = none → Unlimited (body x s)) :
    ∀ (items : List α) (s : State), s.room = none → Unlimited (each body items s)
  | [], _, hs => unlimited_done hs
  | x :: rest, s, hs => (h x s hs).andThen fun s hs => unlimited_each h rest s hs

end Step

namespace Instruction

open Step Selector

variable (whole : Value)

mutual
theorem run_unlimited : ∀ (i : Instruction) (s : State), s.room = none → Unlimited (i.run whole s)
  | .literal bytes, _, hs => unlimited_write hs bytes
  | .bool source, s, hs =>
    unlimited_withValue hs ((resolve_readable whole s source).bind (boolBytes_readable source)) (unlimited_write hs)
  | .int source, s, hs =>
    unlimited_withValue hs ((resolve_readable whole s source).bind (intBytes_readable source)) (unlimited_write hs)
  | .string source, s, hs =>
    unlimited_withValue hs ((resolve_readable whole s source).bind (stringBytes_readable source)) (unlimited_write hs)
  | .native source, s, hs =>
    unlimited_withValue hs ((resolve_readable whole s source).bind (nativeBytes_readable source)) (unlimited_write hs)
  | .list source depth body, s, hs => by
    rw [run]
    refine unlimited_withValue hs ((resolveAddressed_readable whole s source).bind (elementsOf_readable source)) ?_
    have hturn := fun (v : Value) (s : State) (hs : s.room = none) => runAll_unlimited body (s.bindElem depth v) hs
    exact fun items => (unlimited_each hturn items s hs).andThen fun s hs => unlimited_done hs
  | .map source depth _ body, s, hs => by
    rw [run]
    refine unlimited_withValue hs ((resolveAddressed_readable whole s source).bind (sortedKeysOf_readable source)) ?_
    have hturn := fun (k : Bytes) (s : State) (hs : s.room = none) => runAll_unlimited body (s.bindKey depth k) hs
    exact fun keys => (unlimited_each hturn keys s hs).andThen fun s hs => unlimited_done hs
  | .when source test body, s, hs => by
    rw [run]
    have hfound := (resolve_readable whole s source).bind fun v => isPresent_readable source v test
    refine unlimited_withValue hs hfound fun present => ?_
    cases present with
    | true => exact runAll_unlimited body s hs
    | false => exact unlimited_done hs
termination_by structural i => i

/-- **No output without a limit is full.** -/
theorem runAll_unlimited : ∀ (is : List Instruction) (s : State), s.room = none → Unlimited (runAll whole is s)
  | [], _, hs => unlimited_done hs
  | i :: is, s, hs => (run_unlimited i s hs).andThen fun s hs => runAll_unlimited is s hs
termination_by structural is => is
end

end Instruction

namespace Plan

/-- **A buffer cuts the output, and changes nothing else.**  If all fits that is written without a limit, before an error if
there is one, the run into the buffer writes the same and ends in the same way.  Otherwise it writes what fits of it and
fails because the output is full; and it fails so only then.  Whatever is written in parts may be cut anywhere. -/
theorem run_into_buffer (p : Plan) (v : Value) (n : Nat) :
    (if (p.run v none).bytes.length ≤ n then
        (p.run v (some n)).bytes = (p.run v none).bytes ∧ (p.run v (some n)).error? = (p.run v none).error?
      else
        (p.run v (some n)).bytes = (p.run v none).bytes.take n ∧ (p.run v (some n)).error? = some .outputFull) ∧
    RunError.outputFull.message = "failed to write whole buffer" ∧
    ((p.run v (some n)).error? = some .outputFull ↔ n < (p.run v none).bytes.length) ∧
    ∀ (parts : List Bytes) (s : State), Step.each Step.write parts s = Step.write parts.flatten s := by
  obtain ⟨hbytes, herror⟩ := Instruction.runAll_within v p.body n
  change (p.run v (some n)).bytes = (p.run v none).bytes.take n at hbytes
  change (p.run v (some n)).error? = if (p.run v none).bytes.length ≤ n then (p.run v none).error? else _ at herror
  have hnotFull : (p.run v none).error? ≠ some .outputFull := (Instruction.runAll_unlimited v p.body _ rfl).error
  refine ⟨?_, rfl, ?_, Step.each_write⟩
  · by_cases hfits : (p.run v none).bytes.length ≤ n
    · rw [if_pos hfits] at herror ⊢
      exact ⟨hbytes.trans (List.take_of_length_le hfits), herror⟩
    · rw [if_neg hfits] at herror ⊢
      exact ⟨hbytes, herror⟩
  · by_cases hfits : (p.run v none).bytes.length ≤ n
    · rw [herror, if_pos hfits]
      exact ⟨fun hfull => absurd hfull hnotFull, fun hlt => absurd hfits (Nat.not_le.2 hlt)⟩
    · rw [herror, if_neg hfits]
      exact ⟨fun _ => Nat.lt_of_not_le hfits, fun _ => rfl⟩

end Plan
end BencodePlan
