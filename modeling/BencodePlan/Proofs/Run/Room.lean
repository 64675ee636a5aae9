import BencodePlan.Proofs.Run.Fold
/-!
# Outputs of limited size

A run into a buffer writes the first bytes of what it writes into an output of unlimited size.  If the buffer holds all of
them the run ends in the same way, otherwise it fails because the output is full (`runAll_within`).  The room that is left is
looked at by nothing but writing, so this carries over from one write to steps in a row, to loops and to whole plans.

With it, folding changes nothing for any output (`fold_runs_alike`): a literal that is merged from several is cut in the
middle where these would have been.
-/
namespace BencodePlan

def State.withRoom (s : State) (n : Nat) : State := { s with room := some n }

namespace Step

variable {n : Nat} {a b : Step}

structure Within (n : Nat) (a b : Step) : Prop where
  bytes : b.bytes = a.bytes.take n
  error : b.error? = if a.bytes.length ≤ n then a.error? else some .outputFull

structure Keeps (n : Nat) (a b : Step) : Prop extends Within n a b where
  room : a.error? = none → a.state.room = none
  state : a.error? = none → a.bytes.length ≤ n → b.state = a.state.withRoom (n - a.bytes.length)

theorem keeps_done {s : State} (hs : s.room = none) : Keeps n (done s) (done (s.withRoom n)) :=
  { bytes := by simp [done], error := by simp [done], room := fun _ => hs, state := fun _ _ => rfl }

theorem keeps_fail (s s' : State) (e : RunError) : Keeps n (fail s e) (fail s' e) :=
  { bytes := by simp [fail], error := by simp [fail], room := fun h => (nomatch h), state := fun h => (nomatch h) }

theorem keeps_write {s : State} (hs : s.room = none) (bytes : Bytes) :
    Keeps n (write bytes s) (write bytes (s.withRoom n)) := by
  have hwhole : write bytes s = ⟨bytes, s, none⟩ := by simp only [write, hs]
  rw [hwhole]
  by_cases hfits : bytes.length ≤ n
  · have hpart : write bytes (s.withRoom n) = ⟨bytes, s.withRoom (n - bytes.length), none⟩ := by
      simp only [write, State.withRoom, if_pos hfits]
    rw [hpart]
    exact ⟨⟨(List.take_of_length_le hfits).symm, (if_pos hfits).symm⟩, fun _ => hs, fun _ _ => rfl⟩
  · have hpart : write bytes (s.withRoom n) = ⟨bytes.take n, s.withRoom 0, some .outputFull⟩ := by
      simp only [write, State.withRoom, if_neg hfits]
    rw [hpart]
    exact ⟨⟨rfl, (if_neg hfits).symm⟩, fun _ => hs, fun _ h => absurd h hfits⟩

theorem Keeps.andThen {f : State → Step} (h : Keeps n a b)
    (hf : ∀ (s : State) (m : Nat), s.room = none → Keeps m (f s) (f (s.withRoom m))) :
    Keeps n (a.andThen f) (b.andThen f) := by
  cases ha : a.error? with
  | some e =>
    obtain ⟨e', he'⟩ : ∃ e', b.error? = some e' := by
      by_cases hfits : a.bytes.length ≤ n
      · exact ⟨e, by rw [h.error, if_pos hfits, ha]⟩
      · exact ⟨_, by rw [h.error, if_neg hfits]⟩
    rw [andThen_of_error ha, andThen_of_error he']
    exact h
  | none =>
    -- what comes next has the room that `a` leaves, and is not reached in the buffer if `a` overflows it
    have hnext := hf a.state (n - a.bytes.length) (h.room ha)
    have hlength : (a.bytes ++ (f a.state).bytes).length ≤ n ↔
        a.bytes.length ≤ n ∧ (f a.state).bytes.length ≤ n - a.bytes.length := by
      rw [List.length_append]
      omega
    by_cases hfits : a.bytes.length ≤ n
    · have herror : b.error? = none := by rw [h.error, if_pos hfits, ha]
      rw [andThen_of_none ha, andThen_of_none herror, h.state ha hfits]
      refine ⟨⟨?_, ?_⟩, hnext.room, fun he hl => ?_⟩
      · simp only [h.bytes, hnext.bytes, List.take_append]
      · simp only [hnext.error, hlength, hfits, true_and]
      · simp only [hnext.state he (hlength.1 hl).2, List.length_append, Nat.sub_sub]
    · have herror : b.error? = some .outputFull := by rw [h.error, if_neg hfits]
      rw [andThen_of_none ha, andThen_of_error herror]
      refine ⟨⟨?_, ?_⟩, hnext.room, fun _ hl => absurd (hlength.1 hl).1 hfits⟩
      · rw [h.bytes, List.take_append_of_le_length (by omega)]
      · simp only [herror, hlength, hfits, false_and, if_false]

theorem keeps_withValue {α : Type} {s : State} (found : Except RunError α) {next next' : α → Step}
    (h : ∀ x, Keeps n (next x) (next' x)) : Keeps n (withValue s found next) (withValue (s.withRoom n) found next') := by
  cases found with
  | ok x => exact h x
  | error e => exact keeps_fail s _ e

theorem keeps_each {α : Type} {body : α → State → Step}
    (h : ∀ (x : α) (s : State) (n : Nat), s.room = none → Keeps n (body x s) (body x (s.withRoom n))) :
    ∀ (items : List α) (s : State) (n : Nat), s.room = none → Keeps n (each body items s) (each body items (s.withRoom n))
  | [], _, _, hs => keeps_done hs
  | x :: rest, s, n, hs => (h x s n hs).andThen fun s m hs => keeps_each h rest s m hs

end Step

namespace Selector

variable (whole : Value) (s : State) (n : Nat)

theorem resolve_withRoom : ∀ source : Selector, source.resolve whole (s.withRoom n) = source.resolve whole s
  | root => rfl
  | field base name => by rw [resolve, resolve, resolve_withRoom base]
  | deref base => by rw [resolve, resolve, resolve_withRoom base]
  | seconds base => by rw [resolve, resolve, resolve_withRoom base]
  | elem _ => rfl
  | key _ => rfl
  | value base depth => by
    rw [resolve, resolve, resolve_withRoom base]
    rfl

theorem resolveAddressed_withRoom (source : Selector) :
    source.resolveAddressed whole (s.withRoom n) = source.resolveAddressed whole s := by
  rw [resolveAddressed, resolveAddressed, resolve_withRoom]

end Selector

namespace Instruction

open Step

variable (whole : Value)

mutual
theorem run_keeps : ∀ (i : Instruction) (s : State) (n : Nat), s.room = none →
    Keeps n (i.run whole s) (i.run whole (s.withRoom n))
  | .literal bytes, _, _, hs => keeps_write hs bytes
  | .bool source, s, n, hs | .int source, s, n, hs | .string source, s, n, hs | .native source, s, n, hs => by
    rw [run, run, Selector.resolve_withRoom]
    exact keeps_withValue _ fun bytes => keeps_write hs bytes
  | .list source depth body, s, n, hs => by
    rw [run, run, Selector.resolveAddressed_withRoom]
    have hturn := fun (v : Value) (s : State) n (hs : s.room = none) => runAll_keeps body (s.bindElem depth v) n hs
    exact keeps_withValue _ fun items => (keeps_each hturn items s n hs).andThen fun _ _ hs => keeps_done hs
  | .map source depth _ body, s, n, hs => by
    rw [run, run, Selector.resolveAddressed_withRoom]
    have hturn := fun (k : Bytes) (s : State) n (hs : s.room = none) => runAll_keeps body (s.bindKey depth k) n hs
    exact keeps_withValue _ fun keys => (keeps_each hturn keys s n hs).andThen fun _ _ hs => keeps_done hs
  | .when source test body, s, n, hs => by
    rw [run, run, Selector.resolve_withRoom]
    refine keeps_withValue _ fun present => ?_
    cases present with
    | true => exact runAll_keeps body s n hs
    | false => exact keeps_done hs
termination_by structural i => i

theorem runAll_keeps : ∀ (is : List Instruction) (s : State) (n : Nat), s.room = none →
    Keeps n (runAll whole is s) (runAll whole is (s.withRoom n))
  | [], _, _, hs => keeps_done hs
  | i :: is, s, n, hs => (run_keeps i s n hs).andThen fun s n hs => runAll_keeps is s n hs
termination_by structural is => is
end

/-- **A run into a buffer** writes what fits of what the instructions write. -/
theorem runAll_within (is : List Instruction) (n : Nat) :
    Within n (runAll whole is (.start none)) (runAll whole is (.start (some n))) :=
  (runAll_keeps whole is (.start none) n rfl).toWithin

/-- **Folding changes nothing**, whatever the instructions and the value are: folded and plain runs write the same bytes and
end in the same way, in an output of unlimited size and in a buffer, which holds the first bytes. -/
theorem fold_runs_alike (is : List Instruction) :
    (∀ room, (runAll whole (fold is) (.start room)).bytes = (runAll whole is (.start room)).bytes ∧
      (runAll whole (fold is) (.start room)).error? = (runAll whole is (.start room)).error?) ∧
    ∀ n, Within n (runAll whole is (.start none)) (runAll whole (fold is) (.start (some n))) := by
  rw [runAll_fold]
  exact ⟨fun _ => ⟨rfl, rfl⟩, runAll_within whole is⟩

end Instruction
end BencodePlan
