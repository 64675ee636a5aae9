import BencodePlan.Run.Machine
import BencodePlan.Proofs.Pairs
/-!
# Two runs side by side

Two plans are parallel if they have the same instructions in the same places and differ in their selectors only.  Where
selectors that correspond find values that correspond, and an instruction reads the same from both (`Twins`), the two
runs go together: each step of one writes what the step of the other does, fails exactly when that fails, and leaves the
loops in states that correspond (`runAll_alike`).

What it means to correspond is left open: which selectors (`Q`), which values (`V`) and which failures (`E`).
-/
namespace BencodePlan

/-- **What two runs find in the same place**: things that correspond, or failures that do. -/
inductive Finds {α β : Type} (E : RunError → RunError → Prop) (R : α → β → Prop) :
    Except RunError α → Except RunError β → Prop
  | found {a : α} {b : β} : R a b → Finds E R (.ok a) (.ok b)
  | failed {e e' : RunError} : E e e' → Finds E R (.error e) (.error e')

namespace Finds

variable {α β γ δ : Type} {E : RunError → RunError → Prop} {R : α → β → Prop} {R' : γ → δ → Prop}

theorem refl (x : Except RunError α) : Finds Eq Eq x x := by
  cases x with
  | ok a => exact .found rfl
  | error e => exact .failed rfl

theorem bind {x : Except RunError α} {y : Except RunError β} (h : Finds E R x y) {f : α → Except RunError γ}
    {g : β → Except RunError δ} (hf : ∀ a b, R a b → Finds E R' (f a) (g b)) : Finds E R' (x >>= f) (y >>= g) := by
  cases h with
  | found hab => exact hf _ _ hab
  | failed he => exact .failed he

end Finds

/-! ## States and steps -/

/-- **States that correspond**: the same loops, each at an element that corresponds and at the same key, and the same room
in the output. -/
structure State.Alike (V : Value → Value → Prop) (s s' : State) : Prop where
  elems : Pairs.Alike V s.elems s'.elems
  keys : s.keys = s'.keys
  room : s.room = s'.room

/-- **Steps that correspond**: the same bytes, failures that correspond or none, and states that do. -/
structure Step.Alike (E : RunError → RunError → Prop) (V : Value → Value → Prop) (a b : Step) : Prop where
  bytes : a.bytes = b.bytes
  state : a.state.Alike V b.state
  error : Option.Rel E a.error? b.error?

namespace State

variable {V : Value → Value → Prop} {s s' : State}

theorem alike_start (V : Value → Value → Prop) (room : Option Nat) : (start room).Alike V (start room) :=
  ⟨.nil, rfl, rfl⟩

theorem Alike.unbindElem (h : s.Alike V s') (depth : Nat) : (s.unbindElem depth).Alike V (s'.unbindElem depth) := by
  have hsame : ∀ ⦃p q : Nat × Value⦄, p.1 = q.1 ∧ V p.2 q.2 →
      (decide (p.1 ≠ depth) = true ↔ decide (q.1 ≠ depth) = true) := by
    intro p q hpq
    rw [hpq.1]
  exact ⟨List.rel_filter hsame h.elems, h.keys, h.room⟩

theorem Alike.bindElem (h : s.Alike V s') (depth : Nat) {v v' : Value} (hv : V v v') :
    (s.bindElem depth v).Alike V (s'.bindElem depth v') :=
  ⟨.cons ⟨rfl, hv⟩ (h.unbindElem depth).elems, h.keys, h.room⟩

theorem Alike.bindKey (h : s.Alike V s') (depth : Nat) (k : Bytes) :
    (s.bindKey depth k).Alike V (s'.bindKey depth k) :=
  ⟨h.elems, by simp only [State.bindKey, h.keys], h.room⟩

theorem Alike.unbindKey (h : s.Alike V s') (depth : Nat) : (s.unbindKey depth).Alike V (s'.unbindKey depth) :=
  ⟨h.elems, by simp only [State.unbindKey, h.keys], h.room⟩

theorem Alike.lookup_elems (h : s.Alike V s') (depth : Nat) :
    Option.Rel V (s.elems.lookup depth) (s'.elems.lookup depth) :=
  Pairs.rel_lookup h.elems depth

end State

namespace Step

variable {E : RunError → RunError → Prop} {V : Value → Value → Prop} {s s' : State}

theorem alike_done (h : s.Alike V s') : (done s).Alike E V (done s') := ⟨rfl, h, .none⟩

theorem alike_fail (h : s.Alike V s') {e e' : RunError} (he : E e e') : (fail s e).Alike E V (fail s' e') :=
  ⟨rfl, h, .some he⟩

theorem alike_write (hfull : E .outputFull .outputFull) (h : s.Alike V s') (bytes : Bytes) :
    (write bytes s).Alike E V (write bytes s') := by
  unfold write
  rw [← h.room]
  cases s.room with
  | none => exact ⟨rfl, h, .none⟩
  | some n =>
    by_cases hn : bytes.length ≤ n
    · simp only [hn, if_true]
      exact ⟨rfl, ⟨h.elems, h.keys, rfl⟩, .none⟩
    · simp only [hn, if_false]
      exact ⟨rfl, ⟨h.elems, h.keys, rfl⟩, .some hfull⟩

theorem Alike.andThen {a b : Step} (h : a.Alike E V b) {f g : State → Step}
    (hf : ∀ s s', s.Alike V s' → (f s).Alike E V (g s')) : (a.andThen f).Alike E V (b.andThen g) := by
  obtain ⟨bytes, state, error?⟩ := a
  obtain ⟨bytes', state', error?'⟩ := b
  obtain ⟨rfl, hs, he⟩ := h
  have hnext := hf state state' hs
  cases he with
  | some he => exact ⟨rfl, hs, .some he⟩
  | none =>
    refine ⟨?_, hnext.state, hnext.error⟩
    simp only [Step.andThen]
    rw [hnext.bytes]

theorem alike_withValue {α β : Type} {R : α → β → Prop} (hs : s.Alike V s') {x : Except RunError α}
    {y : Except RunError β} (h : Finds E R x y) {f : α → Step} {g : β → Step}
    (hf : ∀ a b, R a b → (f a).Alike E V (g b)) : (withValue s x f).Alike E V (withValue s' y g) := by
  cases h with
  | found hab => exact hf _ _ hab
  | failed he => exact alike_fail hs he

theorem alike_each {α β : Type} {R : α → β → Prop} {f : α → State → Step} {g : β → State → Step}
    (hf : ∀ a b, R a b → ∀ s s', s.Alike V s' → (f a s).Alike E V (g b s')) {xs : List α} {ys : List β}
    (h : List.Forall₂ R xs ys) : ∀ {s s' : State}, s.Alike V s' → (each f xs s).Alike E V (each g ys s') := by
  induction h with
  | nil => exact fun hs => alike_done hs
  | cons hab _ ih =>
    intro s s' hs
    exact (hf _ _ hab s s' hs).andThen fun _ _ hs' => ih hs'

end Step

/-! ## Instructions -/

namespace Instruction

/-- **The same instruction with other selectors**, where `Q` says which selector stands for which. -/
inductive Parallel (Q : Selector → Selector → Prop) : Instruction → Instruction → Prop
  | literal (bytes : Bytes) : Parallel Q (literal bytes) (literal bytes)
  | bool {s s' : Selector} : Q s s' → Parallel Q (bool s) (bool s')
  | int {s s' : Selector} : Q s s' → Parallel Q (int s) (int s')
  | string {s s' : Selector} : Q s s' → Parallel Q (string s) (string s')
  | native {s s' : Selector} : Q s s' → Parallel Q (native s) (native s')
  | list {s s' : Selector} {depth : Nat} {body body' : List Instruction} : Q s s' →
    List.Forall₂ (Parallel Q) body body' → Parallel Q (list s depth body) (list s' depth body')
  | map {s s' : Selector} {depth : Nat} {cast : Option String} {body body' : List Instruction} : Q s s' →
    List.Forall₂ (Parallel Q) body body' → Parallel Q (map s depth cast body) (map s' depth cast body')
  | when {s s' : Selector} {test : EmptinessTest} {body body' : List Instruction} : Q s s' →
    List.Forall₂ (Parallel Q) body body' → Parallel Q (when s test body) (when s' test body')

end Instruction

/-- **What is asked of two runs for them to go together.**  Selectors that correspond find values that correspond, in all
states that do, and what an instruction reads from such values is the same. -/
structure Twins (E : RunError → RunError → Prop) (V : Value → Value → Prop) (Q : Selector → Selector → Prop)
    (whole whole' : Value) : Prop where
  full : E .outputFull .outputFull
  resolve : ∀ {s s' : Selector} {σ σ' : State}, Q s s' → σ.Alike V σ' →
    Finds E V (s.resolve whole σ) (s'.resolve whole' σ')
  addressed : ∀ {s s' : Selector} {v v' : Value}, Q s s' → V v v' → Finds E V (s.addressed v) (s'.addressed v')
  bool : ∀ {s s' : Selector} {v v' : Value}, Q s s' → V v v' →
    Finds E Eq (Instruction.boolBytes s v) (Instruction.boolBytes s' v')
  int : ∀ {s s' : Selector} {v v' : Value}, Q s s' → V v v' →
    Finds E Eq (Instruction.intBytes s v) (Instruction.intBytes s' v')
  string : ∀ {s s' : Selector} {v v' : Value}, Q s s' → V v v' →
    Finds E Eq (Instruction.stringBytes s v) (Instruction.stringBytes s' v')
  native : ∀ {s s' : Selector} {v v' : Value}, Q s s' → V v v' →
    Finds E Eq (Instruction.nativeBytes s v) (Instruction.nativeBytes s' v')
  elements : ∀ {s s' : Selector} {v v' : Value}, Q s s' → V v v' →
    Finds E (List.Forall₂ V) (Instruction.elementsOf s v) (Instruction.elementsOf s' v')
  keys : ∀ {s s' : Selector} {v v' : Value}, Q s s' → V v v' →
    Finds E Eq (Instruction.sortedKeysOf s v) (Instruction.sortedKeysOf s' v')
  present : ∀ {s s' : Selector} {v v' : Value} (test : EmptinessTest), Q s s' → V v v' →
    Finds E Eq (test.isPresent s v) (test.isPresent s' v')

namespace Twins

variable {E : RunError → RunError → Prop} {V : Value → Value → Prop} {Q : Selector → Selector → Prop}
  {whole whole' : Value} {s s' : Selector} {σ σ' : State}

theorem resolveAddressed (h : Twins E V Q whole whole') (hq : Q s s') (hσ : σ.Alike V σ') :
    Finds E V (s.resolveAddressed whole σ) (s'.resolveAddressed whole' σ') :=
  (h.resolve hq hσ).bind fun _ _ hv => h.addressed hq hv

theorem written (h : Twins E V Q whole whole') {read read' : Value → Except RunError Bytes} (hq : Q s s')
    (hσ : σ.Alike V σ') (hread : ∀ v v', V v v' → Finds E Eq (read v) (read' v')) :
    (Step.withValue σ (s.resolve whole σ >>= read) fun b => Step.write b σ).Alike E V
      (Step.withValue σ' (s'.resolve whole' σ' >>= read') fun b => Step.write b σ') := by
  refine Step.alike_withValue hσ ((h.resolve hq hσ).bind hread) fun a b hab => ?_
  rw [hab]
  exact Step.alike_write h.full hσ b

end Twins

namespace Instruction

variable {E : RunError → RunError → Prop} {V : Value → Value → Prop} {Q : Selector → Selector → Prop}
  {whole whole' : Value}

mutual
/-- **One step of each.** -/
theorem run_alike (h : Twins E V Q whole whole') : ∀ (i : Instruction) {i' : Instruction}, i.Parallel Q i' →
    ∀ {σ σ' : State}, σ.Alike V σ' → (i.run whole σ).Alike E V (i'.run whole' σ')
  | .literal bytes, _, hi, σ, σ', hσ => by
    cases hi with
    | literal => exact Step.alike_write h.full hσ bytes
  | .bool s, _, hi, σ, σ', hσ => by
    cases hi with
    | bool hq => exact h.written hq hσ fun _ _ hv => h.bool hq hv
  | .int s, _, hi, σ, σ', hσ => by
    cases hi with
    | int hq => exact h.written hq hσ fun _ _ hv => h.int hq hv
  | .string s, _, hi, σ, σ', hσ => by
    cases hi with
    | string hq => exact h.written hq hσ fun _ _ hv => h.string hq hv
  | .native s, _, hi, σ, σ', hσ => by
    cases hi with
    | native hq => exact h.written hq hσ fun _ _ hv => h.native hq hv
  | .list s depth body, _, hi, σ, σ', hσ => by
    cases hi with
    | @list _ _ _ _ body' hq hbody =>
      rw [run, run]
      refine Step.alike_withValue hσ ((h.resolveAddressed hq hσ).bind fun _ _ hv => h.elements hq hv) ?_
      intro items items' hitems
      have hturn : ∀ v v', V v v' → ∀ s s' : State, s.Alike V s' → (runAll whole body (s.bindElem depth v)).Alike E V
          (runAll whole' body' (s'.bindElem depth v')) :=
        fun v v' hv s s' hs => runAll_alike h body hbody (hs.bindElem depth hv)
      exact (Step.alike_each hturn hitems hσ).andThen fun s s' hs => Step.alike_done (hs.unbindElem depth)
  | .map s depth cast body, _, hi, σ, σ', hσ => by
    cases hi with
    | @map _ _ _ _ _ body' hq hbody =>
      rw [run, run]
      refine Step.alike_withValue hσ ((h.resolveAddressed hq hσ).bind fun _ _ hv => h.keys hq hv) ?_
      rintro keys _ rfl
      have hturn : ∀ k k', k = k' → ∀ s s' : State, s.Alike V s' → (runAll whole body (s.bindKey depth k)).Alike E V
          (runAll whole' body' (s'.bindKey depth k')) := by
        rintro k _ rfl s s' hs
        exact runAll_alike h body hbody (hs.bindKey depth k)
      exact (Step.alike_each hturn (List.forall₂_refl keys) hσ).andThen fun s s' hs =>
        Step.alike_done (hs.unbindKey depth)
  | .when s test body, _, hi, σ, σ', hσ => by
    cases hi with
    | when hq hbody =>
      rw [run, run]
      refine Step.alike_withValue hσ ((h.resolve hq hσ).bind fun _ _ hv => h.present test hq hv) ?_
      rintro present _ rfl
      cases present with
      | true => exact runAll_alike h body hbody hσ
      | false => exact Step.alike_done hσ
termination_by structural i => i

/-- **Parallel instructions run alike.** -/
theorem runAll_alike (h : Twins E V Q whole whole') : ∀ (is : List Instruction) {is' : List Instruction},
    List.Forall₂ (Parallel Q) is is' → ∀ {σ σ' : State}, σ.Alike V σ' →
    (runAll whole is σ).Alike E V (runAll whole' is' σ')
  | [], _, his, σ, σ', hσ => by
    cases his with
    | nil => exact Step.alike_done hσ
  | i :: rest, _, his, σ, σ', hσ => by
    cases his with
    | cons hi hrest =>
      rw [runAll, runAll]
      exact (run_alike h i hi hσ).andThen fun _ _ hσ' => runAll_alike h rest hrest hσ'
termination_by structural is => is
end

end Instruction
end BencodePlan
