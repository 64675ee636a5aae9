import BencodePlan.Proofs.Source.Meaning
import BencodePlan.Proofs.Run.Loops
import BencodePlan.Proofs.Schema.Lowering
import BencodePlan.Proofs.Shape.Result
/-!
# Generated statements do what plans do

The encoder of a plan does what a run of the plan does: it writes the same bytes where the run succeeds, and where the
run fails at an absent value it stops there, after the same bytes (`encode_agrees`).  This holds of every plan and every
value.

A run unbinds the variable of a loop at its end, also one of a loop around that has the same depth, while a program has
the outer variable again.  So what is bound in a run is bound to the same in the program, and that is all that is kept
from one instruction to the next (`Scope.Covers`).  A selector has four renderings, and each comes to what the selector
finds: as a value, a reference, or what a method is called on.
-/
namespace BencodePlan

def RunError.isAbsent : RunError → Bool
  | nilDereference _ => true
  | _ => false

namespace Source

variable {α β γ δ : Type}

/-- **What a run finds, and what the program comes to** at the same place.  A failure of the run that is no absent value
says nothing about the program. -/
inductive Matches (R : α → β → Prop) : Except RunError α → Except Stop β → Prop
  | found {a : α} {b : β} : R a b → Matches R (.ok a) (.ok b)
  | absent {source : String} : Matches R (.error (.nilDereference source)) (.error .absent)
  | other {e : RunError} {got : Except Stop β} : e.isAbsent = false → Matches R (.error e) got

namespace Matches

variable {R : α → β → Prop} {Q : γ → δ → Prop} {found : Except RunError α} {got : Except Stop β}

theorem bind (h : Matches R found got) {f : α → Except RunError γ} {g : β → Except Stop δ}
    (hf : ∀ a b, R a b → Matches Q (f a) (g b)) : Matches Q (found >>= f) (got >>= g) := by
  cases h with
  | found hab => exact hf _ _ hab
  | absent => exact .absent
  | other he => exact .other he

theorem bind_same {found : Except RunError α} {got : Except Stop α} (h : Matches Eq found got)
    {f : α → Except RunError γ} {g : α → Except Stop δ} (hf : ∀ a, Matches Q (f a) (g a)) :
    Matches Q (found >>= f) (got >>= g) :=
  h.bind fun a _ hab => hab ▸ hf a

theorem bind_right (h : Matches R found got) {S : α → δ → Prop} {g : β → Except Stop δ}
    (hg : ∀ a b, R a b → Matches S (.ok a) (g b)) : Matches S found (got >>= g) := by
  have hbind := h.bind (f := pure) hg
  rwa [bind_pure] at hbind

theorem mono {S : α → β → Prop} (h : Matches R found got) (hS : ∀ a b, R a b → S a b) : Matches S found got := by
  cases h with
  | found hab => exact .found (hS _ _ hab)
  | absent => exact .absent
  | other he => exact .other he

end Matches

/-! ## Variables -/

/-- What is bound here is bound to the same there. -/
def Within (s : Slots α) (l : List (Nat × α)) : Prop :=
  ∀ depth a, s.lookup depth = some a → l.lookup depth = some a

/-- **What is bound in a run is bound to the same in the program.** -/
structure Scope.Covers (σ : Scope) (whole : Value) (s : State) : Prop where
  whole_eq : σ.whole = whole
  elems : Within s.elems σ.elems
  keys : Within s.keys σ.keys

namespace Within

variable {s : Slots α} {l : List (Nat × α)} {d : Nat} {a : α}

theorem nil (l : List (Nat × α)) : Within [] l := fun _ _ h => by cases h

theorem lookup_unbind (s : Slots α) (d : Nat) : (s.unbind d).lookup d = none := by
  rw [List.lookup_eq_none_iff]
  intro p hp
  exact bne_iff_ne.2 (Ne.symm (of_decide_eq_true (List.mem_filter.1 hp).2))

theorem unbind (h : Within s l) : Within (s.unbind d) l := by
  intro e b hb
  by_cases he : e = d
  · rw [he, lookup_unbind] at hb
    cases hb
  · exact h _ _ ((Slots.lookup_filter_ne s he).symm.trans hb)

theorem bind (h : Within (s.unbind d) l) : Within (s.bind d a) ((d, a) :: l) := by
  intro e b hb
  by_cases he : e = d
  · rw [he, Slots.lookup_bind_self] at hb
    rw [he, List.lookup_cons_self, hb]
  · rw [Slots.bind, List.lookup_cons, beq_false_of_ne he] at hb
    rw [List.lookup_cons, beq_false_of_ne he]
    exact h _ _ hb

theorem leave (h : Within s ((d, a) :: l)) : Within (s.unbind d) l := by
  intro e b hb
  by_cases he : e = d
  · rw [he, lookup_unbind] at hb
    cases hb
  · have hout := h _ _ ((Slots.lookup_filter_ne s he).symm.trans hb)
    rwa [List.lookup_cons, beq_false_of_ne he] at hout

end Within

namespace Scope.Covers

variable {σ : Scope} {whole : Value} {s : State} {depth : Nat} {v : Value} {k : Bytes}

theorem start (whole : Value) (room : Option Nat) : (Scope.start whole).Covers whole (State.start room) :=
  ⟨rfl, Within.nil [], Within.nil []⟩

theorem unbindElem (h : σ.Covers whole s) : σ.Covers whole (s.unbindElem depth) :=
  ⟨h.whole_eq, h.elems.unbind, h.keys⟩

theorem unbindKey (h : σ.Covers whole s) : σ.Covers whole (s.unbindKey depth) :=
  ⟨h.whole_eq, h.elems, h.keys.unbind⟩

theorem bindElem (h : σ.Covers whole (s.unbindElem depth)) :
    (σ.bindElem depth v).Covers whole (s.bindElem depth v) :=
  ⟨h.whole_eq, Within.bind h.elems, h.keys⟩

theorem bindKey (h : σ.Covers whole (s.unbindKey depth)) : (σ.bindKey depth k).Covers whole (s.bindKey depth k) :=
  ⟨h.whole_eq, h.elems, Within.bind h.keys⟩

theorem leaveElem (h : (σ.bindElem depth v).Covers whole s) : σ.Covers whole (s.unbindElem depth) :=
  ⟨h.whole_eq, Within.leave h.elems, h.keys⟩

theorem leaveKey (h : (σ.bindKey depth k).Covers whole s) : σ.Covers whole (s.unbindKey depth) :=
  ⟨h.whole_eq, h.elems, Within.leave h.keys⟩

end Scope.Covers

/-! ## Selectors -/

def IsValue (v : Value) (o : Operand) : Prop := o = .value v

def IsReference (v : Value) (o : Operand) : Prop := o = .reference v

theorem matches_addressed {R : Value → β → Prop} {found : Except RunError Value} {got : Except Stop β}
    (h : Matches R found got) (source : Selector) : Matches R (found >>= source.addressed) got := by
  have hbind := h.bind (Q := R) (f := source.addressed) (g := pure) fun v b hvb => by
    unfold Selector.addressed
    split
    · exact .other rfl
    · exact .found hvb
  rwa [bind_pure] at hbind

theorem matches_fieldOf (base : Selector) (name : String) (v : Value) :
    Matches Eq (base.fieldOf name v) (need (fieldOf? name v)) := by
  cases v with
  | struct fields =>
    simp only [Selector.fieldOf, fieldOf?]
    cases fields.lookup name with
    | some w => exact .found rfl
    | none => exact .other rfl
  | null | bool | int | string | duration | list | map | native => exact .other rfl

theorem matches_entryOf (base : Selector) (depth : Nat) (k : Bytes) (v : Value) :
    Matches Eq (base.entryOf depth k v) (need (entryOf? k v)) := by
  cases v with
  | map pairs =>
    simp only [Selector.entryOf, entryOf?]
    cases Value.valueAt? k pairs with
    | some w => exact .found rfl
    | none => exact .other rfl
  | null | bool | int | string | duration | list | struct | native => exact .other rfl

theorem isPrefixed_receiver (s : Selector) : (Expr.receiver s).isPrefixed = false := by
  cases s <;> rfl

theorem eval_value (σ : Scope) (s : Selector) : (Expr.value s).eval σ = (Expr.place s).eval σ := by
  cases s <;> rfl

section

variable {σ : Scope} {whole : Value} {s : State}

theorem matches_keyAt (h : σ.Covers whole s) (depth : Nat) :
    Matches Eq (Selector.keyAt s depth) (need (σ.keys.lookup depth)) := by
  unfold Selector.keyAt
  cases hk : s.keys.lookup depth with
  | some k =>
    rw [h.keys _ _ hk]
    exact .found rfl
  | none => exact .other rfl

theorem matches_orBound (h : σ.Covers whole s) (R : Value → Operand → Prop) (hR : ∀ v, R v (.reference v))
    (other : Expr) (source : Selector) (hother : Matches R (source.resolve whole s) (other.eval σ)) :
    Matches R (source.resolve whole s) ((Expr.orBound other source).eval σ) := by
  cases source with
  | root => exact .found (h.whole_eq ▸ hR _)
  | elem depth =>
    simp only [Selector.resolve, Expr.orBound, Expr.eval]
    cases hv : s.elems.lookup depth with
    | some v =>
      rw [h.elems _ _ hv]
      exact .found (hR v)
    | none => exact .other rfl
  | key depth =>
    refine (matches_keyAt h depth).bind ?_
    rintro k _ rfl
    exact .found (hR _)
  | field | deref | seconds | value => exact hother

theorem matches_reference (h : σ.Covers whole s) {source : Selector}
    (hplace : Matches IsValue (source.resolve whole s) ((Expr.place source).eval σ)) :
    Matches IsReference (source.resolve whole s) ((Expr.reference source).eval σ) := by
  have hborrow : Matches IsReference (source.resolve whole s) ((Expr.borrow (Expr.place source)).eval σ) := by
    refine hplace.bind_right ?_
    rintro v _ rfl
    exact .found rfl
  exact matches_orBound h IsReference (fun _ => rfl) _ source hborrow

theorem matches_refer {e : Expr} {found : Except RunError Value} (h : Matches IsReference found (e.eval σ)) :
    Matches Eq found (e.refer σ) := by
  refine h.bind_right ?_
  rintro v _ rfl
  exact .found rfl

theorem matches_pass {e : Expr} {found : Except RunError Value} (h : Matches IsValue found (e.eval σ)) :
    Matches Eq found (e.pass σ) := by
  refine h.bind_right ?_
  rintro v _ rfl
  exact .found rfl

theorem matches_receive (h : σ.Covers whole s) {source : Selector}
    (hplace : Matches IsValue (source.resolve whole s) ((Expr.place source).eval σ)) :
    Matches Eq (source.resolve whole s) ((Expr.receiver source).receive σ) := by
  have htarget := matches_orBound h (fun v o => o.target = v) (fun _ => rfl) (Expr.place source) source
    (hplace.mono fun _ _ ho => by rw [ho]; rfl)
  refine htarget.bind_right fun v o ho => ?_
  have hunprefixed : (Expr.orBound (Expr.place source) source).isPrefixed = false := isPrefixed_receiver source
  rw [Expr.receiver, Expr.operand, hunprefixed]
  exact .found ho.symm

/-- **The place of a selector comes to the value that the selector finds.** -/
theorem matches_place (h : σ.Covers whole s) : ∀ source : Selector,
    Matches IsValue (source.resolve whole s) ((Expr.place source).eval σ)
  | .root => .found (congrArg Operand.value h.whole_eq)
  | .elem depth => by
    simp only [Selector.resolve, Expr.place, Expr.eval]
    cases hv : s.elems.lookup depth with
    | some v =>
      rw [h.elems _ _ hv]
      exact .found rfl
    | none => exact .other rfl
  | .key depth => by
    simp only [Selector.resolve, Expr.place, Expr.eval, bind_assoc]
    refine (matches_keyAt h depth).bind ?_
    rintro k _ rfl
    exact .found rfl
  | .field base name => by
    have hbase := matches_addressed (matches_receive h (matches_place h base)) base
    rw [Selector.resolve, ← bind_assoc, Expr.place, Expr.eval_field]
    refine hbase.bind ?_
    rintro v _ rfl
    refine (matches_fieldOf base name v).bind_right ?_
    rintro w _ rfl
    exact .found rfl
  | .deref base => by
    have hbase := matches_refer (matches_reference h (matches_place h base))
    rw [Selector.resolve, Expr.place, Expr.eval, Expr.eval, Expr.eval_follow, bind_assoc]
    refine hbase.bind ?_
    rintro v _ rfl
    cases v with
    | null => exact .absent
    | bool | int | string | duration | list | map | struct | native => exact .found rfl
  | .seconds base => by
    have hbase := matches_receive h (matches_place h base)
    rw [Selector.resolve, Expr.place, Expr.eval_seconds]
    refine hbase.bind ?_
    rintro v _ rfl
    cases v with
    | duration => exact .found rfl
    | null | bool | int | string | list | map | struct | native => exact .other rfl
  | .value base depth => by
    have hbase := matches_addressed (matches_receive h (matches_place h base)) base
    rw [Selector.resolve, ← bind_assoc, Expr.place, Expr.eval_entry]
    refine hbase.bind ?_
    rintro v _ rfl
    refine (matches_keyAt h depth).bind ?_
    rintro k _ rfl
    refine (matches_entryOf base depth k v).bind_right ?_
    rintro w _ rfl
    exact .found rfl

/-- **What the renderings of a selector come to**, given what it finds. -/
structure Renders (σ : Scope) (source : Selector) (found : Except RunError Value) : Prop where
  place : Matches IsValue found ((Expr.place source).eval σ)
  value : Matches IsValue found ((Expr.value source).eval σ)
  reference : Matches IsReference found ((Expr.reference source).eval σ)
  receiver : Matches Eq found ((Expr.receiver source).receive σ)

theorem renders (h : σ.Covers whole s) (source : Selector) : Renders σ source (source.resolve whole s) := by
  have hplace := matches_place h source
  exact ⟨hplace, by rw [eval_value]; exact hplace, matches_reference h hplace, matches_receive h hplace⟩

end

/-! ## What is read -/

theorem matches_boolBytes (source : Selector) (v : Value) :
    Matches (fun bytes b => bytes = Wire.bool b) (Instruction.boolBytes source v) (need (flag? v)) := by
  cases v with
  | bool => exact .found rfl
  | null | int | string | duration | list | map | struct | native => exact .other rfl

theorem matches_intBytes (source : Selector) (v : Value) :
    Matches (fun bytes n => bytes = Wire.int n) (Instruction.intBytes source v) (need (number? v)) := by
  cases v with
  | int => exact .found rfl
  | null | bool | string | duration | list | map | struct | native => exact .other rfl

theorem matches_stringBytes (source : Selector) (v : Value) :
    Matches (fun bytes b => bytes = Wire.string b) (Instruction.stringBytes source v) (need (text? v)) := by
  cases v with
  | string => exact .found rfl
  | null | bool | int | duration | list | map | struct | native => exact .other rfl

theorem matches_nativeBytes (source : Selector) (v : Value) :
    Matches Eq (Instruction.nativeBytes source v) (need (native? v)) := by
  cases v with
  | native => exact .found rfl
  | null | bool | int | string | duration | list | map | struct => exact .other rfl

theorem matches_elementsOf (source : Selector) (v : Value) :
    Matches Eq (Instruction.elementsOf source v) (need (elements? v)) := by
  cases v with
  | list => exact .found rfl
  | null | bool | int | string | duration | map | struct | native => exact .other rfl

theorem matches_keysOfPairs (source : Selector) : ∀ pairs : List (Value × Value),
    Matches Eq (Instruction.keysOfPairs source pairs) (need (Value.stringKeys? pairs))
  | [] => .found rfl
  | (key, v) :: rest => by
    cases key with
    | string k =>
      rw [Instruction.keysOfPairs, Value.stringKeys?]
      have hrest := matches_keysOfPairs source rest
      cases hkeys : Value.stringKeys? rest with
      | some keys =>
        rw [hkeys] at hrest
        refine hrest.bind (g := fun keys => pure (k :: keys)) ?_
        rintro keys _ rfl
        exact .found rfl
      | none =>
        rw [hkeys] at hrest
        generalize Instruction.keysOfPairs source rest = found at hrest ⊢
        cases hrest with
        | other he => exact .other he
    | null | bool | int | duration | list | map | struct | native => exact .other rfl

theorem matches_sortedKeysOf (source : Selector) (v : Value) :
    Matches (fun sorted keys => sorted = Wire.sortedKeys keys) (Instruction.sortedKeysOf source v) (need (keys? v)) := by
  cases v with
  | map pairs =>
    have hbind := (matches_keysOfPairs source pairs).bind (Q := fun sorted keys => sorted = Wire.sortedKeys keys)
      (f := fun keys => pure (Wire.sortedKeys keys)) (g := pure) fun keys _ heq => heq ▸ .found rfl
    rwa [bind_pure] at hbind
  | null | bool | int | string | duration | list | struct | native => exact .other rfl

/-- **A condition is the test of the value.** -/
theorem matches_condition {σ : Scope} {source : Selector} {found : Except RunError Value} (h : Renders σ source found)
    (test : EmptinessTest) : Matches Eq (found >>= test.isPresent source) ((condition source test).eval σ) := by
  cases test with
  | len =>
    refine h.receiver.bind ?_
    rintro v _ rfl
    cases v with
    | string | list | map => exact .found rfl
    | null | bool | int | duration | struct | native => exact .other rfl
  | nil =>
    refine h.receiver.bind ?_
    rintro v _ rfl
    cases v <;> exact .found rfl
  | «false» =>
    refine (matches_pass h.value).bind ?_
    rintro v _ rfl
    cases v with
    | bool => exact .found rfl
    | null | int | string | duration | list | map | struct | native => exact .other rfl
  | zero =>
    refine (matches_pass h.value).bind ?_
    rintro v _ rfl
    cases v with
    | int => exact .found rfl
    | null | bool | string | duration | list | map | struct | native => exact .other rfl
  | zeroDuration =>
    refine h.receiver.bind ?_
    rintro v _ rfl
    cases v with
    | duration seconds nanoseconds => exact .found (by rw [Bool.not_and]; rfl)
    | null | bool | int | string | list | map | struct | native => exact .other rfl

/-! ## Instructions -/

/-- **A part of a run, and the same part of the program.**  If the run goes on, its state is fit to go on from. -/
inductive Agrees (fit : State → Prop) : Step → Outcome → Prop
  | ends {bytes : Bytes} {s : State} : fit s → Agrees fit ⟨bytes, s, none⟩ ⟨bytes, none⟩
  | absent {bytes : Bytes} {s : State} {source : String} :
      Agrees fit ⟨bytes, s, some (.nilDereference source)⟩ ⟨bytes, some .absent⟩
  | other {bytes : Bytes} {s : State} {e : RunError} {o : Outcome} :
      e.isAbsent = false → Agrees fit ⟨bytes, s, some e⟩ o

namespace Agrees

variable {fit fit' : State → Prop} {a : Step} {o : Outcome}

theorem andThen (h : Agrees fit a o) {next : State → Step} {o' : Outcome} (hnext : ∀ s, fit s → Agrees fit' (next s) o') :
    Agrees fit' (a.andThen next) (o.andThen o') := by
  cases h with
  | @ends bytes s hs =>
    have hlast := hnext s hs
    show Agrees fit' ⟨bytes ++ (next s).bytes, (next s).state, (next s).error?⟩ ⟨bytes ++ o'.bytes, o'.stop?⟩
    generalize next s = b at hlast ⊢
    cases hlast with
    | ends hfit => exact .ends hfit
    | absent => exact .absent
    | other he => exact .other he
  | absent => exact .absent
  | other he => exact .other he

theorem mono (h : Agrees fit a o) (hfit : ∀ s, fit s → fit' s) : Agrees fit' a o := by
  cases h with
  | ends hs => exact .ends (hfit _ hs)
  | absent => exact .absent
  | other he => exact .other he

theorem andThen_done (h : Agrees fit a o) {leave : State → State} (hleave : ∀ s, fit s → fit' (leave s)) :
    Agrees fit' (a.andThen fun s => Step.done (leave s)) o := by
  cases h with
  | @ends bytes s hs =>
    show Agrees fit' ⟨bytes ++ [], leave s, none⟩ ⟨bytes, none⟩
    rw [List.append_nil]
    exact .ends (hleave s hs)
  | absent => exact .absent
  | other he => exact .other he

theorem after {R : α → β → Prop} {found : Except RunError α} {got : Except Stop β} (h : Matches R found got) (s : State)
    {next : α → Step} {next' : β → Outcome} (hnext : ∀ x y, R x y → Agrees fit (next x) (next' y)) :
    Agrees fit (Step.withValue s found next) (Outcome.after got next') := by
  cases h with
  | found hxy => exact hnext _ _ hxy
  | absent => exact .absent
  | other he => exact .other he

/-- **Turn by turn**, if each turn leaves a state that is fit for the next. -/
theorem each {body : α → State → Step} {body' : α → Outcome}
    (hbody : ∀ x s, fit s → Agrees fit (body x s) (body' x)) : ∀ (items : List α) (s : State), fit s →
    Agrees fit (Step.each body items s) (Outcome.each body' items)
  | [], _, hs => .ends hs
  | x :: rest, s, hs => (hbody x s hs).andThen fun s' hs' => each hbody rest s' hs'

end Agrees

theorem agrees_write {σ : Scope} {whole : Value} {s : State} (h : σ.Covers whole s) (bytes : Bytes) :
    Agrees (σ.Covers whole) (Step.write bytes s) (Outcome.write bytes) := by
  unfold Step.write
  split
  · exact .ends h
  · split
    · exact .ends ⟨h.whole_eq, h.elems, h.keys⟩
    · exact .other rfl

variable {whole : Value}

mutual
/-- **A statement does what its instruction does.** -/
theorem run_agrees : ∀ (i : Instruction) {σ : Scope} {s : State}, σ.Covers whole s →
    Agrees (σ.Covers whole) (i.run whole s) ((Statement.ofInstruction i).run σ)
  | .literal bytes, _, _, h => agrees_write h bytes
  | .bool source, σ, s, h => by
    have hread := (matches_pass (renders h source).value).bind_same (matches_boolBytes source)
    exact .after hread s fun _ b hb => hb ▸ agrees_write h _
  | .int source, σ, s, h => by
    have hread := (matches_refer (renders h source).reference).bind_same (matches_intBytes source)
    exact .after hread s fun _ n hn => hn ▸ agrees_write h _
  | .string source, σ, s, h => by
    have hread := (matches_refer (renders h source).reference).bind_same (matches_stringBytes source)
    exact .after hread s fun _ b hb => hb ▸ agrees_write h _
  | .native source, σ, s, h => by
    have hread := (matches_refer (renders h source).reference).bind_same (matches_nativeBytes source)
    exact .after hread s fun _ b hb => hb ▸ agrees_write h _
  | .list source depth body, σ, s, h => by
    have hread := (matches_addressed (renders h source).receiver source).bind_same (matches_elementsOf source)
    have hturn (v : Value) (s' : State) (hs' : σ.Covers whole (s'.unbindElem depth)) :
        Agrees (fun s => σ.Covers whole (s.unbindElem depth)) (Instruction.runAll whole body (s'.bindElem depth v))
          (Statement.runAll (σ.bindElem depth v) (Statement.ofInstructions body)) :=
      (runAll_agrees body hs'.bindElem).mono fun _ hs => hs.leaveElem
    refine .after hread s fun _ items hitems => hitems ▸ ?_
    exact (Agrees.each hturn _ s h.unbindElem).andThen_done fun _ hs => hs
  | .map source depth cast body, σ, s, h => by
    have hread := (matches_addressed (renders h source).receiver source).bind_same (matches_sortedKeysOf source)
    have hturn (k : Bytes) (s' : State) (hs' : σ.Covers whole (s'.unbindKey depth)) :
        Agrees (fun s => σ.Covers whole (s.unbindKey depth)) (Instruction.runAll whole body (s'.bindKey depth k))
          (Statement.runAll (σ.bindKey depth k) (Statement.ofInstructions body)) :=
      (runAll_agrees body hs'.bindKey).mono fun _ hs => hs.leaveKey
    refine .after hread s fun _ keys hkeys => hkeys ▸ ?_
    exact (Agrees.each hturn _ s h.unbindKey).andThen_done fun _ hs => hs
  | .when source test body, σ, s, h => by
    refine .after (matches_condition (renders h source) test) s fun holds _ heq => heq ▸ ?_
    cases holds with
    | true => exact runAll_agrees body h
    | false => exact .ends h
termination_by structural i => i

theorem runAll_agrees : ∀ (is : List Instruction) {σ : Scope} {s : State}, σ.Covers whole s →
    Agrees (σ.Covers whole) (Instruction.runAll whole is s) (Statement.runAll σ (Statement.ofInstructions is))
  | [], _, _, h => .ends h
  | i :: rest, _, _, h => (run_agrees i h).andThen fun _ hs => runAll_agrees rest hs
termination_by structural is => is
end

theorem Agrees.of_ends {fit : State → Prop} {a : Step} {o : Outcome} (h : Agrees fit a o) (ha : a.error? = none) :
    o = ⟨a.bytes, none⟩ := by
  cases h with
  | ends => rfl
  | absent => cases ha
  | other => cases ha

theorem Agrees.of_absent {fit : State → Prop} {a : Step} {o : Outcome} (h : Agrees fit a o) {source : String}
    (ha : a.error? = some (.nilDereference source)) : o = ⟨a.bytes, some .absent⟩ := by
  cases h with
  | ends => cases ha
  | absent => rfl
  | other he =>
    cases ha
    cases he

/-- **The encoder of a plan does what a run of the plan does**, for every plan and every value, compiled or not.  Where
the run succeeds, the encoder ends with the same bytes, and where the run fails at an absent value, it stops there after
the same bytes.  Whatever loops a run is in, each rendering of a selector comes to what the selector finds. -/
theorem encode_agrees (p : Plan) (v : Value) :
    ((p.run v none).error? = none → encode p v = ⟨(p.run v none).bytes, none⟩) ∧
    (∀ source, (p.run v none).error? = some (.nilDereference source) →
      encode p v = ⟨(p.run v none).bytes, some .absent⟩) ∧
    ∀ (σ : Scope) (s : State), σ.Covers v s → ∀ source : Selector, Renders σ source (source.resolve v s) := by
  have hrun := runAll_agrees p.body (Scope.Covers.start v none)
  exact ⟨hrun.of_ends, fun _ => hrun.of_absent, fun _ _ h => renders h⟩

def swarmDocument : RawSchema := ⟨none, [⟨"Swarm", none, some "Map<str, Vec<Option<u16>>>", false⟩]⟩

def swarmTable : TypeTable :=
  ⟨[.named ⟨"Swarm", some 5⟩, .scalar .str, .scalar (.int .u16), .pointer 2, .sequence 3 .slice, .mapping 1 4],
    [(.scalar .str, 1), (.scalar (.int .u16), 2), (.pointer 2, 3), (.sequence 3 .slice, 4), (.mapping 1 4, 5)],
    [("Swarm", 0)]⟩

def swarmPlan : Plan :=
  ⟨"Swarm", [.ascii "d", .map .root 0 none [.string (.key 0), .ascii "l",
    .list (.value .root 0) 1 [.ascii "i", .int (.deref (.elem 1)), .ascii "e"], .ascii "e"], .ascii "e"]⟩

def swarm : Value := .map [(.string [97], .list [.int 7, .null])]

def fullSwarm : Value := .map [(.string [97], .list [.int 7, .int 5])]

theorem swarm_encoded : (Schema.ofRaw swarmDocument).value = .ok ⟨none, swarmTable⟩ ∧
    Compile.result (swarmTable.compile "Swarm" 0) = .ok swarmPlan ∧
    encode swarmPlan fullSwarm = ⟨Wire.ascii "d1:ali7ei5eee".toList, none⟩ ∧
    encode swarmPlan swarm = ⟨Wire.ascii "d1:ali7ei".toList, some .absent⟩ ∧
    Renders ((Scope.start swarm).bindKey 0 [97]) (.value .root 0) (.ok (.list [.int 7, .null])) := by
  refine ⟨Schema.ofRaw_eq_ok (by decide +kernel), by cbv, ?_, ?_, ?_⟩
  · have hrun : (swarmPlan.run fullSwarm none).error? = none := by decide +kernel
    have hbytes : (swarmPlan.run fullSwarm none).bytes = Wire.ascii "d1:ali7ei5eee".toList := by decide +kernel
    rw [(encode_agrees swarmPlan fullSwarm).1 hrun, hbytes]
  · have hrun : (swarmPlan.run swarm none).error? = some (.nilDereference "i1") := by decide +kernel
    have hbytes : (swarmPlan.run swarm none).bytes = Wire.ascii "d1:ali7ei".toList := by decide +kernel
    rw [(encode_agrees swarmPlan swarm).2.1 _ hrun, hbytes]
  · have hstart : (Scope.start swarm).Covers swarm ((State.start none).unbindKey 0) := .start swarm none
    exact (encode_agrees swarmPlan swarm).2.2 _ _ hstart.bindKey (.value .root 0)

end Source
end BencodePlan
