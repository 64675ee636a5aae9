import BencodePlan.Proofs.Run.Fold
import BencodePlan.Proofs.Encoding.Basic
/-!
# Runs that leave the state alone

A step `Gives` bytes if it writes them and leaves the state as it was, and gives nothing if it fails.  Steps in a row give
what they give one after the other, and a loop gives what its turns give, each with the variable of the loop bound
(`gives_each`).  The variables of a run are those of the loops around: `Inside` says that a state has none of the depth that
a loop is about to use.
-/
namespace BencodePlan

namespace Instruction

mutual
def nesting : Instruction → Nat
  | list _ _ body => nestingAll body + 1
  | map _ _ _ body => nestingAll body + 1
  | when _ _ body => nestingAll body
  | literal _ => 0
  | bool _ => 0
  | int _ => 0
  | string _ => 0
  | native _ => 0
termination_by structural i => i

/-- **How deep loops are nested.** -/
def nestingAll : List Instruction → Nat
  | [] => 0
  | i :: rest => max i.nesting (nestingAll rest)
termination_by structural is => is
end

theorem nestingAll_append : ∀ is js : List Instruction, nestingAll (is ++ js) = max (nestingAll is) (nestingAll js)
  | [], js => (Nat.zero_max _).symm
  | i :: is, js => by rw [List.cons_append, nestingAll, nestingAll, nestingAll_append is js, Nat.max_assoc]

end Instruction

def Plan.nesting (p : Plan) : Nat := Instruction.nestingAll p.body

namespace Step

/-- **What a run wrote**, unless it failed. -/
def written? (a : Step) : Option Bytes :=
  match a.error? with
  | none => some a.bytes
  | some _ => none

def Gives (a : Step) (s : State) : Option Bytes → Prop
  | some bytes => a = ⟨bytes, s, none⟩
  | none => a.error?.isSome = true

variable {a : Step} {s : State}

theorem Gives.written? {r : Option Bytes} (h : a.Gives s r) : a.written? = r := by
  unfold Step.written?
  cases r with
  | some bytes =>
    cases h
    rfl
  | none =>
    obtain ⟨e, he⟩ := Option.isSome_iff_exists.1 h
    rw [he]

theorem Gives.error?_eq_none_iff {r : Option Bytes} (h : a.Gives s r) : a.error? = none ↔ r ≠ none := by
  cases r with
  | some bytes =>
    cases h
    exact ⟨fun _ hne => (nomatch hne), fun _ => rfl⟩
  | none =>
    obtain ⟨e, he⟩ := Option.isSome_iff_exists.1 h
    rw [he]
    exact ⟨fun hne => (nomatch hne), fun hne => absurd rfl hne⟩

theorem gives_done : (done s).Gives s (some []) := rfl

theorem gives_fail (e : RunError) : (fail s e).Gives s none := rfl

theorem gives_write (h : s.room = none) (bytes : Bytes) : (write bytes s).Gives s (some bytes) := by
  change write bytes s = _
  unfold write
  rw [h]

/-- **Steps in a row**, the first of which may leave the state as another one. -/
theorem Gives.andThen {mid : State} {next : State → Step} {r r' : Option Bytes} (h : a.Gives mid r)
    (h' : (next mid).Gives s r') : (a.andThen next).Gives s (Encoder.append r r') := by
  cases r with
  | none =>
    obtain ⟨e, he⟩ := Option.isSome_iff_exists.1 h
    change (a.andThen next).error?.isSome = true
    unfold Step.andThen
    rw [he]
    exact h
  | some bytes =>
    cases h
    cases r' with
    | none => exact h'
    | some bytes' =>
      have hnext : next mid = ⟨bytes', s, none⟩ := h'
      change (⟨bytes ++ (next mid).bytes, (next mid).state, (next mid).error?⟩ : Step) = ⟨bytes ++ bytes', s, none⟩
      rw [hnext]

theorem gives_withValue {α : Type} {found : Except RunError α} {next : α → Step} {f : α → Option Bytes}
    (h : ∀ x, (next x).Gives s (f x)) : (withValue s found next).Gives s (found.toOption.bind f) := by
  cases found with
  | ok x => exact h x
  | error e => exact gives_fail e

theorem gives_writeFound (hs : s.room = none) (found : Except RunError Bytes) :
    (withValue s found fun bytes => write bytes s).Gives s found.toOption := by
  cases found with
  | ok bytes => exact gives_write hs bytes
  | error e => exact gives_fail e

theorem gives_withValue_none {α : Type} {found : Except RunError α} (next : α → Step) (h : found.toOption = none) :
    (withValue s found next).Gives s none := by
  cases found with
  | ok x => cases h
  | error e => exact gives_fail e

/-- **A loop gives what its turns give.**  A turn begins by binding the variable, which may still be bound by the turn
before; the loop ends by unbinding it. -/
theorem gives_each {α : Type} (enter : State → α → State) (leave : State → State)
    (henter : ∀ s x, enter s x = enter (leave s) x) (hleave : ∀ s x, leave (enter s x) = leave s) (hs : leave s = s)
    (turn : State → Step) {f : α → Option Bytes} : ∀ items : List α,
    (∀ x ∈ items, (turn (enter s x)).Gives (enter s x) (f x)) → ∀ s', leave s' = s →
    ((each (fun x s => turn (enter s x)) items s').andThen fun s => done (leave s)).Gives s
      (Encoder.concat (items.map f))
  | [], _, s', hs' => by
    change done (leave s') = _
    rw [hs']
    rfl
  | x :: rest, hturn, s', hs' => by
    rw [each, andThen_assoc, henter s' x, hs', List.map_cons, Encoder.concat]
    exact (hturn x List.mem_cons_self).andThen
      (gives_each enter leave henter hleave hs turn rest (fun y hy => hturn y (List.mem_cons_of_mem _ hy)) (enter s x)
        ((hleave s x).trans hs))

end Step

/-! ## Variables -/

namespace Slots

variable {α : Type}

theorem lookup_filter_ne (s : Slots α) {d depth : Nat} (h : d ≠ depth) :
    (s.filter fun p => p.1 ≠ depth).lookup d = s.lookup d := by
  induction s with
  | nil => rfl
  | cons p s ih =>
    obtain ⟨e, a⟩ := p
    by_cases he : e = depth
    · subst he
      rw [List.filter_cons_of_neg (by simp), ih, List.lookup_cons, beq_false_of_ne h]
    · rw [List.filter_cons_of_pos (by simp [he]), List.lookup_cons, List.lookup_cons, ih]

theorem lookup_bind_self (s : Slots α) (depth : Nat) (a : α) : (s.bind depth a).lookup depth = some a := by
  unfold bind
  rw [List.lookup_cons, beq_self_eq_true]

theorem lookup_bind_of_ne (s : Slots α) {d depth : Nat} (a : α) (h : d ≠ depth) :
    (s.bind depth a).lookup d = s.lookup d := by
  unfold bind unbind
  rw [List.lookup_cons, beq_false_of_ne h]
  exact lookup_filter_ne s h

theorem unbind_unbind (s : Slots α) (depth : Nat) : (s.unbind depth).unbind depth = s.unbind depth := by
  unfold unbind
  rw [List.filter_filter]
  simp only [Bool.and_self]

theorem unbind_bind (s : Slots α) (depth : Nat) (a : α) : (s.bind depth a).unbind depth = s.unbind depth := by
  have hcons : (s.bind depth a).unbind depth = (s.unbind depth).unbind depth :=
    List.filter_cons_of_neg (by simp)
  rw [hcons, unbind_unbind]

theorem bind_unbind (s : Slots α) (depth : Nat) (a : α) : (s.unbind depth).bind depth a = s.bind depth a := by
  unfold bind
  rw [unbind_unbind]

theorem unbind_of_lt {s : Slots α} {depth : Nat} (h : ∀ p ∈ s, p.1 < depth) : s.unbind depth = s :=
  List.filter_eq_self.2 fun p hp => decide_eq_true (Nat.ne_of_lt (h p hp))

theorem lt_of_mem_bind {s : Slots α} {depth : Nat} {a : α} (h : ∀ p ∈ s, p.1 < depth) {p : Nat × α}
    (hp : p ∈ s.bind depth a) : p.1 < depth + 1 := by
  rcases List.mem_cons.1 hp with rfl | hp
  · exact Nat.lt_succ_self _
  · exact Nat.lt_succ_of_lt (h p (List.mem_filter.1 hp).1)

end Slots

namespace State

/-- **A state inside so many loops**, with an output of unlimited size. -/
structure Inside (depth : Nat) (s : State) : Prop where
  elems : ∀ p ∈ s.elems, p.1 < depth
  keys : ∀ p ∈ s.keys, p.1 < depth
  room : s.room = none

def Agree (depth : Nat) (s s' : State) : Prop :=
  ∀ d < depth, s'.elems.lookup d = s.elems.lookup d ∧ s'.keys.lookup d = s.keys.lookup d

theorem inside_start : Inside 0 (start none) := ⟨fun _ hp => (nomatch hp), fun _ hp => (nomatch hp), rfl⟩

theorem Agree.refl (depth : Nat) (s : State) : Agree depth s s := fun _ _ => ⟨rfl, rfl⟩

variable {depth : Nat} {s s' : State}

theorem Inside.unbindElem (h : Inside depth s) : s.unbindElem depth = s := by
  unfold State.unbindElem
  rw [Slots.unbind_of_lt h.elems]

theorem Inside.unbindKey (h : Inside depth s) : s.unbindKey depth = s := by
  unfold State.unbindKey
  rw [Slots.unbind_of_lt h.keys]

theorem Inside.bindElem (h : Inside depth s) (v : Value) : Inside (depth + 1) (s.bindElem depth v) :=
  ⟨fun _ hp => Slots.lt_of_mem_bind h.elems hp, fun p hp => Nat.lt_succ_of_lt (h.keys p hp), h.room⟩

theorem Inside.bindKey (h : Inside depth s) (k : Bytes) : Inside (depth + 1) (s.bindKey depth k) :=
  ⟨fun p hp => Nat.lt_succ_of_lt (h.elems p hp), fun _ hp => Slots.lt_of_mem_bind h.keys hp, h.room⟩

theorem Agree.of_bindKey {k : Bytes} (h : Agree (depth + 1) (s.bindKey depth k) s') : Agree depth s s' := by
  intro d hd
  obtain ⟨he, hk⟩ := h d (Nat.lt_succ_of_lt hd)
  exact ⟨he, hk.trans (Slots.lookup_bind_of_ne s.keys k (Nat.ne_of_lt hd))⟩

end State
end BencodePlan
