import BencodePlan.Shape.OfType
import BencodePlan.Proofs.Member.Collected
import Mathlib.Logic.Relation
/-!
# The expansion of a type

`Holds` relates a type to what it is made of: a declared type to its body, a reference to its target, a list to its
elements, a map to its keys and values, a struct to the types of its collected fields.  A native type writes itself and is
made of nothing.  The opening of a type follows more than that: from a declared type it leaps to the end of the chain of
bodies, past any native declaration on the way (`Follows`).

The expansion of a type is what can be reached from it.  A type whose expansion is well-founded has none in it that
contains itself (`not_containsItself_of_endsAt`).
-/
namespace BencodePlan
namespace TypeTable

open Relation

/-- **What a type is made of**, one level down. -/
inductive Holds (t : TypeTable) (a : TypeId) : TypeId → Prop
  | body {d : Declared} {b : TypeId} : t.get? a = some (.named d) → d.body = some b → Holds t a b
  | target {b : TypeId} : t.get? a = some (.pointer b) → Holds t a b
  | element {b : TypeId} {kind : SequenceKind} : t.get? a = some (.sequence b kind) → Holds t a b
  | key {k v : TypeId} : t.get? a = some (.mapping k v) → Holds t a k
  | value {k v : TypeId} : t.get? a = some (.mapping k v) → Holds t a v
  | field {members : List Member} {f : Field} : t.get? a = some (.struct members) → f ∈ t.fieldsOf a → Holds t a f.type

/-- **What the opening of a type leads to**: what it is made of, and the type that a declared one is built on. -/
inductive Follows (t : TypeTable) (a : TypeId) : TypeId → Prop
  | holds {b : TypeId} : t.Holds a b → Follows t a b
  | base {d : Declared} : t.get? a = some (.named d) → Follows t a (t.underlying a)

/-- `b` is in the expansion of `a`. -/
def Expands (t : TypeTable) (a b : TypeId) : Prop := ReflTransGen t.Follows a b

/-- The expansion of a type leads back to it. -/
def ContainsItself (t : TypeTable) (a : TypeId) : Prop := TransGen t.Follows a a

/-- The expansion below a type is well-founded. -/
def EndsAt (t : TypeTable) (a : TypeId) : Prop := Acc (fun b a => t.Follows a b) a

variable {t : TypeTable}

theorem Expands.refl (a : TypeId) : t.Expands a a := ReflTransGen.refl

theorem Expands.follows {a b c : TypeId} (h : t.Expands a b) (hbc : t.Follows b c) : t.Expands a c := h.tail hbc

theorem EndsAt.expands {a b : TypeId} (h : t.EndsAt a) (hab : t.Expands a b) : t.EndsAt b := by
  unfold Expands at hab
  induction hab with
  | refl => exact h
  | tail _ hbc ih => exact ih.inv hbc

theorem not_containsItself_of_endsAt {a : TypeId} (h : t.EndsAt a) : ¬ t.ContainsItself a := by
  unfold EndsAt at h
  induction h with
  | intro a _ ih =>
    intro hcyc
    obtain ⟨b, hab, hba⟩ := TransGen.head'_iff.1 hcyc
    exact ih b hab (TransGen.tail' hba hab)

/-! ## Chains -/

theorem Sound.underlying_next (h : t.Sound) (a : TypeId) : t.underlying (t.next a) = t.underlying a := by
  rw [underlying_eq_iterate, ← Function.iterate_succ_apply, Function.iterate_succ_apply', ← underlying_eq_iterate,
    next_of_none (h.chain_ends a)]

theorem bodyOf_named {a : TypeId} {d : Declared} (hd : t.get? a = some (.named d)) : t.bodyOf a = d.body := by
  unfold bodyOf
  rw [declared?_of_get? hd]
  rfl

/-- **Induction along the chain of a type**, from its end.  Native types on the way stand for themselves. -/
theorem Sound.chain_induction (h : t.Sound) {P : TypeId → Prop} (a : TypeId) (hend : P (t.underlying a))
    (hnative : ∀ c d, t.get? c = some (.native d) → P c)
    (hstep : ∀ c d body, t.get? c = some (.named d) → d.body = some body → t.underlying c = t.underlying a → P body →
      P c) : P a := by
  have hwalk : ∀ (n : Nat) (c : TypeId), t.underlying c = t.underlying a → t.next^[n] c = t.underlying a → P c := by
    intro n
    induction n with
    | zero =>
      intro c _ hc
      rw [show c = t.underlying a from hc]
      exact hend
    | succ n ih =>
      intro c hu hc
      rw [Function.iterate_succ_apply] at hc
      cases hb : t.bodyOf c with
      | none =>
        rw [next_of_none hb, iterate_next_of_none hb] at hc
        rw [hc]
        exact hend
      | some body =>
        obtain ⟨e, he⟩ := Option.isSome_iff_exists.1 (declared?_isSome_of_bodyOf hb)
        have hnext := ih (t.next c) ((h.underlying_next c).trans hu) hc
        rcases get?_of_declared? he with hget | hget
        · rw [bodyOf_named hget] at hb
          rw [next_of_some (by rw [bodyOf_named hget]; exact hb)] at hnext
          exact hstep c e body hget hb hu hnext
        · exact hnative c e hget
  exact hwalk _ a rfl (underlying_eq_iterate t a).symm

/-- **What a type leads to, by its descriptor.** -/
theorem Follows.inv {a b : TypeId} {d : TypeDesc} (hf : t.Follows a b) (hd : t.get? a = some d) :
    match d with
    | .named e => e.body = some b ∨ b = t.underlying a
    | .pointer target => b = target
    | .sequence element _ => b = element
    | .mapping key value => b = key ∨ b = value
    | .struct _ => ∃ f ∈ t.fieldsOf a, b = f.type
    | .scalar _ | .duration | .native _ => False := by
  cases hf with
  | holds hh =>
    cases hh with
    | body hget hb => rw [hd] at hget; cases hget; exact Or.inl hb
    | target hget => rw [hd] at hget; cases hget; rfl
    | element hget => rw [hd] at hget; cases hget; rfl
    | key hget => rw [hd] at hget; cases hget; exact Or.inl rfl
    | value hget => rw [hd] at hget; cases hget; exact Or.inr rfl
    | field hget hf => rw [hd] at hget; cases hget; exact ⟨_, hf, rfl⟩
  | base hget => rw [hd] at hget; cases hget; exact Or.inr rfl

theorem Holds.eq_body {a b : TypeId} {d : Declared} (hh : t.Holds a b) (hd : t.get? a = some (.named d)) : d.body = some b := by
  cases hh with
  | body hget hb =>
    rw [hd] at hget
    cases hget
    exact hb
  | target hget | element hget | key hget | value hget | field hget => rw [hd] at hget; cases hget

theorem not_follows_of_native {a b : TypeId} {d : Declared} (hd : t.get? a = some (.native d)) : ¬ t.Follows a b :=
  fun hf => hf.inv hd

theorem endsAt_of_native {a : TypeId} {d : Declared} (hd : t.get? a = some (.native d)) : t.EndsAt a :=
  Acc.intro a fun _ hf => absurd hf (not_follows_of_native hd)

theorem Sound.endsAt_of_underlying (h : t.Sound) {a : TypeId} (ha : t.EndsAt (t.underlying a)) : t.EndsAt a := by
  refine h.chain_induction (P := t.EndsAt) a ha (fun c d hd => endsAt_of_native hd) fun c d body hd hbody hu ih => ?_
  refine Acc.intro c fun b hf => ?_
  rcases hf.inv hd with hb | rfl
  · rw [hbody] at hb
    cases hb
    exact ih
  · rw [hu]
    exact ha

theorem Follows.lt_size (h : t.Sound) {a b : TypeId} (hf : t.Follows a b) : b < t.size := by
  cases hf with
  | holds hh =>
    cases hh with
    | body hget hb => exact h.body_lt (by rw [bodyOf_named hget, hb])
    | target hget => exact Nat.lt_trans (h.part_lt hget (List.mem_singleton.2 rfl)) (get?_lt hget)
    | element hget => exact Nat.lt_trans (h.part_lt hget (List.mem_singleton.2 rfl)) (get?_lt hget)
    | key hget => exact Nat.lt_trans (h.part_lt hget List.mem_cons_self) (get?_lt hget)
    | value hget =>
      exact Nat.lt_trans (h.part_lt hget (List.mem_cons_of_mem _ (List.mem_singleton.2 rfl))) (get?_lt hget)
    | field _ hf => exact (isStruct_of_mem_fieldsOf h.toFormed hf).1
  | base hget => exact h.underlying_lt (get?_lt hget)

end TypeTable
end BencodePlan
