import BencodePlan.Text.Decimal
import Mathlib.Data.List.Basic
import Mathlib.Data.List.Induction
/-!
# Numbers read back

Digits stand for a number, and each number has one spelling among those without a zero in front: `number?` reads exactly
what `decimal` writes (`number?_eq_some_iff`).
-/
namespace BencodePlan
namespace Text

def numberOf (digits : List Char) : Nat :=
  digits.foldl (fun n c => n * 10 + (c.toNat - 48)) 0

/-- **Read a number**: at least one digit, and no zero before others. -/
def number? (cs : List Char) : Option Nat :=
  if cs ≠ [] ∧ cs.all Char.isDigit = true ∧ (cs.head? ≠ some '0' ∨ cs = ['0']) then some (numberOf cs) else none

theorem toNat_digit {n : Nat} (h : n < 10) : (Char.ofNat (48 + n)).toNat = 48 + n := by
  have hall : ∀ m, m < 10 → (Char.ofNat (48 + m)).toNat = 48 + m := by decide
  exact hall n h

theorem isDigit_digit {n : Nat} (h : n < 10) : (Char.ofNat (48 + n)).isDigit = true := by
  rw [Char.isDigit_iff_toNat, toNat_digit h]
  exact ⟨Nat.le_add_right 48 n, Nat.add_le_add_left (Nat.le_of_lt_succ h) 48⟩

theorem digit_of_isDigit {c : Char} (h : c.isDigit = true) : Char.ofNat (48 + (c.toNat - 48)) = c := by
  have hc : 48 ≤ c.toNat ∧ c.toNat ≤ 57 := Char.isDigit_iff_toNat.1 h
  rw [show 48 + (c.toNat - 48) = c.toNat by omega, Char.ofNat_toNat]

theorem decimal_of_lt {n : Nat} (h : n < 10) : decimal n = [Char.ofNat (48 + n)] := by
  rw [decimal, if_pos h]

theorem decimal_of_le {n : Nat} (h : 10 ≤ n) : decimal n = decimal (n / 10) ++ [Char.ofNat (48 + n % 10)] := by
  rw [decimal, if_neg (by omega)]

theorem decimal_ne_nil (n : Nat) : decimal n ≠ [] := by
  by_cases h : n < 10
  · rw [decimal_of_lt h]
    simp
  · rw [decimal_of_le (by omega)]
    simp

theorem isDigit_of_mem_decimal (n : Nat) : ∀ c ∈ decimal n, c.isDigit = true := by
  induction n using Nat.strongRecOn with
  | ind n ih =>
    by_cases h : n < 10
    · rw [decimal_of_lt h]
      simpa using isDigit_digit h
    · have hlast : n % 10 < 10 := Nat.mod_lt _ (by omega)
      rw [decimal_of_le (by omega)]
      intro c hc
      rcases List.mem_append.1 hc with hc | hc
      · exact ih (n / 10) (by omega) c hc
      · rw [List.mem_singleton.1 hc]
        exact isDigit_digit hlast

theorem head?_decimal {n : Nat} (h : 0 < n) : (decimal n).head? ≠ some '0' := by
  induction n using Nat.strongRecOn with
  | ind n ih =>
    by_cases hlt : n < 10
    · have hall : ∀ m, m < 10 → 0 < m → Char.ofNat (48 + m) ≠ '0' := by decide
      rw [decimal_of_lt hlt]
      simpa using hall n hlt h
    · rw [decimal_of_le (by omega), List.head?_append_of_ne_nil _ (decimal_ne_nil _)]
      exact ih (n / 10) (by omega) (by omega)

theorem numberOf_append_singleton (cs : List Char) (c : Char) :
    numberOf (cs ++ [c]) = numberOf cs * 10 + (c.toNat - 48) := by
  simp only [numberOf, List.foldl_append, List.foldl_cons, List.foldl_nil]

theorem numberOf_decimal (n : Nat) : numberOf (decimal n) = n := by
  induction n using Nat.strongRecOn with
  | ind n ih =>
    by_cases h : n < 10
    · rw [decimal_of_lt h]
      simp only [numberOf, List.foldl_cons, List.foldl_nil, toNat_digit h]
      omega
    · have hlast : n % 10 < 10 := Nat.mod_lt _ (by omega)
      rw [decimal_of_le (by omega), numberOf_append_singleton, ih (n / 10) (by omega), toNat_digit hlast]
      omega

/-- **Digits without a zero in front are those of their number.** -/
theorem decimal_numberOf (cs : List Char) (hne : cs ≠ []) (hdigits : ∀ c ∈ cs, c.isDigit = true)
    (hzero : cs.head? = some '0' → cs = ['0']) : decimal (numberOf cs) = cs := by
  -- from the last digit on, which is how a number is spelled
  induction cs using List.reverseRecOn with
  | nil => exact absurd rfl hne
  | append_singleton front last ih =>
    have hdigit := hdigits last (by simp)
    have hlast : 48 ≤ last.toNat ∧ last.toNat ≤ 57 := Char.isDigit_iff_toNat.1 hdigit
    rw [numberOf_append_singleton]
    by_cases hfront : front = []
    · subst hfront
      rw [show numberOf [] * 10 = 0 by rfl, Nat.zero_add, decimal_of_lt (by omega), digit_of_isDigit hdigit]
      rfl
    · have hfirst : front.head? ≠ some '0' := by
        intro h0
        have hall := congrArg List.length (hzero (by rw [List.head?_append_of_ne_nil _ hfront, h0]))
        have hpos := List.length_pos_iff.2 hfront
        rw [List.length_append, List.length_singleton, List.length_singleton] at hall
        omega
      have hmore := ih hfront (fun c hc => hdigits c (by simp [hc])) (fun h0 => absurd h0 hfirst)
      have hpos : 0 < numberOf front := by
        rcases Nat.eq_zero_or_pos (numberOf front) with h0 | hpos
        · rw [← hmore, h0] at hfirst
          exact absurd (by rw [decimal_of_lt (by omega)]; rfl) hfirst
        · exact hpos
      rw [decimal_of_le (by omega), show (numberOf front * 10 + (last.toNat - 48)) / 10 = numberOf front by omega,
        show (numberOf front * 10 + (last.toNat - 48)) % 10 = last.toNat - 48 by omega, hmore, digit_of_isDigit hdigit]

/-- **Reading accepts exactly what writing produces.** -/
theorem number?_eq_some_iff {cs : List Char} {n : Nat} : number? cs = some n ↔ cs = decimal n := by
  unfold number?
  constructor
  · intro h
    split at h
    · rename_i hcs
      obtain ⟨hne, hdigits, hzero⟩ := hcs
      rw [← Option.some.inj h]
      exact (decimal_numberOf cs hne (List.all_eq_true.1 hdigits) fun h0 => hzero.resolve_left (not_not_intro h0)).symm
    · cases h
  · rintro rfl
    have hzero : (decimal n).head? ≠ some '0' ∨ decimal n = ['0'] := by
      rcases Nat.eq_zero_or_pos n with rfl | hpos
      · exact Or.inr (decimal_of_lt (by omega))
      · exact Or.inl (head?_decimal hpos)
    rw [if_pos ⟨decimal_ne_nil n, List.all_eq_true.2 (isDigit_of_mem_decimal n), hzero⟩, numberOf_decimal]

end Text
end BencodePlan
