import BencodePlan.Text.Escape
import Mathlib
/-!
# Literals read back

A byte string between double quotes is read from the front: a backslash and what comes after it stand for one byte, any
other ASCII character for itself, and a quote alone ends the literal.  Escaped bytes are read back whatever they are and
whatever follows the closing quote (`readLiteral_escapeChars`), and their text is printable ASCII (`isPrintable_escapeChars`).
-/
namespace BencodePlan
namespace Text

/-! ## The reader -/

def hexValue? (c : Char) : Option Nat :=
  if '0' ≤ c ∧ c ≤ '9' then some (c.toNat - 48)
  else if 'a' ≤ c ∧ c ≤ 'f' then some (c.toNat - 87)
  else if 'A' ≤ c ∧ c ≤ 'F' then some (c.toNat - 55)
  else none

def escapedByte? : Char → Option UInt8
  | '"' => some 34
  | '\\' => some 92
  | 'n' => some 10
  | 'r' => some 13
  | 't' => some 9
  | '0' => some 0
  | _ => none

/-- **Read a literal** up to its closing quote: the bytes, and what comes after the quote. -/
def readLiteral : List Char → Option (Bytes × List Char)
  | [] => none
  | '"' :: rest => some ([], rest)
  | '\\' :: 'x' :: high :: low :: rest =>
    match hexValue? high, hexValue? low with
    | some h, some l => (readLiteral rest).map fun p => (UInt8.ofNat (16 * h + l) :: p.1, p.2)
    | _, _ => none
  | '\\' :: c :: rest =>
    match escapedByte? c with
    | some b => (readLiteral rest).map fun p => (b :: p.1, p.2)
    | none => none
  | c :: rest =>
    if c.toNat < 128 ∧ c ≠ '\\' then (readLiteral rest).map fun p => (UInt8.ofNat c.toNat :: p.1, p.2) else none

/-! ## One byte -/

theorem readLiteral_letter {c : Char} {b : UInt8} (hc : escapedByte? c = some b) (rest : List Char) :
    readLiteral ('\\' :: c :: rest) = (readLiteral rest).map fun p => (b :: p.1, p.2) := by
  have hx : c ≠ 'x' := by
    rintro rfl
    cases hc
  rw [readLiteral, hc]
  rintro _ _ _ rfl
  exact absurd rfl hx

theorem readLiteral_plain {c : Char} (hquote : c ≠ '"') (hslash : c ≠ '\\') (hc : c.toNat < 128) (rest : List Char) :
    readLiteral (c :: rest) = (readLiteral rest).map fun p => (UInt8.ofNat c.toNat :: p.1, p.2) := by
  rw [readLiteral, if_pos ⟨hc, hslash⟩]
  · exact hquote
  · exact fun _ _ _ h => absurd h hslash
  · exact fun _ _ h => absurd h hslash

theorem hexValue?_hexDigit {n : Nat} (h : n < 16) : hexValue? (hexDigit n) = some n := by
  have hall : ∀ m, m < 16 → hexValue? (hexDigit m) = some m := by decide
  exact hall n h

theorem readLiteral_hex (b : UInt8) (rest : List Char) :
    readLiteral ('\\' :: 'x' :: hexDigit (b.toNat / 16) :: hexDigit (b.toNat % 16) :: rest) =
      (readLiteral rest).map fun p => (b :: p.1, p.2) := by
  have hb : b.toNat < 256 := b.toNat_lt
  have hbyte : UInt8.ofNat (16 * (b.toNat / 16) + b.toNat % 16) = b := by
    rw [Nat.div_add_mod, UInt8.ofNat_toNat]
  rw [readLiteral, hexValue?_hexDigit (by omega), hexValue?_hexDigit (by omega)]
  simp only [hbyte]

def IsPrintable (c : Char) : Prop := 32 ≤ c.toNat ∧ c.toNat ≤ 126

/-- **A byte is escaped by a letter, not at all or by its digits.** -/
theorem escapeByte_cases (b : UInt8) :
    (∃ c, escapedByte? c = some b ∧ escapeByte b = ['\\', c]) ∨
    (∃ c, c ≠ '"' ∧ c ≠ '\\' ∧ IsPrintable c ∧ UInt8.ofNat c.toNat = b ∧ escapeByte b = [c]) ∨
    escapeByte b = ['\\', 'x', hexDigit (b.toNat / 16), hexDigit (b.toNat % 16)] := by
  unfold escapeByte
  by_cases hquote : b = 34
  · exact Or.inl ⟨'"', hquote ▸ rfl, if_pos hquote⟩
  by_cases hslash : b = 92
  · exact Or.inl ⟨'\\', hslash ▸ rfl, by rw [if_neg hquote, if_pos hslash]⟩
  by_cases hfeed : b = 10
  · exact Or.inl ⟨'n', hfeed ▸ rfl, by rw [if_neg hquote, if_neg hslash, if_pos hfeed]⟩
  by_cases hreturn : b = 13
  · exact Or.inl ⟨'r', hreturn ▸ rfl, by rw [if_neg hquote, if_neg hslash, if_neg hfeed, if_pos hreturn]⟩
  by_cases htab : b = 9
  · exact Or.inl ⟨'t', htab ▸ rfl, by rw [if_neg hquote, if_neg hslash, if_neg hfeed, if_neg hreturn, if_pos htab]⟩
  rw [if_neg hquote, if_neg hslash, if_neg hfeed, if_neg hreturn, if_neg htab]
  by_cases hzero : b = 0
  · exact Or.inl ⟨'0', hzero ▸ rfl, if_pos hzero⟩
  rw [if_neg hzero]
  split
  · rename_i hprintable
    simp only [Bool.and_eq_true, decide_eq_true_eq, UInt8.le_iff_toNat_le] at hprintable
    have hlow : 32 ≤ b.toNat := hprintable.1
    have hhigh : b.toNat ≤ 126 := hprintable.2
    have hchar : (Char.ofNat b.toNat).toNat = b.toNat := by
      rw [Char.toNat_ofNat, if_pos (Or.inl (by omega))]
    have hne {c : Char} (hc : b.toNat ≠ c.toNat) : Char.ofNat b.toNat ≠ c := by
      rintro rfl
      exact hc hchar.symm
    have h34 : b.toNat ≠ 34 := fun h => hquote (UInt8.toNat_inj.1 h)
    have h92 : b.toNat ≠ 92 := fun h => hslash (UInt8.toNat_inj.1 h)
    refine Or.inr (Or.inl ⟨Char.ofNat b.toNat, hne h34, hne h92, ⟨by omega, by omega⟩, ?_, rfl⟩)
    rw [hchar, UInt8.ofNat_toNat]
  · exact Or.inr (Or.inr rfl)

/-- **An escaped byte is read as the byte**, before anything. -/
theorem readLiteral_escapeByte (b : UInt8) (rest : List Char) :
    readLiteral (escapeByte b ++ rest) = (readLiteral rest).map fun p => (b :: p.1, p.2) := by
  rcases escapeByte_cases b with ⟨c, hc, heq⟩ | ⟨c, hquote, hslash, hprintable, hbyte, heq⟩ | heq
  · rw [heq]
    exact readLiteral_letter hc rest
  · rw [heq, List.singleton_append, readLiteral_plain hquote hslash (Nat.lt_of_le_of_lt hprintable.2 (by decide)), hbyte]
  · rw [heq]
    exact readLiteral_hex b rest

/-! ## Literals -/

/-- **Escaped bytes are read back**, up to the closing quote and whatever follows it. -/
theorem readLiteral_escapeChars (bytes : Bytes) (rest : List Char) :
    readLiteral (escapeChars bytes ++ '"' :: rest) = some (bytes, rest) := by
  unfold escapeChars
  induction bytes with
  | nil => rfl
  | cons b bytes ih =>
    rw [List.flatMap_cons, List.append_assoc, readLiteral_escapeByte, ih]
    rfl

theorem escapeChars_injective : Function.Injective escapeChars := by
  intro bytes bytes' h
  have hread := readLiteral_escapeChars bytes []
  rw [h, readLiteral_escapeChars] at hread
  exact (congrArg Prod.fst (Option.some.inj hread)).symm

theorem isPrintable_hexDigit {n : Nat} (h : n < 16) : IsPrintable (hexDigit n) := by
  have hall : ∀ m, m < 16 → 32 ≤ (hexDigit m).toNat ∧ (hexDigit m).toNat ≤ 126 := by decide
  exact hall n h

theorem isPrintable_of_escapedByte? {c : Char} {b : UInt8} (h : escapedByte? c = some b) : IsPrintable c := by
  unfold escapedByte? at h
  split at h
  case h_7 => cases h
  all_goals exact ⟨by decide, by decide⟩

theorem isPrintable_escapeByte {b : UInt8} {c : Char} (hc : c ∈ escapeByte b) : IsPrintable c := by
  have hslash : IsPrintable '\\' := ⟨by decide, by decide⟩
  have hb : b.toNat < 256 := b.toNat_lt
  rcases escapeByte_cases b with ⟨d, hd, heq⟩ | ⟨d, -, -, hd, -, heq⟩ | heq
  · rw [heq, List.mem_cons, List.mem_singleton] at hc
    rcases hc with rfl | rfl
    · exact hslash
    · exact isPrintable_of_escapedByte? hd
  · rw [heq, List.mem_singleton] at hc
    exact hc ▸ hd
  · rw [heq, List.mem_cons, List.mem_cons, List.mem_cons, List.mem_singleton] at hc
    rcases hc with rfl | rfl | rfl | rfl
    · exact hslash
    · exact ⟨by decide, by decide⟩
    · exact isPrintable_hexDigit (by omega)
    · exact isPrintable_hexDigit (by omega)

/-- **The text of a literal is printable ASCII.** -/
theorem isPrintable_escapeChars {bytes : Bytes} {c : Char} (hc : c ∈ escapeChars bytes) : IsPrintable c := by
  obtain ⟨b, -, hb⟩ := List.mem_flatMap.1 hc
  exact isPrintable_escapeByte hb

end Text
end BencodePlan
