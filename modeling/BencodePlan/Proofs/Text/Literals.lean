import BencodePlan.Proofs.Text.Escape
import BencodePlan.Source.File
import Mathlib.Data.List.Induction
/-!
# Byte strings in source text

The bytes of a literal stand between quotes, so what ends the literal must be told from the quotes among the bytes: a quote
among them has an odd run of backslashes before it (`odd_slashRun_of_quote`).  What is written for a byte ends in an even
run, so a byte never changes how the ones after it are read (`even_slashRun_append`).
-/
namespace BencodePlan
namespace Text

def slashRun (cs : List Char) : Nat := (cs.reverse.takeWhile (· = '\\')).length

theorem slashRun_append_singleton (cs : List Char) (c : Char) :
    slashRun (cs ++ [c]) = if c = '\\' then slashRun cs + 1 else 0 := by
  unfold slashRun
  rw [List.reverse_concat, List.takeWhile_cons]
  by_cases hc : c = '\\' <;> simp [hc]

/-- **An even run of backslashes does not matter** for what comes after it. -/
theorem even_slashRun_append {u : List Char} (hu : Even (slashRun u)) (v : List Char) :
    Even (slashRun (u ++ v)) ↔ Even (slashRun v) := by
  -- from the end, where the run is counted
  induction v using List.reverseRecOn with
  | nil =>
    rw [List.append_nil]
    exact iff_of_true hu Even.zero
  | append_singleton v c ih =>
    rw [← List.append_assoc, slashRun_append_singleton, slashRun_append_singleton]
    split
    · rw [Nat.even_add_one, Nat.even_add_one, ih]
    · rfl

theorem hexDigit_ne {n : Nat} (h : n < 16) : hexDigit n ≠ '"' ∧ hexDigit n ≠ '\\' := by
  have hall : ∀ m, m < 16 → hexDigit m ≠ '"' ∧ hexDigit m ≠ '\\' := by decide
  exact hall n h

theorem even_slashRun_escapeByte (b : UInt8) : Even (slashRun (escapeByte b)) := by
  have hb : b.toNat < 256 := b.toNat_lt
  rcases escapeByte_cases b with ⟨c, -, heq⟩ | ⟨c, -, hslash, -, -, heq⟩ | heq
  · have hpair := slashRun_append_singleton ['\\'] c
    rw [List.singleton_append, ← heq] at hpair
    rw [hpair]
    split
    · exact even_two
    · exact Even.zero
  · have hone := slashRun_append_singleton [] c
    rw [List.nil_append, if_neg hslash, ← heq] at hone
    rw [hone]
    exact Even.zero
  · have hlast := slashRun_append_singleton ['\\', 'x', hexDigit (b.toNat / 16)] (hexDigit (b.toNat % 16))
    rw [if_neg (hexDigit_ne (by omega)).2] at hlast
    rw [heq]
    exact hlast ▸ Even.zero

theorem odd_slashRun_of_escapeByte {b : UInt8} {before after : List Char} (h : escapeByte b = before ++ '"' :: after) :
    Odd (slashRun before) := by
  have hb : b.toNat < 256 := b.toNat_lt
  have hmem : '"' ∈ escapeByte b := by
    rw [h]
    exact List.mem_append_right _ List.mem_cons_self
  rcases escapeByte_cases b with ⟨c, -, heq⟩ | ⟨c, hquote, -, -, -, heq⟩ | heq
  · rw [heq] at h
    match before with
    | [] => cases h
    | [_] =>
      cases h
      exact odd_one
    | _ :: _ :: _ =>
      have hlength := congrArg List.length h
      simp at hlength
  · rw [heq, List.mem_singleton] at hmem
    exact absurd hmem.symm hquote
  · rw [heq] at hmem
    simp only [List.mem_cons, List.not_mem_nil, or_false] at hmem
    rcases hmem with hc | hc | hc | hc
    · cases hc
    · cases hc
    · exact absurd hc.symm (hexDigit_ne (by omega)).1
    · exact absurd hc.symm (hexDigit_ne (by omega)).1

/-- **A quote among escaped bytes comes after an odd run of backslashes**, so none of them ends the literal. -/
theorem odd_slashRun_of_quote {bytes : Bytes} {before after : List Char}
    (h : escapeChars bytes = before ++ '"' :: after) : Odd (slashRun before) := by
  induction bytes generalizing before with
  | nil => cases before <;> cases h
  | cons b bytes ih =>
    rw [escapeChars, List.flatMap_cons] at h
    rcases List.append_eq_append_iff.1 h with ⟨more, rfl, hmore⟩ | ⟨more, hb, hmore⟩
    · rw [← Nat.not_even_iff_odd, even_slashRun_append (even_slashRun_escapeByte b), Nat.not_even_iff_odd]
      exact ih hmore
    · cases more with
      | nil =>
        have hodd : Odd (slashRun []) := ih hmore.symm
        exact absurd hodd Nat.not_odd_zero
      | cons c more =>
        cases hmore
        exact odd_slashRun_of_escapeByte hb

/-! ## The whole literal -/

def byteString (bytes : Bytes) : String := "b\"" ++ escape bytes ++ "\""

/-- **Read a byte string** where a text begins with one: the bytes, and what comes after the closing quote. -/
def readByteString : List Char → Option (Bytes × List Char)
  | 'b' :: '"' :: rest => readLiteral rest
  | _ => none

theorem toList_byteString (bytes : Bytes) : (byteString bytes).toList = 'b' :: '"' :: (escapeChars bytes ++ ['"']) := by
  simp [byteString, escape]

theorem text_writeBytes (runtime : String) (level : Nat) (bytes : Bytes) :
    (Source.Statement.writeBytes bytes).text runtime level = Source.line level ("w.write_all(" ++ byteString bytes ++ ")?;") := by
  have hline : "w.write_all(b\"" ++ escape bytes ++ "\")?;" = "w.write_all(" ++ byteString bytes ++ ")?;" := by
    rw [← String.toList_inj]
    simp [byteString]
  rw [Source.Statement.text, hline]

/-- **Byte strings read back.**  What is written between the quotes is printable ASCII, and each quote in it comes after an
odd run of backslashes.  A byte string is read as its bytes up to its closing quote, whatever comes after that.  So no two
byte strings are written alike.  The line that writes a literal has it as such a byte string. -/
theorem byteString_reads_back (bytes : Bytes) :
    (∀ c ∈ (escape bytes).toList, IsPrintable c) ∧
    (∀ before after, (escape bytes).toList = before ++ '"' :: after → Odd (slashRun before)) ∧
    (∀ rest, readByteString ((byteString bytes).toList ++ rest) = some (bytes, rest)) ∧
    (∀ bytes', escape bytes = escape bytes' → bytes = bytes') ∧
    ∀ runtime level, (Source.Statement.writeBytes bytes).text runtime level =
      Source.line level ("w.write_all(" ++ byteString bytes ++ ")?;") := by
  rw [escape, String.toList_ofList]
  refine ⟨fun c hc => isPrintable_escapeChars hc, fun before after h => odd_slashRun_of_quote h, fun rest => ?_,
    fun bytes' h => escapeChars_injective (String.ofList_injective h), fun runtime level => text_writeBytes runtime level bytes⟩
  rw [toList_byteString, List.cons_append, List.cons_append, List.append_assoc, List.singleton_append, readByteString,
    readLiteral_escapeChars]

/-- Digits, a quote and a backslash after bytes that are escaped. -/
example : byteString [0, 49, 34, 92, 120, 255, 48] = "b\"\\01\\\"\\\\x\\xff0\"" ∧
    readByteString (byteString [0, 49, 34, 92, 120, 255, 48]).toList = some ([0, 49, 34, 92, 120, 255, 48], []) := by
  decide

end Text
end BencodePlan
