import BencodePlan.Types.Parser
import BencodePlan.Proofs.Text.Decimal
import BencodePlan.Proofs.Text.Span
import Mathlib.Data.List.Chain
import Mathlib.Data.List.TakeWhile
/-!
# Written forms of a type expression

`Spelled` is the grammar: which tokens an expression is written with, a declared name at the place where it occurs and
the length of an array with any zeros in front.  `Layout` is how tokens stand in a text: in order, with any blanks before,
between and after them, each at its bytes.  Both are said without the lexer and the reader.

The lexer takes the longest token at each place, so it finds the tokens of a text exactly if no word or number stands
directly before another one (`lex_of_layout`, `layout_of_lex`); in a spelled expression none does (`Spelled.apart`).
-/
namespace BencodePlan
namespace TypeExpr

open Text (byteLength_append byteLength_eq_length)

/-- Letters, digits and underscores, no digit first. -/
def IsWord (cs : List Char) : Prop :=
  ∃ c rest, cs = c :: rest ∧ Text.isNameStart c = true ∧ ∀ d ∈ rest, Text.isNamePart d = true

/-- A word that is no name of a declared type. -/
def IsKeyword (name : String) : Prop :=
  (∃ kind : ScalarKind, kind.name = name) ∨ name ∈ ["duration", "Option", "Vec", "Map"]

def numeral (zeros n : Nat) : List Char := List.replicate zeros '0' ++ Text.decimal n

/-- **The tokens of an expression**, each with the place where it stands. -/
inductive Spelled : TypeExpr → List Located → Prop
  | scalar (kind : ScalarKind) (s : Span) : Spelled (.scalar kind) [⟨.word kind.name, s⟩]
  | duration (s : Span) : Spelled .duration [⟨.word "duration", s⟩]
  | option {e : TypeExpr} {ts : List Located} (s₁ s₂ s₃ : Span) : Spelled e ts →
      Spelled (.option e) (⟨.word "Option", s₁⟩ :: ⟨.leftAngle, s₂⟩ :: (ts ++ [⟨.rightAngle, s₃⟩]))
  | vec {e : TypeExpr} {ts : List Located} (s₁ s₂ s₃ : Span) : Spelled e ts →
      Spelled (.vec e) (⟨.word "Vec", s₁⟩ :: ⟨.leftAngle, s₂⟩ :: (ts ++ [⟨.rightAngle, s₃⟩]))
  | array {e : TypeExpr} {ts : List Located} (zeros n : Nat) (s₁ s₂ s₃ s₄ : Span) : Spelled e ts → n ≤ maxLength →
      Spelled (.array e n) (⟨.leftBracket, s₁⟩ ::
        (ts ++ [⟨.semicolon, s₂⟩, ⟨.number (String.ofList (numeral zeros n)), s₃⟩, ⟨.rightBracket, s₄⟩]))
  | map {k v : TypeExpr} {ks vs : List Located} (s₁ s₂ s₃ s₄ : Span) : Spelled k ks → Spelled v vs →
      Spelled (.map k v) (⟨.word "Map", s₁⟩ :: ⟨.leftAngle, s₂⟩ ::
        (ks ++ ⟨.comma, s₃⟩ :: (vs ++ [⟨.rightAngle, s₄⟩])))
  | named {name : String} (s : Span) : IsWord name.toList → ¬ IsKeyword name → Spelled (.named name s) [⟨.word name, s⟩]

def Blanks (cs : List Char) : Prop := ∀ c ∈ cs, isBlank c = true

/-- **A text that is tokens in order**, with blanks anywhere around them.  The text begins at a byte offset. -/
inductive Layout : Nat → List Char → List Located → Prop
  | finish {offset : Nat} {blanks : List Char} : Blanks blanks → Layout offset blanks []
  | token {offset : Nat} {blanks rest : List Char} {t : Token} {ts : List Located} : Blanks blanks →
      Layout (offset + Text.byteLength blanks + Text.byteLength t.text.toList) rest ts →
      Layout offset (blanks ++ (t.text.toList ++ rest))
        (⟨t, ⟨offset + Text.byteLength blanks, offset + Text.byteLength blanks + Text.byteLength t.text.toList⟩⟩ :: ts)

/-! ## Characters -/

theorem isNamePart_of_isNameStart {c : Char} (h : Text.isNameStart c = true) : Text.isNamePart c = true := by
  have hc : c = '_' ∨ c.isAlpha = true := by simpa [Text.isNameStart] using h
  rcases hc with rfl | hc
  · rfl
  · simp only [Text.isNamePart, Char.isAlphanum, hc, Bool.true_or, Bool.or_true]

theorem isNamePart_of_isDigit {c : Char} (h : c.isDigit = true) : Text.isNamePart c = true := by
  simp only [Text.isNamePart, Char.isAlphanum, h, Bool.or_true]

theorem utf8Size_of_isNamePart {c : Char} (h : Text.isNamePart c = true) : c.utf8Size = 1 := by
  rw [Char.utf8Size_eq_one_iff, UInt32.le_iff_toNat_le]
  have hc : c = '_' ∨ c.isAlphanum = true := by simpa [Text.isNamePart] using h
  rcases hc with rfl | hc
  · decide
  · unfold Char.isAlphanum Char.isAlpha Char.isUpper Char.isLower Char.isDigit at hc
    simp only [Bool.or_eq_true, Bool.and_eq_true, decide_eq_true_eq, ge_iff_le, UInt32.le_iff_toNat_le] at hc
    have hZ : 'Z'.val.toNat = 90 := rfl
    have hz : 'z'.val.toNat = 122 := rfl
    have h9 : '9'.val.toNat = 57 := rfl
    have h127 : (127 : UInt32).toNat = 127 := rfl
    omega

theorem eq_of_isBlank {c : Char} (h : isBlank c = true) : c = ' ' ∨ c = '\t' ∨ c = '\n' ∨ c = '\r' := by
  simpa [isBlank, or_assoc] using h

theorem isNamePart_of_isBlank {c : Char} (h : isBlank c = true) : Text.isNamePart c = false := by
  rcases eq_of_isBlank h with rfl | rfl | rfl | rfl <;> decide

theorem utf8Size_of_isBlank {c : Char} (h : isBlank c = true) : c.utf8Size = 1 := by
  rcases eq_of_isBlank h with rfl | rfl | rfl | rfl <;> decide

theorem isBlank_of_isNamePart {c : Char} (h : Text.isNamePart c = true) : isBlank c = false := by
  rw [Bool.eq_false_iff]
  intro hb
  rw [isNamePart_of_isBlank hb] at h
  cases h

/-! ## Tokens -/

namespace Token

def isSymbol : Token → Bool
  | number _ | word _ => false
  | leftAngle | rightAngle | leftBracket | rightBracket | semicolon | comma => true

def IsProper : Token → Prop
  | word name => IsWord name.toList
  | number digits => digits.toList ≠ [] ∧ ∀ c ∈ digits.toList, c.isDigit = true
  | leftAngle | rightAngle | leftBracket | rightBracket | semicolon | comma => True

theorem isProper_of_isSymbol {t : Token} (h : t.isSymbol = true) : t.IsProper := by
  cases t with
  | number digits | word name => cases h
  | leftAngle | rightAngle | leftBracket | rightBracket | semicolon | comma => trivial

theorem text_of_isSymbol {t : Token} (h : t.isSymbol = true) :
    ∃ c, t.text.toList = [c] ∧ symbol? c = some t ∧ isBlank c = false ∧ Text.isNamePart c = false ∧ c.utf8Size = 1 := by
  cases t with
  | number digits | word name => cases h
  | leftAngle => exact ⟨'<', by decide⟩
  | rightAngle => exact ⟨'>', by decide⟩
  | leftBracket => exact ⟨'[', by decide⟩
  | rightBracket => exact ⟨']', by decide⟩
  | semicolon => exact ⟨';', by decide⟩
  | comma => exact ⟨',', by decide⟩

end Token

theorem of_symbol? {c : Char} {t : Token} (h : symbol? c = some t) : t.text.toList = [c] ∧ t.isSymbol = true := by
  unfold symbol? at h
  split_ifs at h with h₁ h₂ h₃ h₄ h₅ h₆ <;> cases h <;> subst c <;> exact ⟨rfl, rfl⟩

theorem symbol?_of_isNamePart {c : Char} (h : Text.isNamePart c = true) : symbol? c = none := by
  rw [Option.eq_none_iff_forall_ne_some]
  intro t ht
  obtain ⟨htext, hsym⟩ := of_symbol? ht
  obtain ⟨d, hd, -, -, hnot, -⟩ := Token.text_of_isSymbol hsym
  rw [htext] at hd
  cases hd
  rw [hnot] at h
  cases h

/-! ## The lexer, one token at a time -/

theorem lex_blanks {blanks : List Char} (h : Blanks blanks) (offset : Nat) (rest : List Char) :
    lex offset (blanks ++ rest) = lex (offset + Text.byteLength blanks) rest := by
  induction blanks generalizing offset with
  | nil => rfl
  | cons c cs ih =>
    have hc : isBlank c = true := h c List.mem_cons_self
    rw [List.cons_append, lex, if_pos hc, ih fun d hd => h d (List.mem_cons_of_mem _ hd), Text.byteLength,
      utf8Size_of_isBlank hc, Nat.add_assoc]

theorem run_append {p : Char → Bool} {run rest : List Char} (hrun : ∀ c ∈ run, p c = true)
    (hrest : ∀ c ∈ rest.head?, p c = false) :
    (run ++ rest).takeWhile p = run ∧ (run ++ rest).dropWhile p = rest := by
  rw [List.takeWhile_append_of_pos hrun, List.dropWhile_append_of_pos hrun]
  cases rest with
  | nil => exact ⟨List.append_nil run, rfl⟩
  | cons c cs =>
    have hc : p c = false := hrest c rfl
    rw [List.takeWhile_cons, List.dropWhile_cons, hc]
    exact ⟨List.append_nil run, rfl⟩

theorem not_isDigit_of_isNameStart {c : Char} (h : Text.isNameStart c = true) : c.isDigit = false := by
  rw [Bool.eq_false_iff]
  intro hd
  have hc : c = '_' ∨ c.isAlpha = true := by simpa [Text.isNameStart] using h
  rcases hc with rfl | hc
  · cases hd
  · unfold Char.isAlpha Char.isUpper Char.isLower at hc
    unfold Char.isDigit at hd
    simp only [Bool.or_eq_true, Bool.and_eq_true, decide_eq_true_eq, ge_iff_le, UInt32.le_iff_toNat_le] at hc hd
    have hA : 'A'.val.toNat = 65 := rfl
    have ha : 'a'.val.toNat = 97 := rfl
    have h9 : '9'.val.toNat = 57 := rfl
    omega

theorem lex_symbol {c : Char} {t : Token} (hc : symbol? c = some t) (hblank : isBlank c = false) (offset : Nat)
    (rest : List Char) :
    lex offset (c :: rest) = (lex (offset + 1) rest).map (⟨t, ⟨offset, offset + 1⟩⟩ :: ·) := by
  rw [lex, hblank, hc]
  rfl

theorem lex_word {word rest : List Char} (hword : IsWord word)
    (hrest : ∀ c ∈ rest.head?, Text.isNamePart c = false) (offset : Nat) :
    lex offset (word ++ rest) = (lex (offset + Text.byteLength word) rest).map
      (⟨.word (String.ofList word), ⟨offset, offset + Text.byteLength word⟩⟩ :: ·) := by
  obtain ⟨c, cs, rfl, hc, hcs⟩ := hword
  have hpart := isNamePart_of_isNameStart hc
  have hlength : Text.byteLength (c :: cs) = (c :: cs).length := byteLength_eq_length fun d hd => by
    rcases List.mem_cons.1 hd with rfl | hd
    · exact utf8Size_of_isNamePart hpart
    · exact utf8Size_of_isNamePart (hcs d hd)
  obtain ⟨htake, hdrop⟩ := run_append hcs hrest
  rw [List.cons_append, lex, isBlank_of_isNamePart hpart, symbol?_of_isNamePart hpart,
    not_isDigit_of_isNameStart hc, hc, htake, hdrop, hlength]
  rfl

theorem lex_number {digits rest : List Char} (hne : digits ≠ []) (hdigits : ∀ c ∈ digits, c.isDigit = true)
    (hrest : ∀ c ∈ rest.head?, Text.isNamePart c = false) (offset : Nat) :
    lex offset (digits ++ rest) = (lex (offset + Text.byteLength digits) rest).map
      (⟨.number (String.ofList digits), ⟨offset, offset + Text.byteLength digits⟩⟩ :: ·) := by
  obtain ⟨c, cs, rfl⟩ := List.exists_cons_of_ne_nil hne
  have hc : c.isDigit = true := hdigits c List.mem_cons_self
  have hpart := isNamePart_of_isDigit hc
  have hlength : Text.byteLength (c :: cs) = (c :: cs).length :=
    byteLength_eq_length fun d hd => utf8Size_of_isNamePart (isNamePart_of_isDigit (hdigits d hd))
  have hstop : ∀ d ∈ rest.head?, d.isDigit = false := fun d hd => by
    rw [Bool.eq_false_iff]
    intro hdigit
    have hno := hrest d hd
    rw [isNamePart_of_isDigit hdigit] at hno
    cases hno
  obtain ⟨htake, hdrop⟩ := run_append (fun d hd => hdigits d (List.mem_cons_of_mem _ hd)) hstop
  rw [List.cons_append, lex, isBlank_of_isNamePart hpart, symbol?_of_isNamePart hpart, hc, htake, hdrop, hlength]
  rfl

/-- **A token is found where it stands**, if what comes after it cannot make it longer. -/
theorem lex_token {t : Token} (ht : t.IsProper) {rest : List Char}
    (hrest : t.isSymbol = true ∨ ∀ c ∈ rest.head?, Text.isNamePart c = false) (offset : Nat) :
    lex offset (t.text.toList ++ rest) = (lex (offset + Text.byteLength t.text.toList) rest).map
      (⟨t, ⟨offset, offset + Text.byteLength t.text.toList⟩⟩ :: ·) := by
  cases hs : t.isSymbol with
  | true =>
    obtain ⟨c, htext, hc, hblank, -, hsize⟩ := Token.text_of_isSymbol hs
    have hlength : Text.byteLength [c] = 1 := by rw [Text.byteLength, hsize, Text.byteLength]
    rw [htext, List.singleton_append, lex_symbol hc hblank, hlength]
  | false =>
    have hstop := hrest.resolve_left (by simp only [hs, Bool.false_eq_true, not_false_eq_true])
    cases t with
    | word name =>
      rw [Token.text, lex_word ht hstop, String.ofList_toList]
    | number digits =>
      rw [Token.text, lex_number ht.1 ht.2 hstop, String.ofList_toList]
    | leftAngle | rightAngle | leftBracket | rightBracket | semicolon | comma => cases hs

/-! ## Texts and their tokens -/

/-- The second token cannot be read as more of the first. -/
def Apart (a b : Located) : Prop := a.token.isSymbol = true ∨ b.token.isSymbol = true

theorem Layout.not_isNamePart_head {offset : Nat} {cs : List Char} {ts : List Located} (h : Layout offset cs ts)
    (hts : ∀ t ∈ ts.head?, t.token.isSymbol = true) : ∀ c ∈ cs.head?, Text.isNamePart c = false := by
  cases h with
  | finish hb => exact fun c hc => isNamePart_of_isBlank (hb c (List.mem_of_mem_head? hc))
  | @token _ blanks rest t ts hb _ =>
    obtain ⟨d, htext, -, -, hd, -⟩ := Token.text_of_isSymbol (hts _ rfl)
    intro c hc
    cases blanks with
    | nil =>
      rw [htext] at hc
      cases hc
      exact hd
    | cons b bs =>
      cases hc
      exact isNamePart_of_isBlank (hb c List.mem_cons_self)

/-- **The lexer finds the tokens of a text** that stand apart. -/
theorem lex_of_layout {offset : Nat} {cs : List Char} {ts : List Located} (h : Layout offset cs ts)
    (hproper : ∀ t ∈ ts, t.token.IsProper) (hapart : ts.IsChain Apart) : lex offset cs = .ok ts := by
  induction h with
  | @finish offset blanks hb =>
    rw [← List.append_nil blanks, lex_blanks hb, lex]
  | @token offset blanks rest t ts hb hrest ih =>
    rw [List.isChain_cons] at hapart
    have hstop : t.isSymbol = true ∨ ∀ c ∈ rest.head?, Text.isNamePart c = false := by
      cases hs : t.isSymbol with
      | true => exact Or.inl rfl
      | false =>
        refine Or.inr (hrest.not_isNamePart_head fun u hu => ?_)
        exact (hapart.1 u hu).resolve_left (by simp only [hs, Bool.false_eq_true, not_false_eq_true])
    rw [lex_blanks hb, lex_token (hproper _ List.mem_cons_self) hstop,
      ih (fun u hu => hproper u (List.mem_cons_of_mem _ hu)) hapart.2]
    rfl

theorem Layout.blank {offset : Nat} {c : Char} {cs : List Char} {ts : List Located} (hc : isBlank c = true)
    (h : Layout (offset + 1) cs ts) : Layout offset (c :: cs) ts := by
  have hblanks {blanks : List Char} (hb : Blanks blanks) : Blanks (c :: blanks) := fun d hd => by
    rcases List.mem_cons.1 hd with rfl | hd
    · exact hc
    · exact hb d hd
  cases h with
  | finish hb => exact .finish (hblanks hb)
  | @token _ blanks rest t ts hb hrest =>
    have hlength : offset + 1 + Text.byteLength blanks = offset + Text.byteLength (c :: blanks) := by
      rw [Text.byteLength, utf8Size_of_isBlank hc, Nat.add_assoc]
    rw [hlength] at hrest ⊢
    exact .token (hblanks hb) hrest

theorem Layout.cons {offset length : Nat} {word rest : List Char} {t : Token} {ts : List Located}
    (hword : t.text.toList = word) (hlength : Text.byteLength word = length) (h : Layout (offset + length) rest ts) :
    Layout offset (word ++ rest) (⟨t, ⟨offset, offset + length⟩⟩ :: ts) := by
  subst hword hlength
  exact @Layout.token offset [] rest t ts (fun _ hc => nomatch hc) h

theorem exists_of_map_cons_eq_ok {t : Located} {x : Except Error (List Located)} {ts : List Located}
    (h : x.map (t :: ·) = .ok ts) : ∃ us, x = .ok us ∧ ts = t :: us := by
  cases x with
  | error e => cases h
  | ok us =>
    cases h
    exact ⟨us, rfl, rfl⟩

/-- **What the lexer finds stands in the text.** -/
theorem layout_of_lex {offset : Nat} {cs : List Char} {ts : List Located} (h : lex offset cs = .ok ts) :
    Layout offset cs ts ∧ ∀ t ∈ ts, t.token.IsProper := by
  fun_induction lex offset cs generalizing ts with
  | case1 offset =>
    cases h
    exact ⟨.finish fun _ hc => (nomatch hc), fun _ ht => nomatch ht⟩
  | case2 offset c cs hblank ih =>
    obtain ⟨hlayout, hproper⟩ := ih h
    exact ⟨hlayout.blank hblank, hproper⟩
  | case3 offset c cs hblank t hsymbol ih =>
    obtain ⟨us, hus, rfl⟩ := exists_of_map_cons_eq_ok h
    obtain ⟨hlayout, hproper⟩ := ih hus
    obtain ⟨htext, hs⟩ := of_symbol? hsymbol
    obtain ⟨d, hd, -, -, -, hsize⟩ := Token.text_of_isSymbol hs
    rw [htext] at hd
    cases hd
    refine ⟨hlayout.cons htext (by rw [Text.byteLength, hsize, Text.byteLength]), fun u hu => ?_⟩
    rcases List.mem_cons.1 hu with rfl | hu
    · exact Token.isProper_of_isSymbol hs
    · exact hproper u hu
  | case4 offset c cs hblank hsymbol hdigit run =>
    rename_i ih
    obtain ⟨us, hus, rfl⟩ := exists_of_map_cons_eq_ok h
    obtain ⟨hlayout, hproper⟩ := ih hus
    have hrun : ∀ d ∈ c :: cs.takeWhile Char.isDigit, d.isDigit = true :=
      List.forall_mem_cons.2 ⟨hdigit, fun _ => List.mem_takeWhile_imp⟩
    rw [← List.takeWhile_append_dropWhile (p := Char.isDigit) (l := cs), ← List.cons_append]
    refine ⟨hlayout.cons String.toList_ofList ?_, fun u hu => ?_⟩
    · exact byteLength_eq_length fun d hd => utf8Size_of_isNamePart (isNamePart_of_isDigit (hrun d hd))
    · rcases List.mem_cons.1 hu with rfl | hu
      · exact ⟨by simp, by rw [String.toList_ofList]; exact hrun⟩
      · exact hproper u hu
  | case5 offset c cs hblank hsymbol hdigit hstart run =>
    rename_i ih
    obtain ⟨us, hus, rfl⟩ := exists_of_map_cons_eq_ok h
    obtain ⟨hlayout, hproper⟩ := ih hus
    have hrun : ∀ d ∈ c :: cs.takeWhile Text.isNamePart, Text.isNamePart d = true :=
      List.forall_mem_cons.2 ⟨isNamePart_of_isNameStart hstart, fun _ => List.mem_takeWhile_imp⟩
    rw [← List.takeWhile_append_dropWhile (p := Text.isNamePart) (l := cs), ← List.cons_append]
    refine ⟨hlayout.cons String.toList_ofList ?_, fun u hu => ?_⟩
    · exact byteLength_eq_length fun d hd => utf8Size_of_isNamePart (hrun d hd)
    · rcases List.mem_cons.1 hu with rfl | hu
      · exact ⟨c, _, String.toList_ofList, hstart, fun _ => List.mem_takeWhile_imp⟩
      · exact hproper u hu
  | case6 => cases h

/-! ## Spelled expressions -/

theorem isDigit_of_mem_numeral {zeros n : Nat} : ∀ c ∈ numeral zeros n, c.isDigit = true := by
  intro c hc
  rcases List.mem_append.1 hc with hc | hc
  · rw [List.eq_of_mem_replicate hc]
    rfl
  · exact Text.isDigit_of_mem_decimal n c hc

theorem isWord_of_isKeyword {name : String} (h : IsKeyword name) : IsWord name.toList := by
  have hword (c : Char) (rest : List Char) (hname : name.toList = c :: rest) (hc : Text.isNameStart c = true)
      (hrest : rest.all Text.isNamePart = true) : IsWord name.toList :=
    ⟨c, rest, hname, hc, List.all_eq_true.1 hrest⟩
  rcases h with ⟨kind, rfl⟩ | h
  · rcases kind with _ | k | k | _
    · exact hword _ _ rfl rfl rfl
    · cases k <;> exact hword _ _ rfl rfl rfl
    · cases k <;> exact hword _ _ rfl rfl rfl
    · exact hword _ _ rfl rfl rfl
  · simp only [List.mem_cons, List.not_mem_nil, or_false] at h
    rcases h with rfl | rfl | rfl | rfl <;> exact hword _ _ rfl rfl rfl

theorem isProper_of_isKeyword {name : String} (h : IsKeyword name) : (Token.word name).IsProper := isWord_of_isKeyword h

theorem isProper_numeral (zeros n : Nat) : (Token.number (String.ofList (numeral zeros n))).IsProper := by
  simp only [Token.IsProper, String.toList_ofList]
  exact ⟨List.append_ne_nil_of_right_ne_nil _ (Text.decimal_ne_nil n), isDigit_of_mem_numeral⟩

theorem Spelled.proper {e : TypeExpr} {ts : List Located} (h : Spelled e ts) : ∀ t ∈ ts, t.token.IsProper := by
  induction h with
  | scalar kind s => exact List.forall_mem_singleton.2 (isProper_of_isKeyword (Or.inl ⟨kind, rfl⟩))
  | duration s => exact List.forall_mem_singleton.2 (isProper_of_isKeyword (Or.inr (by simp)))
  | option s₁ s₂ s₃ _ ih | vec s₁ s₂ s₃ _ ih =>
    simp only [List.forall_mem_cons, List.forall_mem_append]
    exact ⟨isProper_of_isKeyword (Or.inr (by simp)), trivial, ih, trivial, fun _ hu => nomatch hu⟩
  | array zeros n s₁ s₂ s₃ s₄ _ _ ih =>
    simp only [List.forall_mem_cons, List.forall_mem_append]
    exact ⟨trivial, ih, trivial, isProper_numeral zeros n, trivial, fun _ hu => nomatch hu⟩
  | map s₁ s₂ s₃ s₄ _ _ ihk ihv =>
    simp only [List.forall_mem_cons, List.forall_mem_append]
    exact ⟨isProper_of_isKeyword (Or.inr (by simp)), trivial, ihk, trivial, ihv, trivial, fun _ hu => nomatch hu⟩
  | named s hword _ => exact List.forall_mem_singleton.2 hword

theorem Spelled.apart {e : TypeExpr} {ts : List Located} (h : Spelled e ts) : ts.IsChain Apart := by
  have hbefore {t : Located} {us : List Located} (ht : t.token.isSymbol = true) (hus : us.IsChain Apart) :
      (t :: us).IsChain Apart :=
    List.isChain_cons.2 ⟨fun _ _ => Or.inl ht, hus⟩
  have hafter {us vs : List Located} {t : Located} (ht : t.token.isSymbol = true) (hus : us.IsChain Apart)
      (hvs : (t :: vs).IsChain Apart) : (us ++ t :: vs).IsChain Apart := by
    refine List.isChain_append.2 ⟨hus, hvs, fun a _ b hb => ?_⟩
    cases hb
    exact Or.inr ht
  have hword {t u : Located} {us : List Located} (hu : u.token.isSymbol = true) (hus : (u :: us).IsChain Apart) :
      (t :: u :: us).IsChain Apart := by
    refine List.isChain_cons.2 ⟨fun b hb => ?_, hus⟩
    cases hb
    exact Or.inr hu
  induction h with
  | scalar | duration | named => exact List.isChain_singleton _
  | option _ _ _ _ ih | vec _ _ _ _ ih => exact hword rfl (hbefore rfl (hafter rfl ih (List.isChain_singleton _)))
  | array _ _ _ _ _ _ _ _ ih =>
    exact hbefore rfl (hafter rfl ih (hbefore rfl (hword rfl (List.isChain_singleton _))))
  | map _ _ _ _ _ _ ihk ihv =>
    exact hword rfl (hbefore rfl (hafter rfl ihk (hbefore rfl (hafter rfl ihv (List.isChain_singleton _)))))

end TypeExpr
end BencodePlan
