import BencodePlan.Proofs.Schema.Acceptance
import BencodePlan.Proofs.Text.Pieces
import BencodePlan.Plan.Instruction
import Mathlib
/-!
# Selectors read back

A selector is written from the front to the back, what is taken from a value after the value.  The last characters of its
text say what was taken last (`formOf`), so it is read from the end: two selectors with the same text are the same
(`Spelling.text_injective`), provided that their names are identifiers; and the text consists of names and a few signs
(`Spelling.forall_mem_text`).  `Spelling` is what a way of writing selectors must have in common with this; how the base of
a reference is written is left open.
-/
namespace BencodePlan
namespace Text

theorem isNamePart_of_isIdentifier {name : String} (h : isIdentifier name = true) {c : Char} (hc : c ∈ name.toList) :
    isNamePart c = true := by
  obtain ⟨⟨first, rest, hname, hfirst, hrest⟩, -⟩ := isIdentifier_iff.1 h
  rw [hname] at hc
  rcases List.mem_cons.1 hc with rfl | hc
  · exact TypeExpr.isNamePart_of_isNameStart hfirst
  · exact hrest c hc

theorem toList_ne_nil_of_isIdentifier {name : String} (h : isIdentifier name = true) : name.toList ≠ [] := by
  obtain ⟨⟨first, rest, hname, -⟩, -⟩ := isIdentifier_iff.1 h
  rw [hname]
  exact List.cons_ne_nil _ _

theorem isNamePart_of_mem_decimal {n : Nat} {c : Char} (hc : c ∈ decimal n) : isNamePart c = true :=
  TypeExpr.isNamePart_of_isDigit (isDigit_of_mem_decimal n c hc)

theorem eq_of_decimal {c : Char} (hc : isNamePart c = false) {m n : Nat} {u v : List Char}
    (h : decimal m ++ c :: u = decimal n ++ c :: v) : m = n ∧ u = v := by
  have hnot {n : Nat} : c ∉ decimal n := fun hmem => by
    rw [isNamePart_of_mem_decimal hmem] at hc
    cases hc
  obtain ⟨hnumber, hrest⟩ := eq_of_first hnot hnot h
  exact ⟨decimal_injective hnumber, hrest⟩

end Text

open Text

/-! ## Names in plans -/

namespace Selector

def names : Selector → List String
  | root | elem _ | key _ => []
  | field base name => base.names ++ [name]
  | deref base | seconds base | value base _ => base.names

/-- **The names in a selector are identifiers.** -/
def IsNamed (s : Selector) : Prop := ∀ name ∈ s.names, isIdentifier name = true

theorem isNamed_field {base : Selector} {name : String} :
    (field base name).IsNamed ↔ base.IsNamed ∧ isIdentifier name = true := by
  unfold IsNamed
  rw [names, List.forall_mem_append, List.forall_mem_singleton]

instance (s : Selector) : Decidable s.IsNamed := inferInstanceAs (Decidable (∀ name ∈ s.names, isIdentifier name = true))

/-! Variables of loops are a letter and a number. -/

theorem toList_elemName (depth : Nat) : (elemName depth).toList = 'i' :: decimal depth := by
  simp only [elemName, decimalText, String.toList_append, String.toList_ofList]
  rfl

theorem toList_keyName (depth : Nat) : (keyName depth).toList = 'k' :: decimal depth := by
  simp only [keyName, decimalText, String.toList_append, String.toList_ofList]
  rfl

end Selector

namespace Instruction

def IsNamed : Instruction → Prop
  | literal _ => True
  | bool s | int s | string s | native s | list s _ _ | when s _ _ => s.IsNamed
  | map s _ cast _ => s.IsNamed ∧ ∀ type ∈ cast, isIdentifier type = true

instance : (i : Instruction) → Decidable i.IsNamed
  | literal _ => inferInstanceAs (Decidable True)
  | bool s | int s | string s | native s | list s _ _ | when s _ _ => inferInstanceAs (Decidable s.IsNamed)
  | map s _ cast _ => inferInstanceAs (Decidable (s.IsNamed ∧ ∀ type ∈ cast, isIdentifier type = true))

end Instruction

/-- **The names in a plan are identifiers**: its own, those of fields and those of key types. -/
def Plan.IsNamed (p : Plan) : Prop := isIdentifier p.name = true ∧ ∀ i ∈ Instruction.visitAll p.body, i.IsNamed

instance (p : Plan) : Decidable p.IsNamed :=
  inferInstanceAs (Decidable (isIdentifier p.name = true ∧ ∀ i ∈ Instruction.visitAll p.body, i.IsNamed))

/-! ## Texts of selectors -/

namespace Selector

inductive Form
  | root
  | elem
  | key
  | field
  | deref
  | seconds
  | value
  deriving DecidableEq

def form : Selector → Form
  | root => .root
  | elem _ => .elem
  | key _ => .key
  | field .. => .field
  | deref _ => .deref
  | seconds _ => .seconds
  | value .. => .value

def formOfWord : List Char → Form
  | 'i' :: _ => .elem
  | 'k' :: _ => .key
  | _ => .root

/-- **The form that a text ends in.** -/
def formOf (cs : List Char) : Form :=
  match cs.reverse with
  | ']' :: _ => .value
  | ')' :: '(' :: _ => .seconds
  | ')' :: _ => .deref
  | _ => if '.' ∈ cs then .field else formOfWord cs

theorem exists_last_of_parts {cs : List Char} (hne : cs ≠ []) (hcs : ∀ c ∈ cs, isNamePart c = true) :
    ∃ front c, cs = front ++ [c] ∧ isNamePart c = true := by
  refine ⟨cs.dropLast, cs.getLast hne, (List.dropLast_append_getLast hne).symm, hcs _ (List.getLast_mem hne)⟩

theorem formOf_word (cs : List Char) {word : List Char} (hne : word ≠ []) (hword : ∀ c ∈ word, isNamePart c = true) :
    formOf (cs ++ word) = if '.' ∈ cs ++ word then .field else formOfWord (cs ++ word) := by
  obtain ⟨front, c, rfl, hc⟩ := exists_last_of_parts hne hword
  have hreverse : (cs ++ (front ++ [c])).reverse = c :: (cs ++ front).reverse := by simp
  have hbracket : c ≠ ']' := by
    rintro rfl
    cases hc
  have hparen : c ≠ ')' := by
    rintro rfl
    cases hc
  unfold formOf
  rw [hreverse]
  split
  · rename_i heq
    exact absurd (List.cons.inj heq).1 hbracket
  · rename_i heq
    exact absurd (List.cons.inj heq).1 hparen
  · rename_i heq
    exact absurd (List.cons.inj heq).1 hparen
  · rfl

theorem formOf_variable {word : List Char} (hne : word ≠ []) (hword : ∀ c ∈ word, isNamePart c = true) :
    formOf word = formOfWord word := by
  have hform := formOf_word [] hne hword
  rwa [List.nil_append, if_neg fun hmem => nomatch hword '.' hmem] at hform

/-! ## Ways of writing selectors -/

/-- **A way of writing selectors** from the front to the back.  `inner` is how the base of a reference is written. -/
structure Spelling (text inner : Selector → List Char) (start opening closing suffix : List Char) : Prop where
  root : text .root = start
  elem : ∀ depth, text (.elem depth) = 'i' :: decimal depth
  key : ∀ depth, text (.key depth) = 'k' :: decimal depth
  field : ∀ base name, text (.field base name) = text base ++ '.' :: name.toList
  deref : ∀ base, text (.deref base) = opening ++ (inner base ++ closing)
  seconds : ∀ base, text (.seconds base) = text base ++ suffix
  value : ∀ base depth, text (.value base depth) = text base ++ '[' :: ('k' :: decimal depth ++ [']'])
  /-- The value being encoded has a name of its own. -/
  start : ∃ c cs, start = c :: cs ∧ (∀ d ∈ c :: cs, isNamePart d = true) ∧ c ≠ 'i' ∧ c ≠ 'k'
  /-- A reference ends in a bracket, and so do the seconds, but theirs is empty. -/
  closed : ∀ base, base.IsNamed → ∃ front c, text (.deref base) = front ++ [c, ')'] ∧ c ≠ '('
  called : ∃ front, suffix = front ++ ['(', ')']
  /-- The base of a reference can be read as it can by itself. -/
  base : ∀ s s', inner s = inner s' → text s = text s'

namespace Spelling

variable {text inner : Selector → List Char} {start opening closing suffix : List Char}

theorem formOf_text (h : Spelling text inner start opening closing suffix) {s : Selector} (hs : s.IsNamed) :
    formOf (text s) = s.form := by
  have hnumber {c : Char} (hc : isNamePart c = true) (depth : Nat) :
      formOf (c :: decimal depth) = formOfWord (c :: decimal depth) :=
    formOf_variable (List.cons_ne_nil c _) (List.forall_mem_cons.2 ⟨hc, fun _ => isNamePart_of_mem_decimal⟩)
  cases s with
  | root =>
    obtain ⟨c, cs, hstart, hparts, hi, hk⟩ := h.start
    rw [h.root, hstart, formOf_variable (List.cons_ne_nil c cs) hparts]
    unfold formOfWord
    split
    · rename_i heq
      exact absurd (List.cons.inj heq).1 hi
    · rename_i heq
      exact absurd (List.cons.inj heq).1 hk
    · rfl
  | elem depth =>
    rw [h.elem, hnumber rfl]
    rfl
  | key depth =>
    rw [h.key, hnumber rfl]
    rfl
  | field base name =>
    obtain ⟨-, hname⟩ := isNamed_field.1 hs
    have hword := formOf_word (text base ++ ['.']) (toList_ne_nil_of_isIdentifier hname)
      fun c hc => isNamePart_of_isIdentifier hname hc
    rw [if_pos (by simp), List.append_assoc] at hword
    rw [h.field]
    exact hword
  | deref base =>
    obtain ⟨front, c, htext, hc⟩ := h.closed base hs
    have hreverse : (text (.deref base)).reverse = ')' :: c :: front.reverse := by simp [htext]
    unfold formOf
    rw [hreverse]
    split
    · rename_i heq
      cases heq
    · rename_i heq
      exact absurd (List.cons.inj (List.cons.inj heq).2).1 hc
    · rfl
    · rename_i hnot
      exact absurd rfl (hnot _)
  | seconds base =>
    obtain ⟨front, hsuffix⟩ := h.called
    have hreverse : (text (.seconds base)).reverse = ')' :: '(' :: (text base ++ front).reverse := by
      rw [h.seconds, hsuffix]
      simp
    unfold formOf
    rw [hreverse]
    rfl
  | value base depth =>
    have hreverse : (text (.value base depth)).reverse = ']' :: (text base ++ '[' :: 'k' :: decimal depth).reverse := by
      rw [h.value]
      simp
    unfold formOf
    rw [hreverse]
    rfl

/-- **What all characters of a selector's text are**, if the name parts and the signs are. -/
theorem forall_mem_text (h : Spelling text inner start opening closing suffix) {P : Char → Prop}
    (hpart : ∀ c, isNamePart c = true → P c) (hsign : ∀ c ∈ '.' :: '[' :: ']' :: (opening ++ (closing ++ suffix)), P c)
    (hinner : ∀ s, (∀ c ∈ text s, P c) → ∀ c ∈ inner s, P c) {s : Selector} (hs : s.IsNamed) : ∀ c ∈ text s, P c := by
  simp only [List.forall_mem_cons, List.forall_mem_append] at hsign
  obtain ⟨hdot, hopen, hclose, hopening, hclosing, hsuffix⟩ := hsign
  have hnumber {c : Char} (hc : isNamePart c = true) (depth : Nat) : ∀ d ∈ c :: decimal depth, P d :=
    List.forall_mem_cons.2 ⟨hpart c hc, fun d hd => hpart d (isNamePart_of_mem_decimal hd)⟩
  induction s with
  | root =>
    obtain ⟨c, cs, hstart, hparts, -⟩ := h.start
    rw [h.root, hstart]
    exact fun d hd => hpart d (hparts d hd)
  | elem depth =>
    rw [h.elem]
    exact hnumber rfl depth
  | key depth =>
    rw [h.key]
    exact hnumber rfl depth
  | field base name ih =>
    obtain ⟨hbase, hname⟩ := isNamed_field.1 hs
    rw [h.field, List.forall_mem_append, List.forall_mem_cons]
    exact ⟨ih hbase, hdot, fun c hc => hpart c (isNamePart_of_isIdentifier hname hc)⟩
  | deref base ih =>
    rw [h.deref, List.forall_mem_append, List.forall_mem_append]
    exact ⟨hopening, hinner base (ih hs), hclosing⟩
  | seconds base ih =>
    rw [h.seconds, List.forall_mem_append]
    exact ⟨ih hs, hsuffix⟩
  | value base depth ih =>
    rw [h.value, List.forall_mem_append, List.forall_mem_cons, List.forall_mem_append, List.forall_mem_singleton]
    exact ⟨ih hs, hopen, hnumber rfl depth, hclose⟩

theorem form_eq (h : Spelling text inner start opening closing suffix) {s s' : Selector} (hs : s.IsNamed) (hs' : s'.IsNamed)
    (heq : text s = text s') : s.form = s'.form := by
  rw [← h.formOf_text hs, heq, h.formOf_text hs']

/-- **A selector is read back from its text.** -/
theorem text_injective (h : Spelling text inner start opening closing suffix) : ∀ {s s' : Selector}, s.IsNamed → s'.IsNamed →
    text s = text s' → s = s' := by
  intro s
  induction s with
  | root =>
    intro s' hs hs' heq
    have hform := h.form_eq hs hs' heq
    cases s' with
    | root => rfl
    | _ => cases hform
  | elem depth =>
    intro s' hs hs' heq
    have hform := h.form_eq hs hs' heq
    cases s' with
    | elem depth' =>
      rw [h.elem, h.elem] at heq
      rw [decimal_injective (List.cons.inj heq).2]
    | _ => cases hform
  | key depth =>
    intro s' hs hs' heq
    have hform := h.form_eq hs hs' heq
    cases s' with
    | key depth' =>
      rw [h.key, h.key] at heq
      rw [decimal_injective (List.cons.inj heq).2]
    | _ => cases hform
  | field base name ih =>
    intro s' hs hs' heq
    have hform := h.form_eq hs hs' heq
    cases s' with
    | field base' name' =>
      have hdot {name : String} (hname : isIdentifier name = true) : '.' ∉ name.toList :=
        fun hmem => nomatch isNamePart_of_isIdentifier hname hmem
      obtain ⟨hbase, hname⟩ := isNamed_field.1 hs
      obtain ⟨hbase', hname'⟩ := isNamed_field.1 hs'
      rw [h.field, h.field] at heq
      obtain ⟨hb, hn⟩ := eq_of_last (hdot hname) (hdot hname') heq
      rw [ih hbase hbase' hb, String.toList_inj.1 hn]
    | _ => cases hform
  | deref base ih =>
    intro s' hs hs' heq
    have hform := h.form_eq hs hs' heq
    cases s' with
    | deref base' =>
      rw [h.deref, h.deref] at heq
      have hinner := List.append_cancel_right (List.append_cancel_left heq)
      have hbase' : base'.IsNamed := hs'
      rw [ih hs hbase' (h.base _ _ hinner)]
    | _ => cases hform
  | seconds base ih =>
    intro s' hs hs' heq
    have hform := h.form_eq hs hs' heq
    cases s' with
    | seconds base' =>
      rw [h.seconds, h.seconds] at heq
      have hbase' : base'.IsNamed := hs'
      rw [ih hs hbase' (List.append_cancel_right heq)]
    | _ => cases hform
  | value base depth ih =>
    intro s' hs hs' heq
    have hform := h.form_eq hs hs' heq
    cases s' with
    | value base' depth' =>
      have hbracket {depth : Nat} : '[' ∉ 'k' :: decimal depth ++ [']'] := by
        intro hmem
        rcases List.mem_append.1 hmem with hmem | hmem
        · rcases List.mem_cons.1 hmem with hk | hmem
          · cases hk
          · exact nomatch isNamePart_of_mem_decimal hmem
        · cases List.mem_singleton.1 hmem
      rw [h.value, h.value] at heq
      obtain ⟨hb, hd⟩ := eq_of_last hbracket hbracket heq
      have hbase' : base'.IsNamed := hs'
      rw [ih hs hbase' hb, decimal_injective (List.cons.inj (List.append_cancel_right hd)).2]
    | _ => cases hform

end Spelling

end Selector
end BencodePlan
