import BencodePlan.Proofs.Plan.Spelling
import BencodePlan.Proofs.Text.Escape
import BencodePlan.Plan.Listing
import Mathlib
/-!
# Plan listings read back

A listing shows an instruction a row, what an instruction contains one level further in.  Where a body ends is seen from the
level of the next row alone, so plans are read back from their rows (`sheetRows_injective`), and the rows from the text.
Plans are listed alike only if they are alike, except that a listing does not tell a test for no time from a test for zero
(`listings_eq_iff`).
-/
namespace BencodePlan

open Text

/-! ## What a listing does not show -/

/-- The test that is listed: one for no time reads as one for zero. -/
def EmptinessTest.timeless : EmptinessTest → EmptinessTest
  | zeroDuration => zero
  | test => test

namespace Instruction

mutual
/-- **An instruction with tests for zero in the place of tests for no time**, at every depth. -/
def timeless : Instruction → Instruction
  | literal bytes => literal bytes
  | bool s => bool s
  | int s => int s
  | string s => string s
  | native s => native s
  | list s depth body => list s depth (timelessAll body)
  | map s depth cast body => map s depth cast (timelessAll body)
  | when s test body => when s test.timeless (timelessAll body)
termination_by structural i => i

def timelessAll : List Instruction → List Instruction
  | [] => []
  | i :: rest => i.timeless :: timelessAll rest
termination_by structural is => is
end

end Instruction

def Plan.timeless (p : Plan) : Plan := { p with body := Instruction.timelessAll p.body }

/-! ## Selectors and conditions -/

namespace Selector

theorem exists_display : ∀ s : Selector, ∃ c rest, s.display.toList = c :: rest ∧ ['x', 'i', 'k', '('].contains c = true
  | root => ⟨'x', [], rfl, rfl⟩
  | elem depth => ⟨'i', _, toList_elemName depth, rfl⟩
  | key depth => ⟨'k', _, toList_keyName depth, rfl⟩
  | deref base => ⟨'(', _, by rw [display, String.toList_append, String.toList_append]; rfl, rfl⟩
  | field base name => by
    obtain ⟨c, rest, htext, hc⟩ := exists_display base
    exact ⟨c, _, by rw [display, String.toList_append, String.toList_append, htext]; rfl, hc⟩
  | seconds base => by
    obtain ⟨c, rest, htext, hc⟩ := exists_display base
    exact ⟨c, _, by rw [display, String.toList_append, htext]; rfl, hc⟩
  | value base depth => by
    obtain ⟨c, rest, htext, hc⟩ := exists_display base
    exact ⟨c, _, by rw [display, String.toList_append, String.toList_append, String.toList_append, htext]; rfl, hc⟩

theorem exists_display_concat {s : Selector} (hs : s.IsNamed) : ∃ front c, s.display.toList = front ++ [c] ∧ c ≠ '(' := by
  have hword {word : List Char} (hne : word ≠ []) (hparts : ∀ c ∈ word, isNamePart c = true) (cs : List Char) :
      ∃ front c, cs ++ word = front ++ [c] ∧ c ≠ '(' := by
    obtain ⟨front, c, rfl, hc⟩ := exists_last_of_parts hne hparts
    refine ⟨cs ++ front, c, (List.append_assoc ..).symm, ?_⟩
    rintro rfl
    cases hc
  have hnumber (c : Char) (depth : Nat) : ∃ front d, c :: decimal depth = front ++ [d] ∧ d ≠ '(' :=
    hword (decimal_ne_nil depth) (fun _ => isNamePart_of_mem_decimal) [c]
  cases s with
  | root => exact ⟨[], 'x', rfl, by decide⟩
  | elem depth =>
    rw [display, toList_elemName]
    exact hnumber 'i' depth
  | key depth =>
    rw [display, toList_keyName]
    exact hnumber 'k' depth
  | field base name =>
    obtain ⟨-, hname⟩ := isNamed_field.1 hs
    rw [display, String.toList_append]
    exact hword (toList_ne_nil_of_isIdentifier hname) (fun _ => isNamePart_of_isIdentifier hname) _
  | deref base =>
    rw [display, String.toList_append]
    exact ⟨_, ')', rfl, by decide⟩
  | seconds base =>
    have hcall : ".seconds()".toList = ".seconds(".toList ++ [')'] := rfl
    rw [display, String.toList_append, hcall, ← List.append_assoc]
    exact ⟨_, ')', rfl, by decide⟩
  | value base depth =>
    rw [display, String.toList_append]
    exact ⟨_, ']', rfl, by decide⟩

theorem displaySpelling : Spelling (fun s => s.display.toList) (fun s => s.display.toList) ['x'] "(*".toList ")".toList
    ".seconds()".toList where
  root := rfl
  elem := toList_elemName
  key := toList_keyName
  field base name := by
    simp only [display, String.toList_append, List.append_assoc]
    rfl
  deref base := by
    simp only [display, String.toList_append, List.append_assoc]
  seconds base := by
    simp only [display, String.toList_append]
  value base depth := by
    simp only [display, toList_keyName, String.toList_append, List.append_assoc]
    rfl
  start := ⟨'x', [], rfl, List.all_eq_true.1 rfl, by decide, by decide⟩
  closed base hbase := by
    obtain ⟨front, c, htext, hc⟩ := exists_display_concat hbase
    refine ⟨"(*".toList ++ front, c, ?_, hc⟩
    simp only [display, String.toList_append, htext, List.append_assoc]
    rfl
  called := ⟨".seconds".toList, rfl⟩
  base _ _ h := h

/-- **A selector is read back from its text.** -/
theorem display_injective {s s' : Selector} (hs : s.IsNamed) (hs' : s'.IsNamed) (h : s.display.toList = s'.display.toList) :
    s = s' :=
  displaySpelling.text_injective hs hs' h

theorem not_blank_of_mem_display {s : Selector} (hs : s.IsNamed) {c : Char} (hc : c ∈ s.display.toList) :
    c ≠ ' ' ∧ c ≠ '\n' := by
  have hall : ∀ c ∈ s.display.toList, (c != ' ' && c != '\n') = true := by
    refine displaySpelling.forall_mem_text (fun c hc => ?_) (List.all_eq_true.1 rfl) (fun _ h => h) hs
    rw [Bool.and_eq_true, bne_iff_ne, bne_iff_ne]
    constructor <;>
    · rintro rfl
      cases hc
  simpa using hall c hc

end Selector

namespace EmptinessTest

theorem toList_presentCondition (s : Selector) (test : EmptinessTest) : (test.presentCondition s).toList =
    match test with
    | len => "len(".toList ++ (s.display.toList ++ ") != 0".toList)
    | nil => s.display.toList ++ " != nil".toList
    | .false => s.display.toList
    | zero | zeroDuration => s.display.toList ++ " != 0".toList := by
  cases test with
  | len => simp only [presentCondition, String.toList_append, List.append_assoc]
  | nil | zero | zeroDuration => simp only [presentCondition, String.toList_append]
  | false => rfl

theorem presentCondition_timeless (s : Selector) (test : EmptinessTest) :
    test.timeless.presentCondition s = test.presentCondition s := by
  cases test <;> rfl

def ofCondition (cs : List Char) : EmptinessTest :=
  if cs.head? = some 'l' then len
  else if ' ' ∉ cs then .false
  else if cs.getLast? = some 'l' then nil
  else zero

theorem ofCondition_presentCondition {s : Selector} (hs : s.IsNamed) (test : EmptinessTest) :
    ofCondition (test.presentCondition s).toList = test.timeless := by
  have hhead (more : List Char) : (s.display.toList ++ more).head? ≠ some 'l' := by
    obtain ⟨c, rest, htext, hc⟩ := s.exists_display
    rw [htext]
    intro h
    cases Option.some.inj h
    cases hc
  have hspace : ' ' ∉ s.display.toList := fun hmem => (Selector.not_blank_of_mem_display hs hmem).1 rfl
  have hlast (more : List Char) (c : Char) : (s.display.toList ++ (more ++ [c])).getLast? = some c := by
    rw [← List.append_assoc, List.getLast?_concat]
  rw [toList_presentCondition]
  unfold ofCondition
  cases test with
  | len => rfl
  | nil =>
    have hletter : (s.display.toList ++ " != nil".toList).getLast? = some 'l' := hlast " != ni".toList 'l'
    rw [if_neg (hhead _), if_neg (by simp), if_pos hletter]
    rfl
  | false =>
    have hdisplay := hhead []
    rw [List.append_nil] at hdisplay
    simp only
    rw [if_neg hdisplay, if_pos hspace]
    rfl
  | zero | zeroDuration =>
    have hdigit : (s.display.toList ++ " != 0".toList).getLast? ≠ some 'l' := by
      intro h
      cases (hlast " != ".toList '0').symm.trans h
    rw [if_neg (hhead _), if_neg (by simp), if_neg hdigit]
    rfl

/-- **A condition is read back from its text**, with tests for no time as tests for zero. -/
theorem presentCondition_injective {s s' : Selector} (hs : s.IsNamed) (hs' : s'.IsNamed) {test test' : EmptinessTest}
    (h : test.presentCondition s = test'.presentCondition s') : s = s' ∧ test.timeless = test'.timeless := by
  have htest : test.timeless = test'.timeless := by
    rw [← ofCondition_presentCondition hs test, h, ofCondition_presentCondition hs' test']
  refine ⟨?_, htest⟩
  rw [← presentCondition_timeless s, ← presentCondition_timeless s', ← htest, ← String.toList_inj,
    toList_presentCondition, toList_presentCondition] at h
  cases test with
  | len => exact Selector.display_injective hs hs' (List.append_cancel_right (List.append_cancel_left h))
  | false => exact Selector.display_injective hs hs' h
  | nil | zero | zeroDuration => exact Selector.display_injective hs hs' (List.append_cancel_right h)

end EmptinessTest

/-! ## Instructions without what they contain -/

namespace Instruction

def head : Instruction → Instruction
  | list s depth _ => list s depth []
  | map s depth cast _ => map s depth cast []
  | when s test _ => when s test.timeless []
  | i => i

def contents (i : Instruction) : List Instruction := i.body?.getD []

theorem listing_eq (colored : Bool) (level : Nat) (i : Instruction) :
    i.listing colored level = i.line colored level ++ listingAll colored (level + 1) i.contents := by
  cases i with
  | list | map | when => rfl
  | literal | bool | int | string | native => exact (String.append_empty).symm

theorem timeless_eq {i j : Instruction} (hhead : i.head = j.head) (hbody : timelessAll i.contents = timelessAll j.contents) :
    i.timeless = j.timeless := by
  cases i with
  | list s depth body =>
    cases j with
    | list s' depth' body' =>
      cases hhead
      exact congrArg (list s depth) hbody
    | _ => cases hhead
  | map s depth cast body =>
    cases j with
    | map s' depth' cast' body' =>
      cases hhead
      exact congrArg (map s depth cast) hbody
    | _ => cases hhead
  | when s test body =>
    cases j with
    | when s' test' body' =>
      obtain ⟨hs, htest, -⟩ := Instruction.when.inj hhead
      rw [timeless, timeless, hs, htest]
      exact congrArg (when s' test'.timeless) hbody
    | _ => cases hhead
  | literal | bool | int | string | native =>
    cases j with
    | list | map | when => cases hhead
    | _ => exact hhead

/-! ## Rows -/

theorem mnemonic_short (i : Instruction) : i.mnemonic.toList.length < mnemonicWidth ∧ ' ' ∉ i.mnemonic.toList := by
  cases i <;> simp only [mnemonic] <;> decide +kernel

/-- **The row of an instruction**, without the spaces before it. -/
def rowText (i : Instruction) : List Char := (i.mnemonicColumn ++ i.operand false).toList

theorem rowText_eq (i : Instruction) : i.rowText =
    i.mnemonic.toList ++
      ' ' :: (List.replicate (mnemonicWidth - i.mnemonic.toList.length - 1) ' ' ++ (i.operand false).toList) := by
  have hwidth : mnemonicWidth - i.mnemonic.toList.length = mnemonicWidth - i.mnemonic.toList.length - 1 + 1 := by
    have hshort := i.mnemonic_short.1
    omega
  unfold rowText mnemonicColumn
  rw [String.toList_append, String.toList_append, String.toList_ofList, ← String.length_toList, hwidth, List.replicate_succ]
  simp only [Nat.add_sub_cancel, List.append_assoc, List.cons_append]

theorem rowText_head (i : Instruction) : i.head.rowText = i.rowText := by
  cases i with
  | when s test body =>
    unfold rowText
    rw [head, operand, operand, EmptinessTest.presentCondition_timeless]
    rfl
  | _ => rfl

theorem toList_operand (i : Instruction) : (i.operand false).toList =
    match i with
    | literal bytes => '"' :: (escapeChars bytes ++ ['"'])
    | bool s | int s | string s | native s => s.display.toList
    | list s depth _ => 'i' :: (decimal depth ++ (" in ".toList ++ s.display.toList))
    | map s depth cast _ =>
      'k' :: (decimal depth ++ (" in sorted(".toList ++ (s.display.toList ++
        (')' :: match cast with
          | some name => " as ".toList ++ name.toList
          | none => []))))
    | when s test _ => (test.presentCondition s).toList := by
  cases i with
  | literal bytes =>
    have htext : ((literal bytes).operand false).toList = ("\"" ++ String.ofList (escapeChars bytes) ++ "\"").toList := rfl
    rw [htext]
    simp only [String.toList_append, String.toList_ofList]
    rfl
  | bool | int | string | native | when => rfl
  | list s depth body =>
    simp only [operand, String.toList_append, Selector.toList_elemName, List.append_assoc, List.cons_append]
  | map s depth cast body =>
    cases cast with
    | none =>
      simp only [operand, String.toList_append, Selector.toList_keyName, List.append_assoc, List.cons_append]
      rfl
    | some name =>
      have htext : ((map s depth (some name) body).operand false).toList =
          (Selector.keyName depth ++ " in sorted(" ++ s.display ++ ")" ++ (" as " ++ name)).toList := rfl
      rw [htext]
      simp only [String.toList_append, Selector.toList_keyName, List.append_assoc, List.cons_append]
      rfl

theorem sorted_injective {s s' : Selector} (hs : s.IsNamed) (hs' : s'.IsNamed) {cast cast' : Option String}
    (h : s.display.toList ++ (')' :: (match cast with
        | some name => " as ".toList ++ name.toList
        | none => [])) =
      s'.display.toList ++ (')' :: (match cast' with
        | some name => " as ".toList ++ name.toList
        | none => []))) : s = s' ∧ cast = cast' := by
  have hblank {s : Selector} (hs : s.IsNamed) : ' ' ∉ s.display.toList ++ [')'] := by
    intro hmem
    rcases List.mem_append.1 hmem with hmem | hmem
    · exact (Selector.not_blank_of_mem_display hs hmem).1 rfl
    · cases List.mem_singleton.1 hmem
  have hplaces (h : s.display.toList ++ [')'] = s'.display.toList ++ [')']) : s = s' :=
    Selector.display_injective hs hs' (List.append_cancel_right h)
  cases cast with
  | none =>
    cases cast' with
    | none => exact ⟨hplaces h, rfl⟩
    | some name' =>
      refine absurd ?_ (hblank hs)
      rw [h]
      simp
  | some name =>
    cases cast' with
    | none =>
      refine absurd ?_ (hblank hs')
      rw [← h]
      simp
    | some name' =>
      have hsplit : (s.display.toList ++ [')']) ++ ' ' :: ("as ".toList ++ name.toList) =
          (s'.display.toList ++ [')']) ++ ' ' :: ("as ".toList ++ name'.toList) := by
        rw [List.append_assoc, List.append_assoc]
        exact h
      obtain ⟨hfirst, hname⟩ := eq_of_first (hblank hs) (hblank hs') hsplit
      exact ⟨hplaces hfirst, congrArg some (String.toList_inj.1 (List.append_cancel_left hname))⟩

/-- **A row is read back from its text.** -/
theorem rowText_injective {i j : Instruction} (hi : i.IsNamed) (hj : j.IsNamed) (h : i.rowText = j.rowText) :
    i.head = j.head := by
  rw [rowText_eq, rowText_eq] at h
  obtain ⟨hmnemonic, hrest⟩ := eq_of_first i.mnemonic_short.2 j.mnemonic_short.2 h
  rw [hmnemonic] at hrest
  have hword : i.mnemonic = j.mnemonic := String.toList_inj.1 hmnemonic
  have hoperand := List.append_cancel_left hrest
  rw [toList_operand, toList_operand] at hoperand
  cases i with
  | literal bytes =>
    cases j with
    | literal bytes' => rw [escapeChars_injective (List.append_cancel_right (List.cons.inj hoperand).2)]
    | _ => simp [mnemonic] at hword
  | bool s =>
    cases j with
    | bool s' => rw [Selector.display_injective hi hj hoperand]
    | _ => simp [mnemonic] at hword
  | int s =>
    cases j with
    | int s' => rw [Selector.display_injective hi hj hoperand]
    | _ => simp [mnemonic] at hword
  | string s =>
    cases j with
    | string s' => rw [Selector.display_injective hi hj hoperand]
    | _ => simp [mnemonic] at hword
  | native s =>
    cases j with
    | native s' => rw [Selector.display_injective hi hj hoperand]
    | _ => simp [mnemonic] at hword
  | list s depth body =>
    cases j with
    | list s' depth' body' =>
      obtain ⟨hdepth, hplace⟩ := eq_of_decimal (c := ' ') rfl (List.cons.inj hoperand).2
      rw [head, head, hdepth, Selector.display_injective hi hj ((List.append_right_inj "in ".toList).1 hplace)]
    | _ => simp [mnemonic] at hword
  | map s depth cast body =>
    cases j with
    | map s' depth' cast' body' =>
      obtain ⟨hdepth, hplace⟩ := eq_of_decimal (c := ' ') rfl (List.cons.inj hoperand).2
      obtain ⟨hs, hcast⟩ := sorted_injective hi.1 hj.1 ((List.append_right_inj "in sorted(".toList).1 hplace)
      rw [head, head, hdepth, hs, hcast]
    | _ => simp [mnemonic] at hword
  | when s test body =>
    cases j with
    | when s' test' body' =>
      obtain ⟨hs, htest⟩ := EmptinessTest.presentCondition_injective hi hj (String.toList_inj.1 hoperand)
      rw [head, head, hs, htest]
    | _ => simp [mnemonic] at hword

theorem feed_not_mem_rowText {i : Instruction} (hi : i.IsNamed) : '\n' ∉ i.rowText := by
  have hdisplay {s : Selector} (hs : s.IsNamed) : '\n' ∉ s.display.toList :=
    fun hmem => (Selector.not_blank_of_mem_display hs hmem).2 rfl
  have hnumber (depth : Nat) : '\n' ∉ decimal depth := fun hmem => nomatch isNamePart_of_mem_decimal hmem
  have hmnemonic : '\n' ∉ i.mnemonic.toList := by
    cases i <;> simp only [mnemonic] <;> decide +kernel
  have hoperand : '\n' ∉ (i.operand false).toList := by
    rw [toList_operand]
    cases i with
    | literal bytes =>
      have hbytes : '\n' ∉ escapeChars bytes := fun hmem => absurd (isPrintable_escapeChars hmem).1 (by decide)
      simp [hbytes]
    | bool s | int s | string s | native s => exact hdisplay hi
    | list s depth body => simp [hnumber, hdisplay hi]
    | map s depth cast body =>
      cases cast with
      | none => simp [hnumber, hdisplay hi.1]
      | some name =>
        have hname : '\n' ∉ name.toList := fun hmem => nomatch isNamePart_of_isIdentifier (hi.2 name rfl) hmem
        simp [hnumber, hdisplay hi.1, hname]
    | when s test body =>
      simp only
      rw [EmptinessTest.toList_presentCondition]
      cases test <;> simp [hdisplay hi]
  rw [rowText_eq]
  simp [hmnemonic, hoperand]

end Instruction

/-- **A row of a listing.**  What an instruction contains has rows of its own. -/
inductive ListingRow
  | blank
  | title (name : String)
  | instruction (head : Instruction)

namespace ListingRow

def text : ListingRow → List Char
  | blank => []
  | title name => name.toList
  | instruction head => head.rowText

def IsNamed : ListingRow → Prop
  | blank => True
  | title name => isIdentifier name = true
  | instruction head => head.IsNamed ∧ head.head = head

theorem space_mem_rowText (i : Instruction) : ' ' ∈ i.rowText := by
  rw [Instruction.rowText_eq]
  simp

theorem text_injective {r r' : ListingRow} (hr : r.IsNamed) (hr' : r'.IsNamed) (h : r.text = r'.text) : r = r' := by
  have hname {name : String} (hname : isIdentifier name = true) : ' ' ∉ name.toList :=
    fun hmem => nomatch isNamePart_of_isIdentifier hname hmem
  cases r with
  | blank =>
    cases r' with
    | blank => rfl
    | title name' => exact absurd h.symm (toList_ne_nil_of_isIdentifier hr')
    | instruction head' => exact absurd h.symm (List.ne_nil_of_mem (space_mem_rowText head'))
  | title name =>
    cases r' with
    | blank => exact absurd h (toList_ne_nil_of_isIdentifier hr)
    | title name' => rw [String.toList_inj.1 h]
    | instruction head' =>
      refine absurd (space_mem_rowText head') ?_
      rw [← text, ← h]
      exact hname hr
  | instruction head =>
    cases r' with
    | blank => exact absurd h (List.ne_nil_of_mem (space_mem_rowText head))
    | title name' =>
      refine absurd (space_mem_rowText head) ?_
      rw [← text, h]
      exact hname hr'
    | instruction head' =>
      have hhead := Instruction.rowText_injective hr.1 hr'.1 h
      rw [hr.2, hr'.2] at hhead
      rw [hhead]

theorem feed_not_mem_text {r : ListingRow} (hr : r.IsNamed) : '\n' ∉ r.text := by
  cases r with
  | blank => exact List.not_mem_nil
  | title name => exact fun hmem => nomatch isNamePart_of_isIdentifier hr hmem
  | instruction head => exact Instruction.feed_not_mem_rowText hr.1

theorem head?_text {r : ListingRow} (hr : r.IsNamed) : r.text.head? ≠ some ' ' := by
  cases r with
  | blank => exact nofun
  | title name => exact fun hhead => nomatch isNamePart_of_isIdentifier hr (List.mem_of_mem_head? hhead)
  | instruction head =>
    have hmnemonic : head.mnemonic.toList ≠ [] := by
      cases head <;> simp [Instruction.mnemonic]
    intro hhead
    rw [text, Instruction.rowText_eq, List.head?_append_of_ne_nil _ hmnemonic] at hhead
    exact head.mnemonic_short.2 (List.mem_of_mem_head? hhead)

end ListingRow

/-- **Rows at their levels as one text.** -/
def rowsText (rs : List (Nat × ListingRow)) : List Char := setIn 2 ListingRow.text rs

theorem rowsText_append (rs rs' : List (Nat × ListingRow)) : rowsText (rs ++ rs') = rowsText rs ++ rowsText rs' :=
  setIn_append rs rs'

/-! ## The rows of plans -/

namespace Instruction

mutual
/-- **The rows of an instruction**, each with its level. -/
def rows (level : Nat) : Instruction → List (Nat × ListingRow)
  | literal bytes => [(level, .instruction (literal bytes))]
  | bool s => [(level, .instruction (bool s))]
  | int s => [(level, .instruction (int s))]
  | string s => [(level, .instruction (string s))]
  | native s => [(level, .instruction (native s))]
  | list s depth body => (level, .instruction (list s depth [])) :: rowsAll (level + 1) body
  | map s depth cast body => (level, .instruction (map s depth cast [])) :: rowsAll (level + 1) body
  | when s test body => (level, .instruction (when s test.timeless [])) :: rowsAll (level + 1) body
termination_by structural i => i

def rowsAll (level : Nat) : List Instruction → List (Nat × ListingRow)
  | [] => []
  | i :: rest => rows level i ++ rowsAll level rest
termination_by structural is => is
end

theorem rowsAll_cons (level : Nat) (i : Instruction) (rest : List Instruction) : rowsAll level (i :: rest) =
    (level, .instruction i.head) :: (rowsAll (level + 1) i.contents ++ rowsAll level rest) := by
  cases i <;> rfl

theorem visitAll_cons (i : Instruction) (rest : List Instruction) :
    visitAll (i :: rest) = i :: (visitAll i.contents ++ visitAll rest) := by
  cases i <;> rfl

theorem length_visitAll_cons (i : Instruction) (rest : List Instruction) :
    (visitAll (i :: rest)).length = (visitAll i.contents).length + (visitAll rest).length + 1 := by
  rw [visitAll_cons, List.length_cons, List.length_append]

theorem toList_line (level : Nat) (i : Instruction) :
    (i.line false level).toList = rowsText [(level, .instruction i.head)] := by
  have htext : (i.line false level).toList = (indent level ++ (i.mnemonicColumn ++ i.operand false) ++ "\n").toList := by
    unfold line
    simp only [paint, Bool.false_eq_true, if_false, String.append_assoc]
  rw [htext, rowsText, setIn_cons, ListingRow.text, rowText_head, rowText]
  simp only [indent, String.toList_append, String.toList_ofList, List.append_assoc]
  rfl

theorem toList_listingAll : ∀ (level : Nat) (is : List Instruction),
    (listingAll false level is).toList = rowsText (rowsAll level is)
  | level, [] => rfl
  | level, i :: rest => by
    rw [listingAll, listing_eq, String.toList_append, String.toList_append, toList_line, toList_listingAll (level + 1) i.contents,
      toList_listingAll level rest, rowsAll_cons, ← rowsText_append, ← rowsText_append]
    rfl
termination_by _ is => (visitAll is).length
decreasing_by
  all_goals
    rw [length_visitAll_cons]
    omega

/-- What comes after a body: nothing, or a row that is not as far in. -/
def Outside (level : Nat) (rs : List (Nat × ListingRow)) : Prop := ∀ p ∈ rs.head?, p.1 < level

theorem outside_rowsAll {level : Nat} (is : List Instruction) {rs : List (Nat × ListingRow)} (h : Outside level rs) :
    Outside (level + 1) (rowsAll level is ++ rs) := by
  cases is with
  | nil => exact fun p hp => Nat.lt_succ_of_lt (h p hp)
  | cons i rest =>
    rw [rowsAll_cons]
    rintro p hp
    cases hp
    exact Nat.lt_succ_self level

/-- **Instructions are read back from their rows**: what is not as far in ends them. -/
theorem rowsAll_append_inj : ∀ {is js : List Instruction} {level : Nat} {u v : List (Nat × ListingRow)}, Outside level u →
    Outside level v → rowsAll level is ++ u = rowsAll level js ++ v → timelessAll is = timelessAll js ∧ u = v
  | [], [], level, u, v, hu, hv, h => ⟨rfl, h⟩
  | [], j :: js, level, u, v, hu, hv, h => by
    rw [rowsAll_cons] at h
    exact absurd (hu _ (by rw [show u = _ from h]; rfl)) (Nat.lt_irrefl level)
  | i :: is, [], level, u, v, hu, hv, h => by
    rw [rowsAll_cons] at h
    exact absurd (hv _ (by rw [show v = _ from h.symm]; rfl)) (Nat.lt_irrefl level)
  | i :: is, j :: js, level, u, v, hu, hv, h => by
    rw [rowsAll_cons, rowsAll_cons, List.cons_append, List.cons_append, List.append_assoc, List.append_assoc] at h
    obtain ⟨hrow, hrest⟩ := List.cons.inj h
    obtain ⟨hbody, hafter⟩ := rowsAll_append_inj (outside_rowsAll is hu) (outside_rowsAll js hv) hrest
    obtain ⟨hmore, huv⟩ := rowsAll_append_inj hu hv hafter
    have hhead : i.head = j.head := ListingRow.instruction.inj (Prod.mk.inj hrow).2
    exact ⟨by rw [timelessAll, timelessAll, timeless_eq hhead hbody, hmore], huv⟩
termination_by is => (visitAll is).length
decreasing_by
  all_goals
    rw [length_visitAll_cons]
    omega

theorem isNamed_rowsAll : ∀ {is : List Instruction}, (∀ i ∈ visitAll is, i.IsNamed) → ∀ (level : Nat),
    ∀ p ∈ rowsAll level is, p.2.IsNamed
  | [], _, level => fun _ hp => nomatch hp
  | i :: rest, h, level => by
    rw [visitAll_cons, List.forall_mem_cons, List.forall_mem_append] at h
    obtain ⟨hi, hbody, hrest⟩ := h
    have hhead : i.head.IsNamed ∧ i.head.head = i.head := by
      cases i with
      | when s test body => exact ⟨hi, by cases test <;> rfl⟩
      | _ => exact ⟨hi, rfl⟩
    rw [rowsAll_cons, List.forall_mem_cons, List.forall_mem_append]
    exact ⟨hhead, isNamed_rowsAll hbody (level + 1), isNamed_rowsAll hrest level⟩
termination_by is => (visitAll is).length
decreasing_by
  all_goals
    rw [length_visitAll_cons]
    omega

theorem listingAll_timelessAll (colored : Bool) : ∀ (level : Nat) (is : List Instruction),
    listingAll colored level (timelessAll is) = listingAll colored level is
  | level, [] => rfl
  | level, i :: rest => by
    have hline : i.timeless.line colored level = i.line colored level := by
      cases i with
      | when s test body =>
        unfold line
        rw [timeless, operand, operand, EmptinessTest.presentCondition_timeless]
        rfl
      | _ => rfl
    have hcontents : i.timeless.contents = timelessAll i.contents := by
      cases i <;> rfl
    rw [timelessAll, listingAll, listingAll, listing_eq, listing_eq, hline, hcontents,
      listingAll_timelessAll colored (level + 1) i.contents, listingAll_timelessAll colored level rest]
termination_by _ is => (visitAll is).length
decreasing_by
  all_goals
    rw [length_visitAll_cons]
    omega

end Instruction

namespace Plan

def rows (p : Plan) : List (Nat × ListingRow) := (0, .blank) :: (0, .title p.name) :: Instruction.rowsAll 1 p.body

theorem toList_listing (p : Plan) : '\n' :: (p.listing false).toList = rowsText p.rows := by
  have hrows : rowsText p.rows = '\n' :: (p.name.toList ++ '\n' :: rowsText (Instruction.rowsAll 1 p.body)) := by
    unfold rowsText
    rw [rows, setIn_cons, setIn_cons]
    rfl
  rw [hrows, ← Instruction.toList_listingAll]
  simp only [listing, paint, Bool.false_eq_true, if_false, String.toList_append, List.append_assoc]
  rfl

/-- **The rows of plans**, with a blank one before the first. -/
def sheetRows : List Plan → List (Nat × ListingRow)
  | [] => [(0, .blank)]
  | p :: rest => (p :: rest).flatMap rows

theorem toList_listings : ∀ plans : List Plan, '\n' :: (listings false plans).toList = rowsText (sheetRows plans)
  | [] => rfl
  | [p] => by
    rw [sheetRows, List.flatMap_singleton, ← toList_listing]
    rfl
  | p :: q :: rest => by
    have hfirst : (listings false (p :: q :: rest)).toList =
        (p.listing false).toList ++ ('\n' :: (listings false (q :: rest)).toList) := by
      unfold listings
      simp only [String.toList_intercalate, List.map_cons, List.intercalate_cons_cons, List.append_assoc]
      rfl
    have hrows : sheetRows (p :: q :: rest) = rows p ++ sheetRows (q :: rest) := List.flatMap_cons
    rw [hfirst, toList_listings (q :: rest), hrows, rowsText_append, ← toList_listing]
    rfl

theorem flatMap_rows_injective : ∀ {plans plans' : List Plan}, plans.flatMap rows = plans'.flatMap rows →
    plans.map timeless = plans'.map timeless
  | [], [], _ => rfl
  | [], p' :: rest', h => nomatch h
  | p :: rest, [], h => nomatch h
  | p :: rest, p' :: rest', h => by
    have houtside (plans : List Plan) : Instruction.Outside 1 (plans.flatMap rows) := by
      cases plans with
      | nil => exact fun _ hq => nomatch hq
      | cons q plans =>
        rintro r hr
        cases hr
        exact Nat.one_pos
    simp only [List.flatMap_cons, rows, List.cons_append, List.cons.injEq, Prod.mk.injEq, ListingRow.title.injEq, true_and] at h
    obtain ⟨hname, hinside⟩ := h
    obtain ⟨hbody, hrest⟩ := Instruction.rowsAll_append_inj (houtside rest) (houtside rest') hinside
    rw [List.map_cons, List.map_cons, timeless, timeless, hname, hbody, flatMap_rows_injective hrest]

/-- **Plans are read back from their rows.** -/
theorem sheetRows_injective {plans plans' : List Plan} (h : sheetRows plans = sheetRows plans') :
    plans.map timeless = plans'.map timeless := by
  cases plans with
  | nil =>
    cases plans' with
    | nil => rfl
    | cons p' rest' => cases h
  | cons p rest =>
    cases plans' with
    | nil => cases h
    | cons p' rest' => exact flatMap_rows_injective h

theorem isNamed_sheetRows {plans : List Plan} (h : ∀ p ∈ plans, p.IsNamed) : ∀ r ∈ sheetRows plans, r.2.IsNamed := by
  cases plans with
  | nil => exact List.forall_mem_singleton.2 trivial
  | cons q rest =>
    intro r hr
    obtain ⟨p, hp, hrp⟩ := List.mem_flatMap.1 hr
    obtain ⟨hname, hbody⟩ := h p hp
    rcases List.mem_cons.1 hrp with rfl | hrp
    · exact trivial
    rcases List.mem_cons.1 hrp with rfl | hrp
    · exact hname
    · exact Instruction.isNamed_rowsAll hbody 1 r hrp

theorem listings_timeless (colored : Bool) (plans : List Plan) :
    listings colored (plans.map timeless) = listings colored plans := by
  have hlisting (p : Plan) : p.timeless.listing colored = p.listing colored := by
    rw [listing, timeless, Instruction.listingAll_timelessAll]
    rfl
  unfold listings
  rw [List.map_map]
  exact congrArg _ (List.map_congr_left fun p _ => hlisting p)

/-- **A listing determines its plans.**  Plans whose names are identifiers have the same listing exactly if they are the same
up to an exchange of tests for zero and tests for no time, instruction for instruction. -/
theorem listings_eq_iff {plans plans' : List Plan} (hplans : ∀ p ∈ plans, p.IsNamed) (hplans' : ∀ p ∈ plans', p.IsNamed) :
    listings false plans = listings false plans' ↔ plans.map timeless = plans'.map timeless := by
  constructor
  · intro h
    have htext : rowsText (sheetRows plans) = rowsText (sheetRows plans') := by
      rw [← toList_listings, ← toList_listings, h]
    have hrows := setIn_injective (by decide) (fun _ => ListingRow.feed_not_mem_text) (fun _ => ListingRow.head?_text)
      (fun _ _ => ListingRow.text_injective) (isNamed_sheetRows hplans) (isNamed_sheetRows hplans') htext
    exact sheetRows_injective hrows
  · intro h
    rw [← listings_timeless, h, listings_timeless]

def logPlan (test : EmptinessTest) : Plan :=
  ⟨"Log", [.list (.field .root "days") 0 [.string (.elem 0)],
    .when (.field .root "age") test [.int (.seconds (.field .root "age"))]]⟩

def nestedLogPlan (test : EmptinessTest) : Plan :=
  ⟨"Log", [.list (.field .root "days") 0 [.string (.elem 0),
    .when (.field .root "age") test [.int (.seconds (.field .root "age"))]]]⟩

/-- Whether time is tested is not seen in a listing, but whether the test is inside the loop is. -/
theorem logs_listed : (∀ p ∈ [logPlan .zero, logPlan .zeroDuration, nestedLogPlan .zero], p.IsNamed) ∧
    listings false [logPlan .zero] = listings false [logPlan .zeroDuration] ∧
    listings false [logPlan .zero] ≠ listings false [nestedLogPlan .zero] := by
  have hlog (test : EmptinessTest) : ∀ p ∈ [logPlan test], p.IsNamed := by
    cases test <;> decide +kernel
  have hnested : ∀ p ∈ [nestedLogPlan .zero], p.IsNamed := by decide +kernel
  refine ⟨by decide +kernel, (listings_eq_iff (hlog .zero) (hlog .zeroDuration)).2 rfl, fun h => ?_⟩
  cases (listings_eq_iff (hlog .zero) hnested).1 h

end Plan
end BencodePlan
