import BencodePlan.Proofs.Plan.Spelling
import BencodePlan.Source.File
import Mathlib
/-!
# Expressions read back

The text of an expression says which selector it stands for, in each of the positions a selector is needed in
(`receiver_injective`, `reference_injective`, `value_injective`), and the text of a condition says which selector is tested
for what (`condition_injective`).  This takes that names are identifiers, and that the helpers are called by a path of
identifiers (`IsPath`).
-/
namespace BencodePlan
namespace Source

open Text Selector

/-! ## Paths -/

/-- **Identifiers joined by pairs of colons.** -/
def IsPath (runtime : String) : Prop :=
  ∃ parts : List String, (∀ part ∈ parts, isIdentifier part = true) ∧ runtime = String.intercalate "::" parts

theorem mem_intercalate {sep : List Char} {c : Char} : ∀ {parts : List (List Char)}, c ∈ sep.intercalate parts →
    c ∈ sep ∨ ∃ part ∈ parts, c ∈ part
  | [], hc => by simp at hc
  | [part], hc => by
    rw [List.intercalate_singleton] at hc
    exact Or.inr ⟨part, List.mem_singleton_self part, hc⟩
  | part :: next :: rest, hc => by
    rw [List.intercalate_cons_cons, List.mem_append, List.mem_append] at hc
    rcases hc with (hc | hc) | hc
    · exact Or.inr ⟨part, List.mem_cons_self, hc⟩
    · exact Or.inl hc
    · rcases mem_intercalate hc with hsep | ⟨p, hp, hcp⟩
      · exact Or.inl hsep
      · exact Or.inr ⟨p, List.mem_cons_of_mem _ hp, hcp⟩

theorem IsPath.isNamePart_or {runtime : String} (h : IsPath runtime) {c : Char} (hc : c ∈ runtime.toList) :
    isNamePart c = true ∨ c = ':' := by
  obtain ⟨parts, hparts, rfl⟩ := h
  rw [String.toList_intercalate] at hc
  rcases mem_intercalate hc with hsep | ⟨part, hpart, hcp⟩
  · exact Or.inr (by simpa using hsep)
  · obtain ⟨p, hp, rfl⟩ := List.mem_map.1 hpart
    exact Or.inl (isNamePart_of_isIdentifier (hparts p hp) hcp)

/-! ## The texts of a selector -/

section

variable (runtime : String)

def receiverText (s : Selector) : List Char := ((Expr.receiver s).text runtime).toList

def referenceText (s : Selector) : List Char := ((Expr.reference s).text runtime).toList

def valueText (s : Selector) : List Char := ((Expr.value s).text runtime).toList

def derefOpening : List Char := "(*".toList ++ (runtime.toList ++ "::deref(".toList)

theorem receiverText_root : receiverText runtime .root = ['s', 'e', 'l', 'f'] := by
  have htext : (Expr.receiver .root).text runtime = "self" := rfl
  rw [receiverText, htext]
  rfl

theorem receiverText_elem (depth : Nat) : receiverText runtime (.elem depth) = 'i' :: decimal depth := by
  have htext : receiverText runtime (.elem depth) = ("i" ++ decimalText depth).toList := rfl
  rw [htext]
  simp only [String.toList_append, decimalText, String.toList_ofList]
  rfl

theorem receiverText_key (depth : Nat) : receiverText runtime (.key depth) = 'k' :: decimal depth := by
  have htext : receiverText runtime (.key depth) = ("k" ++ decimalText depth).toList := rfl
  rw [htext]
  simp only [String.toList_append, decimalText, String.toList_ofList]
  rfl

theorem receiverText_field (base : Selector) (name : String) :
    receiverText runtime (.field base name) = receiverText runtime base ++ '.' :: name.toList := by
  have htext : receiverText runtime (.field base name) =
      ((Expr.receiver base).text runtime ++ "." ++ name).toList := rfl
  rw [htext, String.toList_append, String.toList_append, List.append_assoc]
  rfl

theorem receiverText_seconds (base : Selector) :
    receiverText runtime (.seconds base) = receiverText runtime base ++ ".as_secs()".toList := by
  have htext : receiverText runtime (.seconds base) = ((Expr.receiver base).text runtime ++ ".as_secs()").toList := rfl
  rw [htext, String.toList_append]
  rfl

theorem receiverText_value (base : Selector) (depth : Nat) : receiverText runtime (.value base depth) =
    receiverText runtime base ++ '[' :: ('k' :: decimal depth ++ [']']) := by
  have htext : receiverText runtime (.value base depth) =
      ((Expr.receiver base).text runtime ++ "[" ++ ("k" ++ decimalText depth) ++ "]").toList := rfl
  rw [htext]
  simp only [String.toList_append, decimalText, String.toList_ofList, List.append_assoc]
  rfl

theorem receiverText_deref (base : Selector) :
    receiverText runtime (.deref base) = derefOpening runtime ++ (referenceText runtime base ++ ")?)".toList) := by
  have htext : receiverText runtime (.deref base) =
      ("(" ++ ("*" ++ (runtime ++ "::deref(" ++ (Expr.reference base).text runtime ++ ")?")) ++ ")").toList := rfl
  rw [htext]
  simp only [derefOpening, referenceText, String.toList_append, List.append_assoc]
  rfl

theorem exists_receiverText (s : Selector) : ∃ c rest, receiverText runtime s = c :: rest ∧ c ∈ ['s', 'i', 'k', '('] := by
  induction s with
  | root => exact ⟨'s', _, receiverText_root runtime, by decide⟩
  | elem depth => exact ⟨'i', _, receiverText_elem runtime depth, by decide⟩
  | key depth => exact ⟨'k', _, receiverText_key runtime depth, by decide⟩
  | deref base => exact ⟨'(', _, receiverText_deref runtime base, by decide⟩
  | field base name ih =>
    obtain ⟨c, rest, htext, hc⟩ := ih
    exact ⟨c, rest ++ '.' :: name.toList, by rw [receiverText_field, htext]; rfl, hc⟩
  | seconds base ih =>
    obtain ⟨c, rest, htext, hc⟩ := ih
    exact ⟨c, rest ++ ".as_secs()".toList, by rw [receiverText_seconds, htext]; rfl, hc⟩
  | value base depth ih =>
    obtain ⟨c, rest, htext, hc⟩ := ih
    exact ⟨c, _, by rw [receiverText_value, htext]; rfl, hc⟩

theorem referenceText_eq (s : Selector) : referenceText runtime s = receiverText runtime s ∨
    referenceText runtime s = '&' :: receiverText runtime s := by
  cases s with
  | root | elem | key => exact Or.inl rfl
  | field | deref | seconds | value => exact Or.inr (String.toList_append.trans rfl)

def borrowed : List Char → List Char
  | '&' :: rest => rest
  | cs => cs

theorem borrowed_referenceText (s : Selector) : borrowed (referenceText runtime s) = receiverText runtime s := by
  rcases referenceText_eq runtime s with heq | heq
  · obtain ⟨c, rest, htext, hc⟩ := exists_receiverText runtime s
    rw [heq, htext]
    unfold borrowed
    split
    · rename_i hborrow
      rw [(List.cons.inj hborrow).1] at hc
      exact absurd hc (by decide)
    · rfl
  · rw [heq]
    rfl

theorem spelling : Spelling (receiverText runtime) (referenceText runtime) ['s', 'e', 'l', 'f'] (derefOpening runtime)
    ")?)".toList ".as_secs()".toList where
  root := receiverText_root runtime
  elem := receiverText_elem runtime
  key := receiverText_key runtime
  field := receiverText_field runtime
  deref := receiverText_deref runtime
  seconds := receiverText_seconds runtime
  value := receiverText_value runtime
  start := ⟨'s', ['e', 'l', 'f'], rfl, List.all_eq_true.1 rfl, by decide, by decide⟩
  closed base _ := by
    refine ⟨derefOpening runtime ++ (referenceText runtime base ++ [')']), '?', ?_, by decide⟩
    rw [receiverText_deref, List.append_assoc, List.append_assoc]
    rfl
  called := ⟨".as_secs".toList, rfl⟩
  base s s' h := by rw [← borrowed_referenceText, h, borrowed_referenceText]

theorem valueText_eq (s : Selector) :
    (valueText runtime s = '*' :: receiverText runtime s ∧ ∀ c ∈ receiverText runtime s, isNamePart c = true) ∨
    (∃ front, valueText runtime s = '*' :: (front ++ ['?']) ∧ receiverText runtime s = '(' :: (valueText runtime s ++ [')'])) ∨
    (valueText runtime s = receiverText runtime s ∧ (s.form = .field ∨ s.form = .seconds ∨ s.form = .value)) := by
  cases s with
  | root =>
    refine Or.inl ⟨String.toList_append.trans rfl, ?_⟩
    rw [receiverText_root]
    exact List.all_eq_true.1 rfl
  | elem depth =>
    refine Or.inl ⟨String.toList_append.trans rfl, ?_⟩
    rw [receiverText_elem]
    exact List.forall_mem_cons.2 ⟨rfl, fun _ => isNamePart_of_mem_decimal⟩
  | key depth =>
    refine Or.inl ⟨String.toList_append.trans rfl, ?_⟩
    rw [receiverText_key]
    exact List.forall_mem_cons.2 ⟨rfl, fun _ => isNamePart_of_mem_decimal⟩
  | deref base =>
    have hvalue : valueText runtime (.deref base) =
        '*' :: (runtime.toList ++ ("::deref(".toList ++ (referenceText runtime base ++ ")?".toList))) := by
      have htext : valueText runtime (.deref base) =
          ("*" ++ (runtime ++ "::deref(" ++ (Expr.reference base).text runtime ++ ")?")).toList := rfl
      rw [htext]
      simp only [referenceText, String.toList_append, List.append_assoc]
      rfl
    refine Or.inr (Or.inl ⟨runtime.toList ++ ("::deref(".toList ++ (referenceText runtime base ++ [')'])), ?_, ?_⟩)
    · rw [hvalue, List.append_assoc, List.append_assoc, List.append_assoc]
      rfl
    · rw [hvalue, receiverText_deref, derefOpening]
      simp only [List.append_assoc, List.cons_append]
      rfl
  | field base name => exact Or.inr (Or.inr ⟨rfl, Or.inl rfl⟩)
  | seconds base => exact Or.inr (Or.inr ⟨rfl, Or.inr (Or.inl rfl)⟩)
  | value base depth => exact Or.inr (Or.inr ⟨rfl, Or.inr (Or.inr rfl)⟩)

def placeOf : List Char → List Char
  | '*' :: rest => if rest.getLast? = some '?' then '(' :: ('*' :: rest ++ [')']) else rest
  | cs => cs

theorem placeOf_valueText (s : Selector) : placeOf (valueText runtime s) = receiverText runtime s := by
  rcases valueText_eq runtime s with ⟨hvalue, hparts⟩ | ⟨front, hvalue, hplace⟩ | ⟨hvalue, -⟩
  · have hlast : (receiverText runtime s).getLast? ≠ some '?' := by
      intro hlast
      exact nomatch hparts '?' (List.mem_of_getLast? hlast)
    rw [hvalue, placeOf, if_neg hlast]
  · rw [hplace, hvalue, placeOf, if_pos (by simp)]
  · obtain ⟨c, rest, htext, hc⟩ := exists_receiverText runtime s
    rw [hvalue, htext]
    unfold placeOf
    split
    · rename_i hstar
      rw [(List.cons.inj hstar).1] at hc
      exact absurd hc (by decide)
    · rfl

end

/-! ## Reading back -/

section

variable {runtime : String} {s s' : Selector}

theorem receiver_injective (hs : s.IsNamed) (hs' : s'.IsNamed) (h : receiverText runtime s = receiverText runtime s') :
    s = s' :=
  (spelling runtime).text_injective hs hs' h

theorem reference_injective (hs : s.IsNamed) (hs' : s'.IsNamed) (h : referenceText runtime s = referenceText runtime s') :
    s = s' :=
  receiver_injective hs hs' ((spelling runtime).base s s' h)

theorem value_injective (hs : s.IsNamed) (hs' : s'.IsNamed) (h : valueText runtime s = valueText runtime s') : s = s' := by
  have hplaces : receiverText runtime s = receiverText runtime s' := by
    rw [← placeOf_valueText, h, placeOf_valueText]
  exact receiver_injective hs hs' hplaces

def isCode (c : Char) : Bool := isNamePart c || [':', '.', '(', ')', '[', ']', '*', '?', '&'].contains c

theorem isCode_of_isNamePart {c : Char} (h : isNamePart c = true) : isCode c = true := by
  unfold isCode
  rw [h, Bool.true_or]

theorem IsPath.isCode (h : IsPath runtime) : ∀ c ∈ runtime.toList, isCode c = true := by
  intro c hc
  rcases h.isNamePart_or hc with hpart | rfl
  · exact isCode_of_isNamePart hpart
  · rfl

theorem isCode_receiverText (hruntime : IsPath runtime) (hs : s.IsNamed) : ∀ c ∈ receiverText runtime s, isCode c = true := by
  have hsign : ∀ c ∈ '.' :: '[' :: ']' :: (derefOpening runtime ++ (")?)".toList ++ ".as_secs()".toList)), isCode c = true := by
    unfold derefOpening
    simp only [List.forall_mem_cons, List.forall_mem_append]
    exact ⟨rfl, rfl, rfl, ⟨List.all_eq_true.1 rfl, hruntime.isCode, List.all_eq_true.1 rfl⟩, List.all_eq_true.1 rfl,
      List.all_eq_true.1 rfl⟩
  refine (spelling runtime).forall_mem_text (fun _ => isCode_of_isNamePart) hsign (fun base hbase => ?_) hs
  rcases referenceText_eq runtime base with heq | heq
  · rw [heq]
    exact hbase
  · rw [heq]
    exact List.forall_mem_cons.2 ⟨rfl, hbase⟩

theorem isCode_referenceText (hruntime : IsPath runtime) (hs : s.IsNamed) : ∀ c ∈ referenceText runtime s, isCode c = true := by
  rcases referenceText_eq runtime s with heq | heq
  · rw [heq]
    exact isCode_receiverText hruntime hs
  · rw [heq]
    exact List.forall_mem_cons.2 ⟨rfl, isCode_receiverText hruntime hs⟩

theorem isCode_valueText (hruntime : IsPath runtime) (hs : s.IsNamed) : ∀ c ∈ valueText runtime s, isCode c = true := by
  have hreceiver := isCode_receiverText hruntime hs
  rcases valueText_eq runtime s with ⟨hvalue, -⟩ | ⟨-, -, hplace⟩ | ⟨hvalue, -⟩
  · rw [hvalue]
    exact List.forall_mem_cons.2 ⟨rfl, hreceiver⟩
  · intro c hc
    refine hreceiver c ?_
    rw [hplace]
    exact List.mem_cons_of_mem _ (List.mem_append_left _ hc)
  · rw [hvalue]
    exact hreceiver

/-! ## Conditions -/

def conditionText (runtime : String) (s : Selector) (test : EmptinessTest) : List Char :=
  ((condition s test).text runtime).toList

theorem conditionText_eq (runtime : String) (s : Selector) (test : EmptinessTest) : conditionText runtime s test =
    match test with
    | .len => '!' :: (receiverText runtime s ++ ".is_empty()".toList)
    | .nil => receiverText runtime s ++ ".is_some()".toList
    | .false => valueText runtime s
    | .zero => valueText runtime s ++ " != 0".toList
    | .zeroDuration => '!' :: (receiverText runtime s ++ ".is_zero()".toList) := by
  have hcall (call : String) : ("!" ++ (Expr.receiver s).text runtime ++ call).toList =
      '!' :: (receiverText runtime s ++ call.toList) := by
    rw [String.toList_append, String.toList_append]
    rfl
  cases test with
  | len => exact hcall ".is_empty()"
  | nil => exact String.toList_append
  | false => rfl
  | zero => exact String.toList_append
  | zeroDuration => exact hcall ".is_zero()"

def testOf : List Char → EmptinessTest
  | '!' :: rest => if ".is_zero()".toList.isSuffixOf rest then .zeroDuration else .len
  | cs =>
    if ' ' ∈ cs then .zero
    else if ".is_some()".toList.isSuffixOf cs then .nil
    else .false

theorem not_isSuffixOf_valueText (runtime : String) (hs : s.IsNamed) :
    ".is_some()".toList.isSuffixOf (valueText runtime s) = false := by
  rw [← Bool.not_eq_true, List.isSuffixOf_iff_suffix]
  rintro ⟨front, hfront⟩
  rcases valueText_eq runtime s with ⟨hvalue, hparts⟩ | ⟨before, hvalue, -⟩ | ⟨hvalue, hform⟩
  · have hdot : '.' ∈ valueText runtime s := by
      rw [← hfront]
      exact List.mem_append_right _ List.mem_cons_self
    rw [hvalue] at hdot
    rcases List.mem_cons.1 hdot with hstar | hdot
    · cases hstar
    · exact nomatch hparts '.' hdot
  · rw [hvalue] at hfront
    have hlast := congrArg List.getLast? hfront
    rw [← List.cons_append, List.getLast?_concat, List.getLast?_append_of_ne_nil _ (by decide)] at hlast
    exact absurd hlast (by decide)
  · have hcalled : formOf (front ++ ".is_some()".toList) = .seconds := by
      have hreverse : (front ++ ".is_some()".toList).reverse = ')' :: '(' :: (front ++ ".is_some".toList).reverse := by simp
      unfold formOf
      rw [hreverse]
      rfl
    rw [hfront, hvalue, (spelling runtime).formOf_text hs] at hcalled
    cases s with
    | seconds base =>
      have hlength : ".is_some()".toList.length = ".as_secs()".toList.length := by decide
      rw [hvalue, receiverText_seconds] at hfront
      exact absurd (List.append_inj' hfront hlength).2 (by decide)
    | _ => cases hcalled

theorem exists_valueText (runtime : String) (s : Selector) : ∃ c rest, valueText runtime s = c :: rest ∧ c ≠ '!' := by
  obtain ⟨c, rest, htext, hc⟩ := exists_receiverText runtime s
  rcases valueText_eq runtime s with ⟨hvalue, -⟩ | ⟨front, hvalue, -⟩ | ⟨hvalue, -⟩
  · exact ⟨'*', _, hvalue, by decide⟩
  · exact ⟨'*', _, hvalue, by decide⟩
  · refine ⟨c, rest, hvalue.trans htext, ?_⟩
    rintro rfl
    exact absurd hc (by decide)

theorem testOf_eq {c : Char} (hc : c ≠ '!') (rest : List Char) : testOf (c :: rest) =
    if ' ' ∈ c :: rest then .zero else if ".is_some()".toList.isSuffixOf (c :: rest) then .nil else .false := by
  unfold testOf
  split
  · rename_i heq
    exact absurd (List.cons.inj heq).1 hc
  · rfl

theorem testOf_conditionText (hruntime : IsPath runtime) (hs : s.IsNamed) (test : EmptinessTest) :
    testOf (conditionText runtime s test) = test := by
  have hspace {cs : List Char} (hcs : ∀ c ∈ cs, isCode c = true) : ' ' ∉ cs := fun hmem => nomatch hcs ' ' hmem
  rw [conditionText_eq]
  cases test with
  | len =>
    have hnot : ".is_zero()".toList.isSuffixOf (receiverText runtime s ++ ".is_empty()".toList) = false := by
      rw [List.isSuffixOf, List.reverse_append]
      rfl
    simp only [testOf, hnot]
    rfl
  | nil =>
    obtain ⟨c, rest, htext, hc⟩ := exists_receiverText runtime s
    have hne : c ≠ '!' := by
      rintro rfl
      exact absurd hc (by decide)
    have hcode : ∀ d ∈ receiverText runtime s ++ ".is_some()".toList, isCode d = true :=
      List.forall_mem_append.2 ⟨isCode_receiverText hruntime hs, List.all_eq_true.1 rfl⟩
    have hsuffix : ".is_some()".toList.isSuffixOf (receiverText runtime s ++ ".is_some()".toList) = true :=
      List.isSuffixOf_iff_suffix.2 (List.suffix_append _ _)
    simp only [htext, List.cons_append] at hcode hsuffix ⊢
    rw [testOf_eq hne, if_neg (hspace hcode), if_pos hsuffix]
  | false =>
    obtain ⟨c, rest, htext, hne⟩ := exists_valueText runtime s
    have hcode := isCode_valueText hruntime hs
    have hsuffix := not_isSuffixOf_valueText runtime hs
    simp only [htext] at hcode hsuffix ⊢
    rw [testOf_eq hne, if_neg (hspace hcode), hsuffix]
    rfl
  | zero =>
    obtain ⟨c, rest, htext, hne⟩ := exists_valueText runtime s
    simp only [htext, List.cons_append]
    rw [testOf_eq hne, if_pos (by simp)]
  | zeroDuration =>
    have hsuffix : ".is_zero()".toList.isSuffixOf (receiverText runtime s ++ ".is_zero()".toList) = true :=
      List.isSuffixOf_iff_suffix.2 (List.suffix_append _ _)
    simp only [testOf, hsuffix]
    rfl

/-- **A condition is read back from its text.** -/
theorem condition_injective (hruntime : IsPath runtime) (hs : s.IsNamed) (hs' : s'.IsNamed) {test test' : EmptinessTest}
    (h : conditionText runtime s test = conditionText runtime s' test') : s = s' ∧ test = test' := by
  have htest : test = test' := by
    rw [← testOf_conditionText hruntime hs test, h, testOf_conditionText hruntime hs' test']
  subst htest
  refine ⟨?_, rfl⟩
  rw [conditionText_eq, conditionText_eq] at h
  cases test with
  | len | zeroDuration => exact receiver_injective hs hs' (List.append_cancel_right (List.cons.inj h).2)
  | nil => exact receiver_injective hs hs' (List.append_cancel_right h)
  | false => exact value_injective hs hs' h
  | zero => exact value_injective hs hs' (List.append_cancel_right h)

end

end Source
end BencodePlan
