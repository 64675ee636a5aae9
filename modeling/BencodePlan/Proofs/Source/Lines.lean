import BencodePlan.Proofs.Source.Expressions
import BencodePlan.Proofs.Text.Escape
import Mathlib
/-!
# Lines of generated code

An encoder is lines of a few sorts, each set in by its level.  The first word of a line says its sort (`kindOf`), and the
rest of it what it is about, so a line is read back from its text (`text_injective`), and a list of lines from the text that
they make together (`linesText_injective`).
-/
namespace BencodePlan
namespace Source

open Text

inductive Line
  | literal (bytes : Bytes)
  | bool (source : Selector)
  | int (source : Selector)
  | string (source : Selector)
  | native (source : Selector)
  | list (source : Selector) (depth : Nat)
  | map (source : Selector) (depth : Nat)
  | when (source : Selector) (test : EmptinessTest)
  /-- The declared type of a key. -/
  | cast (depth : Nat) (type : String)
  /-- The end of a body. -/
  | close
  /-- The end of a method. -/
  | done
  | blank
  | encoder (name : String)
  | method

namespace Line

/-- **A line as text**, without the spaces before it. -/
def text (runtime : String) : Line → String
  | literal bytes => "w.write_all(b\"" ++ escape bytes ++ "\")?;"
  | bool s => runtime ++ "::write_bool(w, " ++ (Expr.value s).text runtime ++ ")?;"
  | int s => "write_int(w, " ++ (Expr.reference s).text runtime ++ ")?;"
  | string s => "write_string(w, " ++ (Expr.reference s).text runtime ++ ")?;"
  | native s => "Bencode::write_bencode(" ++ (Expr.reference s).text runtime ++ ", w)?;"
  | list s depth => "for " ++ Selector.elemName depth ++ " in " ++ (Expr.receiver s).text runtime ++ ".iter() \x7b"
  | map s depth =>
    "for " ++ Selector.keyName depth ++ " in sorted_keys(" ++ (Expr.receiver s).text runtime ++ ".keys()) \x7b"
  | when s test => "if " ++ (condition s test).text runtime ++ " \x7b"
  | cast depth type => "let " ++ Selector.keyName depth ++ ": &" ++ type ++ " = " ++ Selector.keyName depth ++ ";"
  | close => "\x7d"
  | done => "Ok(())"
  | blank => ""
  | encoder name => "impl Bencode for " ++ name ++ " \x7b"
  | method => "fn write_bencode(&self, w: &mut dyn Write) -> io::Result<()> \x7b"

theorem toList_text (runtime : String) (l : Line) : (l.text runtime).toList =
    match l with
    | literal bytes => "w.write_all(b\"".toList ++ (escapeChars bytes ++ "\")?;".toList)
    | bool s => (runtime.toList ++ "::write_bool".toList) ++ ("(w, ".toList ++ (valueText runtime s ++ ")?;".toList))
    | int s => "write_int(w, ".toList ++ (referenceText runtime s ++ ")?;".toList)
    | string s => "write_string(w, ".toList ++ (referenceText runtime s ++ ")?;".toList)
    | native s => "Bencode::write_bencode(".toList ++ (referenceText runtime s ++ ", w)?;".toList)
    | list s depth => "for i".toList ++ (decimal depth ++ (" in ".toList ++ (receiverText runtime s ++ ".iter() \x7b".toList)))
    | map s depth =>
      "for k".toList ++ (decimal depth ++ (" in sorted_keys(".toList ++ (receiverText runtime s ++ ".keys()) \x7b".toList)))
    | when s test => "if ".toList ++ (conditionText runtime s test ++ " \x7b".toList)
    | cast depth type =>
      "let k".toList ++ (decimal depth ++ (": &".toList ++ (type.toList ++ (" = k".toList ++ (decimal depth ++ ";".toList)))))
    | close => "\x7d".toList
    | done => "Ok(())".toList
    | blank => []
    | encoder name => "impl Bencode for ".toList ++ (name.toList ++ " \x7b".toList)
    | method => "fn write_bencode(&self, w: &mut dyn Write) -> io::Result<()> \x7b".toList := by
  unfold text
  cases l with
  | literal bytes =>
    simp only [escape, String.toList_append, String.toList_ofList, List.append_assoc]
  | bool s =>
    have hcall : "::write_bool(w, ".toList = "::write_bool".toList ++ "(w, ".toList := rfl
    simp only [String.toList_append, hcall, List.append_assoc]
    rfl
  | list s depth =>
    have hvariable : "for i".toList = "for ".toList ++ "i".toList := rfl
    simp only [Selector.elemName, decimalText, String.toList_append, String.toList_ofList, hvariable, List.append_assoc]
    rfl
  | map s depth =>
    have hvariable : "for k".toList = "for ".toList ++ "k".toList := rfl
    simp only [Selector.keyName, decimalText, String.toList_append, String.toList_ofList, hvariable, List.append_assoc]
    rfl
  | cast depth type =>
    have hvariable : "let k".toList = "let ".toList ++ "k".toList := rfl
    have hvalue : " = k".toList = " = ".toList ++ "k".toList := rfl
    simp only [Selector.keyName, decimalText, String.toList_append, String.toList_ofList, hvariable, hvalue,
      List.append_assoc]
  | int | string | native | when =>
    simp only [String.toList_append, List.append_assoc]
    rfl
  | encoder name =>
    simp only [String.toList_append, List.append_assoc]
  | close | done | blank | method => rfl

/-- **The names in a line are identifiers.** -/
def IsNamed : Line → Prop
  | bool s | int s | string s | native s | list s _ | map s _ | when s _ => s.IsNamed
  | cast _ name | encoder name => isIdentifier name = true
  | literal _ | close | done | blank | method => True

/-! ## Sorts of lines -/

inductive Kind
  | literal
  | bool
  | int
  | string
  | native
  | loop
  | when
  | cast
  | close
  | done
  | blank
  | encoder
  | method
  deriving DecidableEq

def kind : Line → Kind
  | literal _ => .literal
  | bool _ => .bool
  | int _ => .int
  | string _ => .string
  | native _ => .native
  | list .. | map .. => .loop
  | when .. => .when
  | cast .. => .cast
  | close => .close
  | done => .done
  | blank => .blank
  | encoder _ => .encoder
  | method => .method

def words : List (List Char × Kind) :=
  [("w.write_all".toList, .literal), ("write_int".toList, .int), ("write_string".toList, .string),
    ("Bencode::write_bencode".toList, .native), ("for".toList, .loop), ("if".toList, .when), ("let".toList, .cast),
    ("\x7d".toList, .close), ("Ok".toList, .done), ([], .blank), ("impl".toList, .encoder), ("fn".toList, .method)]

/-- **The sort of a line.**  A truth value is written by a path of the runtime, which is none of the words. -/
def kindOf (cs : List Char) : Kind := (words.lookup (cs.takeWhile fun c => c ≠ '(' && c ≠ ' ')).getD .bool

variable {runtime : String}

theorem lookup_words_path (path : List Char) : words.lookup (path ++ "::write_bool".toList) = none := by
  have hwords : ∀ p ∈ words, ¬ "::write_bool".toList <:+ p.1 := by decide
  refine List.lookup_eq_none_iff.2 fun p hp => bne_iff_ne.2 fun heq => hwords p hp ?_
  rw [← heq]
  exact List.suffix_append _ _

theorem kindOf_text (hruntime : IsPath runtime) (l : Line) : kindOf (l.text runtime).toList = l.kind := by
  rw [toList_text]
  cases l with
  | bool s =>
    have hpath : ∀ c ∈ runtime.toList ++ "::write_bool".toList, (decide (c ≠ '(') && decide (c ≠ ' ')) = true := by
      refine List.forall_mem_append.2 ⟨fun c hc => ?_, List.all_eq_true.1 rfl⟩
      rcases hruntime.isNamePart_or hc with hpart | rfl
      · have hparen : c ≠ '(' := by
          rintro rfl
          cases hpart
        have hspace : c ≠ ' ' := by
          rintro rfl
          cases hpart
        simp [hparen, hspace]
      · rfl
    have hstop : ("(w, ".toList ++ (valueText runtime s ++ ")?;".toList)).takeWhile (fun c => c ≠ '(' && c ≠ ' ') = [] := rfl
    simp only
    rw [kindOf, List.takeWhile_append_of_pos hpath, hstop, List.append_nil, lookup_words_path]
    rfl
  | _ => rfl

/-- **A line is read back from its text.** -/
theorem text_injective (hruntime : IsPath runtime) {l l' : Line} (hl : l.IsNamed) (hl' : l'.IsNamed)
    (h : (l.text runtime).toList = (l'.text runtime).toList) : l = l' := by
  have hkind : l.kind = l'.kind := by rw [← kindOf_text hruntime l, h, kindOf_text hruntime l']
  rw [toList_text, toList_text] at h
  cases l with
  | literal bytes =>
    cases l' with
    | literal bytes' => rw [escapeChars_injective (List.append_cancel_right (List.append_cancel_left h))]
    | _ => cases hkind
  | bool s =>
    cases l' with
    | bool s' =>
      have hvalue := List.append_cancel_left (List.append_cancel_left h)
      rw [value_injective hl hl' (List.append_cancel_right hvalue)]
    | _ => cases hkind
  | int s =>
    cases l' with
    | int s' => rw [reference_injective hl hl' (List.append_cancel_right (List.append_cancel_left h))]
    | _ => cases hkind
  | string s =>
    cases l' with
    | string s' => rw [reference_injective hl hl' (List.append_cancel_right (List.append_cancel_left h))]
    | _ => cases hkind
  | native s =>
    cases l' with
    | native s' => rw [reference_injective hl hl' (List.append_cancel_right (List.append_cancel_left h))]
    | _ => cases hkind
  | list s depth =>
    cases l' with
    | list s' depth' =>
      obtain ⟨hdepth, hrest⟩ := eq_of_decimal (c := ' ') rfl (List.append_cancel_left h)
      rw [hdepth, receiver_injective hl hl' (List.append_cancel_right (List.append_cancel_left hrest))]
    | map s' depth' =>
      have hvariable : some 'i' = some 'k' := congrArg (fun cs => cs[4]?) h
      exact absurd hvariable (by decide)
    | _ => cases hkind
  | map s depth =>
    cases l' with
    | map s' depth' =>
      obtain ⟨hdepth, hrest⟩ := eq_of_decimal (c := ' ') rfl (List.append_cancel_left h)
      rw [hdepth, receiver_injective hl hl' (List.append_cancel_right (List.append_cancel_left hrest))]
    | list s' depth' =>
      have hvariable : some 'k' = some 'i' := congrArg (fun cs => cs[4]?) h
      exact absurd hvariable (by decide)
    | _ => cases hkind
  | when s test =>
    cases l' with
    | when s' test' =>
      obtain ⟨rfl, rfl⟩ := condition_injective hruntime hl hl' (List.append_cancel_right (List.append_cancel_left h))
      rfl
    | _ => cases hkind
  | cast depth type =>
    cases l' with
    | cast depth' type' =>
      obtain ⟨rfl, hrest⟩ := eq_of_decimal (c := ':') rfl (List.append_cancel_left h)
      rw [String.toList_inj.1 (List.append_cancel_right (List.append_cancel_left hrest))]
    | _ => cases hkind
  | encoder name =>
    cases l' with
    | encoder name' => rw [String.toList_inj.1 (List.append_cancel_right (List.append_cancel_left h))]
    | _ => cases hkind
  | close =>
    cases l' with
    | close => rfl
    | _ => cases hkind
  | done =>
    cases l' with
    | done => rfl
    | _ => cases hkind
  | blank =>
    cases l' with
    | blank => rfl
    | _ => cases hkind
  | method =>
    cases l' with
    | method => rfl
    | _ => cases hkind

/-! ## Lists of lines -/

theorem feed_not_mem_of_isCode {cs : List Char} (h : ∀ c ∈ cs, isCode c = true) : '\n' ∉ cs := fun hmem => nomatch h _ hmem

theorem feed_not_mem_conditionText (hruntime : IsPath runtime) {s : Selector} (hs : s.IsNamed) (test : EmptinessTest) :
    '\n' ∉ conditionText runtime s test := by
  have hreceiver := feed_not_mem_of_isCode (isCode_receiverText hruntime hs)
  have hvalue := feed_not_mem_of_isCode (isCode_valueText hruntime hs)
  rw [conditionText_eq]
  cases test with
  | len | zeroDuration =>
    simp only [List.mem_cons, List.mem_append, not_or]
    exact ⟨by decide, hreceiver, by decide +kernel⟩
  | nil =>
    simp only [List.mem_append, not_or]
    exact ⟨hreceiver, by decide +kernel⟩
  | false => exact hvalue
  | zero =>
    simp only [List.mem_append, not_or]
    exact ⟨hvalue, by decide +kernel⟩

/-- **A line is one line.** -/
theorem feed_not_mem_text (hruntime : IsPath runtime) {l : Line} (hl : l.IsNamed) : '\n' ∉ (l.text runtime).toList := by
  have hnumber (n : Nat) : '\n' ∉ decimal n := fun hmem => nomatch isNamePart_of_mem_decimal hmem
  have hname {name : String} (h : isIdentifier name = true) : '\n' ∉ name.toList :=
    fun hmem => nomatch isNamePart_of_isIdentifier h hmem
  rw [toList_text]
  cases l with
  | literal bytes =>
    have hbytes : '\n' ∉ escapeChars bytes := fun hmem => absurd (isPrintable_escapeChars hmem).1 (by decide)
    simp only [List.mem_append, not_or]
    exact ⟨by decide +kernel, hbytes, by decide +kernel⟩
  | bool s =>
    simp only [List.mem_append, not_or]
    exact ⟨⟨feed_not_mem_of_isCode hruntime.isCode, by decide +kernel⟩, by decide +kernel,
      feed_not_mem_of_isCode (isCode_valueText hruntime hl), by decide +kernel⟩
  | int s | string s | native s =>
    simp only [List.mem_append, not_or]
    exact ⟨by decide +kernel, feed_not_mem_of_isCode (isCode_referenceText hruntime hl), by decide +kernel⟩
  | list s depth | map s depth =>
    simp only [List.mem_append, not_or]
    exact ⟨by decide +kernel, hnumber depth, by decide +kernel, feed_not_mem_of_isCode (isCode_receiverText hruntime hl),
      by decide +kernel⟩
  | when s test =>
    simp only [List.mem_append, not_or]
    exact ⟨by decide +kernel, feed_not_mem_conditionText hruntime hl test, by decide +kernel⟩
  | cast depth type =>
    simp only [List.mem_append, not_or]
    exact ⟨by decide +kernel, hnumber depth, by decide +kernel, hname hl, by decide +kernel, hnumber depth,
      by decide +kernel⟩
  | encoder name =>
    simp only [List.mem_append, not_or]
    exact ⟨by decide +kernel, hname hl, by decide +kernel⟩
  | close | done | blank | method =>
    simp only
    decide +kernel

theorem head?_text (hruntime : IsPath runtime) (l : Line) : (l.text runtime).toList.head? ≠ some ' ' := by
  rw [toList_text]
  cases l with
  | bool s =>
    intro hhead
    have hspace : ' ' ∈ runtime.toList ++ "::write_bool".toList := by
      obtain ⟨c, rest, hpath⟩ : ∃ c rest, runtime.toList ++ "::write_bool".toList = c :: rest :=
        List.exists_cons_of_ne_nil (by simp)
      simp only [hpath, List.cons_append, List.head?_cons, Option.some.injEq] at hhead
      rw [hpath, hhead]
      exact List.mem_cons_self
    rcases List.mem_append.1 hspace with hspace | hspace
    · exact nomatch hruntime.isCode _ hspace
    · exact absurd hspace (by decide +kernel)
  | _ => exact fun h => absurd (congrArg (· == some ' ') h) Bool.false_ne_true

end Line

/-- **Lines at their levels as one text.** -/
def linesText (runtime : String) (ls : List (Nat × Line)) : List Char :=
  ls.flatMap fun p => List.replicate (4 * p.1) ' ' ++ ((p.2.text runtime).toList ++ ['\n'])

theorem linesText_eq (runtime : String) : linesText runtime = setIn 4 fun l => (l.text runtime).toList := rfl

theorem linesText_cons (runtime : String) (level : Nat) (l : Line) (ls : List (Nat × Line)) :
    linesText runtime ((level, l) :: ls) =
      List.replicate (4 * level) ' ' ++ ((l.text runtime).toList ++ '\n' :: linesText runtime ls) := by
  rw [linesText_eq]
  exact setIn_cons level l ls

theorem linesText_append (runtime : String) (ls ls' : List (Nat × Line)) :
    linesText runtime (ls ++ ls') = linesText runtime ls ++ linesText runtime ls' := by
  rw [linesText_eq]
  exact setIn_append ls ls'

/-- **Lines are read back from the text they make together.** -/
theorem linesText_injective {runtime : String} (hruntime : IsPath runtime) {ls ls' : List (Nat × Line)}
    (hls : ∀ p ∈ ls, p.2.IsNamed) (hls' : ∀ p ∈ ls', p.2.IsNamed) (h : linesText runtime ls = linesText runtime ls') :
    ls = ls' := by
  rw [linesText_eq] at h
  exact setIn_injective (by decide) (fun _ => Line.feed_not_mem_text hruntime) (fun l _ => Line.head?_text hruntime l)
    (fun _ _ => Line.text_injective hruntime) hls hls' h

end Source
end BencodePlan
