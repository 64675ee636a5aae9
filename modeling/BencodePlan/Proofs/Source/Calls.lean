import BencodePlan.Proofs.Source.Contents
import BencodePlan.Proofs.Source.Expressions
import BencodePlan.Proofs.Text.Escape
import Mathlib
/-!
# What generated code calls

The functions that a text calls are the paths before opening parentheses, where these are not methods and do not stand in a
string literal (`calls`).  An encoder calls the helpers that its statements need, in the order in which they are written, and
nothing else but what ends it (`calls_encoder`).
-/
namespace BencodePlan
namespace Source

open Text

/-! ## Reading a text for calls -/

def isPathPart (c : Char) : Bool := isNamePart c || [':', '.'].contains c

inductive Mode
  /-- In code, after so much of a path. -/
  | code (path : List Char)
  | quoted
  /-- After a backslash. -/
  | escaped

structure Reader where
  mode : Mode
  passed : List (List Char)

namespace Reader

def next (r : Reader) (c : Char) : Reader :=
  match r.mode with
  | .escaped => ⟨.quoted, r.passed⟩
  | .quoted => ⟨if c = '\\' then .escaped else if c = '"' then .code [] else .quoted, r.passed⟩
  | .code path =>
    if c = '"' then ⟨.quoted, r.passed⟩
    else if isPathPart c then ⟨.code (path ++ [c]), r.passed⟩
    else ⟨.code [], r.passed ++ if c = '(' ∧ path ≠ [] ∧ '.' ∉ path then [path] else []⟩

def read (m : Mode) (text : List Char) : Reader := text.foldl next ⟨m, []⟩

end Reader

/-- **The functions that a text calls**, in order. -/
def calls (text : List Char) : List (List Char) := (Reader.read (.code []) text).passed

/-- **A text with some calls in it**, from one mode to another. -/
def Calls (m : Mode) (text : List Char) (found : List (List Char)) (m' : Mode) : Prop := Reader.read m text = ⟨m', found⟩

theorem Calls.eq {text : List Char} {found : List (List Char)} {m : Mode} (h : Calls (.code []) text found m) :
    calls text = found := by
  rw [calls, h]

theorem foldl_next (text : List Char) : ∀ (m : Mode) (before : List (List Char)),
    text.foldl Reader.next ⟨m, before⟩ = ⟨(Reader.read m text).mode, before ++ (Reader.read m text).passed⟩ := by
  induction text with
  | nil => exact fun m before => by rw [Reader.read, List.foldl_nil, List.foldl_nil, List.append_nil]
  | cons c text ih =>
    intro m before
    have hnext (before : List (List Char)) : Reader.next ⟨m, before⟩ c =
        ⟨(Reader.next ⟨m, []⟩ c).mode, before ++ (Reader.next ⟨m, []⟩ c).passed⟩ := by
      unfold Reader.next
      cases m with
      | escaped | quoted => simp only [List.append_nil]
      | code path =>
        simp only
        split
        · rw [List.append_nil]
        · split
          · rw [List.append_nil]
          · rfl
    rw [Reader.read, List.foldl_cons, List.foldl_cons, hnext before, ih, ih, List.append_assoc]

section

variable {m m' m'' : Mode} {u v path : List Char} {a b : List (List Char)} {c : Char}

/-- **Texts one after the other.** -/
theorem Calls.append (hu : Calls m u a m') (hv : Calls m' v b m'') : Calls m (u ++ v) (a ++ b) m'' := by
  unfold Calls Reader.read at hu
  rw [Calls, Reader.read, List.foldl_append, hu, foldl_next, hv]

theorem calls_path : ∀ {u path : List Char}, (∀ c ∈ u, isPathPart c = true) → Calls (.code path) u [] (.code (path ++ u))
  | [], path, _ => by
    rw [List.append_nil]
    rfl
  | c :: u, path, h => by
    obtain ⟨hc, hu⟩ := List.forall_mem_cons.1 h
    have hquote : c ≠ '"' := by
      rintro rfl
      cases hc
    have hfirst : Calls (.code path) [c] [] (.code (path ++ [c])) := by
      unfold Calls Reader.read
      simp only [List.foldl_cons, List.foldl_nil, Reader.next, if_neg hquote, hc, if_true]
    have hothers : Calls (.code (path ++ [c])) u [] (.code (path ++ [c] ++ u)) := calls_path hu
    have hrest := hfirst.append hothers
    rwa [List.append_assoc] at hrest

theorem calls_sign (path : List Char) (hc : isPathPart c = false) (hquote : c ≠ '"') :
    Calls (.code path) [c] (if c = '(' ∧ path ≠ [] ∧ '.' ∉ path then [path] else []) (.code []) := by
  unfold Calls Reader.read
  simp only [List.foldl_cons, List.foldl_nil, Reader.next, if_neg hquote, hc, Bool.false_eq_true, if_false, List.nil_append]

theorem calls_open (hne : path ≠ []) (hdot : '.' ∉ path) : Calls (.code path) ['('] [path] (.code []) := by
  have hopen := calls_sign path (c := '(') rfl (by decide)
  rwa [if_pos ⟨rfl, hne, hdot⟩] at hopen

/-- **What ends a path that is not called.** -/
theorem calls_after (hc : isPathPart c = false) (hquote : c ≠ '"') (hopen : c ≠ '(') (h : Calls (.code []) u a m) :
    Calls (.code path) (c :: u) a m := by
  have hsign := calls_sign path hc hquote
  rw [if_neg fun hand => hopen hand.1] at hsign
  exact hsign.append h

/-- **A method**, whatever it is called on. -/
theorem calls_method (name : List Char) (hname : ∀ c ∈ name, isPathPart c = true) (h : Calls (.code []) u a m) :
    Calls (.code path) ('.' :: (name ++ '(' :: u)) a m := by
  have hpath : Calls (.code path) ('.' :: name) [] (.code (path ++ '.' :: name)) :=
    calls_path (List.forall_mem_cons.2 ⟨rfl, hname⟩)
  have hopen := calls_sign (path ++ '.' :: name) (c := '(') rfl (by decide)
  rw [if_neg fun hand => hand.2.2 (List.mem_append_right _ List.mem_cons_self)] at hopen
  have hall := (hpath.append hopen).append h
  simpa using hall

def EndsPath (text : List Char) : Prop := ∀ path, Calls (.code path) text [] (.code [])

theorem endsPath_after (hc : isPathPart c = false) (hquote : c ≠ '"') (hopen : c ≠ '(') (h : Calls (.code []) u [] (.code [])) :
    EndsPath (c :: u) :=
  fun _ => calls_after hc hquote hopen h

theorem endsPath_close : EndsPath (')' :: "?;".toList) := endsPath_after rfl (by decide) (by decide) rfl

theorem Calls.ended (hu : ∃ path, Calls (.code []) u a (.code path)) (hv : EndsPath v) :
    Calls (.code []) (u ++ v) a (.code []) := by
  obtain ⟨path, hu⟩ := hu
  have hall := hu.append (hv path)
  rwa [List.append_nil] at hall

/-- **Between a beginning and an end.** -/
theorem Calls.around {w : List Char} (hv : Calls (.code []) v a (.code [])) (hu : ∃ path, Calls (.code []) u b (.code path))
    (hw : EndsPath w) : Calls (.code []) (v ++ (u ++ w)) (a ++ b) (.code []) :=
  hv.append (.ended hu hw)

theorem calls_quoted (hquote : c ≠ '"') (hslash : c ≠ '\\') : Calls .quoted [c] [] .quoted := by
  unfold Calls Reader.read
  simp only [List.foldl_cons, List.foldl_nil, Reader.next, if_neg hquote, if_neg hslash]

theorem calls_escapeByte (b : UInt8) : Calls .quoted (escapeByte b) [] .quoted := by
  have hdigit : ∀ n, n < 16 → hexDigit n ≠ '"' ∧ hexDigit n ≠ '\\' := by decide
  have hb : b.toNat < 256 := b.toNat_lt
  rcases escapeByte_cases b with ⟨c, -, heq⟩ | ⟨c, hquote, hslash, -, -, heq⟩ | heq
  · rw [heq]
    rfl
  · rw [heq]
    exact calls_quoted hquote hslash
  · obtain ⟨hhigh, hhigh'⟩ := hdigit (b.toNat / 16) (by omega)
    obtain ⟨hlow, hlow'⟩ := hdigit (b.toNat % 16) (by omega)
    have hescaped : Calls .quoted ['\\', 'x'] [] .quoted := rfl
    rw [heq]
    exact hescaped.append ((calls_quoted hhigh hhigh').append (calls_quoted hlow hlow'))

/-- **Nothing is called in a literal**, whatever its bytes. -/
theorem calls_escapeChars (bytes : Bytes) : Calls .quoted (escapeChars bytes) [] .quoted := by
  unfold escapeChars
  induction bytes with
  | nil => rfl
  | cons b bytes ih => exact (calls_escapeByte b).append ih

end

/-! ## Helpers -/

inductive Helper
  | sortedKeys
  | writeInt
  | writeString
  | writeBool
  | deref
  /-- The encoder of another type. -/
  | encode
  deriving DecidableEq

namespace Helper

/-- **How a helper is called**: by its own name if it is brought in, else by a path. -/
def path (runtime : String) : Helper → List Char
  | sortedKeys => "sorted_keys".toList
  | writeInt => "write_int".toList
  | writeString => "write_string".toList
  | writeBool => runtime.toList ++ "::write_bool".toList
  | deref => runtime.toList ++ "::deref".toList
  | encode => "Bencode::write_bencode".toList

end Helper

namespace Expr

def helpers : Expr → List Helper
  | self | elem _ | key _ => []
  | follow e => .deref :: e.helpers
  | field e _ | seconds e | entry e _ | star e | borrow e | paren e => e.helpers

end Expr

namespace Statement

def helper? : Statement → Option Helper
  | writeBool _ => some .writeBool
  | writeInt _ => some .writeInt
  | writeString _ => some .writeString
  | writeNative _ => some .encode
  | forKey .. => some .sortedKeys
  | writeBytes _ | forElem .. | ifThen .. => none

/-- **What a statement calls**, apart from what it contains. -/
def helpers (s : Statement) : List Helper := s.helper?.toList ++ (s.expr?.map Expr.helpers).getD []

def IsNamed (s : Statement) : Prop :=
  (∀ name ∈ s.fieldNames, isIdentifier name = true) ∧ ∀ type ∈ s.cast?, isIdentifier type = true

end Statement

/-- **The helpers that an encoder calls**, in order. -/
def helpers (p : Plan) : List Helper := (statements p).flatMap Statement.helpers

/-! ## Calls in expressions -/

section

variable {runtime : String}

theorem isPathPart_of_isNamePart {c : Char} (h : isNamePart c = true) : isPathPart c = true := by
  unfold isPathPart
  rw [h, Bool.true_or]

theorem isPathPart_of_mem_identifier {name : String} (h : isIdentifier name = true) : ∀ c ∈ name.toList, isPathPart c = true :=
  fun _ hc => isPathPart_of_isNamePart (isNamePart_of_isIdentifier h hc)

theorem isPathPart_decimal (n : Nat) : ∀ c ∈ decimal n, isPathPart c = true :=
  fun _ hc => isPathPart_of_isNamePart (isNamePart_of_mem_decimal hc)

theorem IsPath.isPathPart (h : IsPath runtime) : ∀ c ∈ runtime.toList, isPathPart c = true := by
  intro c hc
  rcases h.isNamePart_or hc with hpart | rfl
  · exact isPathPart_of_isNamePart hpart
  · rfl

theorem calls_elemName (depth : Nat) : Calls (.code []) (Selector.elemName depth).toList [] (.code ('i' :: decimal depth)) := by
  rw [Selector.toList_elemName]
  exact calls_path (List.forall_mem_cons.2 ⟨rfl, isPathPart_decimal depth⟩)

theorem calls_keyName (depth : Nat) : Calls (.code []) (Selector.keyName depth).toList [] (.code ('k' :: decimal depth)) := by
  rw [Selector.toList_keyName]
  exact calls_path (List.forall_mem_cons.2 ⟨rfl, isPathPart_decimal depth⟩)

theorem calls_runtime (hruntime : IsPath runtime) (name : List Char) (hne : name ≠ []) (hname : ∀ c ∈ name, isPathPart c = true)
    (hdot : '.' ∉ name) : Calls (.code []) (runtime.toList ++ (name ++ ['('])) [runtime.toList ++ name] (.code []) := by
  have hpath : Calls (.code []) (runtime.toList ++ name) [] (.code (runtime.toList ++ name)) :=
    calls_path (List.forall_mem_append.2 ⟨hruntime.isPathPart, hname⟩)
  have hnot : '.' ∉ runtime.toList ++ name := by
    rw [List.mem_append, not_or]
    refine ⟨fun hmem => ?_, hdot⟩
    rcases hruntime.isNamePart_or hmem with hpart | hcolon
    · cases hpart
    · cases hcolon
  have hall := hpath.append (calls_open (List.append_ne_nil_of_right_ne_nil _ hne) hnot)
  rwa [List.append_assoc] at hall

/-- **What an expression calls** is to follow references. -/
theorem calls_expr (hruntime : IsPath runtime) (e : Expr) (h : ∀ name ∈ e.names, isIdentifier name = true) :
    ∃ path, Calls (.code []) (e.text runtime).toList (e.helpers.map (Helper.path runtime)) (.code path) := by
  induction e with
  | self =>
    have hself : ∀ c ∈ "self".toList, isPathPart c = true := List.all_eq_true.1 rfl
    exact ⟨_, calls_path hself⟩
  | elem depth => exact ⟨_, calls_elemName depth⟩
  | key depth => exact ⟨_, calls_keyName depth⟩
  | field base name ih =>
    obtain ⟨hbase, hname⟩ := List.forall_mem_append.1 h
    obtain ⟨path, hcalls⟩ := ih hbase
    have hfield : Calls (.code path) ('.' :: name.toList) [] (.code (path ++ '.' :: name.toList)) :=
      calls_path (List.forall_mem_cons.2 ⟨rfl, isPathPart_of_mem_identifier (hname name List.mem_cons_self)⟩)
    have hall := hcalls.append hfield
    rw [List.append_nil] at hall
    refine ⟨path ++ '.' :: name.toList, ?_⟩
    rw [Expr.text, String.toList_append, String.toList_append, List.append_assoc]
    exact hall
  | seconds base ih =>
    have hmethod : EndsPath ".as_secs()".toList := fun _ =>
      calls_method "as_secs".toList (List.all_eq_true.1 rfl) (u := [')']) rfl
    refine ⟨[], ?_⟩
    rw [Expr.text, String.toList_append]
    exact .ended (ih h) hmethod
  | entry base depth ih =>
    have hclose : EndsPath [']'] := endsPath_after rfl (by decide) (by decide) rfl
    have hindex : EndsPath ('[' :: ((Selector.keyName depth).toList ++ [']'])) :=
      endsPath_after rfl (by decide) (by decide) (.ended ⟨_, calls_keyName depth⟩ hclose)
    refine ⟨[], ?_⟩
    rw [Expr.text, String.toList_append, String.toList_append, String.toList_append, List.append_assoc, List.append_assoc]
    exact .ended (ih h) hindex
  | star e ih =>
    obtain ⟨path, hcalls⟩ := ih h
    have hstar : Calls (.code []) ['*'] [] (.code []) := rfl
    refine ⟨path, ?_⟩
    rw [Expr.text, String.toList_append]
    exact hstar.append hcalls
  | follow e ih =>
    have hderef : Calls (.code []) (runtime.toList ++ "::deref(".toList) [Helper.deref.path runtime] (.code []) :=
      calls_runtime hruntime "::deref".toList (by decide) (List.all_eq_true.1 rfl) (by decide)
    have hclose : EndsPath [')', '?'] := endsPath_after rfl (by decide) (by decide) rfl
    refine ⟨[], ?_⟩
    rw [Expr.text, String.toList_append, String.toList_append, String.toList_append, List.append_assoc]
    exact hderef.around (ih h) hclose
  | borrow e ih =>
    obtain ⟨path, hcalls⟩ := ih h
    have hborrow : Calls (.code []) ['&'] [] (.code []) := rfl
    refine ⟨path, ?_⟩
    rw [Expr.text, String.toList_append]
    exact hborrow.append hcalls
  | paren e ih =>
    have hopen : Calls (.code []) ['('] [] (.code []) := rfl
    have hclose : EndsPath [')'] := endsPath_after rfl (by decide) (by decide) rfl
    refine ⟨[], ?_⟩
    rw [Expr.text, String.toList_append, String.toList_append, List.append_assoc]
    exact hopen.around (ih h) hclose

/-! ## Calls in statements -/

def HasCalls (text : String) (found : List (List Char)) : Prop := ∃ path, Calls (.code []) text.toList found (.code path)

theorem hasCalls_around {front text : String} (back : String) {a b : List (List Char)}
    (hfront : Calls (.code []) front.toList a (.code [])) (htext : HasCalls text b) (hback : EndsPath back.toList) : HasCalls (front ++ text ++ back) (a ++ b) := by
  refine ⟨[], ?_⟩
  rw [String.toList_append, String.toList_append, List.append_assoc]
  exact hfront.around htext hback

theorem calls_line (level : Nat) {text : String} {found : List (List Char)} (h : HasCalls text found) :
    Calls (.code []) (line level text).toList found (.code []) := by
  have hspaces : ∀ n : Nat, Calls (.code []) (List.replicate n ' ') [] (.code []) := by
    intro n
    induction n with
    | zero => rfl
    | succ n ih =>
      have hspace : Calls (.code []) [' '] [] (.code []) := rfl
      exact hspace.append ih
  have hfeed : EndsPath ['\n'] := endsPath_after rfl (by decide) (by decide) rfl
  unfold line
  rw [String.toList_append, String.toList_append, String.toList_ofList, List.append_assoc]
  exact (hspaces _).around h hfeed

theorem calls_condition (hruntime : IsPath runtime) (condition : Condition)
    (h : ∀ name ∈ condition.subject.names, isIdentifier name = true) :
    HasCalls (condition.text runtime) (condition.subject.helpers.map (Helper.path runtime)) := by
  have hexpr := calls_expr hruntime condition.subject h
  have hnot : Calls (.code []) "!".toList [] (.code []) := rfl
  have hmethod (name : List Char) (hname : ∀ c ∈ name, isPathPart c = true) : EndsPath ('.' :: (name ++ ['(', ')'])) :=
    fun _ => calls_method name hname rfl
  cases condition with
  | notEmpty e => exact hasCalls_around _ hnot hexpr (hmethod "is_empty".toList (List.all_eq_true.1 rfl))
  | isSome e =>
    refine ⟨[], ?_⟩
    rw [Condition.text, String.toList_append]
    exact .ended hexpr (hmethod "is_some".toList (List.all_eq_true.1 rfl))
  | holds e => exact hexpr
  | notZero e =>
    obtain ⟨path, hexpr⟩ := hexpr
    have hnumber : Calls (.code path) (' ' :: "!= 0".toList) [] (.code ['0']) := calls_after rfl (by decide) (by decide) rfl
    have hall := hexpr.append hnumber
    rw [List.append_nil] at hall
    refine ⟨['0'], ?_⟩
    rw [Condition.text, String.toList_append]
    exact hall
  | someTime e => exact hasCalls_around _ hnot hexpr (hmethod "is_zero".toList (List.all_eq_true.1 rfl))

theorem calls_castLine (level depth : Nat) {cast : Option String} (h : ∀ type ∈ cast, isIdentifier type = true) :
    Calls (.code []) (castLine level depth cast).toList [] (.code []) := by
  cases cast with
  | none => rfl
  | some type =>
    have htype : Calls (.code []) type.toList [] (.code type.toList) := calls_path (isPathPart_of_mem_identifier (h type rfl))
    have hlet : Calls (.code []) "let ".toList [] (.code []) := rfl
    have hcolon : EndsPath (": &".toList) := fun path => by
      have hpath : Calls (.code path) [':'] [] (.code (path ++ [':'])) := calls_path (List.all_eq_true.1 rfl)
      have hborrow : EndsPath [' ', '&'] := endsPath_after rfl (by decide) (by decide) rfl
      exact hpath.append (hborrow _)
    have hequals : EndsPath (' ' :: "= ".toList) := endsPath_after rfl (by decide) (by decide) rfl
    have hsemicolon : EndsPath [';'] := endsPath_after rfl (by decide) (by decide) rfl
    have hbinder := hlet.around ⟨_, calls_keyName depth⟩ hcolon
    have hdeclared := hbinder.around ⟨_, htype⟩ hequals
    refine calls_line _ ⟨[], ?_⟩
    have hall := hdeclared.around ⟨_, calls_keyName depth⟩ hsemicolon
    simp only [String.toList_append, List.append_assoc] at hall ⊢
    exact hall

theorem calls_block (level : Nat) {first inside : String} {a b : List (List Char)} (hfirst : HasCalls first a)
    (hinside : Calls (.code []) inside.toList b (.code [])) :
    Calls (.code []) (line level first ++ inside ++ line level "\x7d").toList (a ++ b) (.code []) := by
  have hclose : Calls (.code []) (line level "\x7d").toList [] (.code []) := calls_line _ ⟨[], rfl⟩
  have hall := ((calls_line level hfirst).append hinside).append hclose
  rwa [List.append_nil, ← String.toList_append, ← String.toList_append] at hall

/-- **What a statement that contains nothing is written as**: a call with an expression. -/
theorem calls_line_around (level : Nat) {front text : String} (back : String) {a b : List (List Char)}
    (hfront : Calls (.code []) front.toList a (.code [])) (htext : HasCalls text b) (hback : EndsPath back.toList) :
    Calls (.code []) (line level (front ++ text ++ back)).toList (a ++ b) (.code []) :=
  calls_line level (hasCalls_around back hfront htext hback)

mutual
/-- **The text of a statement calls its helpers.** -/
theorem calls_statement (hruntime : IsPath runtime) : ∀ (s : Statement) (level : Nat), (∀ s' ∈ s.visit, s'.IsNamed) →
    Calls (.code []) (s.text runtime level).toList ((s.visit.flatMap Statement.helpers).map (Helper.path runtime)) (.code [])
  | .writeBytes bytes, level, h => by
    have hopen : Calls (.code []) "w.write_all(b\"".toList [] .quoted := rfl
    have hclose : Calls .quoted "\")?;".toList [] (.code []) := rfl
    have hall := hopen.append ((calls_escapeChars bytes).append hclose)
    have htext : ("w.write_all(b\"" ++ escape bytes ++ "\")?;").toList =
        "w.write_all(b\"".toList ++ (escapeChars bytes ++ "\")?;".toList) := by
      simp only [escape, String.toList_append, String.toList_ofList, List.append_assoc]
    refine calls_line _ ⟨[], ?_⟩
    rw [htext]
    exact hall
  | .writeBool e, level, h => by
    have hexpr := calls_expr hruntime e (h _ (List.mem_singleton_self _)).1
    have hname : Calls (.code []) (runtime.toList ++ ("::write_bool".toList ++ ['('])) [Helper.writeBool.path runtime]
        (.code []) :=
      calls_runtime hruntime _ (by decide) (List.all_eq_true.1 rfl) (by decide)
    have harguments : Calls (.code []) "w, ".toList [] (.code []) := rfl
    have hfront : Calls (.code []) (runtime ++ "::write_bool(w, ").toList [Helper.writeBool.path runtime] (.code []) := by
      have hall := hname.append harguments
      rw [String.toList_append]
      rwa [List.append_assoc] at hall
    have hline := calls_line_around level ")?;" hfront hexpr endsPath_close
    rw [Statement.visit, List.flatMap_singleton]
    exact hline
  | .writeInt e, level, h => by
    have hexpr := calls_expr hruntime e (h _ (List.mem_singleton_self _)).1
    have hfront : Calls (.code []) "write_int(w, ".toList [Helper.writeInt.path runtime] (.code []) := rfl
    have hline := calls_line_around level ")?;" hfront hexpr endsPath_close
    rw [Statement.visit, List.flatMap_singleton]
    exact hline
  | .writeString e, level, h => by
    have hexpr := calls_expr hruntime e (h _ (List.mem_singleton_self _)).1
    have hfront : Calls (.code []) "write_string(w, ".toList [Helper.writeString.path runtime] (.code []) := rfl
    have hline := calls_line_around level ")?;" hfront hexpr endsPath_close
    rw [Statement.visit, List.flatMap_singleton]
    exact hline
  | .writeNative e, level, h => by
    have hexpr := calls_expr hruntime e (h _ (List.mem_singleton_self _)).1
    have hfront : Calls (.code []) "Bencode::write_bencode(".toList [Helper.encode.path runtime] (.code []) := rfl
    have hback : EndsPath (',' :: " w)?;".toList) := endsPath_after rfl (by decide) (by decide) rfl
    have hline := calls_line_around level ", w)?;" hfront hexpr hback
    rw [Statement.visit, List.flatMap_singleton]
    exact hline
  | .forElem depth list body, level, h => by
    obtain ⟨hhere, hbody⟩ := List.forall_mem_cons.1 h
    have hexpr := calls_expr hruntime list hhere.1
    have hfor : Calls (.code []) "for ".toList [] (.code []) := rfl
    have hin : EndsPath (' ' :: "in ".toList) := endsPath_after rfl (by decide) (by decide) rfl
    have hfront : Calls (.code []) ("for " ++ Selector.elemName depth ++ " in ").toList [] (.code []) := by
      rw [String.toList_append, String.toList_append, List.append_assoc]
      exact hfor.around ⟨_, calls_elemName depth⟩ hin
    have hback : EndsPath ('.' :: ("iter".toList ++ "() \x7b".toList)) := fun _ => calls_method _ (List.all_eq_true.1 rfl) rfl
    have hfirst := hasCalls_around ".iter() \x7b" hfront hexpr hback
    have hall := calls_block level hfirst (calls_statements hruntime body (level + 1) hbody)
    rw [Statement.visit, List.flatMap_cons, List.map_append]
    exact hall
  | .forKey depth map cast body, level, h => by
    obtain ⟨⟨hmap, hcast⟩, hbody⟩ := List.forall_mem_cons.1 h
    have hexpr := calls_expr hruntime map hmap
    have hfor : Calls (.code []) "for ".toList [] (.code []) := rfl
    have hin : Calls (.code ('k' :: decimal depth)) (' ' :: "in sorted_keys(".toList) [Helper.sortedKeys.path runtime]
        (.code []) :=
      calls_after rfl (by decide) (by decide) rfl
    have hfront : Calls (.code []) ("for " ++ Selector.keyName depth ++ " in sorted_keys(").toList
        [Helper.sortedKeys.path runtime] (.code []) := by
      rw [String.toList_append, String.toList_append, List.append_assoc]
      exact hfor.append ((calls_keyName depth).append hin)
    have hback : EndsPath ('.' :: ("keys".toList ++ "()) \x7b".toList)) := fun _ => calls_method _ (List.all_eq_true.1 rfl) rfl
    have hfirst := hasCalls_around ".keys()) \x7b" hfront hexpr hback
    have hinside := (calls_castLine (level + 1) depth hcast).append (calls_statements hruntime body (level + 1) hbody)
    rw [← String.toList_append] at hinside
    have hall := calls_block level hfirst hinside
    rw [← String.append_assoc] at hall
    rw [Statement.visit, List.flatMap_cons, List.map_append]
    exact hall
  | .ifThen condition body, level, h => by
    obtain ⟨hhere, hbody⟩ := List.forall_mem_cons.1 h
    have hif : Calls (.code []) "if ".toList [] (.code []) := rfl
    have hback : EndsPath (' ' :: "\x7b".toList) := endsPath_after rfl (by decide) (by decide) rfl
    have hfirst := hasCalls_around " \x7b" hif (calls_condition hruntime condition hhere.1) hback
    have hall := calls_block level hfirst (calls_statements hruntime body (level + 1) hbody)
    rw [Statement.visit, List.flatMap_cons, List.map_append]
    exact hall
termination_by structural s => s

theorem calls_statements (hruntime : IsPath runtime) : ∀ (ss : List Statement) (level : Nat),
    (∀ s ∈ Statement.visitAll ss, s.IsNamed) → Calls (.code []) (Statement.textAll runtime level ss).toList
      (((Statement.visitAll ss).flatMap Statement.helpers).map (Helper.path runtime)) (.code [])
  | [], level, h => rfl
  | s :: rest, level, h => by
    obtain ⟨hs, hrest⟩ := List.forall_mem_append.1 h
    rw [Statement.textAll, Statement.visitAll, List.flatMap_append, List.map_append, String.toList_append]
    exact (calls_statement hruntime s level hs).append (calls_statements hruntime rest level hrest)
termination_by structural ss => ss
end

/-! ## Calls in encoders -/

theorem isNamed_ofInstruction {i : Instruction} (h : i.IsNamed) : (Statement.ofInstruction i).IsNamed := by
  unfold Statement.IsNamed
  rw [Statement.fieldNames_ofInstruction]
  cases i with
  | literal => exact ⟨List.forall_mem_nil _, fun _ htype => nomatch htype⟩
  | map => exact h
  | _ => exact ⟨h, fun _ htype => nomatch htype⟩

theorem isNamed_statements {p : Plan} (h : p.IsNamed) : ∀ s ∈ statements p, s.IsNamed := by
  intro s hs
  rw [statements, Statement.visitAll_ofInstructions] at hs
  obtain ⟨i, hi, rfl⟩ := List.mem_map.1 hs
  exact isNamed_ofInstruction (h.2 i hi)

/-- **An encoder calls the helpers of its statements**, and what ends it. -/
theorem calls_encoder (hruntime : IsPath runtime) {p : Plan} (hp : p.IsNamed) : calls (encoder runtime p).toList =
    "write_bencode".toList :: ((helpers p).map (Helper.path runtime) ++ ["Ok".toList]) := by
  have himpl : Calls (.code []) "impl Bencode for ".toList [] (.code []) := rfl
  have hname : Calls (.code []) p.name.toList [] (.code p.name.toList) := calls_path (isPathPart_of_mem_identifier hp.1)
  have hopen : EndsPath (' ' :: "\x7b".toList) := endsPath_after rfl (by decide) (by decide) rfl
  have hfirst := calls_line_around 0 " \x7b" himpl ⟨_, hname⟩ hopen
  have hmethod : HasCalls "fn write_bencode(&self, w: &mut dyn Write) -> io::Result<()> \x7b" ["write_bencode".toList] :=
    ⟨[], rfl⟩
  have hbody := calls_statements hruntime (Statement.ofInstructions p.body) 2 (isNamed_statements hp)
  have hdone : HasCalls "Ok(())" ["Ok".toList] := ⟨[], rfl⟩
  have hclose (level : Nat) : Calls (.code []) (line level "\x7d").toList [] (.code []) := calls_line _ ⟨[], rfl⟩
  have hall := ((((hfirst.append (calls_line 1 hmethod)).append hbody).append (calls_line 2 hdone)).append
    (hclose 1)).append (hclose 0)
  simp only [← String.toList_append, List.append_nil] at hall
  exact hall.eq

end

end Source
end BencodePlan
