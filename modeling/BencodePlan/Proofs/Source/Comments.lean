import BencodePlan.Source.File
import Mathlib
/-!
# What a module text does to generated code

A file of encoders names the module of its schema in a comment.  The text of the module is written as it is, so a comment
holds its first line only: each further line is a line of the file, and one that does not begin as a comment is code
(`spilled`).  That is all that the module changes in the code of a file, and nothing if the module is one line
(`codeLines_module`).
-/
namespace BencodePlan
namespace Source

/-! ## Lines of code -/

def isComment (line : List Char) : Bool := "//".toList.isPrefixOf line

def codeOf (text : List Char) : List (List Char) := (text.splitOn '\n').filter fun line => !isComment line

/-- **The lines of a file that are not comments.** -/
def codeLines (text : String) : List (List Char) := codeOf text.toList

/-- **The lines of a module text that its comment does not hold**: those after the first that do not begin as comments. -/
def spilled : Option String → List (List Char)
  | none => []
  | some name => (name.toList.splitOn '\n').tail.filter fun line => !isComment line

theorem codeOf_append (first rest : List Char) : codeOf (first ++ '\n' :: rest) = codeOf first ++ codeOf rest := by
  unfold codeOf
  rw [List.splitOn_append_cons_self, List.filter_append]

theorem exists_splitOn_append {front : List Char} (hfront : '\n' ∉ front) (text : List Char) :
    ∃ first, (front ++ text).splitOn '\n' = (front ++ first) :: (text.splitOn '\n').tail := by
  by_cases hfeed : '\n' ∈ text
  · obtain ⟨first, rest, htext, hfirst⟩ := List.eq_append_cons_of_mem hfeed
    have hline : '\n' ∉ front ++ first := by simp [hfront, hfirst]
    refine ⟨first, ?_⟩
    rw [htext, ← List.append_assoc, List.splitOn_append_cons_self_of_not_mem hline,
      List.splitOn_append_cons_self_of_not_mem hfirst, List.tail_cons]
  · have hline : '\n' ∉ front ++ text := by simp [hfront, hfeed]
    exact ⟨text, by rw [List.splitOn_eq_singleton hline, List.splitOn_eq_singleton hfeed, List.tail_cons]⟩

/-- **A comment holds the first line** of what is written into it. -/
theorem codeOf_comment (words text : List Char) (hwords : '\n' ∉ words) :
    codeOf ('/' :: '/' :: (words ++ text)) = (text.splitOn '\n').tail.filter fun line => !isComment line := by
  have hfront : '\n' ∉ '/' :: '/' :: words := by simp [hwords]
  obtain ⟨first, hlines⟩ := exists_splitOn_append hfront text
  have hcomment : isComment ('/' :: '/' :: words ++ first) = true := rfl
  unfold codeOf
  rw [← List.cons_append, ← List.cons_append, hlines, List.filter_cons_of_neg (by rw [hcomment]; decide)]

/-! ## Files -/

def afterMark (config : Config) (plans : List Plan) : List Char :=
  (imports config.runtime (Plan.combinedFeatures plans) ++
    String.join (plans.map fun p => "\n" ++ encoder config.runtime p)).toList

theorem codeOf_mark {version : String} (hversion : '\n' ∉ version.toList) :
    codeOf ("// Code generated by bencode-gen ".toList ++ (version.toList ++ " DO NOT EDIT.".toList)) = [] := by
  have hline : '\n' ∉ version.toList ++ " DO NOT EDIT.".toList := by simp [hversion]
  have hcode := codeOf_comment " Code generated by bencode-gen ".toList (version.toList ++ " DO NOT EDIT.".toList) (by simp)
  rw [List.splitOn_eq_singleton hline] at hcode
  exact hcode

/-- **What the module adds to the code of a file.** -/
theorem codeLines_file {config : Config} (hversion : '\n' ∉ config.version.toList) (module : Option String) (plans : List Plan) :
    codeLines (file config module plans) =
      if config.header then spilled module ++ codeOf ('\n' :: afterMark config plans) else codeOf (afterMark config plans) := by
  by_cases hheader : config.header = true
  · rw [if_pos hheader]
    cases module with
    | none =>
      have hfile : (file config none plans).toList = "// Code generated by bencode-gen ".toList ++
          (config.version.toList ++ " DO NOT EDIT.".toList) ++ '\n' :: '\n' :: afterMark config plans := by
        simp only [file, mark, if_pos hheader, afterMark, String.toList_append, List.append_assoc]
        rfl
      rw [codeLines, hfile, codeOf_append, codeOf_mark hversion]
      rfl
    | some name =>
      have hfile : (file config (some name) plans).toList = "// Code generated by bencode-gen ".toList ++
          (config.version.toList ++ " DO NOT EDIT.".toList) ++
            '\n' :: ('/' :: '/' :: (" Schema module: ".toList ++ name.toList) ++ '\n' :: '\n' :: afterMark config plans) := by
        simp only [file, mark, if_pos hheader, afterMark, String.toList_append, List.append_assoc]
        rfl
      rw [codeLines, hfile, codeOf_append, codeOf_mark hversion, codeOf_append, codeOf_comment _ _ (by simp)]
      rfl
  · rw [if_neg hheader]
    simp only [codeLines, file, mark, if_neg hheader, afterMark, String.empty_append]

theorem spilled_of_line {module : Option String} (h : ∀ name ∈ module, '\n' ∉ name.toList) : spilled module = [] := by
  cases module with
  | none => rfl
  | some name => rw [spilled, List.splitOn_eq_singleton (h name rfl), List.tail_cons, List.filter_nil]

/-- **The module changes the code of a file by the lines that it spills**, and by nothing else.  Two modules give the same
code exactly if there is no mark to name them in, or they spill the same lines, and a module of one line gives the code that
no module gives. -/
theorem codeLines_module {config : Config} (hversion : '\n' ∉ config.version.toList) (module module' : Option String)
    (plans : List Plan) :
    (codeLines (file config module plans) = codeLines (file config module' plans) ↔
      config.header = false ∨ spilled module = spilled module') ∧
    codeLines (file config module plans) =
      (if config.header then spilled module else []) ++ codeLines (file config none plans) ∧
    ((∀ name ∈ module, '\n' ∉ name.toList) → codeLines (file config module plans) = codeLines (file config none plans)) := by
  have hcode (module : Option String) : codeLines (file config module plans) =
      (if config.header then spilled module else []) ++ codeLines (file config none plans) := by
    rw [codeLines_file hversion, codeLines_file hversion]
    cases config.header <;> rfl
  refine ⟨?_, hcode module, fun hline => ?_⟩
  · rw [hcode module, hcode module', List.append_left_inj]
    cases config.header <;> simp
  · rw [hcode module, spilled_of_line hline, ite_self, List.nil_append]

def flagPlan : Plan := ⟨"Flag", [.ascii "d3:seti", .bool (.field .root "Set"), .ascii "ee"]⟩

/-- A line break in a module puts what follows it into the code. -/
theorem module_spilled : '\n' ∉ Config.default.version.toList ∧
    codeLines (file Config.default (some "demo\nfn extra() \x7b\x7d") [flagPlan]) =
      "fn extra() \x7b\x7d".toList :: codeLines (file Config.default none [flagPlan]) ∧
    codeLines (file Config.default (some "demo\nfn extra() \x7b\x7d") [flagPlan]) ≠
      codeLines (file Config.default none [flagPlan]) := by
  have hversion : '\n' ∉ Config.default.version.toList := by decide +kernel
  have hspilled : spilled (some "demo\nfn extra() \x7b\x7d") = ["fn extra() \x7b\x7d".toList] := by decide +kernel
  have hcode : codeLines (file Config.default (some "demo\nfn extra() \x7b\x7d") [flagPlan]) =
      "fn extra() \x7b\x7d".toList :: codeLines (file Config.default none [flagPlan]) := by
    rw [codeLines_file hversion, codeLines_file hversion, hspilled]
    rfl
  exact ⟨hversion, hcode, fun h => List.cons_ne_self _ _ (hcode.symm.trans h)⟩

/-- A path in the place of it stays in the comment, and so does a second line that is one itself. -/
theorem module_in_comment : '\n' ∉ Config.default.version.toList ∧
    codeLines (file Config.default (some "tracker::wire") [flagPlan]) = codeLines (file Config.default none [flagPlan]) ∧
    codeLines (file Config.default (some "tracker\n// wire") [flagPlan]) =
      codeLines (file Config.default (some "tracker::wire") [flagPlan]) := by
  have hversion : '\n' ∉ Config.default.version.toList := by decide +kernel
  obtain ⟨-, -, hline⟩ := codeLines_module hversion (some "tracker::wire") none [flagPlan]
  refine ⟨hversion, hline (by decide +kernel), ?_⟩
  exact (codeLines_module hversion (some "tracker\n// wire") (some "tracker::wire") [flagPlan]).1.2 (Or.inr (by decide +kernel))

end Source
end BencodePlan
