import BencodePlan.Proofs.Source.Calls
import BencodePlan.Proofs.Source.Reading
import Mathlib
/-!
# Imports of generated code

The features of plans are found on one way through their instructions, and the calls are written on another, through the
statements.  They agree: a file of encoders brings in the helpers that some encoder calls by their own names, and no others
(`imports_exact`).
-/
namespace BencodePlan

/-! ## What plans need -/

namespace Features

theorem foldl_union_eq {α : Type} (g : α → Features) : ∀ (l : List α) (f : Features), l.foldl (fun f a => f.union (g a)) f =
    ⟨f.needsSort || l.any fun a => (g a).needsSort, f.needsFormat || l.any fun a => (g a).needsFormat⟩
  | [], f => by simp only [List.foldl_nil, List.any_nil, Bool.or_false]
  | a :: l, f => by
    rw [List.foldl_cons, foldl_union_eq g l]
    simp only [union, List.any_cons, Bool.or_assoc]

end Features

namespace Source

open Text

theorem mem_statements_iff {p : Plan} {P : Statement → Prop} :
    (∃ s ∈ statements p, P s) ↔ ∃ i ∈ Instruction.visitAll p.body, P (Statement.ofInstruction i) := by
  rw [statements, Statement.visitAll_ofInstructions]
  simp only [List.mem_map, exists_exists_and_eq_and]

/-- **What plans need**, from one instruction to the next. -/
theorem combinedFeatures_eq (plans : List Plan) : Plan.combinedFeatures plans =
    ⟨plans.any fun p => (Instruction.visitAll p.body).any fun i => (Features.ofInstruction i).needsSort,
      plans.any fun p => (Instruction.visitAll p.body).any fun i => (Features.ofInstruction i).needsFormat⟩ := by
  have hfeatures (p : Plan) : p.features = ⟨(Instruction.visitAll p.body).any fun i => (Features.ofInstruction i).needsSort,
      (Instruction.visitAll p.body).any fun i => (Features.ofInstruction i).needsFormat⟩ := by
    unfold Plan.features
    rw [Features.foldl_union_eq]
    simp only [Features.none, Bool.false_or]
  unfold Plan.combinedFeatures
  rw [Features.foldl_union_eq]
  simp only [hfeatures, Features.none, Bool.false_or]

theorem eq_deref_of_mem_helpers {e : Expr} {h : Helper} (hh : h ∈ e.helpers) : h = .deref := by
  induction e with
  | self | elem | key => cases hh
  | follow e ih =>
    rcases List.mem_cons.1 hh with heq | hmem
    · exact heq
    · exact ih hmem
  | field _ _ ih | seconds _ ih | entry _ _ ih | star _ ih | borrow _ ih | paren _ ih => exact ih hh

/-- **A helper other than that for references** is called by the statement itself. -/
theorem mem_statement_helpers {s : Statement} {h : Helper} (hne : h ≠ .deref) : h ∈ s.helpers ↔ s.helper? = some h := by
  unfold Statement.helpers
  rw [List.mem_append, Option.mem_toList]
  refine or_iff_left fun hmem => hne ?_
  cases hexpr : s.expr? with
  | none =>
    rw [hexpr] at hmem
    cases hmem
  | some e =>
    rw [hexpr] at hmem
    exact eq_deref_of_mem_helpers hmem

theorem mem_helpers_iff {p : Plan} {h : Helper} (hne : h ≠ .deref) : h ∈ helpers p ↔ ∃ s ∈ statements p, s.helper? = some h := by
  simp only [helpers, List.mem_flatMap, mem_statement_helpers hne]

theorem mem_helpers_iff_exists {p : Plan} {h : Helper} {α : Type} {f : α → Statement} (hne : h ≠ .deref)
    (hform : ∀ s : Statement, s.helper? = some h ↔ ∃ a, s = f a) : h ∈ helpers p ↔ ∃ a, f a ∈ statements p := by
  rw [mem_helpers_iff hne]
  constructor
  · rintro ⟨s, hs, hhelper⟩
    obtain ⟨a, rfl⟩ := (hform s).1 hhelper
    exact ⟨a, hs⟩
  · rintro ⟨a, ha⟩
    exact ⟨f a, ha, (hform _).2 ⟨a, rfl⟩⟩

theorem sortedKeys_mem_helpers_iff {p : Plan} :
    .sortedKeys ∈ helpers p ↔ ∃ depth map cast body, Statement.forKey depth map cast body ∈ statements p := by
  have hloop (s : Statement) : s.helper? = some .sortedKeys ↔
      ∃ l : Nat × Expr × Option String × List Statement, s = .forKey l.1 l.2.1 l.2.2.1 l.2.2.2 := by
    cases s <;> simp [Statement.helper?]
  rw [mem_helpers_iff_exists (by decide) hloop]
  simp only [Prod.exists]

theorem writeInt_mem_helpers_iff {p : Plan} : .writeInt ∈ helpers p ↔ ∃ e, Statement.writeInt e ∈ statements p :=
  mem_helpers_iff_exists (by decide) fun s => by cases s <;> simp [Statement.helper?]

theorem writeString_mem_helpers_iff {p : Plan} : .writeString ∈ helpers p ↔ ∃ e, Statement.writeString e ∈ statements p :=
  mem_helpers_iff_exists (by decide) fun s => by cases s <;> simp [Statement.helper?]

/-- **Keys are sorted** where an encoder calls the helper that sorts them. -/
theorem needsSort_iff (plans : List Plan) :
    (Plan.combinedFeatures plans).needsSort = true ↔ ∃ p ∈ plans, Helper.sortedKeys ∈ helpers p := by
  have hone (i : Instruction) : (Features.ofInstruction i).needsSort = true ↔
      (Statement.ofInstruction i).helper? = some .sortedKeys := by
    cases i <;> simp [Features.ofInstruction, Features.none, Statement.ofInstruction, Statement.helper?]
  rw [combinedFeatures_eq]
  simp only [List.any_eq_true, hone, mem_helpers_iff (h := .sortedKeys) (by decide), mem_statements_iff]

/-- **Numbers and strings are written** where an encoder calls a helper that writes them. -/
theorem needsFormat_iff (plans : List Plan) : (Plan.combinedFeatures plans).needsFormat = true ↔
    ∃ p ∈ plans, Helper.writeInt ∈ helpers p ∨ Helper.writeString ∈ helpers p := by
  have hone (i : Instruction) : (Features.ofInstruction i).needsFormat = true ↔
      (Statement.ofInstruction i).helper? = some .writeInt ∨ (Statement.ofInstruction i).helper? = some .writeString := by
    cases i <;> simp [Features.ofInstruction, Features.none, Statement.ofInstruction, Statement.helper?]
  rw [combinedFeatures_eq]
  simp only [List.any_eq_true, hone, mem_helpers_iff (h := .writeInt) (by decide),
    mem_helpers_iff (h := .writeString) (by decide), ← exists_or, ← and_or_left, mem_statements_iff]

/-! ## Imports -/

def isUse (line : List Char) : Bool := "use ".toList.isPrefixOf line

/-- **The imports in a text**: its lines that begin as one. -/
def uses (text : List Char) : List (List Char) := (text.splitOn '\n').filter isUse

theorem uses_append (u v : List Char) : uses (u ++ '\n' :: v) = uses u ++ uses v := by
  unfold uses
  rw [List.splitOn_append_cons_self, List.filter_append]

theorem uses_import {l : List Char} (hl : '\n' ∉ l) (huse : isUse l = true) (v : List Char) :
    uses (l ++ '\n' :: v) = l :: uses v := by
  rw [uses_append]
  unfold uses
  rw [List.splitOn_eq_singleton hl, List.filter_cons_of_pos huse]
  rfl

theorem uses_other {l : List Char} (hl : '\n' ∉ l) (huse : isUse l = false) (v : List Char) : uses (l ++ '\n' :: v) = uses v := by
  rw [uses_append]
  unfold uses
  rw [List.splitOn_eq_singleton hl, List.filter_cons_of_neg (by rw [huse]; decide)]
  rfl

theorem mark_eq (config : Config) (module : Option String) :
    (mark config module).toList = [] ∨ ∃ front, (mark config module).toList = front ++ ['\n'] := by
  unfold mark
  cases config.header with
  | false => exact Or.inl rfl
  | true =>
    rw [if_pos rfl, String.toList_append]
    exact Or.inr ⟨_, rfl⟩

theorem uses_mark_append (config : Config) (module : Option String) (v : List Char) :
    uses ((mark config module).toList ++ v) = uses (mark config module).toList ++ uses v := by
  obtain hnone | ⟨front, hfront⟩ := mark_eq config module
  · rw [hnone]
    rfl
  · have hempty : uses [] = [] := rfl
    rw [hfront, List.append_assoc, List.singleton_append, uses_append, uses_append, hempty, List.append_nil]

section

variable {runtime : String}

theorem feed_not_mem_runtime (hruntime : IsPath runtime) : '\n' ∉ runtime.toList :=
  Line.feed_not_mem_of_isCode hruntime.isCode

theorem uses_path (hruntime : IsPath runtime) {rest : List Char} (hrest : '\n' ∉ rest) (v : List Char) :
    uses ("use ".toList ++ (runtime.toList ++ rest) ++ '\n' :: v) = ("use ".toList ++ (runtime.toList ++ rest)) :: uses v := by
  have hline : '\n' ∉ "use ".toList ++ (runtime.toList ++ rest) := by
    simp only [List.mem_append, not_or]
    exact ⟨by decide, feed_not_mem_runtime hruntime, hrest⟩
  exact uses_import hline rfl v

def coreUses (runtime : String) : List (List Char) :=
  ["use std::io::\x7bself, Write\x7d;".toList, ("use " ++ runtime ++ "::Bencode;").toList]

theorem uses_imports_none (hruntime : IsPath runtime) (v : List Char) :
    uses ((imports runtime .none).toList ++ v) = coreUses runtime ++ uses v := by
  have hstd : "use std::io::\x7bself, Write\x7d;\n\n".toList = "use std::io::\x7bself, Write\x7d;".toList ++ ['\n', '\n'] := by
    decide
  have hend : "::Bencode;\n".toList = "::Bencode;".toList ++ ['\n'] := by decide
  have htext : (imports runtime .none).toList ++ v = "use std::io::\x7bself, Write\x7d;".toList ++
      '\n' :: ([] ++ '\n' :: ("use ".toList ++ (runtime.toList ++ "::Bencode;".toList) ++ '\n' :: v)) := by
    unfold imports
    simp only [Features.none, Bool.false_eq_true, if_false, String.append_empty, String.toList_append, hstd, hend,
      List.append_assoc, -String.reduceAppend]
    rfl
  rw [htext, uses_import (by decide) (by decide), uses_other List.not_mem_nil rfl,
    uses_path hruntime (by decide)]
  simp only [coreUses, String.toList_append, List.append_assoc]
  rfl

theorem uses_sortImport (hruntime : IsPath runtime) (v : List Char) :
    uses ((sortImport runtime).toList ++ v) = ("use " ++ runtime ++ "::sorted_keys;").toList :: uses v := by
  have hend : "::sorted_keys;\n".toList = "::sorted_keys;".toList ++ ['\n'] := by decide
  have htext : (sortImport runtime).toList ++ v =
      "use ".toList ++ (runtime.toList ++ "::sorted_keys;".toList) ++ '\n' :: v := by
    simp only [sortImport, String.toList_append, hend, List.append_assoc]
    rfl
  rw [htext, uses_path hruntime (by decide)]
  simp only [String.toList_append, List.append_assoc]

theorem uses_formatImport (hruntime : IsPath runtime) (v : List Char) :
    uses ((formatImport runtime).toList ++ v) = ("use " ++ runtime ++ "::\x7bwrite_int, write_string\x7d;").toList :: uses v := by
  have hallow : "#[allow(unused_imports)]\n".toList = "#[allow(unused_imports)]".toList ++ ['\n'] := by decide
  have hend : "::\x7bwrite_int, write_string\x7d;\n".toList = "::\x7bwrite_int, write_string\x7d;".toList ++ ['\n'] := by
    decide
  have htext : (formatImport runtime).toList ++ v = "#[allow(unused_imports)]".toList ++
      '\n' :: ("use ".toList ++ (runtime.toList ++ "::\x7bwrite_int, write_string\x7d;".toList) ++ '\n' :: v) := by
    unfold formatImport
    simp only [String.toList_append, hallow, hend, List.append_assoc, -String.reduceAppend]
    rfl
  rw [htext, uses_other (by decide) (by decide), uses_path hruntime (by decide)]
  simp only [String.toList_append, List.append_assoc]

/-! ### Encoders import nothing -/

mutual
theorem le_level_of_mem_lines : ∀ (i : Instruction) {level : Nat}, ∀ q ∈ lines level i, level ≤ q.1
  | .literal _, _ | .bool _, _ | .int _, _ | .string _, _ | .native _, _ => List.forall_mem_singleton.2 (Nat.le_refl _)
  | .list _ _ body, level | .when _ _ body, level => by
    rw [lines, List.forall_mem_cons, List.forall_mem_append, List.forall_mem_singleton]
    exact ⟨Nat.le_refl _, fun q hq => Nat.le_of_succ_le (le_level_of_mem_linesAll body q hq), Nat.le_refl _⟩
  | .map s depth cast body, level => by
    have hcast : ∀ q ∈ castLines (level + 1) depth cast, level ≤ q.1 := by
      cases cast with
      | none => exact List.forall_mem_nil _
      | some type => exact List.forall_mem_singleton.2 (Nat.le_succ _)
    rw [lines, List.forall_mem_cons, List.forall_mem_append, List.forall_mem_append, List.forall_mem_singleton]
    exact ⟨Nat.le_refl _, hcast, fun q hq => Nat.le_of_succ_le (le_level_of_mem_linesAll body q hq), Nat.le_refl _⟩
termination_by structural i => i

theorem le_level_of_mem_linesAll : ∀ (is : List Instruction) {level : Nat}, ∀ q ∈ linesAll level is, level ≤ q.1
  | [], _ => List.forall_mem_nil _
  | i :: rest, _ => List.forall_mem_append.2 ⟨le_level_of_mem_lines i, le_level_of_mem_linesAll rest⟩
termination_by structural is => is
end

theorem isUse_of_level {level : Nat} (hlevel : 1 ≤ level) (text : List Char) :
    isUse (List.replicate (4 * level) ' ' ++ text) = false := by
  obtain ⟨n, hn⟩ : ∃ n, 4 * level = n + 1 := ⟨4 * level - 1, by omega⟩
  rw [hn, List.replicate_succ]
  rfl

theorem isUse_planLines (p : Plan) :
    ∀ q ∈ planLines p, isUse (List.replicate (4 * q.1) ' ' ++ (q.2.text runtime).toList) = false := by
  have hname : isUse ((Line.encoder p.name).text runtime).toList = false := by
    rw [Line.toList_text]
    rfl
  have hbrace : isUse "\x7d".toList = false := by decide
  have hclose : isUse (Line.close.text runtime).toList = false := by rwa [Line.toList_text]
  have hinside : ∀ q ∈ linesAll 2 p.body, isUse (List.replicate (4 * q.1) ' ' ++ (q.2.text runtime).toList) = false :=
    fun q hq => isUse_of_level (Nat.le_of_succ_le (le_level_of_mem_linesAll p.body q hq)) _
  unfold planLines
  simp only [List.forall_mem_cons, List.forall_mem_append]
  exact ⟨rfl, hname, isUse_of_level (Nat.le_refl 1) _, hinside, isUse_of_level (by decide) _, isUse_of_level (Nat.le_refl 1) _,
    hclose, List.forall_mem_nil _⟩

theorem uses_linesText (hruntime : IsPath runtime) : ∀ {ls : List (Nat × Line)}, (∀ q ∈ ls, q.2.IsNamed) →
    (∀ q ∈ ls, isUse (List.replicate (4 * q.1) ' ' ++ (q.2.text runtime).toList) = false) → uses (linesText runtime ls) = []
  | [], _, _ => rfl
  | (level, l) :: ls, hnamed, huse => by
    obtain ⟨hl, hrest⟩ := List.forall_mem_cons.1 hnamed
    obtain ⟨hhere, hothers⟩ := List.forall_mem_cons.1 huse
    have hline : '\n' ∉ List.replicate (4 * level) ' ' ++ (l.text runtime).toList := by
      rw [List.mem_append, not_or]
      exact ⟨fun hmem => absurd (List.eq_of_mem_replicate hmem) (by decide), Line.feed_not_mem_text hruntime hl⟩
    rw [linesText_cons, ← List.append_assoc, uses_other hline hhere, uses_linesText hruntime hrest hothers]

/-- **The imports in a file of encoders**, after those in its mark. -/
theorem uses_file {config : Config} (hruntime : IsPath config.runtime) (module : Option String) {plans : List Plan}
    (hplans : ∀ p ∈ plans, p.IsNamed) : uses (file config module plans).toList = uses (mark config module).toList ++
      (coreUses config.runtime ++
        ((if (Plan.combinedFeatures plans).needsSort then [("use " ++ config.runtime ++ "::sorted_keys;").toList] else []) ++
          if (Plan.combinedFeatures plans).needsFormat then
            [("use " ++ config.runtime ++ "::\x7bwrite_int, write_string\x7d;").toList] else [])) := by
  have hencoders : uses (linesText config.runtime (plans.flatMap planLines)) = [] := by
    refine uses_linesText hruntime (fun q hq => ?_) fun q hq => ?_
    · obtain ⟨p, hp, hqp⟩ := List.mem_flatMap.1 hq
      exact isNamed_planLines (hplans p hp) q hqp
    · obtain ⟨p, -, hqp⟩ := List.mem_flatMap.1 hq
      exact isUse_planLines p q hqp
  rw [toList_file, List.append_assoc, uses_mark_append, uses_imports_none hruntime]
  congr 2
  cases (Plan.combinedFeatures plans).needsSort <;> cases (Plan.combinedFeatures plans).needsFormat <;>
    simp [uses_sortImport hruntime, uses_formatImport hruntime, hencoders]

theorem uses_mark {config : Config} {module : Option String} (hversion : '\n' ∉ config.version.toList)
    (hmodule : ∀ name ∈ module, '\n' ∉ name.toList) : uses (mark config module).toList = [] := by
  have hfirst : '\n' ∉ "// Code generated by bencode-gen ".toList ++ (config.version.toList ++ " DO NOT EDIT.".toList) := by
    simp [hversion]
  unfold mark
  cases config.header with
  | false => rfl
  | true =>
    cases module with
    | none =>
      have htext : ("// Code generated by bencode-gen " ++ config.version ++ " DO NOT EDIT.\n" ++ "" ++ "\n").toList =
          "// Code generated by bencode-gen ".toList ++ (config.version.toList ++ " DO NOT EDIT.".toList) ++ '\n' :: ['\n'] := by
        simp only [String.toList_append, List.append_assoc]
        rfl
      rw [if_pos rfl, htext, uses_other hfirst rfl]
      rfl
    | some name =>
      have hsecond : '\n' ∉ "// Schema module: ".toList ++ name.toList := by simp [hmodule name rfl]
      have htext : ("// Code generated by bencode-gen " ++ config.version ++ " DO NOT EDIT.\n" ++
          ("// Schema module: " ++ name ++ "\n") ++ "\n").toList =
          "// Code generated by bencode-gen ".toList ++ (config.version.toList ++ " DO NOT EDIT.".toList) ++
            '\n' :: ("// Schema module: ".toList ++ name.toList ++ '\n' :: ['\n']) := by
        simp only [String.toList_append, List.append_assoc]
        rfl
      rw [if_pos rfl, htext, uses_other hfirst rfl, uses_other hsecond rfl]
      rfl

/-! ## Calls and imports -/

namespace Helper

def isImported : Helper → Bool
  | sortedKeys | writeInt | writeString => true
  | writeBool | deref | encode => false

theorem path_of_isImported (runtime : String) {h : Helper} (hh : h.isImported = true) : h.path runtime = h.path "" := by
  cases h <;> first | rfl | cases hh

/-- **What is not brought in is called by a path.** -/
theorem colon_mem_path (runtime : String) {h : Helper} : ':' ∈ h.path runtime ↔ h.isImported = false := by
  have hown : ∀ h ∈ [sortedKeys, writeInt, writeString], ':' ∉ h.path "" := by decide
  have hencode : ':' ∈ "Bencode::write_bencode".toList := by decide
  cases h with
  | sortedKeys | writeInt | writeString =>
    rw [path_of_isImported runtime rfl]
    exact iff_of_false (hown _ (by decide)) (by decide)
  | writeBool | deref => exact iff_of_true (List.mem_append_right _ (by decide)) rfl
  | encode => exact iff_of_true hencode rfl

theorem eq_of_path_eq {h k : Helper} (hh : h.isImported = true) (heq : k.path runtime = h.path runtime) : k = h := by
  have hk : k.isImported = true := by
    rw [← Bool.not_eq_false, ← colon_mem_path runtime, heq, colon_mem_path, hh]
    decide
  rw [path_of_isImported runtime hh, path_of_isImported runtime hk] at heq
  cases h <;> cases hh <;> cases k <;> cases hk <;> first | rfl | exact absurd heq (by decide)

end Helper

/-- **The functions that are called in the encoders of plans.** -/
def callees (runtime : String) (plans : List Plan) : List (List Char) := plans.flatMap fun p => calls (encoder runtime p).toList

variable {plans : List Plan}

theorem mem_callees_iff (hruntime : IsPath runtime) (hplans : ∀ p ∈ plans, p.IsNamed) {h : Helper} (hh : h.isImported = true) :
    h.path runtime ∈ callees runtime plans ↔ ∃ p ∈ plans, h ∈ helpers p := by
  have hends : h.path runtime ≠ "write_bencode".toList ∧ h.path runtime ≠ "Ok".toList := by
    rw [Helper.path_of_isImported runtime hh]
    cases h <;> cases hh <;> decide
  have hone {p : Plan} (hp : p ∈ plans) : h.path runtime ∈ calls (encoder runtime p).toList ↔ h ∈ helpers p := by
    rw [calls_encoder hruntime (hplans p hp), List.mem_cons, List.mem_append, List.mem_singleton, or_iff_right hends.1,
      or_iff_left hends.2, List.mem_map]
    constructor
    · rintro ⟨k, hk, heq⟩
      rwa [← Helper.eq_of_path_eq hh heq]
    · exact fun hmem => ⟨h, hmem, rfl⟩
  simp only [callees, List.mem_flatMap]
  exact exists_congr fun p => and_congr_right hone

theorem called_of_mem_callees (hruntime : IsPath runtime) (hplans : ∀ p ∈ plans, p.IsNamed) {name : List Char}
    (hname : name ∈ callees runtime plans) :
    name ∈ ["write_bencode".toList, "Bencode::write_bencode".toList, "Ok".toList] ∨
      name ∈ ["sorted_keys".toList, "write_int".toList, "write_string".toList] ∨
      name ∈ [runtime.toList ++ "::write_bool".toList, runtime.toList ++ "::deref".toList] := by
  obtain ⟨p, hp, hname⟩ := List.mem_flatMap.1 hname
  rw [calls_encoder hruntime (hplans p hp)] at hname
  simp only [List.mem_cons, List.mem_append, List.mem_map, List.not_mem_nil, or_false] at hname ⊢
  rcases hname with rfl | ⟨h, -, rfl⟩ | rfl
  · exact Or.inl (Or.inl rfl)
  · cases h with
    | sortedKeys => exact Or.inr (Or.inl (Or.inl rfl))
    | writeInt => exact Or.inr (Or.inl (Or.inr (Or.inl rfl)))
    | writeString => exact Or.inr (Or.inl (Or.inr (Or.inr rfl)))
    | writeBool => exact Or.inr (Or.inr (Or.inl rfl))
    | deref => exact Or.inr (Or.inr (Or.inr rfl))
    | encode => exact Or.inl (Or.inr (Or.inl rfl))
  · exact Or.inl (Or.inr (Or.inr rfl))

end

/-- **Generated files import the helpers that they call, and no others.**  The names of the helpers are decided on plans, and
they are called from statements: keys are to be sorted exactly if there is a loop over the keys of a map somewhere in an
encoder, and numbers and strings are to be written exactly if one is, however deep inside other statements; so folding
plans changes no import.  In the text of a file, `sorted_keys` is imported exactly if some encoder calls it, and `write_int`
and `write_string` together exactly if some encoder calls one of them; what else is called is there already, or is called by
the path of the module that has it. -/
theorem imports_exact (config : Config) (module : Option String) (plans : List Plan) :
    imports config.runtime (Plan.combinedFeatures plans) = imports config.runtime .none ++
      (if (Plan.combinedFeatures plans).needsSort then sortImport config.runtime else "") ++
      (if (Plan.combinedFeatures plans).needsFormat then formatImport config.runtime else "") ∧
    ((Plan.combinedFeatures plans).needsSort = true ↔
      ∃ p ∈ plans, ∃ depth map cast body, Statement.forKey depth map cast body ∈ statements p) ∧
    ((Plan.combinedFeatures plans).needsFormat = true ↔
      ∃ p ∈ plans, ∃ e, Statement.writeInt e ∈ statements p ∨ Statement.writeString e ∈ statements p) ∧
    imports config.runtime (Plan.combinedFeatures (plans.map Plan.folded)) =
      imports config.runtime (Plan.combinedFeatures plans) ∧
    (IsPath config.runtime → (∀ p ∈ plans, p.IsNamed) →
      uses (file config module plans).toList = uses (mark config module).toList ++ (coreUses config.runtime ++
        ((if "sorted_keys".toList ∈ callees config.runtime plans then
            [("use " ++ config.runtime ++ "::sorted_keys;").toList] else []) ++
          if "write_int".toList ∈ callees config.runtime plans ∨ "write_string".toList ∈ callees config.runtime plans then
            [("use " ++ config.runtime ++ "::\x7bwrite_int, write_string\x7d;").toList] else [])) ∧
      ('\n' ∉ config.version.toList → (∀ name ∈ module, '\n' ∉ name.toList) → uses (mark config module).toList = []) ∧
      ∀ name ∈ callees config.runtime plans, name ∈ ["write_bencode".toList, "Bencode::write_bencode".toList, "Ok".toList] ∨
        name ∈ ["sorted_keys".toList, "write_int".toList, "write_string".toList] ∨
        name ∈ [config.runtime.toList ++ "::write_bool".toList, config.runtime.toList ++ "::deref".toList]) := by
  have hfolded : Plan.combinedFeatures (plans.map Plan.folded) = Plan.combinedFeatures plans := by
    unfold Plan.combinedFeatures
    simp only [List.foldl_map, Plan.features_folded]
  refine ⟨imports_eq _ _, ?_, ?_, by rw [hfolded], fun hruntime hplans =>
    ⟨?_, uses_mark, fun name => called_of_mem_callees hruntime hplans⟩⟩
  · simp only [needsSort_iff, sortedKeys_mem_helpers_iff]
  · simp only [needsFormat_iff, writeInt_mem_helpers_iff, writeString_mem_helpers_iff, exists_or]
  · have hsort : "sorted_keys".toList ∈ callees config.runtime plans ↔ (Plan.combinedFeatures plans).needsSort = true :=
      (mem_callees_iff hruntime hplans (h := .sortedKeys) rfl).trans (needsSort_iff plans).symm
    have hint : "write_int".toList ∈ callees config.runtime plans ↔ ∃ p ∈ plans, .writeInt ∈ helpers p :=
      mem_callees_iff hruntime hplans (h := .writeInt) rfl
    have hstring : "write_string".toList ∈ callees config.runtime plans ↔ ∃ p ∈ plans, .writeString ∈ helpers p :=
      mem_callees_iff hruntime hplans (h := .writeString) rfl
    have hformat : "write_int".toList ∈ callees config.runtime plans ∨ "write_string".toList ∈ callees config.runtime plans ↔
        (Plan.combinedFeatures plans).needsFormat = true := by
      rw [needsFormat_iff, hint, hstring]
      simp only [and_or_left, exists_or]
    rw [uses_file hruntime module hplans, if_congr hsort rfl rfl, if_congr hformat rfl rfl]

def teamPlan : Plan :=
  ⟨"Team", [.list (.field .root "members") 0 [.map (.elem 0) 1 none [.native (.value (.elem 0) 1)]]]⟩

/-- So sorting is all that is imported for it. -/
theorem team_imports_exact : IsPath Config.default.runtime ∧ (∀ p ∈ [teamPlan], p.IsNamed) ∧
    uses (file Config.default none [teamPlan]).toList = ["use std::io::\x7bself, Write\x7d;".toList,
      "use bencode_gen_core::runtime::Bencode;".toList, "use bencode_gen_core::runtime::sorted_keys;".toList] := by
  have hpath : IsPath Config.default.runtime := ⟨["bencode_gen_core", "runtime"], by decide, by decide +kernel⟩
  have hnamed : ∀ p ∈ [teamPlan], p.IsNamed := by decide +kernel
  have hcallees : callees Config.default.runtime [teamPlan] =
      ["write_bencode".toList, "sorted_keys".toList, "Bencode::write_bencode".toList, "Ok".toList] := by
    rw [callees, List.flatMap_singleton, calls_encoder hpath (hnamed _ List.mem_cons_self)]
    rfl
  obtain ⟨-, -, -, -, htext⟩ := imports_exact Config.default none [teamPlan]
  obtain ⟨huses, hmark, -⟩ := htext hpath hnamed
  refine ⟨hpath, hnamed, huses.trans ?_⟩
  rw [hmark (by decide +kernel) nofun, hcallees]
  decide +kernel

end Source
end BencodePlan
