import BencodePlan.Source.File
import BencodePlan.Source.Mark
/-!
# Generated files are known by their mark

A text is marked if one of its lines is a mark (`isMarked_iff`): the two phrases with a name between them, where a line lies
between line feeds or the ends of the text.  A file of encoders begins with such a line whatever its module, its plans and
the path of its helpers are (`isMarked_file`), as long as the mark itself stays on one line.
-/
namespace BencodePlan
namespace Source

def IsLine (line text : List Char) : Prop :=
  '\n' ∉ line ∧ ∃ before after, text = before ++ (line ++ after) ∧
    (before = [] ∨ ∃ lines, before = lines ++ ['\n']) ∧ (after = [] ∨ ∃ lines, after = '\n' :: lines)

/-- **The mark of generated files**: some line of a text says that code was generated. -/
def HasMark (text : String) : Prop :=
  ∃ name, IsLine ("// Code generated ".toList ++ (name ++ " DO NOT EDIT.".toList)) text.toList

theorem IsLine.self {line : List Char} (h : '\n' ∉ line) : IsLine line line :=
  ⟨h, [], [], by simp, .inl rfl, .inl rfl⟩

theorem IsLine.first {line : List Char} (h : '\n' ∉ line) (rest : List Char) : IsLine line (line ++ '\n' :: rest) :=
  ⟨h, [], '\n' :: rest, by simp, .inl rfl, .inr ⟨rest, rfl⟩⟩

theorem IsLine.later {line text : List Char} (h : IsLine line text) (first : List Char) :
    IsLine line (first ++ '\n' :: text) := by
  obtain ⟨hline, before, after, rfl, hbefore, hafter⟩ := h
  refine ⟨hline, first ++ '\n' :: before, after, by simp, .inr ?_, hafter⟩
  obtain rfl | ⟨lines, rfl⟩ := hbefore
  · exact ⟨first, rfl⟩
  · exact ⟨first ++ '\n' :: lines, by simp⟩

theorem mem_splitOn_append {line after : List Char} (hline : '\n' ∉ line)
    (hafter : after = [] ∨ ∃ lines, after = '\n' :: lines) : line ∈ (line ++ after).splitOn '\n' := by
  obtain rfl | ⟨lines, rfl⟩ := hafter
  · rw [List.append_nil, List.splitOn_eq_singleton hline]
    exact List.mem_singleton_self line
  · rw [List.splitOn_append_cons_self_of_not_mem hline]
    exact List.mem_cons_self ..

theorem isLine_of_mem_splitOn {line : List Char} (text : List Char) (h : line ∈ text.splitOn '\n') : IsLine line text := by
  by_cases hfeed : '\n' ∈ text
  · obtain ⟨first, rest, htext, hfirst⟩ := List.eq_append_cons_of_mem hfeed
    have hshorter : rest.length < text.length := by
      rw [htext, List.length_append, List.length_cons]
      omega
    rw [htext, List.splitOn_append_cons_self_of_not_mem hfirst, List.mem_cons] at h
    rw [htext]
    obtain rfl | h := h
    · exact IsLine.first hfirst rest
    · exact (isLine_of_mem_splitOn rest h).later first
  · rw [List.splitOn_eq_singleton hfeed, List.mem_singleton] at h
    rw [h]
    exact IsLine.self hfeed
termination_by text.length

/-- **The lines of a text** are its parts between line feeds. -/
theorem mem_splitOn_iff {line text : List Char} : line ∈ text.splitOn '\n' ↔ IsLine line text := by
  refine ⟨isLine_of_mem_splitOn text, ?_⟩
  rintro ⟨hline, before, after, rfl, hbefore, hafter⟩
  have hmem := mem_splitOn_append hline hafter
  obtain rfl | ⟨lines, rfl⟩ := hbefore
  · exact hmem
  · rw [List.append_assoc, List.singleton_append, List.splitOn_append_cons_self]
    exact List.mem_append_right _ hmem

theorem isMark_iff {line : List Char} :
    isMark line = true ↔ ∃ name, line = markOpening.toList ++ (name ++ markClosing.toList) := by
  simp only [isMark, Bool.and_eq_true, List.isPrefixOf_iff_prefix, List.isSuffixOf_iff_suffix]
  constructor
  · rintro ⟨⟨rest, rfl⟩, hsuffix⟩
    rw [← String.length_toList, List.drop_left] at hsuffix
    obtain ⟨name, rfl⟩ := hsuffix
    exact ⟨name, rfl⟩
  · rintro ⟨name, rfl⟩
    rw [← String.length_toList, List.drop_left]
    exact ⟨List.prefix_append .., List.suffix_append ..⟩

theorem isMarked_iff {text : String} : isMarked text = true ↔ HasMark text := by
  simp only [isMarked, HasMark, List.any_eq_true, isMark_iff, mem_splitOn_iff]
  constructor
  · rintro ⟨line, hline, name, rfl⟩
    exact ⟨name, hline⟩
  · rintro ⟨name, hline⟩
    exact ⟨_, hline, name, rfl⟩

/-- **A generated file is marked.** -/
theorem isMarked_file {config : Config} (hheader : config.header = true) (hversion : '\n' ∉ config.version.toList)
    (module : Option String) (plans : List Plan) : isMarked (file config module plans) = true := by
  refine isMarked_iff.2 ⟨"by bencode-gen ".toList ++ config.version.toList, ?_⟩
  have hline : '\n' ∉ "// Code generated ".toList ++
      ("by bencode-gen ".toList ++ config.version.toList ++ " DO NOT EDIT.".toList) := by
    simp [hversion]
  obtain ⟨rest, hfile⟩ : ∃ rest, (file config module plans).toList = "// Code generated ".toList ++
      ("by bencode-gen ".toList ++ config.version.toList ++ " DO NOT EDIT.".toList) ++ '\n' :: rest := by
    simp only [file, mark, if_pos hheader, String.toList_append]
    exact ⟨_, by simp; rfl⟩
  rw [hfile]
  exact IsLine.first hline rest

end Source
end BencodePlan
