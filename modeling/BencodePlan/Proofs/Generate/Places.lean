import BencodePlan.Proofs.Generate.Reports
import BencodePlan.Proofs.Schema.Reports
import Mathlib
/-!
# No diagnostic points outside its text

Three kinds of places are pointed at: a piece of a type expression that cannot be read, a name in one that can be, and a
piece of a tag.  All of them mark the text they were found in, wherever in the work they are reported, and everything else
that is reported points at nothing (`diagnostics_in_text`).
-/
namespace BencodePlan

theorem Lower.Reported.inText {d : Diagnostic} (h : Lower.Reported d) : d.InText := by
  cases h with
  | plain => exact Diagnostic.inText_of_none rfl
  | unknown hparse hspan => exact Diagnostic.inText_pointing _ _ _ (TypeExpr.marks_of_parse_ok hparse _ hspan) _
  | malformed hparse => exact Diagnostic.inText_pointing _ _ _ (TypeExpr.marks_of_parse_error hparse) _

theorem Field.Reported.inText {t : TypeTable} {owner : String} {body : TypeId} {d : Diagnostic}
    (h : Field.Reported t owner body d) : d.InText := by
  induction h with
  | tag _ _ _ hparse => exact Diagnostic.inText_pointing _ _ _ (Tag.marks_of_parse_error hparse) _
  | embedding | embeddedTag => exact Diagnostic.inText_of_none rfl
  | inside _ _ _ _ _ ih => exact ih

theorem CompileError.inText_diagnostic (e : CompileError) (name : String) : (e.diagnostic name).InText :=
  Diagnostic.inText_of_none rfl

namespace TypeTable

theorem compileAt_inText {t : TypeTable} (h : t.Sound) {id : TypeId} (hid : id < t.size) (source : Selector) (depth : Nat) :
    (t.compileAt source id depth).run.ReportsOnly Diagnostic.InText := by
  have hshape : Compile.ReportsOnly Diagnostic.InText (t.shape id) :=
    shapeAt_reports h (I := fun _ => True) (fun _ _ _ _ => trivial) (fun _ _ _ _ hd => hd.inText) (w := t.startWalk [] id)
      hid trivial
  exact hshape.bind fun _ _ => Compile.reportsOnly_pure _

end TypeTable

namespace Schema

theorem Warned.inText {t : TypeTable} {d : Diagnostic} (h : Warned t d) : d.InText := by
  cases h with
  | unknown | noStruct => exact Diagnostic.inText_of_none rfl
  | member _ hd => exact hd.inText

/-- **No diagnostic points outside its text.**  Whatever the text of a schema is and whatever is asked for, the span of each
diagnostic of lowering, selection and compilation begins and ends between characters of its text, is empty only at the end of
it, and is still in the text where it is shown.  Where a type expression has a character that is part of no token, the span is
that of the character. -/
theorem diagnostics_in_text (text : String) :
    (∀ d ∈ (parse text).reports, d.InText) ∧
    (∀ ds, (parse text).value = .error (.unsound ds) → ∀ d ∈ ds.messages, d.InText) ∧
    (∀ s, (parse text).value = .ok s →
      (∀ config requested, (∀ d ∈ (s.select config requested).reports, d.InText) ∧
        ∀ d ∈ (s.generate config requested).reports, d.InText) ∧
      ∀ id, id < s.table.size → ∀ source depth, ∀ d ∈ (s.table.compileAt source id depth).run.reports, d.InText) ∧
    ∀ (source : String) (e : TypeExpr.Error), TypeExpr.lex 0 source.toList = .error e →
      e.span.Within source ∧ ∃ before c rest, source.toList = before ++ c :: rest ∧ e = ⟨.character c, .after before [c]⟩ := by
  refine ⟨fun d hd => (parse_reports text d hd).inText, fun ds hds d hd => (parse_refused hds d hd).inText, fun s hs => ?_,
    fun source e he => ?_⟩
  · obtain ⟨raw, hraw⟩ := exists_ofRaw_of_parse hs
    have hsound := sound_of_ofRaw hraw
    refine ⟨fun config requested => ⟨fun d hd => ?_, fun d hd => ?_⟩, fun id hid source depth =>
      TypeTable.compileAt_inText hsound hid source depth⟩
    · exact (select_reports hsound.toFormed config requested d hd).inText
    · rcases generate_reports hraw config requested d hd with hwarned | ⟨e, name, rfl⟩
      · exact hwarned.inText
      · exact e.inText_diagnostic name
  · obtain ⟨before, c, rest, htext, rfl⟩ := TypeExpr.exists_of_lex_error he
    have hpiece : source.toList = before ++ ([c] ++ rest) := htext
    exact ⟨Span.within_of_append hpiece, before, c, rest, htext, rfl⟩

/-- A letter of two bytes that is part of no token, and an expression that ends too early. -/
def cratesDocument : String :=
  "\x7b\"types\":[\x7b\"name\":\"Sizes\",\"type\":\"Vec<Größe>\"\x7d,\x7b\"name\":\"Crates\",\"type\":\"Vec<Crate\"\x7d]\x7d"

def cratesReports : List Diagnostic :=
  [.pointing .malformedTypeExpr "Sizes" "unexpected character \"ö\"" "Vec<Größe>" ⟨6, 8⟩ "here",
    .pointing .malformedTypeExpr "Crates" "expected `>`, found end of input" "Vec<Crate" ⟨9, 9⟩ "here"]

theorem crates_in_text : (parse cratesDocument).reports = cratesReports ∧ (⟨6, 8⟩ : Span).PointsInto "Vec<Größe>" ∧
    (⟨9, 9⟩ : Span).PointsInto "Vec<Crate" ∧ TypeExpr.lex 0 "Vec<Größe>".toList = .error ⟨.character 'ö', ⟨6, 8⟩⟩ ∧
    (⟨6, 8⟩ : Span).Within "Vec<Größe>" := by
  have hraw : RawSchema.parse cratesDocument =
      .ok ⟨none, [⟨"Sizes", none, some "Vec<Größe>", false⟩, ⟨"Crates", none, some "Vec<Crate", false⟩]⟩ := by cbv
  have hlowered : (ofRaw ⟨none, [⟨"Sizes", none, some "Vec<Größe>", false⟩,
      ⟨"Crates", none, some "Vec<Crate", false⟩]⟩).reports = cratesReports := by decide +kernel
  have hreports : (parse cratesDocument).reports = cratesReports := by
    rw [← hlowered, parse, hraw]
    simp only
    split <;> rfl
  have hlex : TypeExpr.lex 0 "Vec<Größe>".toList = .error ⟨.character 'ö', ⟨6, 8⟩⟩ := by decide +kernel
  obtain ⟨hall, -, -, hcharacter⟩ := diagnostics_in_text cratesDocument
  rw [hreports] at hall
  exact ⟨hreports, hall _ List.mem_cons_self _ rfl, hall _ (List.mem_cons_of_mem _ List.mem_cons_self) _ rfl, hlex,
    (hcharacter _ _ hlex).1⟩

end Schema
end BencodePlan
