import BencodePlan.Diagnostic.Layout
import BencodePlan.Proofs.Text.Span
/-!
# What a diagnostic points at

A span that marks a text covers a piece of it that has something in it, or is the place after its last character (`Marks`).
That is all that is asked of a span: it then lies between characters within the text, also where an empty one is widened for
a caret to be shown (`Marks.pointsInto`).
-/
namespace BencodePlan

open Text

namespace Span

/-- **The span of a piece of a text**, which is empty only at the end of the text. -/
def Marks (s : Span) (text : String) : Prop :=
  ∃ before piece rest, text.toList = before ++ (piece ++ rest) ∧ s = .after before piece ∧ (piece = [] → rest = [])

/-- **A span that can be pointed at**: it lies between characters of the text, is empty only at its end, and what is shown of
it lies between characters of the text as well. -/
structure PointsInto (s : Span) (text : String) : Prop where
  within : s.Within text
  stop_le : s.stop ≤ text.utf8ByteSize
  at_end : s.isEmpty = true → s.start = text.utf8ByteSize
  shown : (Layout.widened s (byteLength text.toList)).Within text
  shown_le : (Layout.widened s (byteLength text.toList)).stop ≤ text.utf8ByteSize

theorem widened_of_not_isEmpty {s : Span} (h : s.isEmpty = false) (limit : Nat) : Layout.widened s limit = s := by
  rw [Layout.widened, h]
  rfl

theorem widened_end (limit : Nat) : Layout.widened ⟨limit, limit⟩ limit = ⟨limit, limit⟩ := by
  have hempty : isEmpty ⟨limit, limit⟩ = true := decide_eq_true rfl
  rw [Layout.widened, if_pos hempty]
  simp

theorem Marks.widened {s : Span} {text : String} (h : s.Marks text) :
    Layout.widened s (byteLength text.toList) = s := by
  obtain ⟨before, piece, rest, htext, rfl, hend⟩ := h
  cases piece with
  | nil =>
    have hbefore : text.toList = before := by rw [htext, hend rfl, List.append_nil, List.append_nil]
    rw [hbefore]
    exact widened_end (byteLength before)
  | cons c piece =>
    have hpos := byteLength_pos (List.cons_ne_nil c piece)
    refine widened_of_not_isEmpty (decide_eq_false ?_) _
    simp only [after]
    omega

/-- **What marks a text can be pointed at.** -/
theorem Marks.pointsInto {s : Span} {text : String} (h : s.Marks text) : s.PointsInto text := by
  have hshown := h.widened
  obtain ⟨before, piece, rest, htext, rfl, hend⟩ := h
  have hwithin := within_of_append htext
  have hstop : (after before piece).stop ≤ text.utf8ByteSize := by
    rw [utf8ByteSize_eq, htext, byteLength_append, byteLength_append, after, ← Nat.add_assoc]
    exact Nat.le_add_right _ _
  refine ⟨hwithin, hstop, fun hempty => ?_, by rwa [hshown], by rwa [hshown]⟩
  have hnil : piece = [] := by
    by_contra hne
    have hpos := byteLength_pos hne
    have heq : byteLength before = byteLength before + byteLength piece := of_decide_eq_true hempty
    omega
  subst hnil
  rw [utf8ByteSize_eq, htext, hend rfl, List.append_nil, List.append_nil]
  rfl

end Span

namespace Diagnostic

/-- **A diagnostic points into its text**, if it points at anything. -/
def InText (d : Diagnostic) : Prop := ∀ snippet, d.snippet = some snippet → snippet.span.PointsInto snippet.source

theorem inText_of_none {d : Diagnostic} (h : d.snippet = none) : d.InText := by
  intro snippet hs
  rw [h] at hs
  cases hs

theorem inText_pointing (kind : DiagnosticKind) (location detail : String) {source : String} {span : Span}
    (h : span.Marks source) (label : String) : (pointing kind location detail source span label).InText := by
  rintro snippet ⟨⟩
  exact h.pointsInto

end Diagnostic
end BencodePlan
