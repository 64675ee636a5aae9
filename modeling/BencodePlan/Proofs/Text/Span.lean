import BencodePlan.Text.Span
import Mathlib.Data.List.Basic
/-!
# Places between characters

A place in a text is told by the number of bytes before it.  The bytes of a piece of the text begin and end at such places,
so a span that covers a piece lies in the text and cuts no character (`within_of_append`).
-/
namespace BencodePlan
namespace Text

theorem byteLength_append (as bs : List Char) : byteLength (as ++ bs) = byteLength as + byteLength bs := by
  induction as with
  | nil => exact (Nat.zero_add _).symm
  | cons a as ih => rw [List.cons_append, byteLength, ih, byteLength, Nat.add_assoc]

theorem byteLength_eq_length {cs : List Char} (h : ∀ c ∈ cs, c.utf8Size = 1) : byteLength cs = cs.length := by
  induction cs with
  | nil => rfl
  | cons c cs ih =>
    rw [byteLength, h c List.mem_cons_self, ih fun d hd => h d (List.mem_cons_of_mem _ hd), List.length_cons]
    exact Nat.add_comm _ _

theorem byteLength_pos {cs : List Char} (h : cs ≠ []) : 0 < byteLength cs := by
  cases cs with
  | nil => exact absurd rfl h
  | cons c cs =>
    rw [byteLength]
    exact Nat.add_pos_left (Char.utf8Size_pos c) _

theorem utf8ByteSize_ofList (cs : List Char) : (String.ofList cs).utf8ByteSize = byteLength cs := by
  induction cs with
  | nil => rfl
  | cons c cs ih =>
    have hcons : String.ofList (c :: cs) = String.singleton c ++ String.ofList cs := by
      rw [← String.toList_inj]
      simp
    rw [hcons, String.utf8ByteSize_append, ih, byteLength, String.utf8ByteSize_singleton]

theorem utf8ByteSize_eq (text : String) : text.utf8ByteSize = byteLength text.toList := by
  rw [← utf8ByteSize_ofList, String.ofList_toList]

end Text

namespace Span

open Text

/-- **A span of a text** begins and ends between characters. -/
structure Within (s : Span) (text : String) : Prop where
  ordered : s.start ≤ s.stop
  start : (⟨s.start⟩ : String.Pos.Raw).IsValid text
  stop : (⟨s.stop⟩ : String.Pos.Raw).IsValid text

def after (before piece : List Char) : Span := ⟨byteLength before, byteLength before + byteLength piece⟩

theorem isValid_of_append {text : String} {before rest : List Char} (h : text.toList = before ++ rest) :
    (⟨byteLength before⟩ : String.Pos.Raw).IsValid text := by
  refine String.Pos.Raw.isValid_iff_exists_append.2 ⟨String.ofList before, String.ofList rest, ?_, ?_⟩
  · rw [← String.toList_inj, h]
    simp
  · rw [← utf8ByteSize_ofList]
    rfl

theorem within_of_append {text : String} {before piece rest : List Char} (h : text.toList = before ++ (piece ++ rest)) :
    (after before piece).Within text := by
  refine ⟨Nat.le_add_right _ _, isValid_of_append h, ?_⟩
  rw [after, ← byteLength_append]
  exact isValid_of_append (h.trans (List.append_assoc _ _ _).symm)

end Span
end BencodePlan
