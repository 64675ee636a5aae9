import BencodePlan.Proofs.Text.Decimal
import Mathlib
/-!
# Pieces of a text

What two spellings of one text have in common: they are the same before and after a separator, where it is the first one or
the last (`eq_of_first`, `eq_of_last`), and they are set in alike and have the same first line (`eq_of_line`).  So lines
that are set in by their level are read back, with their levels, from the text they make together (`setIn_injective`).
-/
namespace BencodePlan
namespace Text

variable {c : Char} {u u' v v' : List Char}

/-- **What stands before and after the first separator.** -/
theorem eq_of_first (hu : c ∉ u) (hu' : c ∉ u') (h : u ++ c :: v = u' ++ c :: v') : u = u' ∧ v = v' := by
  have hsplit := congrArg (List.splitOn c) h
  rw [List.splitOn_append_cons_self_of_not_mem hu, List.splitOn_append_cons_self_of_not_mem hu'] at hsplit
  obtain rfl := (List.cons.inj hsplit).1
  exact ⟨rfl, (List.cons.inj (List.append_cancel_left h)).2⟩

/-- **What stands before and after the last separator.** -/
theorem eq_of_last (hv : c ∉ v) (hv' : c ∉ v') (h : u ++ c :: v = u' ++ c :: v') : u = u' ∧ v = v' := by
  have hreverse := congrArg List.reverse h
  simp only [List.reverse_append, List.reverse_cons, List.append_assoc, List.singleton_append] at hreverse
  obtain ⟨hlast, hfirst⟩ := eq_of_first (by simpa using hv) (by simpa using hv') hreverse
  exact ⟨List.reverse_inj.1 hfirst, List.reverse_inj.1 hlast⟩

theorem eq_of_indented {a b : Nat} (hu : u.head? ≠ some ' ') (hv : v.head? ≠ some ' ')
    (h : List.replicate a ' ' ++ u = List.replicate b ' ' ++ v) : a = b ∧ u = v := by
  have hspaces {n : Nat} {w : List Char} (hw : w.head? ≠ some ' ') :
      ((List.replicate n ' ' ++ w).takeWhile (· = ' ')).length = n := by
    have hnone : w.takeWhile (· = ' ') = [] := by
      cases w with
      | nil => rfl
      | cons d w => exact List.takeWhile_cons_of_neg (by simpa using hw)
    rw [List.takeWhile_append_of_pos (by simp), hnone, List.append_nil, List.length_replicate]
  have hab : a = b := by rw [← hspaces (n := a) hu, h, hspaces hv]
  subst hab
  exact ⟨rfl, List.append_cancel_left h⟩

/-- **The first line, how far it is set in, and what comes after it.** -/
theorem eq_of_line {a b : Nat} {s t : List Char} (hs : '\n' ∉ s) (ht : '\n' ∉ t) (hs' : s.head? ≠ some ' ')
    (ht' : t.head? ≠ some ' ')
    (h : List.replicate a ' ' ++ (s ++ '\n' :: u) = List.replicate b ' ' ++ (t ++ '\n' :: v)) : a = b ∧ s = t ∧ u = v := by
  have hline {n : Nat} {w : List Char} (hw : '\n' ∉ w) : '\n' ∉ List.replicate n ' ' ++ w := by
    simp [hw]
  rw [← List.append_assoc, ← List.append_assoc] at h
  obtain ⟨hfirst, hrest⟩ := eq_of_first (hline hs) (hline ht) h
  obtain ⟨hab, hst⟩ := eq_of_indented hs' ht' hfirst
  exact ⟨hab, hst, hrest⟩

/-! ## Lines that are set in -/

section

variable {α : Type} {width : Nat} {text : α → List Char}

/-- **Lines as one text**, each set in by so many spaces a level. -/
def setIn (width : Nat) (text : α → List Char) (ls : List (Nat × α)) : List Char :=
  ls.flatMap fun p => List.replicate (width * p.1) ' ' ++ (text p.2 ++ ['\n'])

theorem setIn_cons (level : Nat) (a : α) (ls : List (Nat × α)) : setIn width text ((level, a) :: ls) =
    List.replicate (width * level) ' ' ++ (text a ++ '\n' :: setIn width text ls) := by
  unfold setIn
  rw [List.flatMap_cons]
  simp only [List.append_assoc]
  rfl

theorem setIn_append (ls ls' : List (Nat × α)) : setIn width text (ls ++ ls') = setIn width text ls ++ setIn width text ls' :=
  List.flatMap_append

theorem setIn_ne_nil (p : Nat × α) (ls : List (Nat × α)) : setIn width text (p :: ls) ≠ [] := by
  rw [setIn_cons]
  simp

/-- **Lines are read back from the text they make together**, if each by itself is read back from its own. -/
theorem setIn_injective {P : α → Prop} (hwidth : 0 < width) (hfeed : ∀ a, P a → '\n' ∉ text a)
    (hspace : ∀ a, P a → (text a).head? ≠ some ' ') (htext : ∀ a b, P a → P b → text a = text b → a = b) :
    ∀ {ls ls' : List (Nat × α)}, (∀ p ∈ ls, P p.2) → (∀ p ∈ ls', P p.2) → setIn width text ls = setIn width text ls' → ls = ls'
  | [], [], _, _, _ => rfl
  | [], p :: ls', _, _, h => absurd h.symm (setIn_ne_nil p ls')
  | p :: ls, [], _, _, h => absurd h (setIn_ne_nil p ls)
  | (level, a) :: ls, (level', a') :: ls', hls, hls', h => by
    obtain ⟨ha, hrest⟩ := List.forall_mem_cons.1 hls
    obtain ⟨ha', hrest'⟩ := List.forall_mem_cons.1 hls'
    rw [setIn_cons, setIn_cons] at h
    obtain ⟨hlevel, hline, hafter⟩ := eq_of_line (hfeed a ha) (hfeed a' ha') (hspace a ha) (hspace a' ha') h
    have hlevels : level = level' := Nat.eq_of_mul_eq_mul_left hwidth hlevel
    have hlines : a = a' := htext a a' ha ha' hline
    rw [hlevels, hlines, setIn_injective hwidth hfeed hspace htext hrest hrest' hafter]

end

theorem decimal_injective : Function.Injective decimal := by
  intro m n h
  rw [← numberOf_decimal m, h, numberOf_decimal]

end Text
end BencodePlan
