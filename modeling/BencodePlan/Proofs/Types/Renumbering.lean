import BencodePlan.Proofs.Pairs
import BencodePlan.Proofs.Types.Likeness
/-!
# Tables with other numbers

Two tables may have the same types under different numbers, and each struct with its members in the same order.  A
`Renumbering` is a likeness of such tables: no type at all has two numbers on the other side.  Then related types have the
same text too, that of a struct body included (`display_eq`).
-/
namespace BencodePlan
namespace TypeTable

theorem displayFrom_struct_eq {t t' : TypeTable} {opened opened' : List TypeId} {a b : TypeId} {ms ms' : List Member}
    (hd : t.get? a = some (.struct ms)) (hd' : t'.get? b = some (.struct ms')) (hnew : a ∉ opened) (hnew' : b ∉ opened')
    (h : List.Forall₂ (fun m m' => m.name = m'.name ∧
      t.displayFrom (a :: opened) m.type = t'.displayFrom (b :: opened') m'.type) ms ms') :
    t.displayFrom opened a = t'.displayFrom opened' b := by
  rw [displayFrom, displayFrom, dif_pos ⟨get?_lt hd, hnew⟩, dif_pos ⟨get?_lt hd', hnew'⟩, hd, hd']
  have htexts := map_eq_map_iff_forall₂.2 (h.imp fun m m' hm =>
    show m.name ++ ": " ++ t.displayFrom (a :: opened) m.type = m'.name ++ ": " ++ t'.displayFrom (b :: opened') m'.type by
      rw [hm.1, hm.2])
  cases h with
  | nil => rfl
  | cons _ _ => simp only [htexts]

/-- **A relation between the numbers of two tables with the same types.** -/
structure Renumbering (t t' : TypeTable) (R : TypeId → TypeId → Prop) : Prop where
  describes : ∀ {a b}, R a b → ∃ d d', t.get? a = some d ∧ t'.get? b = some d' ∧ DescAlike R d d'
  left : ∀ {a a' b}, R a b → R a' b → a = a'
  right : ∀ {a b b'}, R a b → R a b' → b = b'

namespace Renumbering

variable {t t' : TypeTable} {R : TypeId → TypeId → Prop} {a b : TypeId}

theorem toLikeness (h : t.Renumbering t' R) : t.Likeness t' R := by
  refine ⟨fun hab => ?_, fun hab hab' _ => h.left hab hab', fun hab hab' _ => h.right hab hab'⟩
  obtain ⟨d, d', hd, hd', halike⟩ := h.describes hab
  exact ⟨d, d, d', hd, hd', .same d, halike⟩

theorem mem_iff (h : t.Renumbering t' R) {l l' : List TypeId} (hl : List.Forall₂ R l l') (hab : R a b) :
    a ∈ l ↔ b ∈ l' :=
  mem_iff_of_forall₂ (fun _ hab' => h.left hab hab') (fun _ hab' => h.right hab hab') hl

/-- **Related types are shown alike**, below types that are related. -/
theorem displayFrom_eq (h : t.Renumbering t' R) {opened opened' : List TypeId} (hopened : List.Forall₂ R opened opened')
    {a b : TypeId} (hab : R a b) : t.displayFrom opened a = t'.displayFrom opened' b := by
  have hsize := h.toLikeness.lt_size hab
  have hmem := h.mem_iff hopened hab
  by_cases hnew : a ∉ opened
  · have hnew' : b ∉ opened' := fun hb => hnew (hmem.2 hb)
    have hinner : ∀ {c d : TypeId}, R c d → t.displayFrom (a :: opened) c = t'.displayFrom (b :: opened') d :=
      fun hcd => h.displayFrom_eq (.cons hab hopened) hcd
    obtain ⟨d, d', hd, hd', halike⟩ := h.describes hab
    cases halike with
    | struct hms =>
      exact displayFrom_struct_eq hd hd' hnew hnew' (hms.imp fun m m' hm => ⟨hm.name, hinner hm.type⟩)
    | scalar kind | duration | named name _ | native name _ =>
      rw [displayFrom, displayFrom, dif_pos ⟨hsize.1, hnew⟩, dif_pos ⟨hsize.2, hnew'⟩, hd, hd']
    | pointer hcd =>
      rw [displayFrom, displayFrom, dif_pos ⟨hsize.1, hnew⟩, dif_pos ⟨hsize.2, hnew'⟩, hd, hd']
      simp only [hinner hcd]
    | sequence kind hcd =>
      rw [displayFrom, displayFrom, dif_pos ⟨hsize.1, hnew⟩, dif_pos ⟨hsize.2, hnew'⟩, hd, hd']
      cases kind <;> simp only [hinner hcd]
    | mapping hk hv =>
      rw [displayFrom, displayFrom, dif_pos ⟨hsize.1, hnew⟩, dif_pos ⟨hsize.2, hnew'⟩, hd, hd']
      simp only [hinner hk, hinner hv]
  · rw [displayFrom, displayFrom, dif_neg fun hc => hnew hc.2, dif_neg fun hc => hnew fun ha => hc.2 (hmem.1 ha)]
termination_by t.unseen opened
decreasing_by exact t.unseen_cons_lt hsize.1 hnew

theorem display_eq (h : t.Renumbering t' R) (hab : R a b) : t.display a = t'.display b := h.displayFrom_eq .nil hab

end Renumbering
end TypeTable
end BencodePlan
