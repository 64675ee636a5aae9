import BencodePlan.Proofs.Types.Renumbering
import BencodePlan.Proofs.Shape.Likeness
/-!
# Shapes of renumbered types

Related types have the same fields in the same order, but for the numbers of their types (`fieldsOf_alike`), and the same
text.  So openings cannot tell between the tables, and related types come to the same plan or fail for the same reason
(`result_compile_eq`).
-/
namespace BencodePlan
namespace TypeTable
namespace Renumbering

open Compile

variable {t t' : TypeTable} {R : TypeId → TypeId → Prop}

/-- **Related structs collect related fields**, where related structs are being opened. -/
theorem collectFrom_alike (h : t.Renumbering t' R) (hs : t.Sound) (hs' : t'.Sound) {opened opened' : List TypeId}
    (hopened : List.Forall₂ R opened opened') (path : List String) (owner owner' : String) {a b : TypeId} (hab : R a b) :
    List.Forall₂ (FieldAlike R) (Field.collectFrom t opened path owner a).value
      (Field.collectFrom t' opened' path owner' b).value := by
  have hsize := h.toLikeness.lt_size hab
  have hmem := h.mem_iff hopened hab
  rw [Field.value_collectFrom, Field.value_collectFrom]
  by_cases hnew : a ∉ opened
  · rw [if_pos ⟨hsize.1, hnew⟩, if_pos ⟨hsize.2, fun hb => hnew (hmem.2 hb)⟩]
    obtain ⟨d, d', hd, hd', halike⟩ := h.describes hab
    rw [hd, hd']
    cases halike with
    | struct hms =>
      refine List.rel_flatMap hms fun m m' hm => ?_
      have hunder := h.toLikeness.underlying hs hs' hm.type
      have hin := h.mem_iff (.cons hab hopened) hunder
      unfold Field.ofMember
      simp only [hm.embedded, h.toLikeness.isStruct_eq hunder, hin, hm.name]
      cases m'.embedded with
      | false => exact .cons ⟨rfl, rfl, hm.type, hm.value_readTag ""⟩ .nil
      | true =>
        simp only [if_true]
        split
        · exact h.collectFrom_alike hs hs' (.cons hab hopened) _ _ _ hunder
        · exact .nil
    | _ => exact .nil
  · rw [if_neg fun hc => hnew hc.2, if_neg fun hc => hnew fun ha => hc.2 (hmem.1 ha)]
    exact .nil
termination_by t.unseen opened
decreasing_by exact t.unseen_cons_lt hsize.1 hnew

theorem fieldsOf_alike (h : t.Renumbering t' R) (hs : t.Sound) (hs' : t'.Sound) {a b : TypeId} (hab : R a b) :
    List.Forall₂ (FieldAlike R) (t.fieldsOf a) (t'.fieldsOf b) :=
  h.collectFrom_alike hs hs' .nil [] "" "" hab

theorem simulates (h : t.Renumbering t' R) (hs : t.Sound) (hs' : t'.Sound) : t.Simulates t' R fun _ => True :=
  ⟨h.toLikeness, hs, hs', fun _ _ => trivial, fun hab _ => h.display_eq hab,
    fun hab _ _ => writingOrder_alike (h.fieldsOf_alike hs hs' hab)⟩

/-- **Related types come to the same plan**, or fail for the same reason. -/
theorem result_compile_eq (h : t.Renumbering t' R) (hs : t.Sound) (hs' : t'.Sound) {a b : TypeId} (hab : R a b)
    (name : String) : result (t.compile name a) = result (t'.compile name b) :=
  (h.simulates hs hs').result_compile_eq hab trivial (h.display_eq hab) name

end Renumbering
end TypeTable
end BencodePlan
