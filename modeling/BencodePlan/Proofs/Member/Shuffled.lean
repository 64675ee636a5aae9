import BencodePlan.Proofs.Shape.Likeness
import BencodePlan.Proofs.Member.Embedding
/-!
# Members in another order

Struct bodies whose members stand in different orders collect the same fields in different orders (`collectFrom_shuffled`),
and those with names of their own come to one writing order.  This needs that no struct embeds itself.  Bodies that differ
only in the order of their members may be one body in the other table, so what is open there and what is open here is the
same only as long as neither is met again.

So where no struct that is reached embeds itself or has two fields of one name (`Orderly`), openings cannot tell between
tables that are alike (`Likeness.simulates`).
-/
namespace BencodePlan
namespace TypeTable

open Relation (TransGen ReflTransGen)

/-- **One struct body embeds another.** -/
def Embeds (t : TypeTable) (a b : TypeId) : Prop :=
  ∃ ms m, t.get? a = some (.struct ms) ∧ m ∈ ms ∧ m.embedded = true ∧ t.underlying m.type = b ∧ t.isStruct b = true

/-- **A type whose structs have fields with names of their own and never embed themselves**, as far as they are reached. -/
structure Orderly (t : TypeTable) (id : TypeId) : Prop where
  names : ∀ {a}, t.Expands id a → t.isStruct a = true → ((t.fieldsOf a).map Field.name).Nodup
  circles : ∀ {a b}, t.Expands id a → ReflTransGen t.Embeds a b → ¬ TransGen t.Embeds b b

theorem Orderly.follows {t : TypeTable} {a c : TypeId} (h : t.Orderly a) (hac : t.Follows a c) : t.Orderly c :=
  ⟨fun hc hstruct => h.names (.head hac hc) hstruct, fun hc hembeds => h.circles (.head hac hc) hembeds⟩

theorem orderly_of_lt {t : TypeTable} (hnames : ∀ a < t.size, ((t.fieldsOf a).map Field.name).Nodup)
    (hlt : ∀ a b, t.Embeds a b → b < a) (id : TypeId) : t.Orderly id := by
  have hbelow {a b : TypeId} (h : TransGen t.Embeds a b) : b < a := by
    induction h with
    | single hab => exact hlt _ _ hab
    | tail _ hbc ih => exact Nat.lt_trans (hlt _ _ hbc) ih
  refine ⟨fun _ hstruct => ?_, fun _ _ hcircle => Nat.lt_irrefl _ (hbelow hcircle)⟩
  obtain ⟨ms, hms⟩ := (isStruct_iff _ _).1 hstruct
  exact hnames _ (get?_lt hms)

/-- **The same fields in some order**, but for the numbers of their types. -/
def FieldsShuffled (R : TypeId → TypeId → Prop) (fs fs' : List Field) : Prop :=
  ∃ fs₁, fs.Perm fs₁ ∧ List.Forall₂ (FieldAlike R) fs₁ fs'

variable {t t' : TypeTable} {R : TypeId → TypeId → Prop}

namespace FieldsShuffled

theorem of_alike {fs fs' : List Field} (h : List.Forall₂ (FieldAlike R) fs fs') : FieldsShuffled R fs fs' :=
  ⟨fs, .refl fs, h⟩

theorem append {fs gs fs' gs' : List Field} (hf : FieldsShuffled R fs fs') (hg : FieldsShuffled R gs gs') :
    FieldsShuffled R (fs ++ gs) (fs' ++ gs') := by
  obtain ⟨fs₁, hperm, hfs⟩ := hf
  obtain ⟨gs₁, hperm', hgs⟩ := hg
  exact ⟨fs₁ ++ gs₁, hperm.append hperm', List.rel_append hfs hgs⟩

theorem of_perm {fs gs fs' : List Field} (hperm : fs.Perm gs) (h : FieldsShuffled R gs fs') : FieldsShuffled R fs fs' := by
  obtain ⟨fs₁, hperm', hfs⟩ := h
  exact ⟨fs₁, hperm.trans hperm', hfs⟩

theorem flatMap {α β : Type} {S : α → β → Prop} {f : α → List Field} {g : β → List Field} {l : List α} {l' : List β}
    (h : List.Forall₂ S l l') (hfg : ∀ a ∈ l, ∀ b, S a b → FieldsShuffled R (f a) (g b)) :
    FieldsShuffled R (l.flatMap f) (l'.flatMap g) := by
  induction h with
  | nil => exact of_alike .nil
  | cons hab _ ih =>
    rw [List.flatMap_cons, List.flatMap_cons]
    exact (hfg _ List.mem_cons_self _ hab).append (ih fun a ha => hfg a (List.mem_cons_of_mem _ ha))

/-- **Fields with names of their own come to one writing order.** -/
theorem writingOrder {fs fs' : List Field} (h : FieldsShuffled R fs fs') (hnames : (fs.map Field.name).Nodup) :
    List.Forall₂ (FieldAlike R) (TypeTable.writingOrder fs) (TypeTable.writingOrder fs') := by
  obtain ⟨fs₁, hperm, hfs⟩ := h
  rw [writingOrder_of_perm hperm hnames]
  exact writingOrder_alike hfs

end FieldsShuffled

namespace Likeness

theorem embeds_of_alike (h : t.Likeness t' R) (hs : t.Sound) {o a b c : TypeId} (hob : R o b) (hab : R a b)
    (hoc : t.Embeds o c) : t.Embeds a c := by
  obtain ⟨ms, m, hms, hm, hembedded, hc, hstruct⟩ := hoc
  obtain ⟨ms₁, ms', hb, hperm, halike⟩ := h.members hob hms
  obtain ⟨m', hm', hmm'⟩ := exists_of_forall₂ halike (hperm.mem_iff.1 hm)
  have ha : t.isStruct a = true := by rw [h.isStruct_eq hab, (isStruct_iff _ _).2 ⟨ms', hb⟩]
  obtain ⟨ns, hns⟩ := (isStruct_iff _ _).1 ha
  obtain ⟨ns₁, ns', hb', hperm', halike'⟩ := h.members hab hns
  cases hb.symm.trans hb'
  obtain ⟨n, hn, hnm'⟩ := exists_of_forall₂ halike'.flip hm'
  have htype : m.type = n.type := h.left hmm'.type hnm'.type (hs.part_struct hms (List.mem_map_of_mem hm))
  refine ⟨ns, n, hns, hperm'.mem_iff.2 hn, ?_, ?_, hstruct⟩
  · rw [hnm'.embedded, ← hmm'.embedded, hembedded]
  · rw [← htype, hc]

/-- A body that does not embed itself is not among those that embed it, on neither side. -/
theorem not_opened (h : t.Likeness t' R) (hs : t.Sound) {opened opened' : List TypeId}
    (hopened : List.Forall₂ R opened opened') {a b : TypeId} (hab : R a b) (habove : ∀ o ∈ opened, TransGen t.Embeds o a)
    (hfree : ¬ TransGen t.Embeds a a) : a ∉ opened ∧ b ∉ opened' := by
  refine ⟨fun ha => hfree (habove a ha), fun hb => ?_⟩
  obtain ⟨o, ho, hob⟩ := exists_of_forall₂ hopened.flip hb
  obtain ⟨c, hoc, hca⟩ := TransGen.head'_iff.1 (habove o ho)
  exact hfree (TransGen.head' (h.embeds_of_alike hs hob hab hoc) hca)

/-- **Bodies that are alike collect the same fields in some order**, if none of them embeds itself. -/
theorem collectFrom_shuffled (h : t.Likeness t' R) (hs : t.Sound) (hs' : t'.Sound) {opened opened' : List TypeId}
    (hopened : List.Forall₂ R opened opened') (path : List String) (owner owner' : String) {a b : TypeId} (hab : R a b)
    (habove : ∀ o ∈ opened, TransGen t.Embeds o a)
    (hfree : ∀ c, ReflTransGen t.Embeds a c → ¬ TransGen t.Embeds c c) :
    FieldsShuffled R (Field.collectFrom t opened path owner a).value (Field.collectFrom t' opened' path owner' b).value := by
  have hsize := h.lt_size hab
  -- what is open embeds this body, which does not embed itself
  obtain ⟨hnew, hnew'⟩ := h.not_opened hs hopened hab habove (hfree a .refl)
  cases hstruct : t.isStruct a with
  | false =>
    rw [Field.value_collectFrom_of_not_struct hstruct,
      Field.value_collectFrom_of_not_struct (by rw [← h.isStruct_eq hab, hstruct])]
    exact .of_alike .nil
  | true =>
    obtain ⟨ms, hms⟩ := (isStruct_iff _ _).1 hstruct
    obtain ⟨ms₁, ms', hms', hperm, halike⟩ := h.members hab hms
    rw [Field.value_collectFrom, Field.value_collectFrom, if_pos ⟨hsize.1, hnew⟩, if_pos ⟨hsize.2, hnew'⟩, hms, hms']
    refine .of_perm (hperm.flatMap_right _) (.flatMap halike fun m hm m' hmm' => ?_)
    have hunder := h.underlying hs hs' hmm'.type
    unfold Field.ofMember
    simp only [hmm'.embedded, h.isStruct_eq hunder, hmm'.name]
    cases hembedded : m'.embedded with
    | false => exact .of_alike (.cons ⟨rfl, rfl, hmm'.type, hmm'.value_readTag ""⟩ .nil)
    | true =>
      simp only [if_true]
      cases hinner : t'.isStruct (t'.underlying m'.type) with
      | false => exact .of_alike .nil
      | true =>
        have hembeds : t.Embeds a (t.underlying m.type) :=
          ⟨ms, m, hms, hperm.mem_iff.2 hm, hmm'.embedded.trans hembedded, rfl, (h.isStruct_eq hunder).trans hinner⟩
        have habove' : ∀ o ∈ a :: opened, TransGen t.Embeds o (t.underlying m.type) :=
          List.forall_mem_cons.2 ⟨.single hembeds, fun o ho => (habove o ho).tail hembeds⟩
        have hfree' : ∀ c, ReflTransGen t.Embeds (t.underlying m.type) c → ¬ TransGen t.Embeds c c :=
          fun c hc => hfree c (.head hembeds hc)
        obtain ⟨hout, hout'⟩ := h.not_opened hs (.cons hab hopened) hunder habove' (hfree' _ .refl)
        rw [if_pos ⟨rfl, hout⟩, if_pos ⟨rfl, hout'⟩]
        exact h.collectFrom_shuffled hs hs' (.cons hab hopened) _ _ _ hunder habove' hfree'
termination_by t.unseen opened
decreasing_by exact t.unseen_cons_lt hsize.1 hnew

/-- **Openings cannot tell between tables that are alike**, from orderly types on. -/
theorem simulates (h : t.Likeness t' R) (hs : t.Sound) (hs' : t'.Sound)
    (hdisplay : ∀ {a b}, R a b → t.isStruct a = false → t.display a = t'.display b) : t.Simulates t' R t.Orderly := by
  refine ⟨h, hs, hs', fun ha hac => ha.follows hac, hdisplay, fun hab hgood hstruct => ?_⟩
  have hshuffled := h.collectFrom_shuffled hs hs' .nil [] "" "" hab (List.forall_mem_nil _)
    fun _ hc => hgood.circles (.refl _) hc
  exact hshuffled.writingOrder (hgood.names (.refl _) hstruct)

end Likeness
end TypeTable
end BencodePlan
