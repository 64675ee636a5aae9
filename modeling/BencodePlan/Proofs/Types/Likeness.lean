import BencodePlan.Proofs.Types.Sound
import BencodePlan.Types.Display
import BencodePlan.Shape.OfType
/-!
# Tables that are alike

Two tables may have the same types under different numbers, and the members of a struct in different orders.  A `Likeness`
relates the numbers: related types have descriptors of the same form with related parts, and no type but a struct body has
two numbers on the other side.  What is read from a table about a type and the end of its chain is then the same from both.
-/
namespace BencodePlan

/-- **The same descriptor**, but for the order of the members of a struct. -/
inductive TypeDesc.Shuffles : TypeDesc → TypeDesc → Prop
  | same (d : TypeDesc) : Shuffles d d
  | struct {ms ms' : List Member} : ms.Perm ms' → Shuffles (.struct ms) (.struct ms')

namespace TypeTable

open Function

structure MemberAlike (R : TypeId → TypeId → Prop) (m m' : Member) : Prop where
  name : m.name = m'.name
  type : R m.type m'.type
  tag : m.tag = m'.tag
  embedded : m.embedded = m'.embedded

/-- **Descriptors of the same form**, with related parts and bodies. -/
inductive DescAlike (R : TypeId → TypeId → Prop) : TypeDesc → TypeDesc → Prop
  | scalar (kind : ScalarKind) : DescAlike R (.scalar kind) (.scalar kind)
  | duration : DescAlike R .duration .duration
  | pointer {a b : TypeId} : R a b → DescAlike R (.pointer a) (.pointer b)
  | struct {ms ms' : List Member} : List.Forall₂ (MemberAlike R) ms ms' → DescAlike R (.struct ms) (.struct ms')
  | sequence {a b : TypeId} (kind : SequenceKind) : R a b → DescAlike R (.sequence a kind) (.sequence b kind)
  | mapping {k v k' v' : TypeId} : R k k' → R v v' → DescAlike R (.mapping k v) (.mapping k' v')
  | named (name : String) {body body' : Option TypeId} : Option.Rel R body body' →
    DescAlike R (.named ⟨name, body⟩) (.named ⟨name, body'⟩)
  | native (name : String) {body body' : Option TypeId} : Option.Rel R body body' →
    DescAlike R (.native ⟨name, body⟩) (.native ⟨name, body'⟩)

theorem MemberAlike.mono {R R' : TypeId → TypeId → Prop} (h : ∀ a b, R a b → R' a b) {m m' : Member}
    (hm : MemberAlike R m m') : MemberAlike R' m m' :=
  ⟨hm.name, h _ _ hm.type, hm.tag, hm.embedded⟩

theorem DescAlike.mono {R R' : TypeId → TypeId → Prop} (h : ∀ a b, R a b → R' a b) {d d' : TypeDesc}
    (hd : DescAlike R d d') : DescAlike R' d d' := by
  have hrel {x y : Option TypeId} (hxy : Option.Rel R x y) : Option.Rel R' x y := by
    cases hxy with
    | some hab => exact .some (h _ _ hab)
    | none => exact .none
  cases hd with
  | scalar kind => exact .scalar kind
  | duration => exact .duration
  | pointer hab => exact .pointer (h _ _ hab)
  | struct hms => exact .struct (hms.imp fun _ _ hm => hm.mono h)
  | sequence kind hab => exact .sequence kind (h _ _ hab)
  | mapping hk hv => exact .mapping (h _ _ hk) (h _ _ hv)
  | named name hbody => exact .named name (hrel hbody)
  | native name hbody => exact .native name (hrel hbody)

/-- **A relation between the numbers of two tables with the same types**, whose structs may have their members in different
orders. -/
structure Likeness (t t' : TypeTable) (R : TypeId → TypeId → Prop) : Prop where
  describes : ∀ {a b}, R a b →
    ∃ d d₁ d', t.get? a = some d ∧ t'.get? b = some d' ∧ d.Shuffles d₁ ∧ DescAlike R d₁ d'
  left : ∀ {a a' b}, R a b → R a' b → t.isStruct a = false → a = a'
  right : ∀ {a b b'}, R a b → R a b' → t.isStruct a = false → b = b'

theorem mem_iff_of_forall₂ {α β : Type} {R : α → β → Prop} {a : α} {b : β} (hleft : ∀ a', R a' b → a = a')
    (hright : ∀ b', R a b' → b = b') {l : List α} {l' : List β} (h : List.Forall₂ R l l') : a ∈ l ↔ b ∈ l' := by
  induction h with
  | nil => exact iff_of_false List.not_mem_nil List.not_mem_nil
  | cons hcd _ ih =>
    rw [List.mem_cons, List.mem_cons, ih]
    refine or_congr_left ⟨fun heq => ?_, fun heq => ?_⟩
    · exact hright _ (heq ▸ hcd)
    · exact hleft _ (heq ▸ hcd)

namespace Likeness

variable {t t' : TypeTable} {R : TypeId → TypeId → Prop} {a b : TypeId}

theorem lt_size (h : t.Likeness t' R) (hab : R a b) : a < t.size ∧ b < t'.size := by
  obtain ⟨d, d₁, d', hd, hd', -⟩ := h.describes hab
  exact ⟨get?_lt hd, get?_lt hd'⟩

theorem members (h : t.Likeness t' R) (hab : R a b) {ms : List Member} (hms : t.get? a = some (.struct ms)) :
    ∃ ms₁ ms', t'.get? b = some (.struct ms') ∧ ms.Perm ms₁ ∧ List.Forall₂ (MemberAlike R) ms₁ ms' := by
  obtain ⟨d, d₁, d', hd, hd', hshuffles, halike⟩ := h.describes hab
  rw [hms] at hd
  cases hd
  cases hshuffles with
  | same =>
    cases halike with
    | struct hms' => exact ⟨ms, _, hd', .refl ms, hms'⟩
  | struct hperm =>
    cases halike with
    | struct hms' => exact ⟨_, _, hd', hperm, hms'⟩

theorem describes_of_not_struct (h : t.Likeness t' R) (hab : R a b) (hnot : t.isStruct a = false) :
    ∃ d d', t.get? a = some d ∧ t'.get? b = some d' ∧ DescAlike R d d' := by
  obtain ⟨d, d₁, d', hd, hd', hshuffles, halike⟩ := h.describes hab
  cases hshuffles with
  | same => exact ⟨d, d', hd, hd', halike⟩
  | struct _ =>
    rw [(isStruct_iff _ _).2 ⟨_, hd⟩] at hnot
    cases hnot

theorem mem_iff (h : t.Likeness t' R) {l l' : List TypeId} (hl : List.Forall₂ R l l') (hab : R a b)
    (hnot : t.isStruct a = false) : a ∈ l ↔ b ∈ l' :=
  mem_iff_of_forall₂ (fun _ hab' => h.left hab hab' hnot) (fun _ hab' => h.right hab hab' hnot) hl

/-! ## Flags and names -/

theorem isNative_eq (h : t.Likeness t' R) (hab : R a b) : t.isNative a = t'.isNative b := by
  obtain ⟨d, d₁, d', hd, hd', hshuffles, halike⟩ := h.describes hab
  unfold isNative
  rw [hd, hd']
  cases hshuffles <;> cases halike <;> rfl

theorem isStruct_eq (h : t.Likeness t' R) (hab : R a b) : t.isStruct a = t'.isStruct b := by
  obtain ⟨d, d₁, d', hd, hd', hshuffles, halike⟩ := h.describes hab
  unfold isStruct
  rw [hd, hd']
  cases hshuffles <;> cases halike <;> rfl

theorem nameOf_eq (h : t.Likeness t' R) (hab : R a b) : t.nameOf a = t'.nameOf b := by
  obtain ⟨d, d₁, d', hd, hd', hshuffles, halike⟩ := h.describes hab
  unfold nameOf declared?
  rw [hd, hd']
  cases hshuffles <;> cases halike <;> rfl

/-! ## Chains -/

theorem bodyOf (h : t.Likeness t' R) (hab : R a b) : Option.Rel R (t.bodyOf a) (t'.bodyOf b) := by
  obtain ⟨d, d₁, d', hd, hd', hshuffles, halike⟩ := h.describes hab
  unfold TypeTable.bodyOf declared?
  rw [hd, hd']
  cases hshuffles with
  | same =>
    cases halike with
    | named name hbody => exact hbody
    | native name hbody => exact hbody
    | _ => exact .none
  | struct =>
    cases halike
    exact .none

theorem next (h : t.Likeness t' R) (hab : R a b) : R (t.next a) (t'.next b) := by
  have hbody := h.bodyOf hab
  unfold TypeTable.next
  generalize t.bodyOf a = body, t'.bodyOf b = body' at hbody
  cases hbody with
  | none => exact hab
  | some hcd => exact hcd

theorem iterate_next (h : t.Likeness t' R) (hab : R a b) : ∀ n : Nat, R (t.next^[n] a) (t'.next^[n] b)
  | 0 => hab
  | n + 1 => by
    rw [iterate_succ_apply', iterate_succ_apply']
    exact h.next (h.iterate_next hab n)

/-- **Related chains end at related types**, although the tables may differ in size and so in the steps that are made. -/
theorem underlying (h : t.Likeness t' R) (hs : t.Sound) (hs' : t'.Sound) (hab : R a b) :
    R (t.underlying a) (t'.underlying b) := by
  have hend : ∀ {u : TypeTable}, u.Sound → ∀ id k, u.underlying id = u.next^[k + (u.size + 1)] id := by
    intro u hu id k
    have hnone := hu.chain_ends id
    rw [underlying_eq_iterate] at hnone ⊢
    rw [iterate_add_apply u.next k, iterate_next_of_none hnone]
  rw [hend hs a (t'.size + 1), hend hs' b (t.size + 1), Nat.add_comm (t.size + 1)]
  exact h.iterate_next hab _

theorem emptinessTest_eq (h : t.Likeness t' R) (hs : t.Sound) (hs' : t'.Sound) (hab : R a b) :
    t.emptinessTest a = t'.emptinessTest b := by
  obtain ⟨d, d₁, d', hd, hd', hshuffles, halike⟩ := h.describes (h.underlying hs hs' hab)
  unfold emptinessTest underlyingDesc
  rw [hd, hd']
  cases hshuffles <;> cases halike <;> rfl

theorem isStringKey_eq (h : t.Likeness t' R) (hs : t.Sound) (hs' : t'.Sound) (hab : R a b) :
    t.isStringKey a = t'.isStringKey b := by
  obtain ⟨d, d₁, d', hd, hd', hshuffles, halike⟩ := h.describes (h.underlying hs hs' hab)
  unfold isStringKey underlyingDesc
  rw [hd, hd']
  cases hshuffles <;> cases halike <;> simp

end Likeness
end TypeTable
end BencodePlan
