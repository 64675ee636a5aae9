import BencodePlan.Proofs.Types.Likeness
import BencodePlan.Proofs.Shape.Circles
/-!
# Shapes of types that are alike

Nothing in a shape or in a reason against one is a number of a type.  So where two tables show related types alike and
give related structs the same fields in writing order, the opening of a type makes the calls that the opening of the related
one makes (`Simulates.result_shapeStep_eq`), and both come to the same shape or fail for the same reason
(`Simulates.result_shapeAt_eq`).  What the tables have to agree on is asked for `Good` types only, as long as a good type
leads to good ones (`Simulates`).
-/
namespace BencodePlan

/-- The same field, with a type that has another number. -/
structure FieldAlike (R : TypeId → TypeId → Prop) (f f' : Field) : Prop where
  name : f.name = f'.name
  path : f.path = f'.path
  type : R f.type f'.type
  tag : f.tag = f'.tag

namespace FieldAlike

variable {R : TypeId → TypeId → Prop} {f f' : Field}

theorem key (h : FieldAlike R f f') : f.key = f'.key := by
  unfold Field.key
  rw [h.tag, h.name]

theorem omitEmpty (h : FieldAlike R f f') : f.omitEmpty = f'.omitEmpty := by
  unfold Field.omitEmpty
  rw [h.tag]

end FieldAlike

namespace Compile

theorem result_bind_congr {α β : Type} {x y : Compile α} {f g : α → Compile β} (hxy : result x = result y)
    (hfg : ∀ a, result (f a) = result (g a)) : result (x >>= f) = result (y >>= g) := by
  rw [result_bind, result_bind, hxy]
  cases result y with
  | ok a => exact hfg a
  | error e => rfl

theorem result_mapM_congr {α β γ : Type} {f : α → Compile γ} {g : β → Compile γ} {l : List α} {l' : List β}
    (h : List.Forall₂ (fun a b => result (f a) = result (g b)) l l') : result (l.mapM f) = result (l'.mapM g) := by
  induction h with
  | nil => rfl
  | cons hab _ ih =>
    rw [List.mapM_cons, List.mapM_cons]
    exact result_bind_congr hab fun _ => result_bind_congr ih fun _ => rfl

end Compile

namespace TypeTable

open Compile

variable {t t' : TypeTable} {R : TypeId → TypeId → Prop} {Good : TypeId → Prop}

/-! ## Fields -/

theorem MemberAlike.value_readTag {m m' : Member} (hm : MemberAlike R m m') (location : String) :
    (Field.readTag location m).value = (Field.readTag location m').value := by
  unfold Field.readTag
  rw [hm.tag]

theorem writingOrder_alike {fs fs' : List Field} (h : List.Forall₂ (FieldAlike R) fs fs') :
    List.Forall₂ (FieldAlike R) (writingOrder fs) (writingOrder fs') := by
  have hfst : (fs.zip fs').map Prod.fst = fs := List.map_fst_zip (Nat.le_of_eq h.length_eq)
  have hsnd : (fs.zip fs').map Prod.snd = fs' := List.map_snd_zip (Nat.le_of_eq h.length_eq.symm)
  have halike : ∀ p ∈ fs.zip fs', FieldAlike R p.1 p.2 := fun p hp => List.forall₂_zip h hp
  have hleft : ((fs.zip fs').mergeSort fun p q => p.1.name ≤ q.1.name).map Prod.fst = writingOrder fs := by
    rw [List.map_mergeSort (f := Prod.fst) (s := fun f g : Field => f.name ≤ g.name) fun _ _ _ _ => rfl, hfst]
    rfl
  have hright : ((fs.zip fs').mergeSort fun p q => p.1.name ≤ q.1.name).map Prod.snd = writingOrder fs' := by
    have hle : ∀ p ∈ fs.zip fs', ∀ q ∈ fs.zip fs', decide (p.1.name ≤ q.1.name) = decide (p.2.name ≤ q.2.name) := by
      intro p hp q hq
      rw [(halike p hp).name, (halike q hq).name]
    rw [List.map_mergeSort (f := Prod.snd) (s := fun f g : Field => f.name ≤ g.name) hle, hsnd]
    rfl
  rw [← hleft, ← hright, List.forall₂_map_left_iff, List.forall₂_map_right_iff]
  exact List.forall₂_same.2 fun p hp => halike p (List.mem_mergeSort.1 hp)

/-! ## Walks -/

/-- **Tables between which openings cannot tell**, as long as they begin at good types. -/
structure Simulates (t t' : TypeTable) (R : TypeId → TypeId → Prop) (Good : TypeId → Prop) : Prop
    extends Likeness t t' R where
  sound : t.Sound
  sound' : t'.Sound
  follows : ∀ {a c}, Good a → t.Follows a c → Good c
  display_eq : ∀ {a b}, R a b → t.isStruct a = false → t.display a = t'.display b
  fields : ∀ {a b}, R a b → Good a → t.isStruct a = true →
    List.Forall₂ (FieldAlike R) (writingOrder (t.fieldsOf a)) (writingOrder (t'.fieldsOf b))

/-- **Walks side by side**, through related types and with the same to tell of them. -/
structure Together (t t' : TypeTable) (R : TypeId → TypeId → Prop) (Good : TypeId → Prop) (w w' : Walk) : Prop where
  good : Good w.current
  current : R w.current w'.current
  expanding : List.Forall₂ R w.expanding w'.expanding
  unwraps : w.unwraps = w'.unwraps
  top : t.display w.top = t'.display w'.top
  owner : w.owner.getD (t.display w.current) = w'.owner.getD (t'.display w'.current)

namespace Simulates

theorem slotOf_eq (h : t.Simulates t' R Good) {f f' : Field} (hf : FieldAlike R f f') (hnot : t.isStruct f.type = false)
    (owner : String) : t.slotOf owner f = t'.slotOf owner f' := by
  unfold slotOf
  rw [hf.omitEmpty, hf.name, hf.path, hf.key, h.emptinessTest_eq h.sound h.sound' hf.type, h.display_eq hf.type hnot]

theorem startWalk (h : t.Simulates t' R Good) {expanding expanding' : List TypeId}
    (hexpanding : List.Forall₂ R expanding expanding') {a b : TypeId} (hab : R a b) (hgood : Good a)
    (hshown : t.display a = t'.display b) : Together t t' R Good (t.startWalk expanding a) (t'.startWalk expanding' b) := by
  refine ⟨hgood, hab, hexpanding, rfl, hshown, ?_⟩
  simp only [TypeTable.startWalk, h.nameOf_eq hab, hshown]

theorem deref (h : t.Simulates t' R Good) {w w' : Walk} (hw : Together t t' R Good w w') {a b : TypeId} (hab : R a b)
    (hgood : Good a) (hnot : t.isStruct a = false) : Together t t' R Good (t.deref w a) (t'.deref w' b) := by
  refine ⟨hgood, hab, hw.expanding, hw.unwraps, hw.top, ?_⟩
  simp only [TypeTable.deref, h.nameOf_eq hab, h.display_eq hab hnot]

theorem unwrap (h : t.Simulates t' R Good) {w w' : Walk} (hw : Together t t' R Good w w') {d : Declared}
    (hd : t.get? w.current = some (.named d)) : Together t t' R Good (t.unwrap w) (t'.unwrap w') := by
  have hname : t.nameOf w.current = some d.name := by
    unfold nameOf
    rw [declared?_of_get? hd]
    rfl
  refine ⟨h.follows hw.good (.base hd), h.underlying h.sound h.sound' hw.current, .cons hw.current hw.expanding,
    congrArg (· + 1) hw.unwraps, hw.top, ?_⟩
  simp only [TypeTable.unwrap, ← h.nameOf_eq hw.current, hname, Option.getD_some]

section

variable {w w' : Walk} {go go' : Walk → Compile Shape}

theorem result_shapeStep_struct (h : t.Simulates t' R Good) (hw : Together t t' R Good w w') {ms ms' : List Member}
    (hd : t.get? w.current = some (.struct ms)) (hd' : t'.get? w'.current = some (.struct ms'))
    (hgo : ∀ v, t.Calls w v → ∀ v', Together t t' R Good v v' → result (go v) = result (go' v')) :
    result (t.shapeStep go w) = result (t'.shapeStep go' w') := by
  unfold shapeStep
  simp only [hd, hd', hw.owner]
  rw [result_bind, result_bind, result_lift, result_lift, value_collect (underlying_of_not_declared hd rfl),
    value_collect (underlying_of_not_declared hd' rfl)]
  refine result_bind_congr (result_mapM_congr ?_) fun _ => rfl
  have hmem : ∀ f ∈ writingOrder (t.fieldsOf w.current), f ∈ t.fieldsOf w.current := fun _ => mem_writingOrder.1
  have hfields := h.fields hw.current hw.good ((isStruct_iff _ _).2 ⟨ms, hd⟩)
  refine ((List.forall₂_and_left _ _).2 ⟨hmem, hfields⟩).imp fun f f' hf => ?_
  have hcall := Calls.field hd hf.1
  have hnot := (isStruct_of_mem_fieldsOf h.sound.toFormed hf.1).2
  have hstart := h.startWalk hw.expanding hf.2.type (h.follows hw.good hcall.follows) (h.display_eq hf.2.type hnot)
  refine result_bind_congr (hgo _ hcall _ hstart) fun _ => ?_
  rw [h.slotOf_eq hf.2 hnot]

theorem result_shapeStep_named (h : t.Simulates t' R Good) (hw : Together t t' R Good w w') {d d' : Declared}
    (hd : t.get? w.current = some (.named d)) (hd' : t'.get? w'.current = some (.named d'))
    (hgo : ∀ v, t.Calls w v → ∀ v', Together t t' R Good v v' → result (go v) = result (go' v')) :
    result (t.shapeStep go w) = result (t'.shapeStep go' w') := by
  have hstruct := isStruct_of_isDeclared hd rfl
  have hshown := h.display_eq hw.current hstruct
  have hunwraps := hw.unwraps
  have hmem := h.mem_iff hw.expanding hw.current hstruct
  have hne := h.sound.underlying_ne_self hd
  have hne' := h.sound'.underlying_ne_self hd'
  unfold shapeStep
  simp only [hd, hd', hne, hne', false_or, hunwraps, hw.top, hshown, hmem]
  by_cases hstop : w'.unwraps = maxUnwraps
  · rw [if_pos hstop, if_pos hstop]
  · rw [if_neg hstop, if_neg hstop]
    by_cases hopen : w'.current ∈ w'.expanding
    · rw [if_neg (not_not.2 hopen), if_neg (not_not.2 hopen)]
    · have hnew : w.current ∉ w.expanding := fun hm => hopen (hmem.1 hm)
      rw [if_pos hopen, if_pos hopen]
      exact hgo _ (.unwrap hd (hunwraps ▸ hstop) hnew) _ (h.unwrap hw hd)

/-- **One step of walks side by side has the same result**, if what it calls has. -/
theorem result_shapeStep_eq (h : t.Simulates t' R Good) (hw : Together t t' R Good w w')
    (hgo : ∀ v, t.Calls w v → ∀ v', Together t t' R Good v v' → result (go v) = result (go' v')) :
    result (t.shapeStep go w) = result (t'.shapeStep go' w') := by
  have hgood {v : Walk} (hc : t.Calls w v) : Good v.current := h.follows hw.good hc.follows
  cases hstruct : t.isStruct w.current with
  | true =>
    obtain ⟨ms, hd⟩ := (isStruct_iff _ _).1 hstruct
    obtain ⟨_, ms', hd', -, -⟩ := h.members hw.current hd
    exact h.result_shapeStep_struct hw hd hd' hgo
  | false =>
    obtain ⟨d, d', hd, hd', halike⟩ := h.describes_of_not_struct hw.current hstruct
    have hpart {c : TypeId} (hc : c ∈ d.parts) : t.isStruct c = false := h.sound.part_struct hd hc
    have hshown := h.display_eq hw.current hstruct
    cases halike with
    | named name _ => exact h.result_shapeStep_named hw hd hd' hgo
    | struct _ =>
      rw [(isStruct_iff _ _).2 ⟨_, hd⟩] at hstruct
      cases hstruct
    | native name _ =>
      unfold shapeStep
      simp only [hd, hd']
      rfl
    | duration =>
      unfold shapeStep
      simp only [hd, hd']
    | scalar kind =>
      unfold shapeStep
      cases kind with
      | float kind =>
        simp only [hd, hd', underlying_of_not_declared hd rfl, underlying_of_not_declared hd' rfl, true_or, if_true,
          hw.top]
      | _ => simp only [hd, hd']
    | pointer hab =>
      unfold shapeStep
      simp only [hd, hd']
      have hcall := Calls.target hd
      exact result_bind_congr (hgo _ hcall _ (h.deref hw hab (hgood hcall) (hpart List.mem_cons_self))) fun _ => rfl
    | sequence kind hab =>
      unfold shapeStep
      simp only [hd, hd']
      have hcall := Calls.element hd
      have helement := h.display_eq hab (hpart List.mem_cons_self)
      exact result_bind_congr (hgo _ hcall _ (h.startWalk hw.expanding hab (hgood hcall) helement)) fun _ => rfl
    | mapping hk hv =>
      have hkey := h.display_eq hk (hpart List.mem_cons_self)
      have hvalue := h.display_eq hv (hpart (List.mem_cons_of_mem _ List.mem_cons_self))
      unfold shapeStep
      simp only [hd, hd', h.isStringKey_eq h.sound h.sound' hk, hshown, hkey, h.nameOf_eq hk]
      split
      · have hcall := Calls.key hd
        have hcall' := Calls.value hd
        exact result_bind_congr (hgo _ hcall _ (h.startWalk hw.expanding hk (hgood hcall) hkey)) fun _ =>
          result_bind_congr (hgo _ hcall' _ (h.startWalk hw.expanding hv (hgood hcall') hvalue)) fun _ => rfl
      · rfl

/-- **Walks side by side have the same result.** -/
theorem result_shapeAt_eq (h : t.Simulates t' R Good) (hw : Together t t' R Good w w') :
    result (t.shapeAt w) = result (t'.shapeAt w') := by
  refine h.sound.walk_induction (P := fun w => ∀ w', Together t t' R Good w w' →
    result (t.shapeAt w) = result (t'.shapeAt w')) (fun w hlt ih w' hw => ?_) w (h.lt_size hw.current).1 w' hw
  rw [shapeAt_eq h.sound hlt, shapeAt_eq h.sound' (h.lt_size hw.current).2]
  exact h.result_shapeStep_eq hw ih

end

/-- **Related types have the same shape**, or fail for the same reason, if they are shown alike. -/
theorem result_shape_eq (h : t.Simulates t' R Good) {a b : TypeId} (hab : R a b) (hgood : Good a)
    (hshown : t.display a = t'.display b) : result (t.shape a) = result (t'.shape b) :=
  h.result_shapeAt_eq (h.startWalk .nil hab hgood hshown)

theorem result_compile_eq (h : t.Simulates t' R Good) {a b : TypeId} (hab : R a b) (hgood : Good a)
    (hshown : t.display a = t'.display b) (name : String) : result (t.compile name a) = result (t'.compile name b) := by
  rw [result_compile, result_compile, h.result_shape_eq hab hgood hshown]

end Simulates
end TypeTable
end BencodePlan
