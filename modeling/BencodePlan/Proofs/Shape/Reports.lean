import BencodePlan.Proofs.Member.Reports
import BencodePlan.Proofs.Shape.Walk
/-!
# What the opening of a type reports

Only where a struct body is opened is anything reported: what the collection of its fields reports, under the name that the
walk has for it (`shapeAt_reports`).  A struct body is a part of no type, so a walk gets to one through a declared type that
is built on it, and the name is that of the declared type (`Calls.introduced`).
-/
namespace BencodePlan
namespace Compile

open Noted

variable {α β : Type} {P : Diagnostic → Prop}

def ReportsOnly (P : Diagnostic → Prop) (x : Compile α) : Prop := x.run.ReportsOnly P

theorem reportsOnly_pure (a : α) : ReportsOnly P (pure a) := Noted.reportsOnly_pure _

theorem reportsOnly_throw (e : CompileError) : ReportsOnly P (throw e : Compile α) := Noted.reportsOnly_pure _

theorem reportsOnly_tell {n : Notice} (h : n.report? = none) : ReportsOnly P (tell n) :=
  (Noted.reportsOnly_tell h).bind fun _ => Noted.reportsOnly_pure _

theorem reportsOnly_lift {x : Noted α} (h : x.ReportsOnly P) : ReportsOnly P (ExceptT.lift x) :=
  h.bind fun _ => Noted.reportsOnly_pure _

theorem reportsOnly_mk_pure (r : Except CompileError α) : ReportsOnly P (ExceptT.mk (pure r)) := Noted.reportsOnly_pure _

theorem ReportsOnly.bind {x : Compile α} {f : α → Compile β} (hx : ReportsOnly P x)
    (hf : ∀ a, x.run.value = .ok a → ReportsOnly P (f a)) : ReportsOnly P (x >>= f) := by
  refine (Noted.reportsOnly_bind x.run (ExceptT.bindCont f)).2 ⟨hx, ?_⟩
  cases hr : x.run.value with
  | ok a => exact hf a hr
  | error e => exact Noted.reportsOnly_pure _

theorem reportsOnly_mapM {f : α → Compile β} : ∀ {l : List α}, (∀ a ∈ l, ReportsOnly P (f a)) → ReportsOnly P (l.mapM f)
  | [], _ => reportsOnly_pure []
  | a :: l, h => by
    rw [List.forall_mem_cons] at h
    rw [List.mapM_cons]
    exact h.1.bind fun _ _ => (reportsOnly_mapM h.2).bind fun _ _ => reportsOnly_pure _

end Compile

namespace TypeTable

open Compile

variable {t : TypeTable}

/-- **The opening of a type reports what is reported of the struct bodies it opens**, each under the name that the walk has
for it there.  `I` is what is known of the walk, which every call must keep. -/
theorem shapeAt_reports (h : t.Sound) {P : Diagnostic → Prop} {I : Walk → Prop} (hI : ∀ w w', I w → t.Calls w w' → I w')
    (hP : ∀ w, I w → t.isStruct w.current = true →
      ∀ d, Field.Reported t (w.owner.getD (t.display w.current)) w.current d → P d) {w : Walk}
    (hw : w.current < t.size) (hIw : I w) : ReportsOnly P (t.shapeAt w) := by
  refine h.walk_induction (P := fun w => I w → ReportsOnly P (t.shapeAt w)) (fun w hw ih hIw => ?_) w hw hIw
  have hcall : ∀ w', t.Calls w w' → ReportsOnly P (t.shapeAt w') := fun w' hc => ih w' hc (hI w w' hIw hc)
  rw [shapeAt_eq h hw]
  obtain ⟨d, hget⟩ := exists_get? hw
  unfold shapeStep
  cases d with
  | native d =>
    simp only [hget]
    exact (reportsOnly_tell rfl).bind fun _ _ => reportsOnly_pure _
  | duration =>
    simp only [hget]
    exact reportsOnly_pure _
  | scalar kind =>
    cases kind with
    | float kind =>
      simp only [hget, underlying_of_not_declared hget rfl, true_or, if_true]
      exact reportsOnly_throw _
    | _ =>
      simp only [hget]
      exact reportsOnly_pure _
  | pointer target =>
    simp only [hget]
    exact (hcall _ (.target hget)).bind fun _ _ => reportsOnly_pure _
  | sequence element kind =>
    simp only [hget]
    exact (hcall _ (.element hget)).bind fun _ _ => reportsOnly_pure _
  | mapping k v =>
    simp only [hget]
    split
    · exact (hcall _ (.key hget)).bind fun _ _ => (hcall _ (.value hget)).bind fun _ _ => reportsOnly_pure _
    · exact reportsOnly_throw _
  | struct members =>
    simp only [hget]
    have hbody := underlying_of_not_declared hget rfl
    have hcollect : (Field.collect t (w.owner.getD (t.display w.current)) w.current).ReportsOnly P :=
      (Field.collect_reports t _ w.current).imp fun d hd =>
        hP w hIw ((isStruct_iff _ _).2 ⟨members, hget⟩) d (by rwa [hbody] at hd)
    refine (reportsOnly_lift hcollect).bind fun fields hfields => ?_
    have hvalue : (ExceptT.lift (Field.collect t (w.owner.getD (t.display w.current)) w.current) :
        Compile (List Field)).run.value = .ok (t.fieldsOf w.current) :=
      congrArg Except.ok (value_collect hbody _)
    rw [hvalue] at hfields
    cases hfields
    refine (reportsOnly_mapM fun f hf => ?_).bind fun _ _ => reportsOnly_pure _
    exact (hcall _ (.field hget (mem_writingOrder.1 hf))).bind fun _ _ =>
      (reportsOnly_mk_pure _).bind fun _ _ => reportsOnly_pure _
  | named d =>
    simp only [hget]
    split
    · exact reportsOnly_throw _
    · rename_i hgo
      split
      · rename_i hnew
        exact hcall _ (.unwrap hget (fun hu => hgo (Or.inr hu)) hnew)
      · exact reportsOnly_throw _

/-- **A declared type that is built on a body** has a name for it. -/
def Names (t : TypeTable) (owner : String) (body : TypeId) : Prop := ∃ id, t.nameOf id = some owner ∧ t.underlying id = body

/-- A walk that is at a struct body has come there through a declared type, and has its name. -/
def Introduced (t : TypeTable) (w : Walk) : Prop :=
  t.isStruct w.current = true → ∃ owner, w.owner = some owner ∧ t.Names owner w.current

theorem introduced_of_not_struct {w : Walk} (h : t.isStruct w.current = false) : t.Introduced w := by
  intro hs
  rw [h] at hs
  cases hs

/-- **Every call gets to a struct body through a declared type**, or to none. -/
theorem Calls.introduced (h : t.Formed) {w w' : Walk} (hc : t.Calls w w') : t.Introduced w' := by
  cases hc with
  | target hget => exact introduced_of_not_struct (h.part_struct hget (List.mem_singleton.2 rfl))
  | element hget => exact introduced_of_not_struct (h.part_struct hget (List.mem_singleton.2 rfl))
  | key hget => exact introduced_of_not_struct (h.part_struct hget List.mem_cons_self)
  | value hget => exact introduced_of_not_struct (h.part_struct hget (List.mem_cons_of_mem _ (List.mem_singleton.2 rfl)))
  | field hget hf => exact introduced_of_not_struct (isStruct_of_mem_fieldsOf h hf).2
  | @unwrap d hget _ _ =>
    intro _
    have hname : t.nameOf w.current = some d.name := by
      rw [nameOf, declared?_of_get? hget]
      rfl
    exact ⟨d.name, hname, w.current, hname, rfl⟩

end TypeTable
end BencodePlan
