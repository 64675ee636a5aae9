import BencodePlan.Member.Field
import BencodePlan.Proofs.Reports
/-!
# What collection reports

A report about a member is placed by the name that its struct goes by where it is found: the name the collection began with,
or the name of the embedded member through which the struct is reached.  `Reported` lists the reports that a struct can give
rise to under a name; collection makes no others (`collectFrom_reports`), and none of them is an error.
-/
namespace BencodePlan
namespace Field

open Noted

def malformedTag (location text : String) (e : Tag.Error) : Diagnostic :=
  .pointing .malformedTag location e.fault.message text e.span e.fault.label

/-- **What is reported of a struct body that goes by a name.** -/
inductive Reported (t : TypeTable) : String → TypeId → Diagnostic → Prop
  | tag {owner text : String} {body : TypeId} {ms : List Member} {m : Member} {e : Tag.Error} :
      t.get? body = some (.struct ms) → m ∈ ms → m.tag = some text → Tag.parse text = .error e →
      Reported t owner body (malformedTag (owner ++ "." ++ m.name) text e)
  | embedding {owner detail : String} {body : TypeId} {ms : List Member} {m : Member} :
      t.get? body = some (.struct ms) → m ∈ ms → m.embedded = true →
      Reported t owner body (.plain .unsupportedEmbedding (owner ++ "." ++ m.name) detail)
  | embeddedTag {owner : String} {body : TypeId} {ms : List Member} {m : Member} :
      t.get? body = some (.struct ms) → m ∈ ms → m.embedded = true →
      Reported t owner body (.report .tagOnEmbeddedField (owner ++ "." ++ m.name) none none)
  | inside {owner : String} {body : TypeId} {ms : List Member} {m : Member} {d : Diagnostic} :
      t.get? body = some (.struct ms) → m ∈ ms → m.embedded = true → t.isStruct (t.underlying m.type) = true →
      Reported t m.name (t.underlying m.type) d → Reported t owner body d

theorem Reported.isError_eq {t : TypeTable} {owner : String} {body : TypeId} {d : Diagnostic}
    (h : Reported t owner body d) : d.isError = false := by
  induction h with
  | tag | embedding | embeddedTag => rfl
  | inside _ _ _ _ _ ih => exact ih

theorem readTag_reports {P : Diagnostic → Prop} {location : String} {m : Member}
    (h : ∀ text e, m.tag = some text → Tag.parse text = .error e → P (malformedTag location text e)) :
    (readTag location m).ReportsOnly P := by
  unfold readTag
  cases htag : m.tag with
  | none => exact reportsOnly_pure _
  | some text =>
    simp only
    cases hparse : Tag.parse text with
    | ok tag => exact reportsOnly_pure _
    | error e => exact (reportsOnly_report.2 (h text e htag hparse)).bind fun _ => reportsOnly_pure _

/-- **Collection reports nothing else.** -/
theorem collectFrom_reports (t : TypeTable) (opened : List TypeId) (path : List String) (owner : String) (body : TypeId) :
    (collectFrom t opened path owner body).ReportsOnly (Reported t owner body) := by
  rw [collectFrom]
  by_cases hnew : body < t.size ∧ body ∉ opened
  · have hinner : ∀ path owner inner, (collectFrom t (body :: opened) path owner inner).ReportsOnly (Reported t owner inner) :=
      fun path owner inner => collectFrom_reports t (body :: opened) path owner inner
    rw [dif_pos hnew]
    split
    · rename_i ms hget
      refine (reportsOnly_mapM fun m hm => ?_).bind fun _ => reportsOnly_pure _
      have htag : (readTag (owner ++ "." ++ m.name) m).ReportsOnly (Reported t owner body) :=
        readTag_reports fun text e htext hparse => .tag hget hm htext hparse
      refine htag.bind fun tag => ?_
      simp only
      split
      · rename_i hembedded
        split
        · exact (reportsOnly_report.2 (.embedding hget hm hembedded)).bind fun _ => reportsOnly_pure _
        · rename_i hstruct
          have hflat : (collectFrom t (body :: opened) (path ++ [m.name]) m.name (t.underlying m.type)).ReportsOnly
              (Reported t owner body) :=
            (hinner _ _ _).imp fun d hd => .inside hget hm hembedded (by simpa using hstruct) hd
          split
          · exact (reportsOnly_report.2 (.embedding hget hm hembedded)).bind fun _ => reportsOnly_pure _
          · split
            · exact (reportsOnly_report.2 (.embeddedTag hget hm hembedded)).bind fun _ =>
                (reportsOnly_tell rfl).bind fun _ => hflat
            · exact (reportsOnly_tell rfl).bind fun _ => hflat
      · exact reportsOnly_pure _
    · exact reportsOnly_pure _
  · rw [dif_neg hnew]
    exact reportsOnly_pure _
termination_by t.unseen opened
decreasing_by exact t.unseen_cons_lt hnew.1 hnew.2

theorem collect_reports (t : TypeTable) (owner : String) (id : TypeId) :
    (collect t owner id).ReportsOnly (Reported t owner (t.underlying id)) :=
  collectFrom_reports t [] [] owner (t.underlying id)

theorem hasTagged_reports (t : TypeTable) (owner : String) (id : TypeId) :
    (hasTagged t owner id).ReportsOnly (Reported t owner (t.underlying id)) :=
  (collect_reports t owner id).bind fun _ => reportsOnly_pure _

end Field
end BencodePlan
