import BencodePlan.Proofs.Reports
import BencodePlan.Proofs.Types.Places
import BencodePlan.Schema.Lower
/-!
# What lowering reports

Lowering points into a text only where it reads a type expression: at what is wrong with the text, or at a name in it that is
not declared.  `Reported` lists these and the reports that point at nothing, and lowering makes no others, from whatever
table it goes on (`lowerAll_reports`).
-/
namespace BencodePlan
namespace Lower

variable {α β : Type} {P : Diagnostic → Prop}

/-- **Lowering that reports nothing but what has a property**, whatever the table is. -/
def ReportsOnly (P : Diagnostic → Prop) (m : Lower α) : Prop := ∀ t, (m t).ReportsOnly P

theorem reportsOnly_pure (a : α) : ReportsOnly P (pure a : Lower α) := fun _ => Noted.reportsOnly_pure _

theorem ReportsOnly.bind {m : Lower α} {f : α → Lower β} (hm : ReportsOnly P m) (hf : ∀ a, ReportsOnly P (f a)) :
    ReportsOnly P (m >>= f) :=
  fun t => Noted.ReportsOnly.bind (hm t) fun p => hf p.1 p.2

theorem ReportsOnly.map {m : Lower α} (hm : ReportsOnly P m) (f : α → β) : ReportsOnly P (f <$> m) :=
  fun t => Noted.ReportsOnly.bind (hm t) fun _ => Noted.reportsOnly_pure _

theorem reportsOnly_report {d : Diagnostic} (h : P d) : ReportsOnly P (report d) :=
  fun _ => Noted.ReportsOnly.bind (Noted.reportsOnly_report.2 h) fun _ => Noted.reportsOnly_pure _

theorem reportsOnly_intern (d : TypeDesc) : ReportsOnly P (intern d) := fun _ => Noted.reportsOnly_pure _

theorem reportsOnly_get : ReportsOnly P (get : Lower TypeTable) := fun _ => Noted.reportsOnly_pure _

theorem reportsOnly_set (t : TypeTable) : ReportsOnly P (set t : Lower PUnit) := fun _ => Noted.reportsOnly_pure _

theorem reportsOnly_modify (f : TypeTable → TypeTable) : ReportsOnly P (modify f : Lower PUnit) :=
  fun _ => Noted.reportsOnly_pure _

theorem reportsOnly_forM {f : α → Lower PUnit} : ∀ l : List α, (∀ a, ReportsOnly P (f a)) → ReportsOnly P (l.forM f)
  | [], _ => reportsOnly_pure _
  | a :: l, h => (h a).bind fun _ => reportsOnly_forM l h

theorem reportsOnly_refuse {d : Diagnostic} (h : P d) : ReportsOnly P (do report d; pure (none : Option α)) :=
  (reportsOnly_report h).bind fun _ => reportsOnly_pure _

/-- **What lowering reports.** -/
inductive Reported : Diagnostic → Prop
  | plain (kind : DiagnosticKind) (location detail : String) : Reported (.plain kind location detail)
  | unknown {location name source : String} {span : Span} {e : TypeExpr} : TypeExpr.parse source = .ok e → span ∈ e.places →
      Reported (.pointing .unknownType location name source span "not declared")
  | malformed {location source : String} {e : TypeExpr.Error} : TypeExpr.parse source = .error e →
      Reported (.pointing .malformedTypeExpr location e.fault.message source e.span "here")

/-! ## Type expressions -/

theorem reportsOnly_around {m : Lower (Option TypeId)} (hm : ReportsOnly P m) (around : TypeId → TypeDesc) :
    ReportsOnly P (m >>= fun found => match found with
      | some id => some <$> intern (around id)
      | none => pure none) := by
  refine hm.bind fun found => ?_
  cases found with
  | some id => exact (reportsOnly_intern _).map _
  | none => exact reportsOnly_pure _

/-- **The names of an expression** are all that is reported of it. -/
theorem resolve_reports {location source : String} : ∀ {e : TypeExpr},
    (∀ span ∈ e.places, ∀ name, P (.pointing .unknownType location name source span "not declared")) →
    ReportsOnly P (resolve location source e)
  | .scalar kind, _ => (reportsOnly_intern _).map _
  | .duration, _ => (reportsOnly_intern _).map _
  | .option inner, h => reportsOnly_around (resolve_reports (e := inner) h) .pointer
  | .vec element, h => reportsOnly_around (resolve_reports (e := element) h) (.sequence · .slice)
  | .array element length, h => reportsOnly_around (resolve_reports (e := element) h) (.sequence · (.array length))
  | .map _ _, h => by
    obtain ⟨hkey, hvalue⟩ := List.forall_mem_append.1 h
    refine (resolve_reports hkey).bind fun k => (resolve_reports hvalue).bind fun v => ?_
    cases k with
    | none => exact reportsOnly_pure _
    | some k =>
      cases v with
      | none => exact reportsOnly_pure _
      | some v => exact (reportsOnly_intern _).map _
  | .named name span, h => by
    refine reportsOnly_get.bind fun t => ?_
    cases t.lookup name with
    | some id => exact reportsOnly_pure _
    | none => exact reportsOnly_refuse (h span (List.mem_singleton.2 rfl) name)

theorem resolveText_reports (location source : String) : ReportsOnly Reported (resolveText location source) := by
  unfold resolveText
  cases hparse : TypeExpr.parse source with
  | ok e => exact resolve_reports fun span hspan name => .unknown hparse hspan
  | error e => exact reportsOnly_refuse (.malformed hparse)

/-! ## Bodies -/

theorem lowerMember_reports (owner : String) (seen : List String) (field : RawField) :
    ReportsOnly Reported (lowerMember owner seen field) := by
  unfold lowerMember
  split
  · exact reportsOnly_refuse (.plain ..)
  · split
    · exact reportsOnly_refuse (.plain ..)
    · refine (resolveText_reports _ _).bind fun found => ?_
      cases found <;> exact reportsOnly_pure _

theorem lowerMembers_reports (owner : String) : ∀ (seen : List String) (fields : List RawField),
    ReportsOnly Reported (lowerMembers owner seen fields)
  | _, [] => reportsOnly_pure _
  | seen, field :: rest => (lowerMember_reports owner seen field).bind fun _ =>
      (lowerMembers_reports owner _ rest).bind fun _ => reportsOnly_pure _

theorem lowerBody_reports (decl : RawDecl) : ReportsOnly Reported (lowerBody decl) := by
  unfold lowerBody
  split
  · exact reportsOnly_refuse (.plain ..)
  · rename_i fields _ _
    refine (lowerMembers_reports decl.name [] fields).bind fun members => ?_
    cases members.mapM id with
    | some ms => exact (reportsOnly_intern _).map _
    | none => exact reportsOnly_pure _
  · exact resolveText_reports _ _
  · split
    · exact reportsOnly_pure _
    · exact reportsOnly_refuse (.plain ..)

/-! ## Declarations -/

theorem declare_reports (decl : RawDecl) : ReportsOnly Reported (declare decl) := by
  unfold declare
  split
  · exact reportsOnly_refuse (.plain ..)
  · refine reportsOnly_get.bind fun t => ?_
    cases t.declare decl.name decl.native with
    | some found => exact (reportsOnly_set _).bind fun _ => reportsOnly_pure _
    | none => exact reportsOnly_refuse (.plain ..)

theorem declareAll_reports : ∀ decls : List RawDecl, ReportsOnly Reported (declareAll decls)
  | [] => reportsOnly_pure _
  | decl :: rest => (declare_reports decl).bind fun _ => (declareAll_reports rest).bind fun _ => reportsOnly_pure _

theorem define_reports (decl : RawDecl) (id : TypeId) : ReportsOnly Reported (define decl id) := by
  refine (lowerBody_reports decl).bind fun body => ?_
  cases body with
  | some body => exact reportsOnly_modify _
  | none => exact reportsOnly_pure _

theorem checkCycle_reports (decl : RawDecl) (id : TypeId) : ReportsOnly Reported (checkCycle decl id) := by
  refine reportsOnly_get.bind fun t => ?_
  cases cycleFrom t id [id] id with
  | some chain => exact reportsOnly_report (.plain ..)
  | none => exact reportsOnly_pure _

/-- **Lowering reports nothing else.** -/
theorem lowerAll_reports (raw : RawSchema) : ReportsOnly Reported (lowerAll raw) :=
  (declareAll_reports raw.types).bind fun declared =>
    (reportsOnly_forM declared fun p => define_reports p.1 p.2).bind fun _ =>
      reportsOnly_forM declared fun p => checkCycle_reports p.1 p.2

end Lower

namespace Schema

theorem ofRaw_reports (raw : RawSchema) : (ofRaw raw).ReportsOnly Lower.Reported := by
  have hlowered : ((Lower.lowerAll raw).run TypeTable.empty).ReportsOnly Lower.Reported :=
    Lower.lowerAll_reports raw TypeTable.empty
  unfold ofRaw
  simp only
  split
  · exact hlowered
  · intro d hd
    unfold Noted.reports at hd
    rw [List.filterMap_append] at hd
    exact (List.mem_append.1 hd).elim (hlowered d) fun hno => nomatch hno

theorem ofRaw_refused {raw : RawSchema} {ds : Diagnostics} (h : (ofRaw raw).value = .error ds) :
    ∀ d ∈ ds.messages, Lower.Reported d := by
  have hlowered : ((Lower.lowerAll raw).run TypeTable.empty).ReportsOnly Lower.Reported :=
    Lower.lowerAll_reports raw TypeTable.empty
  unfold ofRaw at h
  simp only at h
  split at h
  · cases h
    exact fun d hd => hlowered d (((Diagnostics.messages_ofReports _).2 d).1 hd)
  · cases h

theorem parse_cases (text : String) : (∃ message, parse text = ⟨[], .error (.notJson message)⟩) ∨
    ∃ raw, parse text = ⟨(ofRaw raw).notices, (ofRaw raw).value.mapError .unsound⟩ := by
  unfold parse
  cases RawSchema.parse text with
  | error message => exact Or.inl ⟨message, rfl⟩
  | ok raw =>
    refine Or.inr ⟨raw, ?_⟩
    simp only
    cases (ofRaw raw).value <;> rfl

theorem parse_reports (text : String) : (parse text).ReportsOnly Lower.Reported := by
  rcases parse_cases text with ⟨message, h⟩ | ⟨raw, h⟩
  · rw [h]
    exact fun _ hd => nomatch hd
  · rw [h]
    exact ofRaw_reports raw

theorem parse_refused {text : String} {ds : Diagnostics} (h : (parse text).value = .error (.unsound ds)) :
    ∀ d ∈ ds.messages, Lower.Reported d := by
  rcases parse_cases text with ⟨message, hparse⟩ | ⟨raw, hparse⟩ <;> rw [hparse] at h
  · cases h
  · cases hvalue : (ofRaw raw).value with
    | ok s =>
      rw [hvalue] at h
      cases h
    | error ds' =>
      rw [hvalue] at h
      cases h
      exact ofRaw_refused hvalue

theorem exists_ofRaw_of_parse {text : String} {s : Schema} (h : (parse text).value = .ok s) :
    ∃ raw, (ofRaw raw).value = .ok s := by
  rcases parse_cases text with ⟨message, hparse⟩ | ⟨raw, hparse⟩ <;> rw [hparse] at h
  · cases h
  · refine ⟨raw, ?_⟩
    cases hvalue : (ofRaw raw).value with
    | ok s' =>
      rw [hvalue] at h
      cases h
      rfl
    | error ds =>
      rw [hvalue] at h
      cases h

end Schema
end BencodePlan
