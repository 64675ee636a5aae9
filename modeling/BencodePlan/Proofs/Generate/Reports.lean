import BencodePlan.Proofs.Generate.Selection
import BencodePlan.Proofs.Shape.Reports
/-!
# What a generation reports

Everything that the choice of types and the making of a plan report is a warning (`Warned`): about a name that is asked for,
or about a struct under a name that it goes by.  What is wrong with a type that has no plan is reported besides, and that is
all (`generate_reports`).
-/
namespace BencodePlan
namespace Schema

open TypeTable Noted

def unknownRequest (name : String) : Diagnostic := .plain .unknownRequestedType "schema" name

def noStructRequest (name : String) : Diagnostic := .plain .nonStructRoot "schema" name

/-- **What is worth a warning.** -/
inductive Warned (t : TypeTable) : Diagnostic → Prop
  | unknown (name : String) : Warned t (unknownRequest name)
  | noStruct (name : String) : Warned t (noStructRequest name)
  | member {owner : String} {body : TypeId} {d : Diagnostic} : t.Names owner body → Field.Reported t owner body d →
      Warned t d

variable {s : Schema} {t : TypeTable}

theorem Warned.isError_eq {d : Diagnostic} (h : Warned t d) : d.isError = false := by
  cases h with
  | unknown | noStruct => rfl
  | member _ hd => exact hd.isError_eq

theorem taggedStructs_reports (h : t.Formed) : (taggedStructs t).ReportsOnly (Warned t) := by
  refine (reportsOnly_mapM fun p hp => ?_).bind fun _ => reportsOnly_pure _
  obtain ⟨name, id⟩ := p
  simp only
  split
  · exact reportsOnly_pure _
  · have hnames : t.Names name (t.underlying id) := by
      obtain ⟨d, hd, hname⟩ := h.names hp
      exact ⟨id, by rw [nameOf, hd, Option.map_some, hname], rfl⟩
    refine ((Field.hasTagged_reports t name id).imp fun d hd => Warned.member hnames hd).bind fun tagged => ?_
    split <;> exact reportsOnly_pure _

theorem reports_requestedType (t : TypeTable) (aliasRoots : Bool) (name : String) :
    (requestedType t aliasRoots name).reports =
      match t.lookup name with
      | none => [unknownRequest name]
      | some id => if !t.isNative id && (!aliasRoots && !isStructBased t id) then [noStructRequest name] else [] := by
  unfold requestedType
  cases t.lookup name with
  | none => rfl
  | some id =>
    simp only
    by_cases hnative : t.isNative id = true
    · simp only [hnative]
      rfl
    · by_cases hroot : (!aliasRoots && !isStructBased t id) = true
      · simp only [hnative, hroot]
        rfl
      · simp only [hnative, hroot]
        rfl

theorem requestedType_reports (aliasRoots : Bool) (name : String) :
    (requestedType t aliasRoots name).ReportsOnly (Warned t) := by
  intro d hd
  rw [reports_requestedType] at hd
  split at hd
  · rw [List.mem_singleton.1 hd]
    exact .unknown name
  · split at hd
    · rw [List.mem_singleton.1 hd]
      exact .noStruct name
    · cases hd

theorem select_reports (h : s.table.Formed) (config : GeneratorConfig) (requested : List String) :
    (s.select config requested).ReportsOnly (Warned s.table) := by
  unfold select
  simp only
  split
  · exact (taggedStructs_reports h).bind fun _ => reportsOnly_pure _
  · exact (reportsOnly_mapM fun name _ => requestedType_reports _ name).bind fun _ =>
      (reportsOnly_pure _).bind fun _ => reportsOnly_pure _

/-- **Making a plan warns of the structs that are opened**, each under the name of a declared type. -/
theorem generateType_reports (h : s.table.Sound) (config : GeneratorConfig) (name : String) {id : TypeId}
    (hid : id < s.table.size) (hstruct : s.table.isStruct id = false) :
    (s.generateType config name id).ReportsOnly (Warned s.table) := by
  have hshape : Compile.ReportsOnly (Warned s.table) (s.table.shape id) := by
    refine shapeAt_reports h (I := s.table.Introduced) (fun _ _ _ hc => hc.introduced h.toFormed) ?_
      (w := s.table.startWalk [] id) hid (introduced_of_not_struct hstruct)
    intro w hw hbody d hd
    obtain ⟨owner, howner, hnames⟩ := hw hbody
    rw [howner, Option.getD_some] at hd
    exact .member hnames hd
  have hcompile : Compile.ReportsOnly (Warned s.table) (s.table.compile name id) :=
    (hshape.bind fun _ _ => Compile.reportsOnly_pure _).bind fun _ _ => Compile.reportsOnly_pure _
  refine (reportsOnly_tell rfl).bind fun _ => Noted.ReportsOnly.bind hcompile fun r => ?_
  cases r <;> exact reportsOnly_pure _

theorem generateAll_reports (h : s.table.Sound) (config : GeneratorConfig) : ∀ {l : List (String × TypeId)},
    (∀ p ∈ l, p.2 < s.table.size ∧ s.table.isStruct p.2 = false) → (s.generateAll config l).ReportsOnly
      fun d => Warned s.table d ∨ ∃ e name, d = CompileError.diagnostic e name
  | [], _ => reportsOnly_pure _
  | (name, id) :: rest, hl => by
    obtain ⟨hfirst, hrest⟩ := List.forall_mem_cons.1 hl
    have hmore := generateAll_reports h config hrest
    have htype := (generateType_reports h config name hfirst.1 hfirst.2).imp fun d hd =>
      (Or.inl hd : Warned s.table d ∨ ∃ e name, d = CompileError.diagnostic e name)
    rw [generateAll]
    refine htype.bind fun r => ?_
    cases r with
    | ok p => exact hmore.bind fun _ => reportsOnly_pure _
    | error e =>
      exact (reportsOnly_tell rfl).bind fun _ => (reportsOnly_report.2 (Or.inr ⟨e, name, rfl⟩)).bind fun _ =>
        hmore.bind fun _ => reportsOnly_pure _

theorem place_of_mem_select {raw : RawSchema} (hs : (ofRaw raw).value = .ok s) {config : GeneratorConfig}
    {requested : List String} {p : String × TypeId} (hp : p ∈ (s.select config requested).value) :
    p.2 < s.table.size ∧ s.table.isStruct p.2 = false := by
  obtain ⟨d, hd, -⟩ := (sound_of_ofRaw hs).names (lookup_mem ((mem_select hs).1 hp).1)
  exact ⟨lt_of_declared? hd, isStruct_of_declared? hd⟩

/-- **A generation reports nothing else**: warnings, and why a type has no plan. -/
theorem generate_reports {raw : RawSchema} (hs : (ofRaw raw).value = .ok s) (config : GeneratorConfig)
    (requested : List String) : (s.generate config requested).ReportsOnly
      fun d => Warned s.table d ∨ ∃ e name, d = CompileError.diagnostic e name := by
  have h := sound_of_ofRaw hs
  have hall := generateAll_reports h config (l := (s.select config requested).value) fun p hp => place_of_mem_select hs hp
  refine (reportsOnly_bind _ _).2 ⟨(select_reports h.toFormed config requested).imp fun d hd => Or.inl hd, ?_⟩
  simp only
  split
  · exact (reportsOnly_bind _ _).2 ⟨reportsOnly_tell rfl, hall⟩
  · exact hall

end Schema
end BencodePlan
