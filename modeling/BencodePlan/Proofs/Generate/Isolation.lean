import BencodePlan.Proofs.Generate.Reports
import BencodePlan.Proofs.Shape.Circles
import Mathlib
/-!
# Each type by itself

A generation makes its plans one after the other and collects what is reported for all of them together, without repeats.
Still each type comes to what it comes to alone, plan or error, whatever else is asked for; every type that is chosen is
among the plans or among the failures, once; and each failure is counted as one error and nothing else is
(`generate_isolated`).
-/
namespace BencodePlan
namespace Schema

open TypeTable Compile

/-- **What a type comes to alone**: its plan, folded if that is wanted, or the reason why it has none. -/
def alone (s : Schema) (config : GeneratorConfig) (name : String) (id : TypeId) : Except CompileError Plan :=
  (result (s.table.compile name id)).map fun p => if config.fold then p.folded else p

def planOf (s : Schema) (config : GeneratorConfig) (p : String × TypeId) : Option Plan :=
  (s.alone config p.1 p.2).toOption

def failureOf (s : Schema) (config : GeneratorConfig) (p : String × TypeId) : Option TypeFailure :=
  match s.alone config p.1 p.2 with
  | .ok _ => none
  | .error e => some ⟨p.1, e⟩

variable {s : Schema} {config : GeneratorConfig}

/-! ## What is made of the types that are chosen -/

theorem value_generateType (s : Schema) (config : GeneratorConfig) (name : String) (id : TypeId) :
    (s.generateType config name id).value = s.alone config name id := by
  unfold generateType alone result
  rw [Noted.value_bind, Noted.value_bind]
  cases (s.table.compile name id).run.value <;> rfl

/-- **Plans and failures in the order of the types.** -/
theorem value_generateAll (s : Schema) (config : GeneratorConfig) : ∀ l : List (String × TypeId),
    (s.generateAll config l).value = ⟨l.filterMap (s.planOf config), l.filterMap (s.failureOf config)⟩
  | [] => rfl
  | (name, id) :: rest => by
    rw [generateAll, Noted.value_bind, value_generateType, List.filterMap_cons, List.filterMap_cons, planOf, failureOf]
    cases s.alone config name id with
    | ok p =>
      simp only [Noted.value_bind, Noted.value_pure, value_generateAll s config rest]
      rfl
    | error e =>
      simp only [Noted.value_bind, Noted.value_pure, value_generateAll s config rest]
      rfl

theorem value_generate (s : Schema) (config : GeneratorConfig) (requested : List String) :
    (s.generate config requested).value =
      ⟨(s.select config requested).value.filterMap (s.planOf config),
        (s.select config requested).value.filterMap (s.failureOf config)⟩ := by
  rw [← value_generateAll]
  unfold generate
  rw [Noted.value_bind]
  simp only
  split <;> rfl

theorem name_of_planOf {p : String × TypeId} {plan : Plan} (h : s.planOf config p = some plan) : plan.name = p.1 := by
  unfold planOf alone at h
  rw [result_compile] at h
  cases hr : result (s.table.shape p.2) with
  | error e =>
    rw [hr] at h
    cases h
  | ok shape =>
    rw [hr] at h
    cases h
    split <;> rfl

theorem name_of_failureOf {p : String × TypeId} {f : TypeFailure} (h : s.failureOf config p = some f) : f.name = p.1 := by
  unfold failureOf at h
  split at h <;> cases h
  rfl

/-- **A type has a plan or a failure.** -/
theorem planOf_or_failureOf (s : Schema) (config : GeneratorConfig) (p : String × TypeId) :
    (∃ plan, s.planOf config p = some plan ∧ s.failureOf config p = none) ∨
      ∃ f, s.planOf config p = none ∧ s.failureOf config p = some f := by
  unfold planOf failureOf
  cases s.alone config p.1 p.2 with
  | ok plan => exact Or.inl ⟨plan, rfl, rfl⟩
  | error e => exact Or.inr ⟨⟨p.1, e⟩, rfl, rfl⟩

theorem names_perm (s : Schema) (config : GeneratorConfig) : ∀ l : List (String × TypeId),
    ((l.filterMap (s.planOf config)).map Plan.name ++ (l.filterMap (s.failureOf config)).map TypeFailure.name).Perm
      (l.map Prod.fst)
  | [] => .nil
  | p :: rest => by
    have ih := names_perm s config rest
    rw [List.filterMap_cons, List.filterMap_cons, List.map_cons]
    rcases planOf_or_failureOf s config p with ⟨plan, hplan, hnone⟩ | ⟨f, hnone, hfailure⟩
    · rw [hplan, hnone]
      simp only [List.map_cons, List.cons_append, name_of_planOf hplan]
      exact ih.cons p.1
    · rw [hnone, hfailure]
      simp only [List.map_cons, name_of_failureOf hfailure]
      exact List.perm_middle.trans (ih.cons p.1)

theorem names_sublist {α : Type} {f : String × TypeId → Option α} {nameOf : α → String}
    (hname : ∀ p a, f p = some a → nameOf a = p.1) : ∀ l : List (String × TypeId),
    ((l.filterMap f).map nameOf).Sublist (l.map Prod.fst)
  | [] => .slnil
  | p :: rest => by
    rw [List.filterMap_cons]
    cases hp : f p with
    | none => exact (names_sublist hname rest).cons _
    | some a =>
      simp only [List.map_cons, hname p a hp]
      exact (names_sublist hname rest).cons_cons _

theorem mem_filterMap_of_name {α : Type} {f : String × TypeId → Option α} {nameOf : α → String}
    (hname : ∀ p a, f p = some a → nameOf a = p.1) {l : List (String × TypeId)} (hl : (l.map Prod.fst).Nodup)
    {p : String × TypeId} (hp : p ∈ l) (a : α) : (a ∈ l.filterMap f ∧ nameOf a = p.1) ↔ f p = some a := by
  rw [List.mem_filterMap]
  constructor
  · rintro ⟨⟨q, hq, ha⟩, heq⟩
    rw [← List.inj_on_of_nodup_map hl hq hp ((hname q a ha).symm.trans heq)]
    exact ha
  · exact fun ha => ⟨⟨p, hp, ha⟩, hname p a ha⟩

/-! ## What is reported -/

open Noted

theorem isError_diagnostic (e : CompileError) (name : String) : (e.diagnostic name).isError = true := by
  cases e <;> rfl

/-- **The errors of a generation are those of its failures.** -/
theorem errors_generateAll (h : s.table.Sound) (config : GeneratorConfig) : ∀ {l : List (String × TypeId)},
    (∀ p ∈ l, p.2 < s.table.size ∧ s.table.isStruct p.2 = false) → (s.generateAll config l).reports.filter Diagnostic.isError =
      (l.filterMap (s.failureOf config)).map fun f => f.error.diagnostic f.name
  | [], _ => rfl
  | (name, id) :: rest, hl => by
    rw [List.forall_mem_cons] at hl
    have ih := errors_generateAll h config hl.2
    have hquiet := filter_reports_of_noErrors
      ((generateType_reports h config name hl.1.1 hl.1.2).imp fun _ => Warned.isError_eq)
    rw [generateAll, reports_bind, List.filter_append, hquiet, List.nil_append, value_generateType, List.filterMap_cons,
      failureOf]
    cases s.alone config name id with
    | ok p =>
      simp only
      rw [reports_bind, List.filter_append, ih]
      exact List.append_nil _
    | error e =>
      have herror : ((report (e.diagnostic name)).reports.filter Diagnostic.isError) = [e.diagnostic name] :=
        List.filter_cons_of_pos (isError_diagnostic e name)
      simp only
      rw [reports_bind, reports_bind, reports_bind, List.filter_append, List.filter_append, List.filter_append, herror, ih]
      exact congrArg (e.diagnostic name :: ·) (List.append_nil _)

theorem errors_generate (h : s.table.Sound) (config : GeneratorConfig) (requested : List String)
    (hplace : ∀ p ∈ (s.select config requested).value, p.2 < s.table.size ∧ s.table.isStruct p.2 = false) :
    (s.generate config requested).reports.filter Diagnostic.isError =
      (s.generate config requested).value.failures.map fun f => f.error.diagnostic f.name := by
  have hall := errors_generateAll h config hplace
  rw [value_generate]
  unfold generate
  have hquiet := filter_reports_of_noErrors ((select_reports h.toFormed config requested).imp fun _ => Warned.isError_eq)
  rw [reports_bind, List.filter_append, hquiet, List.nil_append]
  simp only
  split
  · rw [reports_bind, List.filter_append, filter_reports_of_noErrors (Noted.reportsOnly_tell rfl), List.nil_append]
    exact hall
  · exact hall

/-! ## Each type by itself -/

section

variable (s config) (requested : List String)

theorem plans_generate : (s.generate config requested).value.plans =
    (s.select config requested).value.filterMap (s.planOf config) :=
  congrArg Generated.plans (value_generate s config requested)

theorem failures_generate : (s.generate config requested).value.failures =
    (s.select config requested).value.filterMap (s.failureOf config) :=
  congrArg Generated.failures (value_generate s config requested)

theorem names_select_ascend : ((s.select config requested).value.map Prod.fst).Pairwise (· < ·) :=
  List.pairwise_map.2 (select_ascends s config requested)

theorem names_plans_sublist : ((s.generate config requested).value.plans.map Plan.name).Sublist
    ((s.select config requested).value.map Prod.fst) := by
  rw [plans_generate]
  exact names_sublist (fun _ _ => name_of_planOf) _

theorem names_failures_sublist : ((s.generate config requested).value.failures.map TypeFailure.name).Sublist
    ((s.select config requested).value.map Prod.fst) := by
  rw [failures_generate]
  exact names_sublist (fun _ _ => name_of_failureOf) _

end

/-- **A plan that is made is the plan of its type alone.** -/
theorem mem_plans_iff {requested : List String} {name : String} {id : TypeId}
    (h : (name, id) ∈ (s.select config requested).value) (p : Plan) :
    p ∈ (s.generate config requested).value.plans ∧ p.name = name ↔ s.alone config name id = .ok p := by
  have hnodup := (names_select_ascend s config requested).nodup
  rw [plans_generate, mem_filterMap_of_name (fun _ _ => name_of_planOf) hnodup h, planOf]
  cases s.alone config name id <;> simp [Except.toOption]

/-- **A failure is that of its type alone.** -/
theorem mem_failures_iff {requested : List String} {name : String} {id : TypeId}
    (h : (name, id) ∈ (s.select config requested).value) (e : CompileError) :
    (⟨name, e⟩ : TypeFailure) ∈ (s.generate config requested).value.failures ↔ s.alone config name id = .error e := by
  have hnodup := (names_select_ascend s config requested).nodup
  have hname := mem_filterMap_of_name (f := s.failureOf config) (fun _ _ => name_of_failureOf) hnodup h ⟨name, e⟩
  rw [and_iff_left rfl] at hname
  rw [failures_generate, hname, failureOf]
  cases s.alone config name id <;> simp

/-- **There are as many errors as failures.**  These name different types, so no two of their reports are the same. -/
theorem errorCount_generate {raw : RawSchema} (hs : (ofRaw raw).value = .ok s) (config : GeneratorConfig)
    (requested : List String) :
    (s.generate config requested).diagnostics.errorCount = (s.generate config requested).value.failures.length := by
  have hsound := sound_of_ofRaw hs
  have herrors := errors_generate hsound config requested fun p hp => place_of_mem_select hs hp
  have hdistinct : ((s.generate config requested).value.failures.map fun f => f.error.diagnostic f.name).Nodup := by
    refine List.Nodup.of_map Diagnostic.location ?_
    rw [List.map_map]
    exact (names_select_ascend s config requested).nodup.sublist (names_failures_sublist s config requested)
  unfold Noted.diagnostics
  rw [Diagnostics.errorCount_ofReports (herrors ▸ hdistinct), herrors, List.length_map]

/-- **No type that fails touches another, and none is lost or counted twice.** -/
theorem generate_isolated {raw : RawSchema} {s : Schema} (hs : (ofRaw raw).value = .ok s) (config : GeneratorConfig)
    (requested : List String) :
    let chosen := (s.select config requested).value
    let generated := (s.generate config requested).value
    (generated.plans.map Plan.name).Pairwise (· < ·) ∧ (generated.failures.map TypeFailure.name).Pairwise (· < ·) ∧
    (generated.plans.map Plan.name).Disjoint (generated.failures.map TypeFailure.name) ∧
    (generated.plans.map Plan.name ++ generated.failures.map TypeFailure.name).Perm (chosen.map Prod.fst) ∧
    (∀ name id, (name, id) ∈ chosen →
      s.table.lookup name = some id ∧
      (∀ p, p ∈ generated.plans ∧ p.name = name ↔ s.alone config name id = .ok p) ∧
      ∀ e, (⟨name, e⟩ : TypeFailure) ∈ generated.failures ↔ s.alone config name id = .error e) ∧
    (s.generate config requested).diagnostics.errorCount = generated.failures.length ∧
    (s.generate config requested).diagnostics.hasErrors = !generated.isSuccess := by
  have hascend := names_select_ascend s config requested
  have hperm := names_perm s config (s.select config requested).value
  rw [← plans_generate, ← failures_generate] at hperm
  have hcount := errorCount_generate hs config requested
  refine ⟨hascend.sublist (names_plans_sublist s config requested),
    hascend.sublist (names_failures_sublist s config requested), ?_, hperm, fun name id hmem => ?_, hcount, ?_⟩
  · exact List.disjoint_of_nodup_append (hperm.nodup_iff.2 hascend.nodup)
  · exact ⟨((mem_select hs).1 hmem).1, mem_plans_iff hmem, mem_failures_iff hmem⟩
  · rw [Bool.eq_iff_iff, Diagnostics.hasErrors_iff, hcount, Generated.isSuccess, List.length_pos_iff_ne_nil]
    simp

def readingsDocument : RawSchema :=
  ⟨none, [⟨"W", some [⟨"N", "i64", none, false⟩], none, false⟩, ⟨"B", some [⟨"X", "f64", none, false⟩], none, false⟩]⟩

def wholeBody : TypeDesc := .struct [⟨"N", 2, none, false⟩]

def brokenBody : TypeDesc := .struct [⟨"X", 4, none, false⟩]

def readingsTable : TypeTable :=
  ⟨[.named ⟨"W", some 3⟩, .named ⟨"B", some 5⟩, .scalar (.int .i64), wholeBody, .scalar (.float .f64), brokenBody],
    [(.scalar (.int .i64), 2), (wholeBody, 3), (.scalar (.float .f64), 4), (brokenBody, 5)], [("W", 0), ("B", 1)]⟩

def readings : Schema := ⟨none, readingsTable⟩

def wholePlan : Plan := ⟨"W", [.ascii "d1:ni", .int (.field .root "N"), .ascii "ee"]⟩

def readingsRequest : List String := ["W", "B", "G", "W"]

theorem value_readings : (readings.generate ⟨true, false⟩ readingsRequest).value =
    ⟨[wholePlan], [⟨"B", .unsupportedType "f64"⟩]⟩ := by
  have hselect : (readings.select ⟨true, false⟩ readingsRequest).value = [("B", 1), ("W", 0)] := by cbv
  have hwhole : readings.alone ⟨true, false⟩ "W" 0 = .ok wholePlan := by cbv
  have hbroken : readings.alone ⟨true, false⟩ "B" 1 = .error (.unsupportedType "f64") := by cbv
  rw [value_generate, hselect]
  simp [planOf, failureOf, hwhole, hbroken, Except.toOption]

/-- The one that cannot be written comes first, and what is not there at all costs no error. -/
theorem readings_isolated : (ofRaw readingsDocument).value = .ok readings ∧
    (readings.generate ⟨true, false⟩ readingsRequest).value = ⟨[wholePlan], [⟨"B", .unsupportedType "f64"⟩]⟩ ∧
    readings.alone ⟨true, false⟩ "W" 0 = .ok wholePlan ∧
    (readings.generate ⟨true, false⟩ readingsRequest).diagnostics.errorCount = 1 := by
  have hs : (ofRaw readingsDocument).value = .ok readings := ofRaw_eq_ok (by decide +kernel)
  obtain ⟨-, -, -, -, hall, hcount, -⟩ := generate_isolated hs ⟨true, false⟩ readingsRequest
  rw [value_readings] at hall hcount
  have hchosen : ("W", 0) ∈ (readings.select ⟨true, false⟩ readingsRequest).value := (mem_select hs).2 ⟨rfl, rfl, by
    rw [if_neg (by decide)]
    decide⟩
  exact ⟨hs, value_readings, ((hall "W" 0 hchosen).2.1 wholePlan).1 ⟨List.mem_singleton.2 rfl, rfl⟩, hcount⟩

end Schema
end BencodePlan
