import BencodePlan.Notice
/-!
# Errors among what was told

A collection of diagnostics has an error exactly if one was reported, however often (`hasErrors_ofReports`), and a work
in several stages reports no error exactly if none of its stages does (`noErrors_bind`).  The messages of one sort in a
collection are what the reports of that sort come to (`filter_addAll`), and reports that differ are all kept
(`messages_addAll_of_nodup`); of others the first of equal ones is (`messages_addAll`).

`ReportsOnly` says that a work reports nothing but what has some property.  It is closed under everything a work is put
together with, so what a work reports is found by going through its parts.
-/
namespace BencodePlan
namespace Diagnostics

theorem add_of_mem {ds : Diagnostics} {d : Diagnostic} (h : d ∈ ds.messages) : ds.add d = ds := if_pos h

theorem add_of_not_mem {ds : Diagnostics} {d : Diagnostic} (h : d ∉ ds.messages) : ds.add d = ⟨ds.messages ++ [d]⟩ :=
  if_neg h

theorem mem_add (ds : Diagnostics) (d e : Diagnostic) : e ∈ (ds.add d).messages ↔ e ∈ ds.messages ∨ e = d := by
  by_cases hd : d ∈ ds.messages
  · rw [add_of_mem hd]
    exact ⟨Or.inl, fun h => h.elim id fun heq => heq ▸ hd⟩
  · rw [add_of_not_mem hd]
    simp only [List.mem_append, List.mem_singleton]

theorem mem_addAll : ∀ (rs : List Diagnostic) (ds : Diagnostics) (e : Diagnostic),
    e ∈ (ds.addAll rs).messages ↔ e ∈ ds.messages ∨ e ∈ rs
  | [], ds, e => by simp [addAll]
  | r :: rs, ds, e => by
    have h := mem_addAll rs (ds.add r) e
    rw [mem_add] at h
    rw [List.mem_cons, ← or_assoc]
    exact h

theorem hasErrors_ofReports (rs : List Diagnostic) :
    (ofReports rs).hasErrors = false ↔ ∀ d ∈ rs, d.isError = false := by
  unfold hasErrors ofReports
  rw [List.any_eq_false]
  constructor
  · intro h d hd
    exact Bool.eq_false_iff.2 (h d ((mem_addAll rs empty d).2 (Or.inr hd)))
  · intro h d hd
    rcases (mem_addAll rs empty d).1 hd with h' | h'
    · cases h'
    · exact Bool.eq_false_iff.1 (h d h')

theorem filter_add (p : Diagnostic → Bool) (ds : Diagnostics) (d : Diagnostic) :
    (ds.add d).messages.filter p = if p d = true then (Diagnostics.mk (ds.messages.filter p)).add d |>.messages
      else ds.messages.filter p := by
  unfold add
  by_cases hd : d ∈ ds.messages
  · by_cases hp : p d = true
    · simp [hd, hp]
    · simp [hd, hp]
  · by_cases hp : p d = true
    · simp [hd, hp]
    · simp [hd, hp]

theorem filter_addAll (p : Diagnostic → Bool) : ∀ (rs : List Diagnostic) (ds : Diagnostics),
    (ds.addAll rs).messages.filter p = ((Diagnostics.mk (ds.messages.filter p)).addAll (rs.filter p)).messages
  | [], ds => rfl
  | r :: rs, ds => by
    have h := filter_addAll p rs (ds.add r)
    rw [filter_add] at h
    by_cases hp : p r = true
    · rw [if_pos hp] at h
      rw [List.filter_cons_of_pos hp]
      exact h
    · rw [if_neg hp] at h
      rw [List.filter_cons_of_neg hp]
      exact h

theorem messages_addAll_of_nodup : ∀ (rs : List Diagnostic) (ds : Diagnostics), (ds.messages ++ rs).Nodup →
    (ds.addAll rs).messages = ds.messages ++ rs
  | [], ds, _ => (List.append_nil _).symm
  | r :: rs, ds, h => by
    have hnew : r ∉ ds.messages := fun hm => (List.nodup_append.1 h).2.2 r hm r List.mem_cons_self rfl
    have hadd := add_of_not_mem hnew
    have hrest := messages_addAll_of_nodup rs (ds.add r) (by rw [hadd, List.append_assoc]; exact h)
    rw [hadd, List.append_assoc] at hrest
    unfold addAll at hrest ⊢
    rw [List.foldl_cons, hadd]
    exact hrest

/-- **Reports are added once**, after what is there: those that are not there yet, and each of them a single time. -/
theorem messages_addAll : ∀ (rs : List Diagnostic) (ds : Diagnostics), ∃ added,
    (ds.addAll rs).messages = ds.messages ++ added ∧ added.Nodup ∧ ∀ d, d ∈ added ↔ d ∈ rs ∧ d ∉ ds.messages
  | [], ds => ⟨[], (List.append_nil _).symm, List.nodup_nil, fun d => by simp⟩
  | r :: rs, ds => by
    by_cases hr : r ∈ ds.messages
    · have hadd := add_of_mem hr
      obtain ⟨added, hadded, hnodup, hmem⟩ := messages_addAll rs ds
      refine ⟨added, ?_, hnodup, fun d => ?_⟩
      · rw [← hadded, addAll, List.foldl_cons, hadd, addAll]
      · rw [hmem, List.mem_cons]
        constructor
        · exact fun h => ⟨Or.inr h.1, h.2⟩
        · rintro ⟨rfl | hd, hno⟩
          · exact absurd hr hno
          · exact ⟨hd, hno⟩
    · have hadd := add_of_not_mem hr
      obtain ⟨added, hadded, hnodup, hmem⟩ := messages_addAll rs (ds.add r)
      rw [hadd, List.append_assoc] at hadded
      rw [hadd] at hmem
      simp only [List.mem_append, List.mem_singleton, not_or] at hmem
      refine ⟨r :: added, ?_, List.nodup_cons.2 ⟨fun h => ((hmem r).1 h).2.2 rfl, hnodup⟩, fun d => ?_⟩
      · rw [addAll, List.foldl_cons, hadd]
        exact hadded
      · rw [List.mem_cons, List.mem_cons, hmem]
        by_cases hd : d = r
        · subst hd
          simp [hr]
        · simp [hd]

/-- **Errors that differ are all counted.** -/
theorem errorCount_ofReports {rs : List Diagnostic} (h : (rs.filter Diagnostic.isError).Nodup) :
    (ofReports rs).errorCount = (rs.filter Diagnostic.isError).length := by
  unfold errorCount ofReports
  rw [List.countP_eq_length_filter, filter_addAll]
  exact congrArg List.length (messages_addAll_of_nodup _ empty h)

theorem hasErrors_iff (ds : Diagnostics) : ds.hasErrors = true ↔ 0 < ds.errorCount := by
  unfold hasErrors errorCount
  rw [List.any_eq_true, List.countP_pos_iff]

theorem messages_ofReports (rs : List Diagnostic) :
    (ofReports rs).messages.Nodup ∧ ∀ d, d ∈ (ofReports rs).messages ↔ d ∈ rs := by
  obtain ⟨added, hadded, hnodup, hmem⟩ := messages_addAll rs empty
  rw [ofReports, hadded]
  simp only [empty, List.nil_append]
  exact ⟨hnodup, fun d => (hmem d).trans (and_iff_left List.not_mem_nil)⟩

end Diagnostics

namespace Noted

variable {α β : Type}

def NoErrors (x : Noted α) : Prop := ∀ d ∈ x.reports, d.isError = false

theorem hasErrors_diagnostics (x : Noted α) : x.diagnostics.hasErrors = false ↔ x.NoErrors :=
  Diagnostics.hasErrors_ofReports x.reports

theorem reports_bind (x : Noted α) (f : α → Noted β) : (x >>= f).reports = x.reports ++ (f x.value).reports := by
  unfold reports
  rw [notices_bind, List.filterMap_append]

theorem reports_mapM (f : α → Noted β) : ∀ l : List α, (l.mapM f).reports = l.flatMap fun a => (f a).reports
  | [] => rfl
  | a :: l => by
    have hnone : ∀ b : List β, (pure b : Noted (List β)).reports = [] := fun _ => rfl
    rw [List.mapM_cons, reports_bind, reports_bind, hnone, List.append_nil, reports_mapM f l, List.flatMap_cons]

/-! ## What is reported -/

/-- **Nothing is reported but what has a property.** -/
def ReportsOnly (P : Diagnostic → Prop) (x : Noted α) : Prop := ∀ d ∈ x.reports, P d

section

variable {P Q : Diagnostic → Prop}

theorem reportsOnly_pure (a : α) : (pure a : Noted α).ReportsOnly P := fun _ hd => nomatch hd

theorem reportsOnly_tell {n : Notice} (h : n.report? = none) : (tell n).ReportsOnly P := by
  intro d hd
  unfold reports tell at hd
  rw [List.filterMap_cons, h] at hd
  cases hd

theorem reportsOnly_report {d : Diagnostic} : (report d).ReportsOnly P ↔ P d :=
  List.forall_mem_singleton

theorem reportsOnly_bind (x : Noted α) (f : α → Noted β) :
    (x >>= f).ReportsOnly P ↔ x.ReportsOnly P ∧ (f x.value).ReportsOnly P := by
  unfold ReportsOnly
  rw [reports_bind]
  exact List.forall_mem_append

theorem ReportsOnly.bind {x : Noted α} {f : α → Noted β} (hx : x.ReportsOnly P) (hf : ∀ a, (f a).ReportsOnly P) :
    (x >>= f).ReportsOnly P :=
  (reportsOnly_bind x f).2 ⟨hx, hf x.value⟩

theorem reportsOnly_mapM {f : α → Noted β} {l : List α} (h : ∀ a ∈ l, (f a).ReportsOnly P) : (l.mapM f).ReportsOnly P := by
  intro d hd
  rw [reports_mapM, List.mem_flatMap] at hd
  obtain ⟨a, ha, hda⟩ := hd
  exact h a ha d hda

theorem ReportsOnly.imp {x : Noted α} (h : x.ReportsOnly P) (hPQ : ∀ d, P d → Q d) : x.ReportsOnly Q :=
  fun d hd => hPQ d (h d hd)

end

theorem noErrors_bind (x : Noted α) (f : α → Noted β) : (x >>= f).NoErrors ↔ x.NoErrors ∧ (f x.value).NoErrors :=
  reportsOnly_bind x f

theorem filter_reports_of_noErrors {x : Noted α} (h : x.NoErrors) : x.reports.filter Diagnostic.isError = [] :=
  List.filter_eq_nil_iff.2 fun d hd => Bool.eq_false_iff.1 (h d hd)

theorem not_noErrors_report {d : Diagnostic} (h : d.isError = true) : ¬ (report d).NoErrors := by
  intro hno
  have := hno d (List.mem_singleton.2 rfl)
  rw [h] at this
  cases this

end Noted
end BencodePlan
