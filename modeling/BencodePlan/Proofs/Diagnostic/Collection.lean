import BencodePlan.Proofs.Reports
import Mathlib.Data.List.Basic
import Mathlib.Data.List.Induction
/-!
# Collections of diagnostics

A collection comes about by reports that are made to it and by others that are taken into it, which came about in the same
way (`History`).  It is the list of what it received, of equal messages the first (`collection_keeps_firsts`).

What is taken in may have lost its repeats before, and some of it may be there already.  Neither makes a difference, as a
collection adds to another what was reported to it (`addAll_addAll`).  So works that come one after the other may collect
apart (`Noted.diagnostics_bind`).
-/
namespace BencodePlan

/-! ## The first of equal ones -/

section

variable {α : Type} [DecidableEq α]

theorem eraseDups_concat (l : List α) (a : α) :
    (l ++ [a]).eraseDups = if a ∈ l then l.eraseDups else l.eraseDups ++ [a] := by
  rw [List.eraseDups_append, List.cons_removeAll]
  by_cases ha : a ∈ l
  · rw [if_pos ha, if_neg (by simpa using ha)]
    exact List.append_nil _
  · rw [if_neg ha, if_pos (by simpa using ha)]
    rfl

theorem idxOf_append_lt_iff (l s : List α) (a b : α) :
    (l ++ s).idxOf a < (l ++ s).idxOf b ↔ l.idxOf a < l.idxOf b ∨ a ∉ l ∧ b ∉ l ∧ s.idxOf a < s.idxOf b := by
  rw [List.idxOf_append, List.idxOf_append]
  by_cases ha : a ∈ l
  · have hlt := List.idxOf_lt_length_iff.2 ha
    by_cases hb : b ∈ l
    · simp [ha, hb]
    · rw [if_pos ha, if_neg hb, List.idxOf_of_notMem hb]
      exact iff_of_true (Nat.lt_add_left _ hlt) (Or.inl hlt)
  · by_cases hb : b ∈ l
    · have hlt := List.idxOf_lt_length_iff.2 hb
      have hnot : ¬ l.idxOf a < l.idxOf b := by
        rw [List.idxOf_of_notMem ha]
        exact Nat.not_lt.2 List.idxOf_le_length
      rw [if_neg ha, if_pos hb]
      exact iff_of_false (by omega) fun h => h.elim hnot fun h' => h'.2.1 hb
    · simp [ha, hb]

/-- **The first of equal ones come in the order in which they came before.**  What is not there comes last. -/
theorem idxOf_eraseDups_lt_iff (l : List α) (a b : α) :
    l.eraseDups.idxOf a < l.eraseDups.idxOf b ↔ l.idxOf a < l.idxOf b := by
  -- from the end, as only the last one can be a repeat of one before
  induction l using List.reverseRecOn with
  | nil => exact Iff.rfl
  | append_singleton l c ih =>
    rw [eraseDups_concat, idxOf_append_lt_iff l]
    by_cases hc : c ∈ l
    · rw [if_pos hc, ih]
      refine (or_iff_left ?_).symm
      rintro ⟨ha, -, hlt⟩
      have hmem : a ∈ [c] := List.idxOf_lt_length_iff.1 (Nat.lt_of_lt_of_le hlt List.idxOf_le_length)
      exact ha (List.mem_singleton.1 hmem ▸ hc)
    · rw [if_neg hc, idxOf_append_lt_iff, ih, List.mem_eraseDups, List.mem_eraseDups]

end

theorem Diagnostic.isWarning_eq : isWarning = fun d => decide ¬ d.isError = true := by
  funext d
  unfold isWarning isError
  cases d.severity <;> rfl

namespace Diagnostics

/-! ## One collection taken into another -/

/-- What `b` drops, `a` drops as well once it has all of `b`. -/
theorem addAll_add (a b : Diagnostics) (d : Diagnostic) :
    a.addAll (b.add d).messages = (a.addAll b.messages).add d := by
  by_cases hd : d ∈ b.messages
  · have hthere : d ∈ (a.addAll b.messages).messages := (mem_addAll b.messages a d).2 (Or.inr hd)
    rw [add_of_mem hd, add_of_mem hthere]
  · rw [add_of_not_mem hd]
    exact List.foldl_concat add a d b.messages

/-- **What is reported to a collection may be reported to the one that it is taken into.** -/
theorem addAll_addAll (a b : Diagnostics) (rs : List Diagnostic) :
    a.addAll (b.addAll rs).messages = (a.addAll b.messages).addAll rs := by
  induction rs generalizing b with
  | nil => rfl
  | cons r rs ih =>
    have h := ih (b.add r)
    rw [addAll_add] at h
    exact h

theorem extend_ofReports (ds : Diagnostics) (rs : List Diagnostic) : ds.extend (ofReports rs) = ds.addAll rs :=
  addAll_addAll ds empty rs

theorem extend_extend (a b c : Diagnostics) : (a.extend b).extend c = a.extend (b.extend c) :=
  (addAll_addAll a b c.messages).symm

theorem ofReports_append (rs more : List Diagnostic) : ofReports (rs ++ more) = (ofReports rs).addAll more :=
  List.foldl_append

theorem mem_extend_of_mem {other : Diagnostics} {d : Diagnostic} (ds : Diagnostics) (h : d ∈ other.messages) :
    d ∈ (ds.extend other).messages :=
  (mem_addAll other.messages ds d).2 (Or.inr h)

/-- **A collection changes nothing** exactly if all of it is there. -/
theorem extend_eq_self_iff (ds other : Diagnostics) : ds.extend other = ds ↔ ∀ d ∈ other.messages, d ∈ ds.messages := by
  constructor
  · intro h d hd
    rw [← h]
    exact mem_extend_of_mem ds hd
  · intro h
    obtain ⟨added, hadded, -, hmem⟩ := messages_addAll other.messages ds
    have hnone : added = [] := List.eq_nil_iff_forall_not_mem.2 fun d hd => ((hmem d).1 hd).2 (h d ((hmem d).1 hd).1)
    rw [hnone, List.append_nil] at hadded
    exact congrArg Diagnostics.mk hadded

/-- **Of equal reports the first is kept**, in its place. -/
theorem messages_ofReports_eq_eraseDups (rs : List Diagnostic) : (ofReports rs).messages = rs.eraseDups := by
  induction rs using List.reverseRecOn with
  | nil => rfl
  | append_singleton rs r ih =>
    have hlast : ofReports (rs ++ [r]) = (ofReports rs).add r := ofReports_append rs [r]
    have hmem : r ∈ (ofReports rs).messages ↔ r ∈ rs := (messages_ofReports rs).2 r
    rw [hlast, eraseDups_concat, ← ih]
    by_cases hr : r ∈ rs
    · rw [if_pos hr, add_of_mem (hmem.2 hr)]
    · rw [if_neg hr, add_of_not_mem (mt hmem.1 hr)]

/-- **Errors and warnings are all there is.** -/
theorem errorCount_add_warningCount (ds : Diagnostics) : ds.errorCount + ds.warningCount = ds.size := by
  unfold errorCount warningCount size
  rw [Diagnostic.isWarning_eq]
  exact (List.length_eq_countP_add_countP Diagnostic.isError).symm

/-! ## How collections come about -/

/-- **How a collection comes about**: something is reported to it, or another collection is taken into it. -/
inductive History
  | start
  | report (before : History) (kind : DiagnosticKind) (location : String) (detail : Option String)
      (snippet : Option Snippet)
  | extend (before other : History)

namespace History

def collection : History → Diagnostics
  | start => empty
  | report before kind location detail snippet => before.collection.add (.report kind location detail snippet)
  | extend before other => before.collection.extend other.collection

def received : History → List Diagnostic
  | start => []
  | report before kind location detail snippet => before.received ++ [.report kind location detail snippet]
  | extend before other => before.received ++ other.collection.messages

def reports : History → List Diagnostic
  | start => []
  | report before kind location detail snippet => before.reports ++ [.report kind location detail snippet]
  | extend before other => before.reports ++ other.reports

theorem collection_eq_ofReports_received (h : History) : h.collection = ofReports h.received := by
  induction h with
  | start => rfl
  | report before kind location detail snippet ih =>
    rw [collection, ih]
    exact (ofReports_append _ [_]).symm
  | extend before other ih _ =>
    rw [collection, ih]
    exact (ofReports_append _ _).symm

theorem collection_eq_ofReports (h : History) : h.collection = ofReports h.reports := by
  induction h with
  | start => rfl
  | report before kind location detail snippet ih =>
    rw [collection, ih]
    exact (ofReports_append _ [_]).symm
  | extend before other ih ihOther =>
    rw [collection, ih, ihOther, extend_ofReports]
    exact (ofReports_append _ _).symm

/-- **A collection is what it received, of equal messages the first.**  The same holds of all that was ever reported, and the
messages stand in the order of their first reports.  No two are equal, and each report is there: one that is not there yet
comes last.  A collection that is taken into itself changes nothing, nor does any other exactly if all of it is there, as
the second time; and those that are taken in one after the other may be put together before.  Each message is an error or a
warning. -/
theorem collection_keeps_firsts (h : History) :
    h.collection.messages = h.received.eraseDups ∧
    h.collection.messages = h.reports.eraseDups ∧
    (∀ d e, h.collection.messages.idxOf d < h.collection.messages.idxOf e ↔ h.reports.idxOf d < h.reports.idxOf e) ∧
    h.collection.messages.Nodup ∧
    (∀ d, d ∈ h.collection.messages ↔ d ∈ h.reports) ∧
    (∀ kind location detail snippet,
      Diagnostic.report kind location detail snippet ∈ h.collection.messages ∧
        (h.report kind location detail snippet).collection = h.collection ∨
      (h.report kind location detail snippet).collection.messages =
        h.collection.messages ++ [.report kind location detail snippet]) ∧
    h.collection.extend h.collection = h.collection ∧
    (∀ other, h.collection.extend other = h.collection ↔ ∀ d ∈ other.messages, d ∈ h.collection.messages) ∧
    (∀ other, (h.collection.extend other).extend other = h.collection.extend other) ∧
    (∀ other more, (h.collection.extend other).extend more = h.collection.extend (other.extend more)) ∧
    h.collection.errorCount + h.collection.warningCount = h.collection.size := by
  have hreports : h.collection.messages = h.reports.eraseDups := by
    rw [collection_eq_ofReports, messages_ofReports_eq_eraseDups]
  have hreceived : h.collection.messages = h.received.eraseDups := by
    rw [collection_eq_ofReports_received, messages_ofReports_eq_eraseDups]
  obtain ⟨hnodup, hmem⟩ := messages_ofReports h.reports
  rw [← collection_eq_ofReports] at hnodup hmem
  refine ⟨hreceived, hreports, fun d e => ?_, hnodup, hmem, fun kind location detail snippet => ?_,
    (extend_eq_self_iff _ _).2 fun d hd => hd, extend_eq_self_iff _, fun other => ?_, extend_extend _,
    errorCount_add_warningCount _⟩
  · rw [hreports]
    exact idxOf_eraseDups_lt_iff h.reports d e
  · by_cases hthere : Diagnostic.report kind location detail snippet ∈ h.collection.messages
    · exact Or.inl ⟨hthere, add_of_mem hthere⟩
    · exact Or.inr (congrArg messages (add_of_not_mem hthere))
  · exact (extend_eq_self_iff _ _).2 fun d hd => mem_extend_of_mem h.collection hd

/-- A report with particulars that say no more than the kind does is a repeat, also if it was made elsewhere. -/
example :
    let mine := (start.report .malformedTag "Peer" none none).report .recursiveType "Node" none none
    let other := (start.report .recursiveType "Node" (some "recursive type") none).report .unknownType "Node" none none
    (mine.extend other).collection.messages =
      [.report .malformedTag "Peer" none none, .report .recursiveType "Node" none none,
        .report .unknownType "Node" none none] := by
  decide

end History
end Diagnostics

namespace Noted

/-- **Works that come one after the other may collect apart.** -/
theorem diagnostics_bind {α β : Type} (x : Noted α) (f : α → Noted β) :
    (x >>= f).diagnostics = x.diagnostics.extend (f x.value).diagnostics := by
  unfold diagnostics
  rw [reports_bind, Diagnostics.ofReports_append, Diagnostics.extend_ofReports]

end Noted
end BencodePlan
