import BencodePlan.Member.Field
import BencodePlan.Proofs.Types.Sound
/-!
# What collection finds

Where a struct is found decides what is reported about its members, but not which fields it has: `fieldsOf` are the fields
of a struct wherever it is.  Every field comes from a member of some struct body of the table (`mem_collectFrom`).
-/
namespace BencodePlan

theorem Noted.value_mapM {α β : Type} (f : α → Noted β) : ∀ l : List α, (l.mapM f).value = l.map fun a => (f a).value
  | [] => rfl
  | a :: l => by
    rw [List.mapM_cons, value_bind, value_bind, value_mapM f l]
    rfl

namespace Field

theorem value_readTag (location location' : String) (m : Member) :
    (readTag location m).value = (readTag location' m).value := by
  unfold readTag
  cases m.tag with
  | none => rfl
  | some raw =>
    simp only
    cases Tag.parse raw with
    | ok tag => rfl
    | error e => rfl

def ofMember (t : TypeTable) (opened : List TypeId) (path : List String) (body : TypeId) (m : Member) : List Field :=
  if m.embedded then
    if t.isStruct (t.underlying m.type) = true ∧ t.underlying m.type ∉ body :: opened then
      (collectFrom t (body :: opened) (path ++ [m.name]) m.name (t.underlying m.type)).value
    else []
  else [⟨m.name, path, m.type, (readTag "" m).value⟩]

/-- **The fields of a struct body are those of its members in order.** -/
theorem value_collectFrom (t : TypeTable) (opened : List TypeId) (path : List String) (owner : String)
    (body : TypeId) : (collectFrom t opened path owner body).value =
      if body < t.size ∧ body ∉ opened then
        match t.get? body with
        | some (.struct members) => members.flatMap (ofMember t opened path body)
        | _ => []
      else [] := by
  rw [collectFrom]
  by_cases hnew : body < t.size ∧ body ∉ opened
  · rw [dif_pos hnew, if_pos hnew]
    cases hget : t.get? body with
    | none => rfl
    | some d =>
      cases d with
      | struct members =>
        simp only [Noted.value_bind, Noted.value_mapM, Noted.value_pure, List.flatMap_def]
        congr 1
        apply List.map_congr_left
        intro m _
        unfold ofMember
        rw [value_readTag "" (owner ++ "." ++ m.name)]
        cases m.embedded with
        | false => rfl
        | true =>
          cases hs : t.isStruct (t.underlying m.type) with
          | false => rfl
          | true =>
            by_cases hin : t.underlying m.type ∈ body :: opened
            · simp only [hin, if_true, Bool.not_true, Bool.false_eq_true, if_false, not_true_eq_false, and_false]
              rfl
            · simp only [hin, if_true, Bool.not_true, Bool.false_eq_true, if_false, not_false_eq_true, and_true]
              cases (readTag (owner ++ "." ++ m.name) m).value <;> rfl
      | _ => rfl
  · rw [dif_neg hnew, if_neg hnew]
    rfl

theorem value_collectFrom_of_not_struct {t : TypeTable} {body : TypeId} (h : t.isStruct body = false) (opened : List TypeId)
    (path : List String) (owner : String) : (collectFrom t opened path owner body).value = [] := by
  rw [value_collectFrom]
  split
  · split
    · rename_i ms hms
      rw [(TypeTable.isStruct_iff _ _).2 ⟨ms, hms⟩] at h
      cases h
    · rfl
  · rfl

theorem mem_collectFrom {t : TypeTable} (opened : List TypeId) (path : List String) (owner : String) (body : TypeId)
    {f : Field} (hf : f ∈ (collectFrom t opened path owner body).value) :
    ∃ id members m, t.get? id = some (.struct members) ∧ m ∈ members ∧ m.embedded = false ∧ f.name = m.name ∧
      f.type = m.type ∧ f.tag = (readTag "" m).value := by
  rw [value_collectFrom] at hf
  by_cases hnew : body < t.size ∧ body ∉ opened
  · rw [if_pos hnew] at hf
    cases hget : t.get? body with
    | none =>
      rw [hget] at hf
      cases hf
    | some d =>
      rw [hget] at hf
      cases d with
      | struct members =>
        obtain ⟨m, hm, hfm⟩ := List.mem_flatMap.1 hf
        unfold ofMember at hfm
        cases he : m.embedded with
        | false =>
          simp only [he, Bool.false_eq_true, if_false, List.mem_singleton] at hfm
          subst hfm
          exact ⟨body, members, m, hget, hm, he, rfl, rfl, rfl⟩
        | true =>
          simp only [he, if_true] at hfm
          split at hfm
          · exact mem_collectFrom _ _ _ _ hfm
          · cases hfm
      | _ => cases hf
  · rw [if_neg hnew] at hf
    cases hf
termination_by t.unseen opened
decreasing_by exact t.unseen_cons_lt hnew.1 hnew.2

end Field

namespace TypeTable

/-- **The fields of a struct body** in declaration order; none if it is something else. -/
def fieldsOf (t : TypeTable) (body : TypeId) : List Field := (Field.collectFrom t [] [] "" body).value

theorem value_collect {t : TypeTable} {id : TypeId} (h : t.underlying id = id) (owner : String) :
    (Field.collect t owner id).value = t.fieldsOf id := by
  unfold Field.collect fieldsOf
  rw [h, Field.value_collectFrom, Field.value_collectFrom]

theorem isStruct_of_mem_fieldsOf {t : TypeTable} (h : t.Formed) {id : TypeId} {f : Field} (hf : f ∈ t.fieldsOf id) :
    f.type < t.size ∧ t.isStruct f.type = false := by
  obtain ⟨body, members, m, hget, hm, -, -, htype, -⟩ := Field.mem_collectFrom _ _ _ _ hf
  have hpart : m.type ∈ (TypeDesc.struct members).parts := List.mem_map_of_mem hm
  rw [htype]
  exact ⟨Nat.lt_trans (h.part_lt hget hpart) (get?_lt hget), h.part_struct hget hpart⟩

end TypeTable
end BencodePlan
