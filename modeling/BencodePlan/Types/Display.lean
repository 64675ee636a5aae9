import BencodePlan.Types.Table
/-!
# Types as text

A type in the syntax of type expressions, with a notation of its own for struct bodies, which have none there.  Declared
types are shown by name, so only structural types are opened; a table that was built in the usual way has no circle of
those, and where one would begin nothing is shown.

Walks over the types of a table end because they remember the places they have been: `unseen` counts the others.
-/
namespace BencodePlan
namespace TypeTable

/-- How many places of the table are not in a list. -/
def unseen (t : TypeTable) (seen : List TypeId) : Nat :=
  ((List.range t.size).filter (· ∉ seen)).length

/-- A new place among the seen ones leaves fewer unseen. -/
theorem unseen_cons_lt (t : TypeTable) {seen : List TypeId} {id : TypeId} (hid : id < t.size)
    (hnew : id ∉ seen) : t.unseen (id :: seen) < t.unseen seen := by
  have hsub : (List.range t.size).filter (· ∉ id :: seen)
      = ((List.range t.size).filter (· ∉ seen)).filter (· ≠ id) := by
    rw [List.filter_filter]
    exact List.filter_congr fun i _ => by simp
  unfold unseen
  rw [hsub]
  refine List.length_filter_lt_length_iff_exists.2 ⟨id, ?_, by simp⟩
  simp [hid, hnew]

/-- A type as text, from below the types already opened. -/
def displayFrom (t : TypeTable) (opened : List TypeId) (id : TypeId) : String :=
  if _new : id < t.size ∧ id ∉ opened then
    match t.get? id with
    | some (.scalar kind) => kind.name
    | some .duration => "duration"
    | some (.pointer target) => "Option<" ++ t.displayFrom (id :: opened) target ++ ">"
    | some (.struct []) => "struct \x7b\x7d"
    | some (.struct members) =>
      "struct \x7b " ++
        String.intercalate ", " (members.map fun m => m.name ++ ": " ++ t.displayFrom (id :: opened) m.type) ++ " \x7d"
    | some (.sequence element .slice) => "Vec<" ++ t.displayFrom (id :: opened) element ++ ">"
    | some (.sequence element (.array n)) =>
      "[" ++ t.displayFrom (id :: opened) element ++ "; " ++ toString n ++ "]"
    | some (.mapping key value) =>
      "Map<" ++ t.displayFrom (id :: opened) key ++ ", " ++ t.displayFrom (id :: opened) value ++ ">"
    | some (.named d) => d.name
    | some (.native d) => d.name
    | none => ""
  else ""
termination_by t.unseen opened
decreasing_by all_goals exact t.unseen_cons_lt _new.1 _new.2

/-- **A type as text.** -/
def display (t : TypeTable) (id : TypeId) : String :=
  t.displayFrom [] id

end TypeTable
end BencodePlan
