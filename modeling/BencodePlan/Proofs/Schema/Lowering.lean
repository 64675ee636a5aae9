import BencodePlan.Proofs.Pairs
import BencodePlan.Proofs.Reports
import BencodePlan.Proofs.Types.Sound
/-!
# Lowering, step by step

Lowering is put together from works that change a table and may report errors.  Two works one after the other are without
errors if both are, and a work that begins with an error is not.  The declarations come first: until the last of them is
entered, a table holds nothing but declared types without bodies (`Declaring`).
-/
namespace BencodePlan

open TypeTable

namespace Lower

variable {α β : Type}

theorem value_bind (m : Lower α) (f : α → Lower β) (t : TypeTable) :
    ((m >>= f) t).value = (f (m t).value.1 (m t).value.2).value := rfl

theorem noErrors_bind (m : Lower α) (f : α → Lower β) (t : TypeTable) :
    ((m >>= f) t).NoErrors ↔ (m t).NoErrors ∧ (f (m t).value.1 (m t).value.2).NoErrors :=
  Noted.noErrors_bind (m t) fun p => f p.1 p.2

theorem get_bind (f : TypeTable → Lower β) (t : TypeTable) : (get >>= f) t = f t t := rfl

theorem forM_cons (f : α → Lower Unit) (a : α) (l : List α) : (a :: l).forM f = (f a >>= fun _ => l.forM f) := rfl

theorem not_noErrors_report {d : Diagnostic} (h : d.isError = true) (t : TypeTable) : ¬ (report d t).NoErrors := by
  intro hno
  have hx : (StateT.lift (Noted.report d) t : Noted (Unit × TypeTable)).NoErrors := hno
  exact Noted.not_noErrors_report h ((Noted.noErrors_bind _ _).1 hx).1

theorem not_noErrors_report_bind {d : Diagnostic} (h : d.isError = true) (f : Unit → Lower β) (t : TypeTable) :
    ¬ ((report d >>= f) t).NoErrors :=
  fun hno => not_noErrors_report h t ((noErrors_bind _ _ t).1 hno).1

/-- **What a place in a table is good for**: it can be a part of a structural type and the body of a declared one. -/
def IsPart (t : TypeTable) (id : TypeId) : Prop := id < t.size ∧ t.isStruct id = false

/-! ## Declarations -/

/-- **A table of declarations** whose bodies are still to come. -/
structure Declaring (t : TypeTable) : Prop where
  declared : ∀ {id d}, t.get? id = some d → d.isDeclared = true
  bodies : ∀ id, t.bodyOf id = none
  interned : t.interned = []
  names : ∀ {name id}, (name, id) ∈ t.names → ∃ d, t.declared? id = some d ∧ d.name = name

theorem Declaring.empty : Declaring TypeTable.empty :=
  ⟨fun h => (nomatch h), fun _ => rfl, rfl, fun h => (nomatch h)⟩

theorem Declaring.formed {t : TypeTable} (h : Declaring t) : t.Formed where
  part_lt hd hc := by
    rw [TypeDesc.parts_of_isDeclared (h.declared hd)] at hc
    cases hc
  part_struct hd hc := by
    rw [TypeDesc.parts_of_isDeclared (h.declared hd)] at hc
    cases hc
  body_lt hb := by
    rw [h.bodies] at hb
    cases hb
  interned hm := by
    rw [h.interned] at hm
    cases hm
  names := h.names

def declaredTable (t : TypeTable) (decl : RawDecl) : TypeTable :=
  ⟨t.types ++ [if decl.native then .native ⟨decl.name, none⟩ else .named ⟨decl.name, none⟩], t.interned,
    t.names ++ [(decl.name, t.size)]⟩

theorem get?_declaredTable (t : TypeTable) (decl : RawDecl) (id : TypeId) :
    (declaredTable t decl).get? id =
      if id = t.size then some (if decl.native then .native ⟨decl.name, none⟩ else .named ⟨decl.name, none⟩)
      else t.get? id :=
  get?_push t _ _ _ id

theorem size_declaredTable (t : TypeTable) (decl : RawDecl) : (declaredTable t decl).size = t.size + 1 :=
  size_push t _ _ _

theorem declared?_declaredTable (t : TypeTable) (decl : RawDecl) (id : TypeId) :
    (declaredTable t decl).declared? id = if id = t.size then some ⟨decl.name, none⟩ else t.declared? id := by
  unfold declared?
  rw [get?_declaredTable]
  split
  · cases decl.native <;> rfl
  · rfl

theorem Declaring.declaredTable {t : TypeTable} (h : Declaring t) (decl : RawDecl) :
    Declaring (declaredTable t decl) where
  declared := by
    intro id d hd
    rw [get?_declaredTable] at hd
    split at hd
    · cases hd
      cases decl.native <;> rfl
    · exact h.declared hd
  bodies id := by
    unfold bodyOf
    rw [declared?_declaredTable]
    split
    · rfl
    · exact h.bodies id
  interned := h.interned
  names := by
    intro name id hm
    rw [declared?_declaredTable]
    rcases List.mem_append.1 hm with hm | hm
    · obtain ⟨d, hd, hname⟩ := h.names hm
      rw [if_neg (Nat.ne_of_lt (lt_of_declared? hd))]
      exact ⟨d, hd, hname⟩
    · cases List.mem_singleton.1 hm
      exact ⟨_, if_pos rfl, rfl⟩

end Lower

namespace Schema

theorem ofRaw_eq_ok {raw : RawSchema} {s : Schema} (h : (ofRaw raw).value.toOption = some s) :
    (ofRaw raw).value = .ok s := by
  cases hv : (ofRaw raw).value with
  | ok s' =>
    rw [hv] at h
    cases h
    rfl
  | error ds =>
    rw [hv] at h
    cases h

end Schema
end BencodePlan
