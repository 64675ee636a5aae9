import BencodePlan.Shape.OfType
import BencodePlan.Run.Value
import BencodePlan.Proofs.Member.Collected
/-!
# Encoding a value by its type

What the bytes of a value are, without plans: by recursion on the type, or on the shape that it comes to.  An `Encoder` is
given a value or none and says what is written, if anything can be.  The absence of a value is handed on, by a reference to
its target and by a struct to its fields, until something has to be read; a type that reads nothing is written all the
same.
-/
namespace BencodePlan

abbrev Encoder := Option Value → Option Bytes

namespace Value

def member? (v : Option Value) (name : String) : Option Value :=
  match v with
  | some (.struct fields) => fields.lookup name
  | _ => none

def along (v : Option Value) (path : List String) : Option Value := path.foldl member? v

def target? : Option Value → Option Value
  | some .null => none
  | v => v

def stringKeys? : List (Value × Value) → Option (List Bytes)
  | [] => some []
  | (.string k, _) :: rest => do return k :: (← stringKeys? rest)
  | _ :: _ => none

end Value

namespace EmptinessTest

/-- Whether a value is to be written, if the test can be made on it. -/
def presence? : EmptinessTest → Value → Option Bool
  | len, .string bytes => some !bytes.isEmpty
  | len, .list items => some !items.isEmpty
  | len, .map pairs => some !pairs.isEmpty
  | nil, .null => some Bool.false
  | nil, _ => some true
  | .false, .bool b => some b
  | zero, .int n => some (n != 0)
  | zeroDuration, .duration s n => some (s != 0 || n != 0)
  | _, _ => none

end EmptinessTest

namespace Encoder

def append (a b : Option Bytes) : Option Bytes := do return (← a) ++ (← b)

def concat : List (Option Bytes) → Option Bytes
  | [] => some []
  | a :: rest => append a (concat rest)

def framed (opening : Char) (body : Option Bytes) : Option Bytes :=
  append (some (Wire.ascii [opening])) (append body (some (Wire.ascii ['e'])))

def native : Encoder
  | some (.native bytes) => some bytes
  | _ => none

/-- Whole seconds; what is left over is not written. -/
def duration : Encoder
  | some (.duration seconds _) => framed 'i' (some (Wire.int seconds))
  | _ => none

def bool : Encoder
  | some (.bool b) => framed 'i' (some (Wire.bool b))
  | _ => none

def int : Encoder
  | some (.int n) => framed 'i' (some (Wire.int n))
  | _ => none

def string : Encoder
  | some (.string bytes) => some (Wire.string bytes)
  | _ => none

def optional (inner : Encoder) : Encoder := fun v => inner (Value.target? v)

def list (element : Encoder) : Encoder
  | some (.list items) => framed 'l' (concat (items.map fun v => element (some v)))
  | _ => none

/-- The entries by ascending keys, each with the value of the first pair of its key. -/
def map (key value : Encoder) : Encoder
  | some (.map pairs) => do
    let keys ← Value.stringKeys? pairs
    framed 'd' (concat ((Wire.sortedKeys keys).map fun k =>
      append (key (some (.string k))) (value (Value.valueAt? k pairs))))
  | _ => none

/-- A field of a struct, with its key before it, unless it is left out. -/
def field (slot : Slot) (inner : Encoder) : Encoder := fun v =>
  let found := Value.along v (slot.path ++ [slot.name])
  let written := append (some (Wire.key slot.key)) (inner found)
  match slot.test with
  | none => written
  | some test => do if ← found.bind test.presence? then written else some []

def struct (fields : List (Slot × Encoder)) : Encoder := fun v =>
  framed 'd' (concat (fields.map fun p => field p.1 p.2 v))

theorem append_eq_none {a b : Option Bytes} : append a b = none ↔ a = none ∨ b = none := by
  cases a with
  | none => exact ⟨fun _ => Or.inl rfl, fun _ => rfl⟩
  | some a =>
    cases b with
    | none => exact ⟨fun _ => Or.inr rfl, fun _ => rfl⟩
    | some b => exact ⟨fun h => (nomatch h), fun h => h.elim (fun h => nomatch h) (fun h => nomatch h)⟩

theorem framed_eq_none {opening : Char} {body : Option Bytes} : framed opening body = none ↔ body = none := by
  unfold framed
  rw [append_eq_none, append_eq_none]
  exact ⟨fun h => h.elim (fun h => nomatch h) fun h => h.elim id (fun h => nomatch h), fun h => Or.inr (Or.inl h)⟩

theorem concat_map_eq_none {α : Type} {f : α → Option Bytes} : ∀ {l : List α},
    concat (l.map f) = none ↔ ∃ a ∈ l, f a = none
  | [] => ⟨fun h => (nomatch h), fun ⟨_, hm, _⟩ => (nomatch hm)⟩
  | a :: l => by
    rw [List.map_cons, concat, append_eq_none, concat_map_eq_none]
    exact (List.exists_mem_cons_iff (fun a => f a = none) a l).symm

end Encoder

namespace Shape

mutual
/-- **What a value of a shape is written as.** -/
def encode : Shape → Encoder
  | native => Encoder.native
  | duration => Encoder.duration
  | bool => Encoder.bool
  | int => Encoder.int
  | string => Encoder.string
  | optional inner => Encoder.optional inner.encode
  | list element => Encoder.list element.encode
  | map _ key value => Encoder.map key.encode value.encode
  | struct fields => Encoder.struct (encoders fields)
termination_by structural s => s

def encoders : List (Slot × Shape) → List (Slot × Encoder)
  | [] => []
  | (slot, s) :: rest => (slot, s.encode) :: encoders rest
termination_by structural fields => fields
end

end Shape

namespace TypeTable

def slot (t : TypeTable) (f : Field) : Slot :=
  ⟨f.name, f.path, f.key, if f.omitEmpty then t.emptinessTest f.type else none⟩

/-- What a value of a type is written as, where some types are being opened already.  Nothing is written for a type inside
itself. -/
def encodeFrom (t : TypeTable) (opened : List TypeId) (id : TypeId) : Encoder :=
  if _new : id < t.size ∧ id ∉ opened then
    match t.get? id with
    | some (.native _) => Encoder.native
    | some .duration => Encoder.duration
    | some (.scalar .bool) => Encoder.bool
    | some (.scalar (.int _)) => Encoder.int
    | some (.scalar .str) => Encoder.string
    | some (.pointer target) => Encoder.optional (t.encodeFrom (id :: opened) target)
    | some (.sequence element _) => Encoder.list (t.encodeFrom (id :: opened) element)
    | some (.mapping key value) =>
      Encoder.map (t.encodeFrom (id :: opened) key) (t.encodeFrom (id :: opened) value)
    | some (.struct _) =>
      Encoder.struct ((writingOrder (t.fieldsOf id)).map fun f => (t.slot f, t.encodeFrom (id :: opened) f.type))
    | some (.named _) => t.encodeFrom (id :: opened) (t.underlying id)
    | some (.scalar (.float _)) | none => fun _ => none
  else fun _ => none
termination_by t.unseen opened
decreasing_by all_goals exact t.unseen_cons_lt _new.1 _new.2

/-- **What a value of a type is written as.**  A declared type is written as the type it is built on, whatever native
declarations there are on the way. -/
def encode (t : TypeTable) (id : TypeId) : Encoder := t.encodeFrom [] id

end TypeTable
end BencodePlan
