import BencodePlan.Types.Scalar
/-!
# The type table

Types refer to each other by number.  A structural type is entered once and found again when it is asked for; a
declared type is entered under its name, before its body is known, so that declarations may refer to each other in any
order.  A table only grows, and of what is entered only the body of a declared type ever changes.

Three lists make up a table: the descriptors by number, what each structural descriptor was entered as, and the
declared names in order.  The second is kept apart from the first because the body of a declared type may change after
the type has been entered like a structural one.

Numbers have no bound here.  Tables stay below 2^32 entries, so that numbers kept in 32 bits are the same.
-/
namespace BencodePlan

abbrev TypeId := Nat

/-- Lists are of any length or of a fixed one; both are written alike. -/
inductive SequenceKind
  | slice
  | array (length : Nat)
  deriving DecidableEq, Repr

/-- A member of a struct as declared.  The tag is kept as text until the member is collected. -/
structure Member where
  name : String
  type : TypeId
  tag : Option String
  embedded : Bool
  deriving DecidableEq, Repr

/-- The name of a declared type, and its body once that is known. -/
structure Declared where
  name : String
  body : Option TypeId
  deriving DecidableEq, Repr

inductive TypeDesc
  | scalar (kind : ScalarKind)
  /-- A span of time, written in whole seconds. -/
  | duration
  /-- A reference that may be absent. -/
  | pointer (target : TypeId)
  | struct (members : List Member)
  | sequence (element : TypeId) (kind : SequenceKind)
  | mapping (key value : TypeId)
  | named (declared : Declared)
  /-- A declared type that writes its own encoding. -/
  | native (declared : Declared)
  deriving DecidableEq, Repr

namespace TypeDesc

def declared? : TypeDesc → Option Declared
  | named d | native d => some d
  | _ => none

def isDeclared (d : TypeDesc) : Bool :=
  d.declared?.isSome

/-- Attach a body to a declared type; other descriptors have none. -/
def withBody (body : TypeId) : TypeDesc → TypeDesc
  | named d => named { d with body := some body }
  | native d => native { d with body := some body }
  | other => other

end TypeDesc

structure TypeTable where
  types : List TypeDesc
  interned : List (TypeDesc × TypeId)
  names : List (String × TypeId)
  deriving DecidableEq, Repr

namespace TypeTable

def empty : TypeTable := ⟨[], [], []⟩

def size (t : TypeTable) : Nat := t.types.length

def get? (t : TypeTable) (id : TypeId) : Option TypeDesc := t.types[id]?

/-- **Enter a structural type**, or find it. -/
def intern (t : TypeTable) (d : TypeDesc) : TypeId × TypeTable :=
  match t.interned.lookup d with
  | some id => (id, t)
  | none => (t.size, { t with types := t.types ++ [d], interned := t.interned ++ [(d, t.size)] })

def lookup (t : TypeTable) (name : String) : Option TypeId :=
  t.names.lookup name

/-- **Enter a declared type** without a body, unless its name is taken. -/
def declare (t : TypeTable) (name : String) (isNative : Bool) : Option (TypeId × TypeTable) :=
  if (t.lookup name).isSome then none
  else
    let d : Declared := ⟨name, none⟩
    some (t.size, { t with
      types := t.types ++ [if isNative then .native d else .named d]
      names := t.names ++ [(name, t.size)] })

/-- **Give a declared type its body.**  A structural type takes none, which the answer tells. -/
def define (t : TypeTable) (id body : TypeId) : Bool × TypeTable :=
  match t.get? id with
  | some d => if d.isDeclared then (true, { t with types := t.types.set id (d.withBody body) }) else (false, t)
  | none => (false, t)

/-- The declaration behind a type, if it is a declared one. -/
def declared? (t : TypeTable) (id : TypeId) : Option Declared :=
  (t.get? id).bind TypeDesc.declared?

def nameOf (t : TypeTable) (id : TypeId) : Option String :=
  (t.declared? id).map Declared.name

def isNative (t : TypeTable) (id : TypeId) : Bool :=
  match t.get? id with
  | some (.native _) => true
  | _ => false

def isStruct (t : TypeTable) (id : TypeId) : Bool :=
  match t.get? id with
  | some (.struct _) => true
  | _ => false

/-- Follow the bodies of declared types at most so many times. -/
def follow (t : TypeTable) : Nat → TypeId → TypeId
  | 0, id => id
  | n + 1, id =>
    match (t.declared? id).bind Declared.body with
    | some body => t.follow n body
    | none => id

/-- **The type a declared type is built on.**  Chains of declarations are followed to their end; a chain longer than the
table runs in a circle, and is left where the count ends. -/
def underlying (t : TypeTable) (id : TypeId) : TypeId :=
  t.follow (t.size + 1) id

def underlyingDesc (t : TypeTable) (id : TypeId) : Option TypeDesc :=
  t.get? (t.underlying id)

end TypeTable
end BencodePlan
