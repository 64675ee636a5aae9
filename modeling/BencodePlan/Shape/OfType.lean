import BencodePlan.Shape.Basic
import BencodePlan.Shape.Error
import BencodePlan.Member.Field
/-!
# The shape of a type

A type is opened from the top: references, lists, maps and structs lead to the types below them, a declared type to the
type it is built on.  A native type is not opened, whatever its body is.

Two lists are kept on the way down.  `expanding` has the declared types that are being opened; to open one of them again
means that the type contains itself.  `walked` has the places passed since the last declared type was opened, and only
ensures that a table with a circle of structural types, which no schema gives, is not walked for ever.

Between two steps into a list, a map or a field, declared types are opened at most twice, with references between them.
-/
namespace BencodePlan
namespace TypeTable

/-- **The test by which a field of a type may be left out**, by the type it is built on.  Structs and opaque native types
have no empty value. -/
def emptinessTest (t : TypeTable) (id : TypeId) : Option EmptinessTest :=
  match t.underlyingDesc id with
  | some (.sequence ..) | some (.mapping ..) | some (.scalar .str) => some .len
  | some (.pointer _) => some .nil
  | some (.scalar .bool) => some .false
  | some (.scalar (.int _)) | some (.scalar (.float _)) => some .zero
  | some .duration => some .zeroDuration
  | some (.struct _) | some (.named _) | some (.native _) | none => none

/-- How often declared types are opened between two steps down. -/
def maxUnwraps : Nat := 2

/-- The slot of a field: one that may be left out needs a test. -/
def slotOf (t : TypeTable) (owner : String) (f : Field) : Except CompileError Slot :=
  if f.omitEmpty then
    match t.emptinessTest f.type with
    | some test => .ok ⟨f.name, f.path, f.key, some test⟩
    | none => .error (.omitEmptyUnsupported (owner ++ "." ++ f.name) (t.display f.type))
  else .ok ⟨f.name, f.path, f.key, none⟩

/-- Fields in the order in which they are written: by declared name, those of one name in declaration order. -/
def writingOrder (fields : List Field) : List Field :=
  fields.mergeSort fun a b => a.name ≤ b.name

def isStringKey (t : TypeTable) (key : TypeId) : Bool :=
  t.underlyingDesc key = some (.scalar .str)

/-- The shape of a type on the way down.  `top` is the type of the last step, `owner` the name that a struct found here
is reported under, and `unwraps` counts the declared types opened since that step. -/
def shapeFrom (t : TypeTable) (expanding walked : List TypeId) (top : TypeId) (unwraps : Nat) (owner : Option String)
    (current : TypeId) : Compile Shape :=
  if _new : current < t.size ∧ current ∉ walked then
    match t.get? current with
    | some (.native _) => do
      Compile.tell (.nativeFound (t.display current))
      return .native
    | some .duration => return .duration
    | some (.scalar .bool) => return .bool
    | some (.scalar (.int _)) => return .int
    | some (.scalar .str) => return .string
    | some (.pointer target) => do
      return .optional (← t.shapeFrom expanding (current :: walked) top unwraps (t.nameOf target) target)
    | some (.sequence element _) => do
      return .list (← t.shapeFrom expanding (current :: walked) element 0 (t.nameOf element) element)
    | some (.mapping key value) =>
      if t.isStringKey key then do
        let k ← t.shapeFrom expanding (current :: walked) key 0 (t.nameOf key) key
        let v ← t.shapeFrom expanding (current :: walked) value 0 (t.nameOf value) value
        return .map (t.nameOf key) k v
      else throw (.nonStringMapKey (t.display current) (t.display key))
    | some (.struct _) => do
      let owner := owner.getD (t.display current)
      let fields ← ExceptT.lift (Field.collect t owner current)
      return .struct (← (writingOrder fields).mapM fun f => do
        let shape ← t.shapeFrom expanding (current :: walked) f.type 0 (t.nameOf f.type) f.type
        let slot ← ExceptT.mk (pure (t.slotOf owner f))
        return (slot, shape))
    | some (.scalar (.float _)) | some (.named _) | none =>
      if t.underlying current = current ∨ unwraps = maxUnwraps then throw (.unsupportedType (t.display top))
      else if _fresh : current ∉ expanding then
        t.shapeFrom (current :: expanding) [] top (unwraps + 1) (t.nameOf current) (t.underlying current)
      else throw (.recursiveType (t.display current))
  else throw (.recursiveType (t.display current))
termination_by (t.unseen expanding, t.unseen walked)
decreasing_by
  all_goals first
    | exact Prod.Lex.right _ (t.unseen_cons_lt _new.1 _new.2)
    | exact Prod.Lex.left _ _ (t.unseen_cons_lt _new.1 _fresh)

/-- **The shape of a type.** -/
def shape (t : TypeTable) (id : TypeId) : Compile Shape :=
  t.shapeFrom [] [] id 0 (t.nameOf id) id

/-- The instructions that write a value of a type found at a selector, inside so many loops. -/
def compileAt (t : TypeTable) (source : Selector) (id : TypeId) (depth : Nat) : Compile (List Instruction) := do
  return (← t.shape id).plan source depth

/-- **The plan of a type**, under a name. -/
def compile (t : TypeTable) (name : String) (id : TypeId) : Compile Plan := do
  return ⟨name, ← t.compileAt .root id 0⟩

end TypeTable
end BencodePlan
