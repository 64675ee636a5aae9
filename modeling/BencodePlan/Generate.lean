import BencodePlan.Schema.Lower
import BencodePlan.Shape.OfType
import BencodePlan.Plan.Fold
/-!
# Choosing types and making their plans

A request names the types to generate.  An empty one, or one with a star in it, asks for every declared struct that has a
field with a tag.  Native types are never chosen, as they write themselves; other types that are no structs are chosen by
name, and only where the caller can use plans without encoders.

A type that cannot be compiled is a failure of its own; the others are not touched by it.
-/
namespace BencodePlan

structure GeneratorConfig where
  /-- Merge literals side by side. -/
  fold : Bool
  /-- Also take types that are no structs, if they are asked for by name. -/
  aliasRoots : Bool
  deriving DecidableEq, Repr

structure TypeFailure where
  name : String
  error : CompileError
  deriving DecidableEq, Repr

structure Generated where
  plans : List Plan
  failures : List TypeFailure
  deriving Repr

namespace Generated

def isSuccess (g : Generated) : Bool := g.failures.isEmpty

def features (g : Generated) : Features := Plan.combinedFeatures g.plans

/-- The names of the generated types, for a message. -/
def names (g : Generated) : String := String.intercalate ", " (g.plans.map Plan.name)

end Generated

namespace Schema

def selectAll : String := "*"

/-- Whether a type is a struct by another name or by its own. -/
def isStructBased (t : TypeTable) (id : TypeId) : Bool := t.isStruct (t.underlying id)

/-- The declared types that an open request asks for, in declaration order. -/
def taggedStructs (t : TypeTable) : Noted (List (String × TypeId)) := do
  let found ← t.names.mapM fun (name, id) => do
    if t.isNative id || !isStructBased t id then return []
    else if ← Field.hasTagged t name id then return [(name, id)]
    else return []
  return found.flatten

def requestedType (t : TypeTable) (aliasRoots : Bool) (name : String) : Noted (List (String × TypeId)) :=
  match t.lookup name with
  | none => do
    Noted.report (.plain .unknownRequestedType "schema" name)
    return []
  | some id => do
    if t.isNative id then
      Noted.tell (.nativeSkipped name)
      return []
    else if !aliasRoots && !isStructBased t id then
      Noted.report (.plain .nonStructRoot "schema" name)
      return []
    else return [(name, id)]

/-- Without the entries whose name is that of the entry before. -/
def withoutRepeats : List (String × TypeId) → List (String × TypeId)
  | [] => []
  | [a] => [a]
  | a :: b :: rest => if a.1 = b.1 then withoutRepeats (a :: rest) else a :: withoutRepeats (b :: rest)
termination_by l => l.length

/-- **The types that a request asks for**, by name and each once. -/
def select (s : Schema) (config : GeneratorConfig) (requested : List String) : Noted (List (String × TypeId)) := do
  let chosen ←
    if requested.isEmpty || requested.contains selectAll then taggedStructs s.table
    else do
      let found ← requested.mapM (requestedType s.table config.aliasRoots)
      pure found.flatten
  return withoutRepeats (chosen.mergeSort fun a b => a.1 ≤ b.1)

def generateType (s : Schema) (config : GeneratorConfig) (name : String) (id : TypeId) :
    Noted (Except CompileError Plan) := do
  Noted.tell (.generating name)
  match ← (s.table.compile name id).run with
  | .ok p => return .ok (if config.fold then p.folded else p)
  | .error e => return .error e

def generateAll (s : Schema) (config : GeneratorConfig) : List (String × TypeId) → Noted Generated
  | [] => return ⟨[], []⟩
  | (name, id) :: rest => do
    match ← s.generateType config name id with
    | .ok p =>
      let more ← s.generateAll config rest
      return ⟨p :: more.plans, more.failures⟩
    | .error e =>
      Noted.tell (.failed name e.message)
      Noted.report (e.diagnostic name)
      let more ← s.generateAll config rest
      return ⟨more.plans, ⟨name, e⟩ :: more.failures⟩

/-- **Choose types and make their plans.** -/
def generate (s : Schema) (config : GeneratorConfig) (requested : List String) : Noted Generated := do
  let chosen ← s.select config requested
  if chosen.isEmpty then Noted.tell .nothingSelected
  s.generateAll config chosen

end Schema
end BencodePlan
