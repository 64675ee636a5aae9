import BencodePlan.Plan.Instruction
/-!
# Shapes

What a type comes to once its declarations are opened and its structs flattened: a finite tree whose leaves are written
directly.  A struct keeps its fields in the order in which they are written, each with the way to it, its key, and the
test by which it may be left out.

A shape determines the plan.  The plan is the same wherever the type occurs, but for the selector it begins at and the
number of loops around it.
-/
namespace BencodePlan

structure Slot where
  name : String
  path : List String
  key : String
  test : Option EmptinessTest
  deriving DecidableEq, Repr

namespace Slot

def selector (s : Slot) (base : Selector) : Selector := base.fields (s.path ++ [s.name])

end Slot

inductive Shape
  | native
  | duration
  | bool
  | int
  | string
  | optional (inner : Shape)
  | list (element : Shape)
  /-- Keys of a declared type carry its name. -/
  | map (cast : Option String) (key value : Shape)
  | struct (fields : List (Slot × Shape))
  deriving Repr

namespace Shape

/-- The depth of a loop in a loop.  Depths are kept in sixteen bits. -/
def deeper (depth : Nat) : Nat := (depth + 1) % 65536

def framedInt (source : Selector) : List Instruction :=
  [.ascii "i", .int source, .ascii "e"]

mutual
/-- **The instructions that write a value of the shape** found at a selector, inside so many loops. -/
def plan (source : Selector) (depth : Nat) : Shape → List Instruction
  | native => [.native source]
  | duration => framedInt (.seconds source)
  | bool => [.ascii "i", .bool source, .ascii "e"]
  | int => framedInt source
  | string => [.string source]
  | optional inner => inner.plan (.deref source) depth
  | list element =>
    [.ascii "l", .list source depth (element.plan (.elem depth) (deeper depth)), .ascii "e"]
  | map cast key value =>
    [.ascii "d",
      .map source depth cast
        (key.plan (.key depth) (deeper depth) ++ value.plan (.value source depth) (deeper depth)),
      .ascii "e"]
  | struct fields => .ascii "d" :: planFields source depth fields ++ [.ascii "e"]
termination_by structural s => s

/-- The instructions of a struct's fields, between its framing. -/
def planFields (source : Selector) (depth : Nat) : List (Slot × Shape) → List Instruction
  | [] => []
  | (slot, shape) :: rest =>
    let written := .literal (Wire.key slot.key) :: shape.plan (slot.selector source) depth
    (match slot.test with
      | none => written
      | some test => [.when (slot.selector source) test written]) ++ planFields source depth rest
termination_by structural fields => fields
end

end Shape
end BencodePlan
