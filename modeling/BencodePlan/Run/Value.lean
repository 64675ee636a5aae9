import BencodePlan.Text.Escape
/-!
# Values

The values that plans encode.  A value carries no type: a plan finds out on the way whether a value has what it asks for.
Structs and maps keep their pairs in the order given; the order of writing is the plan's.
-/
namespace BencodePlan

inductive Value
  /-- An absent optional value. -/
  | null
  | bool (b : Bool)
  | int (n : Int)
  | string (bytes : Bytes)
  /-- Whole seconds and the nanoseconds after them. -/
  | duration (seconds nanoseconds : Nat)
  | list (items : List Value)
  | map (pairs : List (Value × Value))
  /-- Fields by their declared names. -/
  | struct (fields : List (String × Value))
  /-- The bytes that a native value writes. -/
  | native (bytes : Bytes)
  deriving Repr

namespace Value

def kind : Value → String
  | null => "null"
  | bool _ => "bool"
  | int _ => "int"
  | string _ => "string"
  | duration .. => "duration"
  | list _ => "list"
  | map _ => "map"
  | struct _ => "struct"
  | native _ => "native"

/-- A span of time; a thousand million nanoseconds make a second. -/
def span (seconds nanoseconds : Nat) : Value :=
  duration (seconds + nanoseconds / 1000000000) (nanoseconds % 1000000000)

def valueAt? (key : Bytes) : List (Value × Value) → Option Value
  | [] => none
  | (string k, v) :: rest => if k = key then some v else valueAt? key rest
  | _ :: rest => valueAt? key rest

end Value
end BencodePlan
