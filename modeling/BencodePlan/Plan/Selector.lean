import BencodePlan.Text.Decimal
/-!
# Access paths

How a plan names the value that an instruction writes: from the value being encoded, through fields, references and map
entries, or from the variable of a loop.  Loops are numbered by how deep they are nested, so that a map inside a map has
a key variable of its own.
-/
namespace BencodePlan

inductive Selector
  /-- The value being encoded. -/
  | root
  | field (base : Selector) (name : String)
  /-- Through a reference that may be absent. -/
  | deref (base : Selector)
  /-- The whole seconds of a span of time. -/
  | seconds (base : Selector)
  /-- The element at hand in the list loop of this depth. -/
  | elem (depth : Nat)
  /-- The key at hand in the map loop of this depth. -/
  | key (depth : Nat)
  /-- The entry of a map under the key at hand in the map loop of this depth. -/
  | value (base : Selector) (depth : Nat)
  deriving DecidableEq, Repr

namespace Selector

def elemName (depth : Nat) : String := "i" ++ Text.decimalText depth

def keyName (depth : Nat) : String := "k" ++ Text.decimalText depth

def binding : Selector → Option String
  | elem depth => some (elemName depth)
  | key depth => some (keyName depth)
  | _ => none

/-- **A selector as text.** -/
def display : Selector → String
  | root => "x"
  | field base name => base.display ++ "." ++ name
  | deref base => "(*" ++ base.display ++ ")"
  | seconds base => base.display ++ ".seconds()"
  | elem depth => elemName depth
  | key depth => keyName depth
  | value base depth => base.display ++ "[" ++ keyName depth ++ "]"

def fields (base : Selector) (names : List String) : Selector :=
  names.foldl field base

/-- A value that is not part of the value being encoded, but computed from it. -/
def isComputed : Selector → Bool
  | seconds _ => true
  | deref base => base.isComputed
  | _ => false

end Selector
end BencodePlan
