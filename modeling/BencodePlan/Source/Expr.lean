import BencodePlan.Plan.Selector
/-!
# Expressions of generated code

The expressions that stand for selectors in a generated encoder.  The value being encoded is at hand as the reference
`self`, and the variables of loops are references as well.

A selector is needed in four positions.  A *place* names the value itself and may be followed by a dot or an index; a
*value* is a place without the parentheses that only a place needs; a *reference* borrows the value; a *receiver* is what
a method is called on.  As loop variables and `self` are references, they are taken as they are for the last two.
-/
namespace BencodePlan
namespace Source

inductive Expr
  | self
  | elem (depth : Nat)
  | key (depth : Nat)
  | field (base : Expr) (name : String)
  /-- The whole seconds of a span of time. -/
  | seconds (base : Expr)
  /-- The entry of a map under the key variable of a depth. -/
  | entry (base : Expr) (depth : Nat)
  /-- What a reference refers to. -/
  | star (e : Expr)
  /-- What a reference to an optional value holds; the encoder fails if there is nothing. -/
  | follow (e : Expr)
  | borrow (e : Expr)
  | paren (e : Expr)
  deriving DecidableEq, Repr

namespace Expr

/-- A selector that is at hand as a reference, else what is given. -/
def orBound (other : Expr) : Selector → Expr
  | .root => self
  | .elem depth => elem depth
  | .key depth => key depth
  | _ => other

/-- **The place of a selector.** -/
def place : Selector → Expr
  | .root => paren (star self)
  | .elem depth => paren (star (elem depth))
  | .key depth => paren (star (key depth))
  | .deref base => paren (star (follow (orBound (borrow (place base)) base)))
  | .field base name => field (orBound (place base) base) name
  | .seconds base => seconds (orBound (place base) base)
  | .value base depth => entry (orBound (place base) base) depth

def reference (s : Selector) : Expr := orBound (borrow (place s)) s

def receiver (s : Selector) : Expr := orBound (place s) s

def value (s : Selector) : Expr :=
  match place s with
  | paren e => e
  | e => e

/-- **An expression as text.**  `runtime` is the path of the module that has the helpers. -/
def text (runtime : String) : Expr → String
  | self => "self"
  | elem depth => Selector.elemName depth
  | key depth => Selector.keyName depth
  | field base name => base.text runtime ++ "." ++ name
  | seconds base => base.text runtime ++ ".as_secs()"
  | entry base depth => base.text runtime ++ "[" ++ Selector.keyName depth ++ "]"
  | star e => "*" ++ e.text runtime
  | follow e => runtime ++ "::deref(" ++ e.text runtime ++ ")?"
  | borrow e => "&" ++ e.text runtime
  | paren e => "(" ++ e.text runtime ++ ")"

end Expr
end Source
end BencodePlan
