import BencodePlan.Types.Scalar
import BencodePlan.Text.Span
/-!
# Type expressions

The text form of a type, as schemas write it: a scalar keyword, `duration`, `Option<T>`, `Vec<T>`, `[T; N]`,
`Map<K, V>`, or the name of a declared type.  This module has the tree, its tokens, and the ways in which a text can
fail to be one.
-/
namespace BencodePlan

/-- A parsed type expression.  A reference to a declared type keeps its place in the text, for messages. -/
inductive TypeExpr
  | scalar (kind : ScalarKind)
  | duration
  | option (inner : TypeExpr)
  | vec (element : TypeExpr)
  | array (element : TypeExpr) (length : Nat)
  | map (key value : TypeExpr)
  | named (name : String) (span : Span)
  deriving DecidableEq, Repr

namespace TypeExpr

inductive Token
  | leftAngle
  | rightAngle
  | leftBracket
  | rightBracket
  | semicolon
  | comma
  | number (digits : String)
  | word (name : String)
  deriving DecidableEq, Repr

def Token.text : Token → String
  | leftAngle => "<"
  | rightAngle => ">"
  | leftBracket => "["
  | rightBracket => "]"
  | semicolon => ";"
  | comma => ","
  | number digits => digits
  | word name => name

structure Located where
  token : Token
  span : Span
  deriving DecidableEq, Repr

inductive Fault
  | character (c : Char)
  | afterType (found : Token)
  | expectedToken (wanted : Token) (found : Option Token)
  | expectedType (found : Option Token)
  | expectedLength
  | lengthTooLarge (digits : String)
  deriving DecidableEq, Repr

structure Error where
  fault : Fault
  span : Span
  deriving DecidableEq, Repr

end TypeExpr
end BencodePlan
