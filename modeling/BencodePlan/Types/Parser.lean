import BencodePlan.Types.Lexer
import BencodePlan.Text.Quoted
/-!
# Reading a type expression

The reader keeps a list of what must still come, the first item first, and the trees that are finished, the last one
first.  One token settles what becomes of the first item: a keyword that takes arguments puts these before the rest,
anything else that can stand for a type is a finished tree.  So each token is looked at once, and the reader stops at
the first token that no type expression could have there.
-/
namespace BencodePlan
namespace TypeExpr

inductive Item
  | type
  | token (wanted : Token)
  | length
  /-- Nothing need be read: finished trees are put together. -/
  | wrapOption
  | wrapVec
  | wrapArray (length : Nat)
  | wrapMap
  deriving DecidableEq, Repr

/-- Put finished trees together while the first item asks for it. -/
def settle : List Item → List TypeExpr → List Item × List TypeExpr
  | .wrapOption :: items, e :: done => settle items (.option e :: done)
  | .wrapVec :: items, e :: done => settle items (.vec e :: done)
  | .wrapArray n :: items, e :: done => settle items (.array e n :: done)
  | .wrapMap :: items, v :: k :: done => settle items (.map k v :: done)
  | items, done => (items, done)

/-- The largest length an array may be declared with. -/
def maxLength : Nat := Nat.pow 2 64 - 1

def lengthOf (digits : String) : Nat :=
  digits.toList.foldl (fun n c => n * 10 + (c.toNat - 48)) 0

/-- A word where a type is wanted: a type of its own, or the arguments it takes. -/
def openWord (name : String) (span : Span) : List Item × List TypeExpr :=
  match ScalarKind.ofName? name with
  | some kind => ([], [.scalar kind])
  | none =>
    if name = "duration" then ([], [.duration])
    else if name = "Option" then ([.token .leftAngle, .type, .token .rightAngle, .wrapOption], [])
    else if name = "Vec" then ([.token .leftAngle, .type, .token .rightAngle, .wrapVec], [])
    else if name = "Map" then
      ([.token .leftAngle, .type, .token .comma, .type, .token .rightAngle, .wrapMap], [])
    else ([], [.named name span])

/-- **One token for the first item**: what takes the item's place, and the tree that is finished by it. -/
def Item.accept (item : Item) (found : Located) : Except Fault (List Item × List TypeExpr) :=
  match item, found.token with
  | .type, .word name => .ok (openWord name found.span)
  | .type, .leftBracket => .ok ([.type, .token .semicolon, .length], [])
  | .type, other => .error (.expectedType (some other))
  | .token wanted, other =>
    if other = wanted then .ok ([], []) else .error (.expectedToken wanted (some other))
  | .length, .number digits =>
    if lengthOf digits ≤ maxLength then .ok ([.token .rightBracket, .wrapArray (lengthOf digits)], [])
    else .error (.lengthTooLarge digits)
  | .length, _ => .error .expectedLength
  | _, other => .error (.afterType other)

/-- The fault when the text ends before the item. -/
def Item.missing : Item → Fault
  | .token wanted => .expectedToken wanted none
  | .length => .expectedLength
  | _ => .expectedType none

/-- **Read tokens** for the items that must come. -/
def read (textEnd : Nat) : List Located → List Item → List TypeExpr → Except Error TypeExpr
  | [], items, done =>
    match settle items done with
    | ([], e :: _) => .ok e
    | ([], []) => .error ⟨.expectedType none, ⟨textEnd, textEnd⟩⟩
    | (item :: _, _) => .error ⟨item.missing, ⟨textEnd, textEnd⟩⟩
  | t :: rest, items, done =>
    match settle items done with
    | ([], _) => .error ⟨.afterType t.token, t.span⟩
    | (item :: later, done) =>
      match item.accept t with
      | .ok (more, finished) => read textEnd rest (more ++ later) (finished ++ done)
      | .error fault => .error ⟨fault, t.span⟩

/-- **The type expression a text stands for.** -/
def parse (text : String) : Except Error TypeExpr :=
  match lex 0 text.toList with
  | .ok tokens => read (Text.byteLength text.toList) tokens [.type] []
  | .error e => .error e

def Token.described (t : Token) : String :=
  "`" ++ t.text ++ "`"

/-- A token that was found, or the end of the text. -/
def foundText : Option Token → String
  | some t => t.described
  | none => "end of input"

def Fault.message : Fault → String
  | .character c => "unexpected character " ++ Text.quoted (String.singleton c)
  | .afterType t => "unexpected " ++ t.described ++ " after type"
  | .expectedToken wanted found => "expected " ++ wanted.described ++ ", found " ++ foundText found
  | .expectedType found => "expected a type, found " ++ foundText found
  | .expectedLength => "expected array length"
  | .lengthTooLarge digits => "array length `" ++ digits ++ "` is too large"

def Error.display (e : Error) : String :=
  e.fault.message ++ " at " ++ toString e.span.start ++ ".." ++ toString e.span.stop

end TypeExpr
end BencodePlan
