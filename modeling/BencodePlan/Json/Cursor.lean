import BencodePlan.Text.Span
import BencodePlan.Text.Quoted
import BencodePlan.Text.Decimal
/-!
# Places and faults in JSON text

The reader goes through the characters with a cursor that counts bytes, and stops at the first fault.  A fault is kept
with the number of bytes before it; its line and column are found from that when the text is known.  Columns count bytes,
and a line feed begins a new line at column zero.
-/
namespace BencodePlan
namespace Json

structure Cursor where
  offset : Nat
  rest : List Char
  deriving Repr

/-- What was found where something else was expected. -/
inductive Found
  | null
  | bool (b : Bool)
  | integer (n : Int)
  /-- A number with a fraction or a power of ten, in its shortest spelling. -/
  | float (spelling : String)
  | text (s : String)
  | sequence
  | map
  deriving DecidableEq, Repr

inductive Fault
  | endInList
  | endInObject
  | endInText
  | endInValue
  | expectedColon
  | expectedCommaOrBracket
  | expectedCommaOrBrace
  | expectedWord
  | expectedValue
  | invalidEscape
  | invalidNumber
  | numberOutOfRange
  | keyNotText
  | loneSurrogate
  | controlCharacter
  | trailingComma
  | trailingCharacters
  | unfinishedSurrogate
  | wrongType (found : Found) (expected : String)
  | tooShort (length : Nat) (expected : String)
  | missingField (name : String)
  | duplicateField (name : String)
  | unknownField (name : String) (known : List String)
  deriving DecidableEq, Repr

structure Stop where
  fault : Fault
  offset : Nat
  deriving DecidableEq, Repr

namespace Cursor

/-- The offset reported for the character that comes next. -/
def ahead (c : Cursor) : Nat := if c.rest.isEmpty then c.offset else c.offset + 1

def stopAhead {α : Type} (c : Cursor) (fault : Fault) : Except Stop α := .error ⟨fault, c.ahead⟩

def stopHere {α : Type} (c : Cursor) (fault : Fault) : Except Stop α := .error ⟨fault, c.offset⟩

def isBlank (c : Char) : Bool := c = ' ' || c = '\n' || c = '\t' || c = '\r'

def skipBlanks (c : Cursor) : Cursor :=
  ⟨c.offset + (c.rest.takeWhile isBlank).length, c.rest.dropWhile isBlank⟩

def next (c : Cursor) : Cursor := ⟨c.offset + 1, c.rest.tail⟩

end Cursor

/-- **Line and column** of a number of bytes. -/
def lineAndColumn (bytes : List UInt8) (offset : Nat) : Nat × Nat :=
  (bytes.take offset).foldl (fun p b => if b = 10 then (p.1 + 1, 0) else (p.1, p.2 + 1)) (1, 0)

def Found.message : Found → String
  | .null => "null"
  | .bool true => "boolean `true`"
  | .bool false => "boolean `false`"
  | .integer n => "integer `" ++ String.ofList (Text.signedDecimal n) ++ "`"
  | .float spelling => "floating point `" ++ spelling ++ "`"
  | .text s => "string " ++ Text.quoted s
  | .sequence => "sequence"
  | .map => "map"

def alternatives : List String → String
  | [a, b] => "expected `" ++ a ++ "` or `" ++ b ++ "`"
  | names => "expected one of " ++ String.intercalate ", " (names.map fun n => "`" ++ n ++ "`")

def Fault.message : Fault → String
  | .endInList => "EOF while parsing a list"
  | .endInObject => "EOF while parsing an object"
  | .endInText => "EOF while parsing a string"
  | .endInValue => "EOF while parsing a value"
  | .expectedColon => "expected `:`"
  | .expectedCommaOrBracket => "expected `,` or `]`"
  | .expectedCommaOrBrace => "expected `,` or `\x7d`"
  | .expectedWord => "expected ident"
  | .expectedValue => "expected value"
  | .invalidEscape => "invalid escape"
  | .invalidNumber => "invalid number"
  | .numberOutOfRange => "number out of range"
  | .keyNotText => "key must be a string"
  | .loneSurrogate => "lone leading surrogate in hex escape"
  | .controlCharacter => "control character (\\u0000-\\u001F) found while parsing a string"
  | .trailingComma => "trailing comma"
  | .trailingCharacters => "trailing characters"
  | .unfinishedSurrogate => "unexpected end of hex escape"
  | .wrongType found expected => "invalid type: " ++ found.message ++ ", expected " ++ expected
  | .tooShort length expected => "invalid length " ++ Text.decimalText length ++ ", expected " ++ expected
  | .missingField name => "missing field `" ++ name ++ "`"
  | .duplicateField name => "duplicate field `" ++ name ++ "`"
  | .unknownField name known => "unknown field `" ++ name ++ "`, " ++ alternatives known

def Stop.message (bytes : List UInt8) (s : Stop) : String :=
  let (line, column) := lineAndColumn bytes s.offset
  s.fault.message ++ " at line " ++ Text.decimalText line ++ " column " ++ Text.decimalText column

end Json
end BencodePlan
