import BencodePlan.Text.Escape
import BencodePlan.Text.Decimal
/-!
# The wire format

The four forms of a bencoded item.  An integer is its digits between `i` and `e`, a byte string is its length, a colon
and its bytes, a list is its items between `l` and `e`, a dictionary is keys (byte strings) each followed by an item,
between `d` and `e`.  The framing letters are written by plans; this module has what goes between them.
-/
namespace BencodePlan
namespace Wire

def utf8 (s : String) : Bytes :=
  s.toList.flatMap String.utf8EncodeChar

/-- The text that bytes are UTF-8 of, if they are. -/
def text? (bytes : Bytes) : Option String :=
  String.fromUTF8? ⟨bytes.toArray⟩

def ascii (cs : List Char) : Bytes :=
  cs.map fun c => UInt8.ofNat c.toNat

/-- **The digits of an integer**, without framing. -/
def int (n : Int) : Bytes :=
  ascii (Text.signedDecimal n)

def lengthMark (bytes : Bytes) : Bytes :=
  ascii (Text.decimal bytes.length ++ [':'])

/-- **A byte string.** -/
def string (bytes : Bytes) : Bytes :=
  lengthMark bytes ++ bytes

/-- **A truth value**, as the digit of an integer. -/
def bool (b : Bool) : Bytes :=
  if b then [49] else [48]

/-- A dictionary key.  Its length counts bytes, not characters. -/
def key (name : String) : Bytes :=
  string (utf8 name)

/-- The order of dictionary keys: byte by byte, a shorter key before one that it begins. -/
def keyLe : Bytes → Bytes → Bool
  | [], _ => true
  | _ :: _, [] => false
  | a :: as, b :: bs => a < b || (a = b && keyLe as bs)

/-- **Keys in the order they are written.**  Equal keys stay in the order given. -/
def sortedKeys (keys : List Bytes) : List Bytes :=
  keys.mergeSort keyLe

inductive Absent
  | absentValue
  deriving DecidableEq, Repr

def Absent.message : Absent → String
  | .absentValue => "cannot encode an absent value without omitempty"

def required {α : Type} : Option α → Except Absent α
  | some a => .ok a
  | none => .error .absentValue

end Wire
end BencodePlan
