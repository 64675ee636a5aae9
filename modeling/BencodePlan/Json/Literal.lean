import BencodePlan.Json.Cursor
import BencodePlan.Text.Shortest
/-!
# Words, numbers and strings of JSON

Each reader starts where its first character has been seen or passed, and says where it ends.
-/
namespace BencodePlan
namespace Json

/-- The rest of a word whose first letter has been passed. -/
def readWord : List Char → Cursor → Except Stop Cursor
  | [], c => .ok c
  | wanted :: more, c =>
    match c.rest with
    | [] => c.stopHere .endInValue
    | found :: _ => if found = wanted then readWord more c.next else c.next.stopHere .expectedWord

/-! ## Strings -/

def hexValue? (c : Char) : Option Nat :=
  if c.isDigit then some (c.toNat - 48)
  else if 'a' ≤ c ∧ c ≤ 'f' then some (c.toNat - 87)
  else if 'A' ≤ c ∧ c ≤ 'F' then some (c.toNat - 55)
  else none

def readUnit (offset : Nat) (cs : List Char) : Except Stop Nat :=
  if Text.byteLength (cs.take 4) < 4 then .error ⟨.endInText, offset + Text.byteLength (cs.take 4)⟩
  else match (cs.take 4).mapM hexValue? with
    | some [a, b, c, d] => .ok (((a * 16 + b) * 16 + c) * 16 + d)
    | _ => .error ⟨.invalidEscape, offset + 4⟩

def isHighSurrogate (n : Nat) : Bool := 0xd800 ≤ n && n ≤ 0xdbff
def isLowSurrogate (n : Nat) : Bool := 0xdc00 ≤ n && n ≤ 0xdfff

/-- The character of an escape by code point, and how many characters of the text it takes.  A character beyond the first
plane is written as two units, each escaped. -/
def readCodePoint (offset : Nat) (cs : List Char) : Except Stop (Char × Nat) := do
  let high ← readUnit offset cs
  if isLowSurrogate high then throw ⟨.loneSurrogate, offset + 4⟩
  if !isHighSurrogate high then return (Char.ofNat high, 4)
  match cs.drop 4 with
  | [] => throw ⟨.endInText, offset + 4⟩
  | ['\\'] => throw ⟨.endInText, offset + 5⟩
  | '\\' :: 'u' :: more =>
    let low ← readUnit (offset + 6) more
    if !isLowSurrogate low then throw ⟨.loneSurrogate, offset + 10⟩
    return (Char.ofNat (0x10000 + (high - 0xd800) * 0x400 + (low - 0xdc00)), 10)
  | '\\' :: _ => throw ⟨.unfinishedSurrogate, offset + 6⟩
  | _ => throw ⟨.unfinishedSurrogate, offset + 5⟩

def letterEscape? (c : Char) : Option Char :=
  if c = '"' || c = '\\' || c = '/' then some c
  else if c = 'b' then some (Char.ofNat 8)
  else if c = 'f' then some (Char.ofNat 12)
  else if c = 'n' then some '\n'
  else if c = 'r' then some '\r'
  else if c = 't' then some '\t'
  else none

/-- The rest of a string whose opening quote has been passed; what has been read of it stands in reverse. -/
def readChars (offset : Nat) (done : List Char) : List Char → Except Stop (String × Cursor)
  | [] => .error ⟨.endInText, offset⟩
  | '"' :: rest => .ok (String.ofList done.reverse, ⟨offset + 1, rest⟩)
  | ['\\'] => .error ⟨.endInText, offset + 1⟩
  | '\\' :: e :: rest =>
    match letterEscape? e with
    | some c => readChars (offset + 2) (c :: done) rest
    | none =>
      if e = 'u' then
        match readCodePoint (offset + 2) rest with
        | .ok (c, taken) => readChars (offset + 2 + taken) (c :: done) (rest.drop taken)
        | .error stop => .error stop
      else .error ⟨.invalidEscape, offset + 2⟩
  | c :: rest =>
    if c.toNat < 0x20 then .error ⟨.controlCharacter, offset + 1⟩
    else readChars (offset + c.utf8Size) (c :: done) rest
termination_by cs => cs.length
decreasing_by all_goals simp only [List.length_cons, List.length_drop]; omega

/-- **A string** whose opening quote comes next. -/
def readQuoted (c : Cursor) : Except Stop (String × Cursor) :=
  readChars c.next.offset [] c.next.rest

/-! ## Numbers

A number is read only to say that it was not wanted.  Its digits are gathered as long as they fit into 64 bits; digits
beyond that count as powers of ten.  Without fraction and power it is an integer, unless it is too large or a negative
zero; else it is the gathered digits times or over a power of ten, rounded at each of the two steps. -/

def maxGathered : Nat := Nat.pow 2 64 - 1

def digitValue (c : Char) : Nat := c.toNat - 48

/-- Digits before the point: what fits, and how many more there are. -/
def gatherWhole (digits : List Char) : Nat × Nat :=
  digits.foldl (fun (sum, more) c =>
    if more = 0 && sum * 10 + digitValue c ≤ maxGathered then (sum * 10 + digitValue c, 0) else (sum, more + 1)) (0, 0)

/-- Digits after the point: what fits, and how many of them do. -/
def gatherFraction (sum : Nat) : List Char → Nat × Nat
  | [] => (sum, 0)
  | c :: cs =>
    if sum * 10 + digitValue c ≤ maxGathered then
      let (total, count) := gatherFraction (sum * 10 + digitValue c) cs
      (total, count + 1)
    else (sum, 0)

def tenTo (n : Nat) : Float := Float.ofScientific 1 false n

/-- Scale by a power of ten within the range of the format, dividing more than once where it is far below; nothing if the
number is too large. -/
def scaled : Nat → Float → Int → Option Float
  | 0, f, _ => some f
  | fuel + 1, f, e =>
    if e.natAbs ≤ 308 then
      if e ≥ 0 then
        let g := f * tenTo e.natAbs
        if g.isInf then none else some g
      else some (f / tenTo e.natAbs)
    else if f == 0 then some f
    else if e ≥ 0 then none
    else scaled fuel (f / tenTo 308) (e + 308)

/-- A number from its sign, its digits and a power of ten. -/
def assemble (negative : Bool) (sum : Nat) (e : Int) (c : Cursor) : Except Stop (Found × Cursor) :=
  match scaled (e.natAbs / 308 + 2) (UInt64.ofNat sum).toFloat e with
  | some f => .ok (.float (Text.floatText (if negative then -f else f).toBits.toNat), c)
  | none => c.stopHere .numberOutOfRange

def maxExponent : Nat := Nat.pow 2 31 - 1

/-- The digits of a power of ten.  Past 31 bits the number is out of range, or zero. -/
def readPowerDigits (negative : Bool) (sum : Nat) (start : Int) (up : Bool) : Nat → Cursor → List Char →
    Except Stop (Found × Cursor)
  | power, c, d :: digits =>
    let c := c.next
    let power' := power * 10 + digitValue d
    if power' ≤ maxExponent then readPowerDigits negative sum start up power' c digits
    else if sum ≠ 0 && up then c.stopHere .numberOutOfRange
    else .ok (.float (if negative then "-0.0" else "0.0"), ⟨c.offset + digits.length, c.rest.drop digits.length⟩)
  | power, c, [] => assemble negative sum (if up then start + power else start - power) c

def readPower (negative : Bool) (sum : Nat) (start : Int) (c : Cursor) : Except Stop (Found × Cursor) :=
  let c := c.next
  let (up, c) := match c.rest with
    | '+' :: _ => (true, c.next)
    | '-' :: _ => (false, c.next)
    | _ => (true, c)
  match c.rest with
  | [] => c.stopHere .endInValue
  | d :: _ =>
    if d.isDigit then readPowerDigits negative sum start up 0 c (c.rest.takeWhile Char.isDigit)
    else c.next.stopHere .invalidNumber

def beginsPower (c : Cursor) : Bool :=
  match c.rest with
  | d :: _ => d = 'e' || d = 'E'
  | [] => false

def readFraction (negative : Bool) (sum : Nat) (start : Int) (c : Cursor) : Except Stop (Found × Cursor) :=
  let c := c.next
  let digits := c.rest.takeWhile Char.isDigit
  if digits.isEmpty then c.stopAhead (if c.rest.isEmpty then .endInValue else .invalidNumber)
  else
    let (sum, count) := gatherFraction sum digits
    let c : Cursor := ⟨c.offset + digits.length, c.rest.drop digits.length⟩
    if beginsPower c then readPower negative sum (start - count) c else assemble negative sum (start - count) c

/-- What comes after the digits before the point. -/
def readNumberTail (negative : Bool) (sum more : Nat) (c : Cursor) : Except Stop (Found × Cursor) :=
  if c.rest.head? = some '.' then readFraction negative sum more c
  else if beginsPower c then readPower negative sum more c
  else if more ≠ 0 then assemble negative sum more c
  else if !negative then .ok (.integer sum, c)
  else if sum = 0 || sum > Nat.pow 2 63 then assemble true sum 0 c
  else .ok (.integer (-sum), c)

/-- **A number** whose sign has been passed. -/
def readNumber (negative : Bool) (c : Cursor) : Except Stop (Found × Cursor) :=
  match c.rest with
  | [] => c.stopHere .endInValue
  | d :: rest =>
    if d = '0' then
      if (rest.head?.map Char.isDigit).getD false then c.next.stopAhead .invalidNumber
      else readNumberTail negative 0 0 c.next
    else if d.isDigit then
      let digits := c.rest.takeWhile Char.isDigit
      let (sum, more) := gatherWhole digits
      readNumberTail negative sum more ⟨c.offset + digits.length, c.rest.drop digits.length⟩
    else c.next.stopHere .invalidNumber

end Json
end BencodePlan
