import BencodePlan.Json.Literal
/-!
# Reading JSON into records

A document is read straight into the value it is meant for, so that the first fault is the one of the first character
that cannot belong to such a value.  Four readers suffice: texts, truth values, lists, and records; each may be made
optional, which lets `null` stand for nothing.

A record is written as an object, with its fields in any order and each at most once, or as an array of its fields in
their order.  A field that may be left out of an object need not be one that may be left out at the end of an array.
Faults of a record as a whole (a field unknown, repeated or missing, an array too short) are placed after the reader has
tried to close the record.
-/
namespace BencodePlan
namespace Json

abbrev Reader (α : Type) := Cursor → Except Stop (α × Cursor)

/-- The fault of a value that is not of the expected kind.  What there is of it is read, so that a value which is no value
at all is told apart. -/
def wrongType {α : Type} (expected : String) (c : Cursor) : Except Stop α :=
  let stop (found : Found × Cursor) : Except Stop α := found.2.stopHere (.wrongType found.1 expected)
  match c.rest with
  | 'n' :: _ => do stop (.null, ← readWord "ull".toList c.next)
  | 't' :: _ => do stop (.bool true, ← readWord "rue".toList c.next)
  | 'f' :: _ => do stop (.bool false, ← readWord "alse".toList c.next)
  | '-' :: _ => do stop (← readNumber true c.next)
  | '"' :: _ => do
    let (text, c) ← readQuoted c
    stop (.text text, c)
  | '[' :: _ => stop (.sequence, c)
  | '\x7b' :: _ => stop (.map, c)
  | d :: _ => if d.isDigit then do stop (← readNumber false c) else c.stopAhead .expectedValue
  | [] => c.stopAhead .expectedValue

/-- **A text.** -/
def readText : Reader String := fun c =>
  let c := c.skipBlanks
  match c.rest with
  | [] => c.stopAhead .endInValue
  | '"' :: _ => readQuoted c
  | _ => wrongType "a string" c

/-- **A truth value.** -/
def readBool : Reader Bool := fun c =>
  let c := c.skipBlanks
  match c.rest with
  | [] => c.stopAhead .endInValue
  | 't' :: _ => do return (true, ← readWord "rue".toList c.next)
  | 'f' :: _ => do return (false, ← readWord "alse".toList c.next)
  | _ => wrongType "a boolean" c

/-- **Nothing, or a value.** -/
def readOptional {α : Type} (read : Reader α) : Reader (Option α) := fun c =>
  let c := c.skipBlanks
  match c.rest with
  | 'n' :: _ => do return (none, ← readWord "ull".toList c.next)
  | _ => do
    let (a, c) ← read c
    return (some a, c)

/-- Whether another element comes, and where.  `first` says that none came before. -/
def nextElement (first : Bool) (c : Cursor) : Except Stop (Bool × Cursor) :=
  let c := c.skipBlanks
  match c.rest with
  | [] => c.stopAhead .endInList
  | ']' :: _ => .ok (false, c)
  | d :: _ =>
    if first then .ok (true, c)
    else if d = ',' then
      let c := c.next.skipBlanks
      match c.rest with
      | [] => c.stopAhead .endInValue
      | ']' :: _ => c.stopAhead .trailingComma
      | _ => .ok (true, c)
    else c.stopAhead .expectedCommaOrBracket

/-- The end of an array; where the reader stands when it is not the end is kept for faults found before. -/
def closeArray (c : Cursor) : Except Stop Unit × Cursor :=
  let c := c.skipBlanks
  match c.rest with
  | ']' :: _ => (.ok (), c.next)
  | ',' :: _ =>
    let c := c.next.skipBlanks
    (c.stopAhead (if c.rest.head? = some ']' then .trailingComma else .trailingCharacters), c)
  | [] => (c.stopAhead .endInList, c)
  | _ => (c.stopAhead .trailingCharacters, c)

def readElements {α : Type} (read : Reader α) (first : Bool) (done : List α) (c : Cursor) :
    Except Stop (List α × Cursor) :=
  match nextElement first c with
  | .error stop => .error stop
  | .ok (false, c') => .ok (done.reverse, c')
  | .ok (true, c') =>
    match read c' with
    | .error stop => .error stop
    | .ok (a, c'') =>
      if c''.rest.length < c.rest.length then readElements read false (a :: done) c''
      else c''.stopHere .expectedValue
termination_by c.rest.length

/-- **A list.** -/
def readList {α : Type} (read : Reader α) : Reader (List α) := fun c =>
  let c := c.skipBlanks
  match c.rest with
  | [] => c.stopAhead .endInValue
  | '[' :: _ => do
    let (elements, c) ← readElements read true [] c.next
    let (closed, c) := closeArray c
    closed.map fun _ => (elements, c)
  | _ => wrongType "a sequence" c

/-! ## Records -/

/-- A field of a record: how its value is read into the record, and where it may be left out. -/
structure Field (α : Type) where
  name : String
  inObject : Bool
  inArray : Bool
  read : α → Reader α

structure Format (α : Type) where
  title : String
  fields : List (Field α)
  /-- The record before anything is read. -/
  blank : α

namespace Format

variable {α : Type}

def names (f : Format α) : List String := f.fields.map Field.name

/-- What an array in place of the record is expected to be. -/
def arrayTitle (f : Format α) : String :=
  f.title ++ " with " ++ Text.decimalText f.fields.length ++ " elements"

/-- Where the reader stands after trying to close an object. -/
def afterObject (c : Cursor) : Cursor :=
  let c := c.skipBlanks
  if c.rest.head? = some '\x7d' then c.next else c

def nextKey (first : Bool) (c : Cursor) : Except Stop (Bool × Cursor) :=
  let c := c.skipBlanks
  match c.rest with
  | [] => c.stopAhead .endInObject
  | '\x7d' :: _ => .ok (false, c)
  | d :: _ =>
    if first then (if d = '"' then .ok (true, c) else c.stopAhead .keyNotText)
    else if d = ',' then
      let c := c.next.skipBlanks
      match c.rest with
      | [] => c.stopAhead .endInValue
      | '"' :: _ => .ok (true, c)
      | '\x7d' :: _ => c.stopAhead .trailingComma
      | _ => c.stopAhead .keyNotText
    else c.stopAhead .expectedCommaOrBrace

def colon (c : Cursor) : Except Stop Cursor :=
  let c := c.skipBlanks
  match c.rest with
  | ':' :: _ => .ok c.next
  | [] => c.stopAhead .endInObject
  | _ => c.stopAhead .expectedColon

/-- A key and its value into the record; the key is new and known. -/
def readEntry (f : Format α) (record : α) (seen : List String) (c : Cursor) :
    Except Stop (α × List String × Cursor) := do
  let (key, c) ← readQuoted c
  match f.fields.find? fun field => field.name = key with
  | none => (afterObject c).stopHere (.unknownField key f.names)
  | some field =>
    if key ∈ seen then (afterObject c).stopHere (.duplicateField key)
    else
      let c ← colon c
      let (record, c) ← field.read record c
      return (record, key :: seen, c)

def readEntries (f : Format α) (first : Bool) (record : α) (seen : List String) (c : Cursor) :
    Except Stop (α × List String × Cursor) :=
  match nextKey first c with
  | .error stop => .error stop
  | .ok (false, c') => .ok (record, seen, c')
  | .ok (true, c') =>
    match f.readEntry record seen c' with
    | .error stop => .error stop
    | .ok (record, seen, c'') =>
      if c''.rest.length < c.rest.length then f.readEntries false record seen c''
      else c''.stopHere .expectedValue
termination_by c.rest.length

/-- The fields of an array, in order; `index` is how many came before. -/
def readFields (f : Format α) : Nat → List (Field α) → α → Cursor → Except Stop (α × Cursor)
  | _, [], record, c => .ok (record, c)
  | index, field :: more, record, c => do
    let (another, c) ← nextElement (index = 0) c
    if another then
      let (record, c) ← field.read record c
      f.readFields (index + 1) more record c
    else if field.inArray then (closeArray c).2.stopHere (.tooShort index f.arrayTitle)
    else f.readFields index more record c

/-- **A record.** -/
def read (f : Format α) : Reader α := fun c =>
  let c := c.skipBlanks
  match c.rest with
  | [] => c.stopAhead .endInValue
  | '[' :: _ => do
    let (record, c) ← f.readFields 0 f.fields f.blank c.next
    let (closed, c) := closeArray c
    closed.map fun _ => (record, c)
  | '\x7b' :: _ => do
    let (record, seen, c) ← f.readEntries true f.blank [] c.next
    match f.fields.find? fun field => field.inObject && !seen.contains field.name with
    | some field => (afterObject c).stopHere (.missingField field.name)
    | none => return (record, afterObject c)
  | _ => wrongType f.title c

end Format

/-- **A whole document**: one value, and blanks after it. -/
def readDocument {α : Type} (read : Reader α) (text : String) : Except Stop α := do
  let (a, c) ← read ⟨0, text.toList⟩
  let c := c.skipBlanks
  if c.rest.isEmpty then return a else c.stopAhead .trailingCharacters

end Json
end BencodePlan
