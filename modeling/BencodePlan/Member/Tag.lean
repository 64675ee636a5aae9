import BencodePlan.Text.Quoted
import BencodePlan.Text.Span
/-!
# Tags

A member's tag is a name and options, separated by commas.  An empty name stands for the derived one, and the only
option is `omitempty`.  No tag holds a control character or a double quote; one that does is refused for that, whatever
else may be wrong with it.
-/
namespace BencodePlan

structure Tag where
  /-- The key to write, if the tag gives one. -/
  name : Option String
  omitEmpty : Bool
  deriving DecidableEq, Repr

namespace Tag

inductive Fault
  | character (c : Char)
  | emptyOption
  | unknownOption (option : String)
  deriving DecidableEq, Repr

structure Error where
  fault : Fault
  span : Span
  deriving DecidableEq, Repr

def Fault.message : Fault → String
  | .character c => "unexpected character " ++ Text.quotedOne c
  | .emptyOption => "empty option"
  | .unknownOption option => "unknown option `" ++ option ++ "`"

def Fault.label : Fault → String
  | .character _ => "not allowed in tags"
  | .emptyOption => "nothing after this comma"
  | .unknownOption _ => "unknown option"

def isForbidden (c : Char) : Bool :=
  c.toNat < 0x20 || (0x7f ≤ c.toNat && c.toNat < 0xa0) || c = '"'

/-- The first forbidden character of a text that begins at a byte offset. -/
def firstForbidden (offset : Nat) : List Char → Option Error
  | [] => none
  | c :: cs =>
    if isForbidden c then some ⟨.character c, ⟨offset, offset + c.utf8Size⟩⟩
    else firstForbidden (offset + c.utf8Size) cs

def segments : List Char → List (List Char)
  | [] => [[]]
  | ',' :: cs => [] :: segments cs
  | c :: cs =>
    match segments cs with
    | [] => [[c]]
    | s :: rest => (c :: s) :: rest

/-- The first option that is not `omitempty`, when the options begin at a byte offset.  An empty one has no place of its
own, so the comma before it is shown. -/
def firstBadOption (offset : Nat) : List (List Char) → Option Error
  | [] => none
  | option :: rest =>
    if option = [] then some ⟨.emptyOption, ⟨offset - 1, offset⟩⟩
    else if option = "omitempty".toList then firstBadOption (offset + Text.byteLength option + 1) rest
    else some ⟨.unknownOption (String.ofList option), ⟨offset, offset + Text.byteLength option⟩⟩

def ofSegments : List (List Char) → Tag
  | [] => ⟨none, false⟩
  | name :: options => ⟨if name = [] then none else some (String.ofList name), !options.isEmpty⟩

/-- **Read a tag.** -/
def parse (raw : String) : Except Error Tag :=
  match firstForbidden 0 raw.toList with
  | some e => .error e
  | none =>
    let pieces := segments raw.toList
    match firstBadOption (Text.byteLength (pieces.headD []) + 1) pieces.tail with
    | some e => .error e
    | none => .ok (ofSegments pieces)

end Tag
end BencodePlan
