import BencodePlan.Plan.Selector
import BencodePlan.Wire
/-!
# Plans

A plan is a list of instructions that write the encoding of a value: bytes that are known beforehand, values that are
read from the value at hand, and loops and conditions over further instructions.  What an instruction contains is visited
after it.
-/
namespace BencodePlan

/-- How a field that may be left out shows that it has nothing to write. -/
inductive EmptinessTest
  /-- Strings, lists and maps have length zero. -/
  | len
  /-- An optional reference is absent. -/
  | nil
  /-- A truth value is false. -/
  | false
  /-- A number is zero. -/
  | zero
  /-- No time has passed. -/
  | zeroDuration
  deriving DecidableEq, Repr

namespace EmptinessTest

def presentCondition (s : Selector) : EmptinessTest → String
  | len => "len(" ++ s.display ++ ") != 0"
  | nil => s.display ++ " != nil"
  | .false => s.display
  | zero => s.display ++ " != 0"
  | zeroDuration => s.display ++ " != 0"

end EmptinessTest

inductive Instruction
  /-- Bytes known beforehand. -/
  | literal (bytes : Bytes)
  | bool (source : Selector)
  /-- Digits only; the framing is in the literals around them. -/
  | int (source : Selector)
  | string (source : Selector)
  /-- The value writes its own encoding. -/
  | native (source : Selector)
  /-- The body for each element. -/
  | list (source : Selector) (depth : Nat) (body : List Instruction)
  /-- The body for each key in ascending order.  Keys of a declared type carry its name. -/
  | map (source : Selector) (depth : Nat) (cast : Option String) (body : List Instruction)
  /-- The body unless the value is empty. -/
  | when (source : Selector) (test : EmptinessTest) (body : List Instruction)
  deriving BEq, Repr

namespace Instruction

def ascii (text : String) : Instruction := literal (Wire.ascii text.toList)

def isLiteral : Instruction → Bool
  | literal _ => true
  | _ => false

def mnemonic : Instruction → String
  | literal _ => "literal"
  | bool _ => "bool"
  | int _ => "int"
  | string _ => "string"
  | native _ => "native"
  | list .. => "for"
  | map .. => "map"
  | when .. => "if"

def source? : Instruction → Option Selector
  | literal _ => none
  | bool s | int s | string s | native s => some s
  | list s _ _ | map s _ _ _ | when s _ _ => some s

def body? : Instruction → Option (List Instruction)
  | list _ _ body | map _ _ _ body | when _ _ body => some body
  | _ => none

mutual
def visit : Instruction → List Instruction
  | literal bytes => [literal bytes]
  | bool s => [bool s]
  | int s => [int s]
  | string s => [string s]
  | native s => [native s]
  | list s depth body => list s depth body :: visitAll body
  | map s depth cast body => map s depth cast body :: visitAll body
  | when s test body => when s test body :: visitAll body
termination_by structural i => i

/-- **All instructions**, each before what it contains. -/
def visitAll : List Instruction → List Instruction
  | [] => []
  | i :: rest => i.visit ++ visitAll rest
termination_by structural is => is
end

end Instruction

structure Features where
  /-- Some plan goes through a map, so keys are sorted. -/
  needsSort : Bool
  /-- Some plan writes a string or an integer. -/
  needsFormat : Bool
  deriving DecidableEq, Repr

namespace Features

def none : Features := ⟨false, false⟩

def union (a b : Features) : Features := ⟨a.needsSort || b.needsSort, a.needsFormat || b.needsFormat⟩

/-- What one instruction needs, without what it contains. -/
def ofInstruction : Instruction → Features
  | .map .. => ⟨true, false⟩
  | .int _ | .string _ => ⟨false, true⟩
  | _ => none

end Features

structure Plan where
  name : String
  body : List Instruction
  deriving BEq, Repr

namespace Plan

/-- **What a plan needs**: what any of its instructions needs. -/
def features (p : Plan) : Features :=
  (Instruction.visitAll p.body).foldl (fun f i => f.union (Features.ofInstruction i)) Features.none

def literalCount (p : Plan) : Nat := (Instruction.visitAll p.body).countP Instruction.isLiteral

def combinedFeatures (plans : List Plan) : Features :=
  plans.foldl (fun f p => f.union p.features) Features.none

end Plan
end BencodePlan
