import BencodePlan.Source.Expr
import BencodePlan.Plan.Instruction
/-!
# Statements of generated code

An encoder is a list of statements, one for each instruction of its plan: writes, loops and conditions.  A loop over the
keys of a map whose keys are of a declared type begins by giving the key variable that type.
-/
namespace BencodePlan
namespace Source

inductive Condition
  | notEmpty (e : Expr)
  | isSome (e : Expr)
  | holds (e : Expr)
  | notZero (e : Expr)
  /-- Of a span of time. -/
  | someTime (e : Expr)
  deriving DecidableEq, Repr

inductive Statement
  | writeBytes (bytes : Bytes)
  | writeBool (e : Expr)
  | writeInt (e : Expr)
  | writeString (e : Expr)
  | writeNative (e : Expr)
  | forElem (depth : Nat) (list : Expr) (body : List Statement)
  | forKey (depth : Nat) (map : Expr) (cast : Option String) (body : List Statement)
  | ifThen (condition : Condition) (body : List Statement)
  deriving BEq, Repr

/-- **The condition for writing** a value that may be left out. -/
def condition (s : Selector) : EmptinessTest → Condition
  | .len => .notEmpty (Expr.receiver s)
  | .nil => .isSome (Expr.receiver s)
  | .false => .holds (Expr.value s)
  | .zero => .notZero (Expr.value s)
  | .zeroDuration => .someTime (Expr.receiver s)

namespace Statement

mutual
/-- **The statement of an instruction.** -/
def ofInstruction : Instruction → Statement
  | .literal bytes => writeBytes bytes
  | .bool s => writeBool (Expr.value s)
  | .int s => writeInt (Expr.reference s)
  | .string s => writeString (Expr.reference s)
  | .native s => writeNative (Expr.reference s)
  | .list s depth body => forElem depth (Expr.receiver s) (ofInstructions body)
  | .map s depth cast body => forKey depth (Expr.receiver s) cast (ofInstructions body)
  | .when s test body => ifThen (condition s test) (ofInstructions body)
termination_by structural i => i

def ofInstructions : List Instruction → List Statement
  | [] => []
  | i :: rest => ofInstruction i :: ofInstructions rest
termination_by structural is => is
end

end Statement
end Source
end BencodePlan
