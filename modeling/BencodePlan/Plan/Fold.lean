import BencodePlan.Plan.Instruction
/-!
# Folding literals

Literals that stand side by side are written as one, and empty ones not at all.  No byte moves past an instruction that
is not a literal, and what loops and conditions contain is folded by itself, so a folded plan writes what the plan
writes.
-/
namespace BencodePlan
namespace Instruction

/-- Bytes before instructions that are folded already. -/
def writeBefore (bytes : Bytes) (folded : List Instruction) : List Instruction :=
  if bytes.isEmpty then folded
  else match folded with
    | literal more :: rest => literal (bytes ++ more) :: rest
    | _ => literal bytes :: folded

mutual
def foldedBody : Instruction → Instruction
  | list s depth body => list s depth (fold body)
  | map s depth cast body => map s depth cast (fold body)
  | when s test body => when s test (fold body)
  | literal bytes => literal bytes
  | bool s => bool s
  | int s => int s
  | string s => string s
  | native s => native s
termination_by structural i => i

/-- **Merge literals side by side**, at every depth. -/
def fold : List Instruction → List Instruction
  | [] => []
  | i :: rest =>
    match i with
    | literal bytes => writeBefore bytes (fold rest)
    | i => i.foldedBody :: fold rest
termination_by structural is => is
end

end Instruction

namespace Plan

def folded (p : Plan) : Plan := { p with body := Instruction.fold p.body }

end Plan
end BencodePlan
