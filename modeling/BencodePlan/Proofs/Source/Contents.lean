import BencodePlan.Proofs.Plan.NormalForm
import BencodePlan.Proofs.Plan.Spelling
import BencodePlan.Source.Statement
import Mathlib
/-!
# What generated statements contain

The statements of an encoder, each before what it contains, are those of the instructions of its plan in the same order
(`visitAll_ofInstructions`).  So what is gathered from each statement by itself is gathered from the instructions, and if
nothing is gathered from literals, it is the same for a folded plan (`flatMap_visitAll_fold`).
-/
namespace BencodePlan

namespace Instruction

section

variable {α : Type} {g : Instruction → List α}

theorem flatMap_visitAll_writeBefore (hliteral : ∀ bytes, g (literal bytes) = []) (bytes : Bytes) (is : List Instruction) :
    (visitAll (writeBefore bytes is)).flatMap g = (visitAll is).flatMap g := by
  have hvisit (bytes : Bytes) (rest : List Instruction) :
      (visitAll (literal bytes :: rest)).flatMap g = (visitAll rest).flatMap g := by
    rw [visitAll, visit, List.singleton_append, List.flatMap_cons, hliteral, List.nil_append]
  rcases writeBefore_cases bytes is with ⟨_, hw⟩ | ⟨more, rest, _, rfl, hw⟩ | ⟨_, _, hw⟩
  · rw [hw]
  · rw [hw, hvisit, hvisit]
  · rw [hw, hvisit]

mutual
theorem flatMap_visit_foldedBody (hliteral : ∀ bytes, g (literal bytes) = []) (hbody : ∀ i, g i.foldedBody = g i) :
    ∀ i : Instruction, i.foldedBody.visit.flatMap g = i.visit.flatMap g
  | .literal _ | .bool _ | .int _ | .string _ | .native _ => rfl
  | .list _ _ body | .map _ _ _ body | .when _ _ body => by
    rw [visit, List.flatMap_cons, ← hbody, foldedBody, visit, List.flatMap_cons, flatMap_visitAll_fold hliteral hbody body]
termination_by structural i => i

/-- **What is gathered from a folded list**, if literals have none of it and it does not depend on what an instruction
contains. -/
theorem flatMap_visitAll_fold (hliteral : ∀ bytes, g (literal bytes) = []) (hbody : ∀ i, g i.foldedBody = g i) :
    ∀ is : List Instruction, (visitAll (fold is)).flatMap g = (visitAll is).flatMap g
  | [] => rfl
  | i :: rest => by
    have hrest := flatMap_visitAll_fold hliteral hbody rest
    have hinside := flatMap_visit_foldedBody hliteral hbody i
    rcases literal_or_not i with ⟨bytes, rfl⟩ | hi
    · rw [fold_literal, flatMap_visitAll_writeBefore hliteral, hrest, visitAll, visit, List.singleton_append,
        List.flatMap_cons, hliteral, List.nil_append]
    · rw [fold_cons hi, visitAll, visitAll, List.flatMap_append, List.flatMap_append, hinside, hrest]
termination_by structural is => is
end

end

end Instruction

namespace Source

/-! ## Statements, one by one -/

def Condition.subject : Condition → Expr
  | notEmpty e | isSome e | holds e | notZero e | someTime e => e

namespace Statement

def expr? : Statement → Option Expr
  | writeBytes _ => none
  | writeBool e | writeInt e | writeString e | writeNative e => some e
  | forElem _ list _ => some list
  | forKey _ map _ _ => some map
  | ifThen condition _ => some condition.subject

mutual
def visit : Statement → List Statement
  | writeBytes bytes => [writeBytes bytes]
  | writeBool e => [writeBool e]
  | writeInt e => [writeInt e]
  | writeString e => [writeString e]
  | writeNative e => [writeNative e]
  | forElem depth list body => forElem depth list body :: visitAll body
  | forKey depth map cast body => forKey depth map cast body :: visitAll body
  | ifThen condition body => ifThen condition body :: visitAll body
termination_by structural s => s

/-- **All statements**, each before what it contains. -/
def visitAll : List Statement → List Statement
  | [] => []
  | s :: rest => s.visit ++ visitAll rest
termination_by structural ss => ss
end

mutual
theorem visit_ofInstruction : ∀ i : Instruction, (ofInstruction i).visit = i.visit.map ofInstruction
  | .literal _ | .bool _ | .int _ | .string _ | .native _ => rfl
  | .list _ _ body | .map _ _ _ body | .when _ _ body => congrArg (List.cons _) (visitAll_ofInstructions body)
termination_by structural i => i

/-- **The statements of instructions** are visited as the instructions are. -/
theorem visitAll_ofInstructions : ∀ is : List Instruction,
    visitAll (ofInstructions is) = (Instruction.visitAll is).map ofInstruction
  | [] => rfl
  | i :: rest => by
    rw [ofInstructions, visitAll, visit_ofInstruction i, visitAll_ofInstructions rest, Instruction.visitAll, List.map_append]
termination_by structural is => is
end

end Statement

def statements (p : Plan) : List Statement := Statement.visitAll (Statement.ofInstructions p.body)

theorem flatMap_statements {α : Type} (g : Statement → List α) (p : Plan) :
    (statements p).flatMap g = (Instruction.visitAll p.body).flatMap fun i => g (Statement.ofInstruction i) := by
  rw [statements, Statement.visitAll_ofInstructions, List.flatMap_map]

/-- **What folding leaves as it is**: anything that bytes have none of, and that does not depend on what a statement
contains. -/
theorem flatMap_statements_folded {α : Type} {g : Statement → List α} (hbytes : ∀ bytes, g (.writeBytes bytes) = [])
    (hcontents : ∀ i : Instruction, g (.ofInstruction i.foldedBody) = g (.ofInstruction i)) (p : Plan) :
    (statements p.folded).flatMap g = (statements p).flatMap g := by
  rw [flatMap_statements, flatMap_statements]
  exact Instruction.flatMap_visitAll_fold hbytes hcontents p.body

/-! ## Names -/

namespace Expr

def names : Expr → List String
  | self | elem _ | key _ => []
  | field base name => base.names ++ [name]
  | seconds e | entry e _ | star e | follow e | borrow e | paren e => e.names

theorem names_orBound {other : Expr} {s : Selector} (h : other.names = s.names) : (orBound other s).names = s.names := by
  cases s with
  | root | elem | key => rfl
  | _ => exact h

theorem names_place (s : Selector) : (place s).names = s.names := by
  induction s with
  | root | elem | key => rfl
  | field base name ih => exact congrArg (· ++ [name]) (names_orBound ih)
  | deref base ih =>
    have hborrow : (borrow (place base)).names = base.names := ih
    exact names_orBound hborrow
  | seconds base ih | value base depth ih => exact names_orBound ih

theorem names_reference (s : Selector) : (reference s).names = s.names := by
  have hborrow : (borrow (place s)).names = s.names := names_place s
  exact names_orBound hborrow

theorem names_receiver (s : Selector) : (receiver s).names = s.names := names_orBound (names_place s)

theorem names_value (s : Selector) : (value s).names = s.names := by
  have hplace := names_place s
  unfold value
  split
  · rename_i e hparen
    rw [hparen] at hplace
    exact hplace
  · exact hplace

end Expr

namespace Statement

def fieldNames (s : Statement) : List String := (s.expr?.map Expr.names).getD []

def cast? : Statement → Option String
  | forKey _ _ cast _ => cast
  | _ => none

/-- **A statement names the fields of its instruction.** -/
theorem fieldNames_ofInstruction (i : Instruction) :
    (ofInstruction i).fieldNames = (i.source?.map Selector.names).getD [] := by
  cases i with
  | literal => rfl
  | bool s => exact Expr.names_value s
  | int s | string s | native s => exact Expr.names_reference s
  | list s | map s => exact Expr.names_receiver s
  | when s test =>
    cases test with
    | len | nil | zeroDuration => exact Expr.names_receiver s
    | false | zero => exact Expr.names_value s

end Statement

/-- **The names of types in an encoder**: that of the type it is of, and those that are given to keys. -/
def typeNames (p : Plan) : List String := p.name :: (statements p).flatMap fun s => s.cast?.toList

/-- **The names of fields in an encoder.** -/
def fieldNames (p : Plan) : List String := (statements p).flatMap Statement.fieldNames

theorem typeNames_folded (p : Plan) : typeNames p.folded = typeNames p :=
  congrArg (p.name :: ·) (flatMap_statements_folded (fun _ => rfl) (fun i => by cases i <;> rfl) p)

theorem fieldNames_folded (p : Plan) : fieldNames p.folded = fieldNames p :=
  flatMap_statements_folded (fun _ => rfl) (fun i => by cases i <;> rfl) p

end Source
end BencodePlan
