import BencodePlan.Plan.Instruction
import BencodePlan.Text.Palette
/-!
# Plan listings

A plan as text for reading: its name, then an instruction a line, what an instruction contains set in below it.
-/
namespace BencodePlan
namespace Instruction

def mnemonicWidth : Nat := 8

def mnemonicColumn (i : Instruction) : String :=
  i.mnemonic ++ String.ofList (List.replicate (mnemonicWidth - i.mnemonic.length) ' ')

def operand (colored : Bool) : Instruction → String
  | literal bytes => Text.paint colored .green ("\"" ++ Text.escape bytes ++ "\"")
  | bool s | int s | string s | native s => s.display
  | list s depth _ => Selector.elemName depth ++ " in " ++ s.display
  | map s depth cast _ =>
    Selector.keyName depth ++ " in sorted(" ++ s.display ++ ")" ++
      (match cast with
        | some name => " as " ++ Text.paint colored .blue name
        | none => "")
  | when s test _ => test.presentCondition s

def indent (level : Nat) : String := String.ofList (List.replicate (2 * level) ' ')

/-- The line of an instruction at a level, without what it contains. -/
def line (colored : Bool) (level : Nat) (i : Instruction) : String :=
  indent level ++ Text.paint colored .dim i.mnemonicColumn ++ i.operand colored ++ "\n"

mutual
def listing (colored : Bool) (level : Nat) : Instruction → String
  | list s depth body => line colored level (list s depth body) ++ listingAll colored (level + 1) body
  | map s depth cast body => line colored level (map s depth cast body) ++ listingAll colored (level + 1) body
  | when s test body => line colored level (when s test body) ++ listingAll colored (level + 1) body
  | literal bytes => line colored level (literal bytes)
  | bool s => line colored level (bool s)
  | int s => line colored level (int s)
  | string s => line colored level (string s)
  | native s => line colored level (native s)
termination_by structural i => i

def listingAll (colored : Bool) (level : Nat) : List Instruction → String
  | [] => ""
  | i :: rest => i.listing colored level ++ listingAll colored level rest
termination_by structural is => is
end

end Instruction

namespace Plan

/-- **A plan as text.** -/
def listing (colored : Bool) (p : Plan) : String :=
  Text.paint colored .blue p.name ++ "\n" ++ Instruction.listingAll colored 1 p.body

/-- Plans as text, with blank lines between them. -/
def listings (colored : Bool) (plans : List Plan) : String :=
  String.intercalate "\n" (plans.map (Plan.listing colored))

/-- A file of plans, headed by the module of their schema. -/
def listingFile (colored : Bool) (module : Option String) (plans : List Plan) : String :=
  (match module with
    | some name => Text.paint colored .dim ("# module " ++ name) ++ "\n\n"
    | none => "") ++ listings colored plans

end Plan
end BencodePlan
