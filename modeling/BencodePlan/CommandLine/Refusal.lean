import BencodePlan.CommandLine.Help
import BencodePlan.Text.Codes
import BencodePlan.Text.Similar
/-!
# Command lines that ask for no work

A command line may ask for help or for the version, ask for nothing at all, or be mistaken.  A mistake is answered with what
is wrong, what may have been meant, and how the command is called.
-/
namespace BencodePlan
namespace CommandLine

/-- What may have been meant by an argument that is not known. -/
inductive Advice
  /-- It is a value, and has to stand after two dashes. -/
  | asValue
  | similar (s : Setting)
  /-- A command that comes later has the setting. -/
  | ofCommand (c : Command) (s : Setting)
  /-- It is a command, which has to stand before two dashes. -/
  | withoutDashes
  deriving DecidableEq, Repr

inductive Mistake
  | missingSchema
  | unknownArgument (shown : String) (advice : Option Advice)
  /-- A value is missing or empty. -/
  | missingValue (place : String) (choices : List String)
  | invalidValue (place value : String) (choices : List String)
  | unknownCommand (name : String) (meant : List String)
  /-- A setting that may be given once is given again. -/
  | repeated (s : Setting)
  /-- A switch is given a value. -/
  | unexpectedValue (s : Setting) (value : String)
  deriving DecidableEq, Repr

inductive Refusal
  | help (topic : Topic)
  | version
  | nothingAsked
  | mistake (topic : Topic) (m : Mistake)
  deriving DecidableEq, Repr

/-- A text between single quotes, without the terminal codes that a user may have put into it. -/
def marked (text : String) : String := "'" ++ Text.withoutCodes text ++ "'"

namespace Advice

def text (shown : String) : Advice → String
  | asValue => "to pass " ++ marked shown ++ " as a value, use " ++ marked ("-- " ++ shown)
  | similar s => "a similar argument exists: " ++ marked ("--" ++ s.long)
  | ofCommand c s => marked (c.name ++ " --" ++ s.long) ++ " exists"
  | withoutDashes => "subcommand " ++ marked shown ++ " exists; to use it, remove the '--' before it"

end Advice

/-- A line of advice, set off from what is wrong. -/
def tip (text : String) : String := "\n\n  tip: " ++ text

/-- The words a value may be, below a complaint about it. -/
def choicesLine : List String → String
  | [] => ""
  | choices => "\n  [possible values: " ++ String.intercalate ", " choices ++ "]"

namespace Mistake

def complaint : Mistake → String
  | missingSchema => "the following required arguments were not provided:\n  " ++ schemaLabel
  | unknownArgument shown _ => "unexpected argument " ++ marked shown ++ " found"
  | missingValue place choices =>
    "a value is required for " ++ marked place ++ " but none was supplied" ++ choicesLine choices
  | invalidValue place value choices =>
    "invalid value " ++ marked value ++ " for " ++ marked place ++ choicesLine choices
  | unknownCommand name _ => "unrecognized subcommand " ++ marked name
  | repeated s => "the argument " ++ marked s.label ++ " cannot be used multiple times"
  | unexpectedValue s value =>
    "unexpected value " ++ marked value ++ " for " ++ marked s.label ++ " found; no more were expected"

def hint : Mistake → String
  | unknownArgument shown (some advice) => tip (advice.text shown)
  | invalidValue _ value choices =>
    match (Text.similar value choices).getLast? with
    | some word => tip ("a similar value exists: " ++ marked word)
    | none => ""
  | unknownCommand _ [] => ""
  | unknownCommand _ [word] => tip ("a similar subcommand exists: " ++ marked word)
  | unknownCommand _ words =>
    tip ("some similar subcommands exist: " ++ String.intercalate ", " (words.map marked))
  | _ => ""

/-- The settings that the form of a command line shows as used. -/
def used : Mistake → List Setting
  | unknownArgument _ (some (.similar s)) => [s]
  | unexpectedValue s _ => [s]
  | _ => []

def showsUsage : Mistake → Bool
  | missingValue .. | invalidValue .. => false
  | _ => true

/-- **The answer to a mistake.** -/
def text (topic : Topic) (m : Mistake) : String :=
  "error: " ++ m.complaint ++ m.hint ++
    (if m.showsUsage then "\n\nUsage: " ++ topic.usage m.used else "") ++
    (if topic = .helpPages then "\n" else "\n\nFor more information, try '--help'.\n")

end Mistake

namespace Refusal

/-- **The answer to a command line that asks for no work.** -/
def text : Refusal → String
  | help topic => topic.page
  | version => versionLine
  | nothingAsked => Topic.page .program
  | mistake topic m => m.text topic

def isWelcome : Refusal → Bool
  | help _ | version => true
  | nothingAsked | mistake .. => false

def exitCode (r : Refusal) : UInt32 := if r.isWelcome then 0 else 2

end Refusal

end CommandLine
end BencodePlan
