import BencodePlan.CommandLine.Request
import BencodePlan.CommandLine.Output
import BencodePlan.Diagnostic.Render
import BencodePlan.Generate
import BencodePlan.Plan.Listing
import BencodePlan.Source.File
/-!
# The program

A run reads its command line, loads the schema, makes plans of the types asked for, and does with them what the command is
for.  Results go to standard output or to the output file; everything that is told or reported goes to standard error.  A
run ends with 0 if it did its work, with 1 if it could not, and with 2 if its command line is mistaken.
-/
namespace BencodePlan
namespace CommandLine

variable {m : Type → Type} [Monad m] [Host m]

def complainOf (text : String) : m Unit := Host.complain ("error: " ++ text ++ "\n")

def schemaName (path : String) : String := if path = standardInput then "<stdin>" else path

/-- The text of the schema, or why it could not be read. -/
def readSchema (path : String) : m (Except String String) := do
  if path = standardInput then
    match Wire.text? (← Host.input) with
    | some text => return .ok text
    | none => return .error ("failed to read stdin: " ++ FileError.notText.message)
  else
    match ← readText path with
    | .ok text => return .ok text
    | .error e => return .error ("failed to read '" ++ path ++ "': " ++ e.message)

/-- **The schema of a run.**  Without one, what is wrong has been said. -/
def loadSchema (c : Common) : m (Option Schema) := do
  match ← readSchema c.schema with
  | .error text =>
    complainOf text
    return none
  | .ok text =>
    let parsed := Schema.parse text
    tellAll c.verbosity parsed.notices
    match parsed.value with
    | .ok s => return some s
    | .error e =>
      Host.complain (e.rendered (Diagnostics.render c.color.colored))
      return none

/-- Make plans, and say what there is to say about the types. -/
def makePlans (c : Common) (s : Schema) (config : GeneratorConfig) : m (Noted Generated) := do
  let made := s.generate config c.types
  tellAll c.verbosity made.notices
  Host.complain (made.diagnostics.render c.color.colored)
  return made

def Generation.source (g : Generation) : Source.Config :=
  { Source.Config.default with runtime := g.runtime.getD Source.Config.default.runtime }

def writeEncoders (c : Common) (g : Generation) (s : Schema) (made : Generated) : m UInt32 := do
  let path := g.outputPath c.schema
  let contents := Source.file g.source s.module made.plans
  if g.dryRun then
    tell c.verbosity .info ("Would write " ++ path ++ " with encoders for " ++ made.names)
    return 0
  match ← replaceOutput c.verbosity path (Wire.utf8 contents) g.force g.format with
  | .error e =>
    complainOf e.message
    return 1
  | .ok () =>
    tell c.verbosity .info ("Wrote " ++ path ++ " with encoders for " ++ made.names)
    return 0

/-- **Generate encoders.**  Nothing is written unless every type has a plan. -/
def runGenerate (c : Common) (g : Generation) : m UInt32 := do
  match ← loadSchema c with
  | none => return 1
  | some s =>
    tell c.verbosity .info
      ("Generating encoders for " ++ schemaName c.schema ++ " (" ++ g.outputPath c.schema ++ ")")
    let made := (← makePlans c s ⟨true, false⟩).value
    if !made.isSuccess then
      complainOf (Text.decimalText made.failures.length ++ " of " ++
        Text.decimalText (made.failures.length + made.plans.length) ++ " types failed to compile; nothing written")
      return 1
    else if made.plans.isEmpty then
      tell c.verbosity .info ("Skipping " ++ schemaName c.schema ++ ": no valid types found")
      return 0
    else writeEncoders c g s made

/-- **Show plans**, also those of types that are no structs. -/
def runDump (c : Common) (fold : Bool) : m UInt32 := do
  match ← loadSchema c with
  | none => return 1
  | some s =>
    let made := (← makePlans c s ⟨fold, true⟩).value
    Host.print (Plan.listingFile c.color.colored s.module made.plans)
    return if made.isSuccess then 0 else 1

/-- **Check a schema.**  A strict check takes warnings for errors. -/
def runCheck (c : Common) (strict : Bool) : m UInt32 := do
  match ← loadSchema c with
  | none => return 1
  | some s =>
    let made ← makePlans c s ⟨true, false⟩
    let isValid :=
      if strict then !made.diagnostics.hasErrors && !made.diagnostics.hasWarnings else made.value.isSuccess
    if isValid then
      tell c.verbosity .debug (Text.decimalText made.value.plans.length ++ " types compiled")
      return 0
    else return 1

def Request.run : Request → m UInt32
  | .generate c g => runGenerate c g
  | .dump c fold => runDump c fold
  | .check c strict => runCheck c strict

def Refusal.run (r : Refusal) : m UInt32 := do
  if r.isWelcome then Host.print r.text else Host.complain r.text
  return r.exitCode

/-- **A run of the program.** -/
def run (arguments : List String) : m UInt32 :=
  match read arguments with
  | .ok request => request.run
  | .error refusal => refusal.run

end CommandLine
end BencodePlan
