import BencodePlan.CommandLine.Host
import BencodePlan.Source.Mark
import BencodePlan.Text.Quoted
/-!
# The output file

Encoders go to a file that is replaced in one step: they are written to a new file in the same folder, and that file is put
in the place of the old one.  A reader sees the old text or the new, never a part.  If anything fails on the way the new
file is removed again.

A file that nobody marked as generated may be somebody's work, and is replaced only by force.
-/
namespace BencodePlan
namespace CommandLine

inductive OutputError
  | notGenerated (path : String)
  | unreadable (path : String) (e : FileError)
  /-- No new file in a folder, at the path that was tried. -/
  | notCreated (folder tried : String) (e : FileError)
  | notWritten (tried : String) (e : FileError)
  | notFormatted (e : FileError)
  | notReplaced (path : String) (e : FileError)
  deriving DecidableEq, Repr

namespace OutputError

/-- An error of the new file, which the user has not named. -/
def located (e : FileError) (path : String) : String := e.message ++ " at path " ++ Text.quoted path

def message : OutputError → String
  | notGenerated path =>
    path ++ " does not seem to be auto-generated; not overwriting it. Use --force to override this."
  | unreadable path e => "could not read " ++ path ++ ": " ++ e.message
  | notCreated folder tried e => "could not create output file in " ++ folder ++ ": " ++ located e tried
  | notWritten tried e => "failed to write output: " ++ located e tried
  | notFormatted e => "failed to run rustfmt: " ++ e.message
  | notReplaced path e => "failed to replace " ++ path ++ ": " ++ e.message

end OutputError

variable {m : Type → Type} [Monad m] [Host m]

/-- **Whether a path may be written to.** -/
def checkReplaceable (path : String) (force : Bool) : m (Except OutputError Unit) := do
  if force then return .ok ()
  match ← readText path with
  | .error .notFound => return .ok ()
  | .error e => return .error (.unreadable path e)
  | .ok text => return if Source.isMarked text then .ok () else .error (.notGenerated path)

/-- The folder of the new file: the one that will hold the output. -/
def outputFolder (path : String) : String :=
  match Path.parent? path with
  | none => "."
  | some folder => if folder.isEmpty then "." else folder

/-- The characters that the name of a new file is drawn from. -/
def stampCharacters : List Char := "abcdefghijklmnopqrstuvwxyzABCDEFGHIJKLMNOPQRSTUVWXYZ0123456789".toList

def temporaryName (stamp : String) : String := ".bencode_gen." ++ stamp ++ ".rs"

def fillAndPlace (verbosity : Nat) (temporary shown path : String) (contents : Bytes) (format : Bool) :
    m (Except OutputError Unit) := do
  match ← Host.write temporary contents with
  | .error e => return .error (.notWritten shown e)
  | .ok () =>
    let formatted ← if format then do
        tell verbosity .debug ("running rustfmt on " ++ shown)
        Host.format temporary
      else pure (.ok ())
    match formatted with
    | .error e => return .error (.notFormatted e)
    | .ok () =>
      match ← Host.rename temporary path with
      | .error e => return .error (.notReplaced path e)
      | .ok () => return .ok ()

/-- **Write a file in one step.** -/
def writeOutput (verbosity : Nat) (path : String) (contents : Bytes) (format : Bool) :
    m (Except OutputError Unit) := do
  let folder := outputFolder path
  let name := temporaryName (← Host.stamp)
  let temporary := Path.join folder name
  let shown := Path.join (Path.below (← Host.workingFolder) folder) name
  match ← Host.create temporary with
  | .error e => return .error (.notCreated folder shown e)
  | .ok () =>
    tell verbosity .debug ("temporary output file is " ++ shown)
    match ← fillAndPlace verbosity temporary shown path contents format with
    | .ok () => return .ok ()
    | .error e =>
      let _ ← Host.remove temporary
      return .error e

/-- Write a file in one step, unless it may not be replaced. -/
def replaceOutput (verbosity : Nat) (path : String) (contents : Bytes) (force format : Bool) :
    m (Except OutputError Unit) := do
  match ← checkReplaceable path force with
  | .error e => return .error e
  | .ok () => writeOutput verbosity path contents format

end CommandLine
end BencodePlan
