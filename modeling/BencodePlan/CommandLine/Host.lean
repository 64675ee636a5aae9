import BencodePlan.Files.Tree
import BencodePlan.Files.Path
import BencodePlan.Wire
import BencodePlan.Notice
import BencodePlan.Text.Codes
/-!
# What a run asks of its surroundings

The little that a run needs from outside: bytes of files and of standard input, a new file and what to do with it, two
channels to write to.  A run is written against this list alone.  A `Scene` is the list as a value, all of the outside that
a run can tell apart, so that what a run does to its files can be stated and computed.

A formatter for generated files is a program of its own, and no surroundings here can start one.
-/
namespace BencodePlan
namespace CommandLine

class Host (m : Type → Type) where
  /-- The path of the folder that paths are read from. -/
  workingFolder : m String
  /-- Some characters for the name of a new file. -/
  stamp : m String
  /-- All of standard input. -/
  input : m Bytes
  read : String → m (Except FileError Bytes)
  /-- Make an empty file where nothing is. -/
  create : String → m (Except FileError Unit)
  write : String → Bytes → m (Except FileError Unit)
  remove : String → m (Except FileError Unit)
  /-- Put a file in another place. -/
  rename : String → String → m (Except FileError Unit)
  /-- Run the formatter on a file. -/
  format : String → m (Except FileError Unit)
  print : String → m Unit
  complain : String → m Unit

structure Scene where
  workingFolder : String
  stamp : String
  input : Bytes
  tree : FileTree
  /-- What was printed. -/
  output : String
  /-- What was complained. -/
  errors : String
  deriving Repr

namespace Scene

/-- Do to the files what may fail; a failure leaves them alone. -/
def onFiles (act : FileTree → Except FileError FileTree) : StateM Scene (Except FileError Unit) := fun s =>
  match act s.tree with
  | .ok t => (.ok (), { s with tree := t })
  | .error e => (.error e, s)

instance : Host (StateM Scene) where
  workingFolder := fun s => (s.workingFolder, s)
  stamp := fun s => (s.stamp, s)
  input := fun s => (s.input, s)
  read path := fun s => (s.tree.read path, s)
  create path := onFiles (FileTree.create · path)
  write path bytes := onFiles (FileTree.write · path bytes)
  remove path := onFiles (FileTree.remove · path)
  rename source target := onFiles (FileTree.rename · source target)
  format _ := pure (.error .notFound)
  print text := fun s => ((), { s with output := s.output ++ text })
  complain text := fun s => ((), { s with errors := s.errors ++ text })

end Scene

/-! ## Telling -/

/-- Whether a run of some verbosity tells what has this level. -/
def isTold (verbosity : Nat) : Level → Bool
  | .info => true
  | .debug => 1 ≤ verbosity
  | .trace => 2 ≤ verbosity

def levelTag : Level → String
  | .info => "[INFO ] "
  | .debug => "[DEBUG] "
  | .trace => "[TRACE] "

/-- A told line, without terminal codes; the lines of a longer text are set in below the first. -/
def toldLine (level : Level) (text : String) : String :=
  Text.withoutCodes
    (levelTag level ++ String.ofList (text.toList.flatMap fun c => if c = '\n' then "\n    ".toList else [c]) ++ "\n")

variable {m : Type → Type} [Monad m] [Host m]

def tell (verbosity : Nat) (level : Level) (text : String) : m Unit :=
  if isTold verbosity level then Host.complain (toldLine level text) else pure ()

def tellAll (verbosity : Nat) : List Notice → m Unit
  | [] => pure ()
  | n :: rest => do
    tell verbosity n.level n.text
    tellAll verbosity rest

def readText (path : String) : m (Except FileError String) := do
  match ← Host.read path with
  | .error e => return .error e
  | .ok bytes =>
    match Wire.text? bytes with
    | some text => return .ok text
    | none => return .error .notText

end CommandLine
end BencodePlan
