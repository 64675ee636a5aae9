import BencodePlan.CommandLine.Program
/-!
# The executable

The surroundings of a real run: files, standard input, and the two channels.
-/
namespace BencodePlan

/-- What a system answered, in the terms of a run. -/
def FileError.ofSystem : IO.Error → FileError
  | .noFileOrDirectory .. => .notFound
  | .alreadyExists .. => .alreadyThere
  | .resourceBusy .. => .busy
  | .inappropriateType _ 20 _ => .notFolder
  | .inappropriateType _ 21 _ => .isFolder
  | e => .other e.toString

namespace CommandLine

def attempt {α : Type} (act : IO α) : IO (Except FileError α) := do
  try
    return .ok (← act)
  catch e => return .error (FileError.ofSystem e)

def drawStamp : Nat → IO String
  | 0 => return ""
  | n + 1 => do
    let i ← IO.rand 0 (stampCharacters.length - 1)
    return String.singleton (stampCharacters[i]?.getD 'x') ++ (← drawStamp n)

instance : Host IO where
  workingFolder := return (← IO.currentDir).toString
  stamp := drawStamp 6
  input := return (← (← IO.getStdin).readBinToEnd).toList
  read path := attempt (return (← IO.FS.readBinFile path).toList)
  create path := attempt (do let _ ← IO.FS.Handle.mk path .writeNew)
  write path bytes := attempt (IO.FS.writeBinFile path ⟨bytes.toArray⟩)
  remove path := attempt (IO.FS.removeFile path)
  rename source target := attempt (IO.FS.rename source target)
  format _ := return .error .notFound
  print text := IO.print text
  complain text := IO.eprint text

end CommandLine
end BencodePlan

def main (arguments : List String) : IO UInt32 := BencodePlan.CommandLine.run arguments
