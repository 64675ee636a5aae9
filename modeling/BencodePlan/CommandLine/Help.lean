import BencodePlan.CommandLine.Setting
import BencodePlan.Source.File
/-!
# Help pages

A page says what a command is for, how it is called, and what each argument and setting does, in two columns.
-/
namespace BencodePlan
namespace CommandLine

/-- Rows of two columns; the second begins two blanks after the longest entry of the first. -/
def columns (rows : List (String × String)) : String :=
  let widest := (rows.map (·.1.length)).foldl max 0
  String.join (rows.map fun (left, right) =>
    "  " ++ left ++ String.ofList (List.replicate (widest - left.length) ' ') ++ "  " ++ right ++ "\n")

/-- A setting in the first column; long names stand below each other. -/
def Setting.column (s : Setting) : String :=
  (match s.short? with
    | some c => String.ofList ['-', c, ',', ' ']
    | none => "    ") ++ s.label

def settingRows (settings : List Setting) : String :=
  "Options:\n" ++ columns (settings.map fun s => (s.column, s.about))

def argumentRows : String :=
  "Arguments:\n" ++
    columns [(schemaLabel, "Schema file (JSON), or '-' to read stdin"),
      ("[TYPES]...", "Types to generate; none or '*' selects every tagged struct")]

def commandRows : String :=
  "Commands:\n" ++ columns (Command.all.map (fun c => (c.name, c.about)) ++ [(helpWord, helpAbout)])

def Topic.about : Topic → String
  | program => "Generate bencode encoders for Rust types described by a schema"
  | command c => c.about
  | helpPages => helpAbout

def Topic.body (t : Topic) : String :=
  match t with
  | program => commandRows ++ "\n" ++ settingRows t.settings
  | command c => argumentRows ++ "\n" ++ settingRows t.settings ++ "\n" ++ c.examples
  | helpPages => "Arguments:\n" ++ columns [("[COMMAND]...", "Print help for the subcommand(s)")]

/-- **A help page.** -/
def Topic.page (t : Topic) : String :=
  t.about ++ "\n\nUsage: " ++ t.usage [] ++ "\n\n" ++ t.body

def versionLine : String := "bencode-gen " ++ Source.Config.default.version ++ "\n"

end CommandLine
end BencodePlan
