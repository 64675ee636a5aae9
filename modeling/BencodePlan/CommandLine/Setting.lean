/-!
# Commands and their settings

Three commands work on a schema: one writes encoders, one shows plans, one only checks.  Each takes the schema, the names of
types, and settings of its own beside the settings that all have.  A setting is a switch that is given or not, a switch
that is counted, or one with a value.
-/
namespace BencodePlan
namespace CommandLine

inductive Command
  | generate
  | dump
  | check
  deriving DecidableEq, Repr

inductive Setting
  | output
  | force
  | dryRun
  | noFormat
  | runtimeCrate
  | unfolded
  | strict
  | verbose
  | color
  | help
  | version
  deriving DecidableEq, Repr

inductive Arity
  | switch
  | counted
  /-- A value, under this name in help pages. -/
  | value (name : String)
  deriving DecidableEq, Repr

namespace Setting

def long : Setting → String
  | output => "output"
  | force => "force"
  | dryRun => "dry-run"
  | noFormat => "no-format"
  | runtimeCrate => "runtime-crate"
  | unfolded => "unfolded"
  | strict => "strict"
  | verbose => "verbose"
  | color => "color"
  | help => "help"
  | version => "version"

def short? : Setting → Option Char
  | output => some 'o'
  | force => some 'f'
  | dryRun => some 'n'
  | verbose => some 'v'
  | help => some 'h'
  | version => some 'V'
  | noFormat | runtimeCrate | unfolded | strict | color => none

def arity : Setting → Arity
  | output => .value "FILE"
  | runtimeCrate => .value "PATH"
  | color => .value "WHEN"
  | verbose => .counted
  | force | dryRun | noFormat | unfolded | strict | help | version => .switch

/-- The values that a setting is limited to, if it is. -/
def choices : Setting → List String
  | color => ["auto", "always", "never"]
  | _ => []

def allowsEmpty : Setting → Bool
  | runtimeCrate => true
  | _ => false

def about : Setting → String
  | output => "Output file (default: bencode_gen.rs next to the schema)"
  | force => "Overwrite the output file even if it was not generated"
  | dryRun => "Don't write any files"
  | noFormat => "Don't run rustfmt on the generated file"
  | runtimeCrate => "Module path providing Bencode and the write helpers"
  | unfolded => "Show plans before adjacent literals are merged"
  | strict => "Treat warnings as errors"
  | verbose => "Verbosity level (-v for debug logging, -vv for trace)"
  | color => "Colorize output [default: auto] [possible values: auto, always, never]"
  | help => "Print help"
  | version => "Print version"

def label (s : Setting) : String :=
  "--" ++ s.long ++
    match s.arity with
    | .switch => ""
    | .counted => "..."
    | .value name => " <" ++ name ++ ">"

def ofLong? (settings : List Setting) (name : String) : Option Setting := settings.find? (·.long = name)

def ofShort? (settings : List Setting) (c : Char) : Option Setting := settings.find? (·.short? = some c)

end Setting

namespace Command

def name : Command → String
  | generate => "generate"
  | dump => "dump"
  | check => "check"

def all : List Command := [generate, dump, check]

def ofName? (name : String) : Option Command := all.find? (·.name = name)

def about : Command → String
  | generate => "Generate bencode encoders"
  | dump => "Show the encoding plan of each type"
  | check => "Validate a schema and compile its types"

/-- The settings of a command, as its help page lists them. -/
def settings : Command → List Setting
  | generate => [.output, .force, .dryRun, .noFormat, .runtimeCrate, .verbose, .color, .help]
  | dump => [.unfolded, .verbose, .color, .help]
  | check => [.strict, .verbose, .color, .help]

def usage : Command → String
  | generate => "  bencode-gen generate <SCHEMA> [TYPES]... [-o <FILE>]"
  | dump => "  bencode-gen dump <SCHEMA> [TYPES]... [--unfolded]"
  | check => "  bencode-gen check <SCHEMA> [TYPES]... [--strict]"

def examples : Command → String
  | generate =>
    "EXAMPLES:\n" ++
    "  bencode-gen generate schema.json              # every tagged struct\n" ++
    "  bencode-gen generate schema.json Torrent Peer # named types only\n" ++
    "  bencode-gen generate schema.json -n -v        # show what would be written\n" ++
    "  cat schema.json | bencode-gen generate - -o src/bencode_gen.rs\n"
  | dump =>
    "EXAMPLES:\n" ++
    "  bencode-gen dump schema.json                  # folded plans\n" ++
    "  bencode-gen dump schema.json Torrent --unfolded\n"
  | check =>
    "EXAMPLES:\n" ++
    "  bencode-gen check schema.json                 # errors only fail\n" ++
    "  bencode-gen check schema.json --strict        # warnings fail too\n"

end Command

def helpWord : String := "help"

def helpAbout : String := "Print this message or the help of the given subcommand(s)"

/-- The words that a command line may begin with. -/
def commandNames : List String := Command.all.map Command.name ++ [helpWord]

def schemaLabel : String := "<SCHEMA>"

inductive Topic
  | program
  | command (c : Command)
  | helpPages
  deriving DecidableEq, Repr

namespace Topic

def settings : Topic → List Setting
  | program => [.help, .version]
  | command c => c.settings
  | helpPages => []

/-- How a command line is formed; the program's shows settings that were used. -/
def usage (used : List Setting) : Topic → String
  | program => "bencode-gen" ++ String.join (used.map fun s => " " ++ s.label) ++ " <COMMAND>"
  | command c => c.usage
  | helpPages => "bencode-gen help [COMMAND]..."

end Topic

end CommandLine
end BencodePlan
