import BencodePlan.CommandLine.Refusal
import BencodePlan.Files.Path
/-!
# Reading a command line

A command line names a command and then, in any order, its settings, the schema and the names of types.  A setting is
spelled out after two dashes, with its value after an equals sign or as the next argument; or it is a letter after one dash,
where switches may stand together and a value may follow at once.  After two dashes alone, everything is a plain argument;
one dash alone is plain too.

A value given in an argument of its own is looked at only when the next thing is read, so that of two mistakes the earlier is
reported, unless the later is an argument that is not known at all.
-/
namespace BencodePlan
namespace CommandLine

inductive ColorChoice
  | auto
  | always
  | never
  deriving DecidableEq, Repr

namespace ColorChoice

def ofName : String → ColorChoice
  | "always" => always
  | "never" => never
  | _ => auto

/-- Whether to colour text that is not read on a terminal. -/
def colored : ColorChoice → Bool
  | always => true
  | auto | never => false

end ColorChoice

structure Common where
  /-- The path of the schema, or a dash for standard input. -/
  schema : String
  types : List String
  verbosity : Nat
  color : ColorChoice
  deriving DecidableEq, Repr

structure Generation where
  output : Option String
  force : Bool
  dryRun : Bool
  format : Bool
  runtime : Option String
  deriving DecidableEq, Repr

inductive Request
  | generate (common : Common) (options : Generation)
  | dump (common : Common) (fold : Bool)
  | check (common : Common) (strict : Bool)
  deriving DecidableEq, Repr

def standardInput : String := "-"

/-- The name of the file that encoders go to, if none is given. -/
def defaultOutput : String := "bencode_gen.rs"

def defaultOutputPath (schema : String) : String :=
  if schema = standardInput then defaultOutput
  else Path.join ((Path.parent? schema).getD "") defaultOutput

/-- **Where encoders are written.** -/
def Generation.outputPath (g : Generation) (schema : String) : String :=
  g.output.getD (defaultOutputPath schema)

/-- What was read last and is yet to be looked at. -/
inductive Open
  | nothing
  | schema (path : String)
  /-- A setting, with its value if that was there already. -/
  | setting (s : Setting) (value : Option String)
  deriving DecidableEq, Repr

structure Reading where
  schema : Option String
  types : List String
  switches : List Setting
  values : List (Setting × String)
  verbosity : Nat
  opened : Open
  deriving DecidableEq, Repr

namespace Reading

def empty : Reading := ⟨none, [], [], [], 0, .nothing⟩

def value? (r : Reading) (s : Setting) : Option String := (r.values.find? (·.1 = s)).map (·.2)

def countLimit : Nat := 255

def takeValue (r : Reading) (s : Setting) (value : String) : Except Mistake Reading :=
  if (r.value? s).isSome then .error (.repeated s)
  else if value.isEmpty && !s.allowsEmpty then .error (.missingValue s.label s.choices)
  else if !s.choices.isEmpty && !s.choices.contains value then .error (.invalidValue s.label value s.choices)
  else .ok { r with values := r.values ++ [(s, value)] }

def settle (r : Reading) : Except Mistake Reading :=
  let closed := { r with opened := .nothing }
  match r.opened with
  | .nothing => .ok r
  | .schema path =>
    if path.isEmpty then .error (.missingValue schemaLabel []) else .ok { closed with schema := some path }
  | .setting s none => .error (.missingValue s.label s.choices)
  | .setting s (some value) => closed.takeValue s value

def plain (r : Reading) (text : String) : Except Mistake Reading := do
  let r ← r.settle
  match r.schema with
  | none => return { r with opened := .schema text }
  | some _ => return { r with types := r.types ++ [text] }

end Reading

/-- The answer that a switch gives instead of work. -/
def Setting.answer? (topic : Topic) : Setting → Option Refusal
  | .help => some (.help topic)
  | .version => some .version
  | _ => none

abbrev Read := Except Refusal

def refusing {α : Type} (topic : Topic) : Except Mistake α → Read α
  | .ok a => .ok a
  | .error m => .error (.mistake topic m)

def readSwitch (topic : Topic) (r : Reading) (s : Setting) : Read Reading := do
  let r ← refusing topic r.settle
  match s.answer? topic with
  | some answer => throw answer
  | none =>
    if s.arity = .counted then return { r with verbosity := min Reading.countLimit (r.verbosity + 1) }
    else if r.switches.contains s then throw (.mistake topic (.repeated s))
    else return { r with switches := s :: r.switches }

/-- The name and the value in an argument after its two dashes. -/
def splitValue (cs : List Char) : String × Option String :=
  (String.ofList (cs.takeWhile (· != '=')),
    match cs.dropWhile (· != '=') with
    | [] => none
    | _ :: value => some (String.ofList value))

/-- The setting that a long name may be meant for. -/
def meantSetting? (settings : List Setting) (name : String) : Option Setting :=
  (Text.similar name (settings.map Setting.long)).getLast? >>= Setting.ofLong? settings

def readLong (topic : Topic) (unknown : String → Option Advice) (r : Reading) (cs : List Char) : Read Reading :=
  let (name, value) := splitValue cs
  match Setting.ofLong? topic.settings name with
  | none =>
    let advice :=
      match meantSetting? topic.settings name with
      | some s => some (.similar s)
      | none => unknown name
    .error (.mistake topic (.unknownArgument ("--" ++ name) advice))
  | some s =>
    match s.arity, value with
    | .value _, none => do
      let r ← refusing topic r.settle
      return { r with opened := .setting s none }
    | .value _, some v => refusing topic (r.settle >>= (Reading.takeValue · s v))
    | _, none => readSwitch topic r s
    | _, some v => .error (.mistake topic (.unexpectedValue s v))

def readShort (topic : Topic) (unknown : Option Advice) (r : Reading) : List Char → Read Reading
  | [] => .ok r
  | c :: rest =>
    match Setting.ofShort? topic.settings c with
    | none => .error (.mistake topic (.unknownArgument (String.ofList ['-', c]) unknown))
    | some s =>
      match s.arity with
      | .value _ =>
        match rest with
        | [] => do
          let r ← refusing topic r.settle
          return { r with opened := .setting s none }
        | '=' :: value => refusing topic (r.settle >>= (Reading.takeValue · s (String.ofList value)))
        | value => refusing topic (r.settle >>= (Reading.takeValue · s (String.ofList value)))
      | _ => do
        let r ← readSwitch topic r s
        readShort topic unknown r rest

def readArguments (c : Command) (r : Reading) : List String → Read Reading
  | [] => refusing (.command c) r.settle
  | argument :: rest =>
    match argument.toList with
    | ['-', '-'] => do
      let r ← refusing (.command c) (rest.foldlM Reading.plain r)
      refusing (.command c) r.settle
    | '-' :: '-' :: cs => do
      let r ← readLong (.command c) (fun _ => some .asValue) r cs
      readArguments c r rest
    | '-' :: letter :: cs => do
      let r ← readShort (.command c) (some .asValue) r (letter :: cs)
      readArguments c r rest
    | _ =>
      match r.opened with
      | .setting s none => readArguments c { r with opened := .setting s (some argument) } rest
      | _ => do
        let r ← refusing (.command c) (r.plain argument)
        readArguments c r rest

def Reading.request? (c : Command) (r : Reading) : Option Request := do
  let schema ← r.schema
  let color := ((r.value? .color).map ColorChoice.ofName).getD .auto
  let common : Common := ⟨schema, r.types, r.verbosity, color⟩
  let given := r.switches.contains
  match c with
  | .generate =>
    return .generate common
      ⟨r.value? .output, given .force, given .dryRun, !given .noFormat, r.value? .runtimeCrate⟩
  | .dump => return .dump common (!given .unfolded)
  | .check => return .check common (given .strict)

def readCommand (c : Command) (arguments : List String) : Read Request := do
  let r ← readArguments c .empty arguments
  match r.request? c with
  | some request => return request
  | none => throw (.mistake (.command c) .missingSchema)

def helpFor (topic : Topic) : List String → Refusal
  | [] => .help topic
  | name :: rest =>
    match topic, Command.ofName? name with
    | .program, some c => helpFor (.command c) rest
    | .program, none =>
      if name = helpWord then helpFor .helpPages rest else .mistake topic (.unknownCommand name [])
    | _, _ => .mistake topic (.unknownCommand name [])

/-- The advice about a setting that stands before the command: the first command named later that has one like it. -/
def adviceFrom (arguments : List String) (name : String) : Option Advice :=
  arguments.findSome? fun argument => do
    let c ← Command.ofName? argument
    let s ← meantSetting? c.settings name
    return .ofCommand c s

def unknownWord (word : String) : Refusal :=
  .mistake .program (.unknownCommand word (Text.similar word commandNames))

/-- **Read a command line**, without the name of the program. -/
def read : List String → Read Request
  | [] => .error .nothingAsked
  | ["--"] => .error .nothingAsked
  | "--" :: word :: _ =>
    .error (if commandNames.contains word then .mistake .program (.unknownArgument word (some .withoutDashes))
      else unknownWord word)
  | word :: rest =>
    match Command.ofName? word with
    | some c => readCommand c rest
    | none =>
      if word = helpWord then .error (helpFor .program rest)
      else
        match word.toList with
        | '-' :: '-' :: cs => do
          let _ ← readLong .program (adviceFrom rest) .empty cs
          throw (unknownWord word)
        | '-' :: letter :: cs => do
          let _ ← readShort .program none .empty (letter :: cs)
          throw (unknownWord word)
        | _ => .error (unknownWord word)

end CommandLine
end BencodePlan
