import BencodePlan.Source.Statement
/-!
# Files of generated code

A file of encoders: a mark that it is generated, the helpers it calls, and one encoder a type.  The helpers that sort keys
and write numbers and strings are called by their own names and brought in only where some plan needs them; the others are
called by the path of the module that has them.
-/
namespace BencodePlan
namespace Source

structure Config where
  /-- The module that provides the helpers. -/
  runtime : String
  /-- Begin with the mark of a generated file. -/
  header : Bool
  /-- The version in that mark. -/
  version : String
  deriving DecidableEq, Repr

namespace Config

def default : Config := ⟨"bencode_gen_core::runtime", true, "0.3.3"⟩

end Config

def line (level : Nat) (text : String) : String :=
  String.ofList (List.replicate (4 * level) ' ') ++ text ++ "\n"

def Condition.text (runtime : String) : Condition → String
  | notEmpty e => "!" ++ e.text runtime ++ ".is_empty()"
  | isSome e => e.text runtime ++ ".is_some()"
  | holds e => e.text runtime
  | notZero e => e.text runtime ++ " != 0"
  | someTime e => "!" ++ e.text runtime ++ ".is_zero()"

/-- The line that gives a key variable its declared type. -/
def castLine (level depth : Nat) : Option String → String
  | none => ""
  | some type =>
    line level ("let " ++ Selector.keyName depth ++ ": &" ++ type ++ " = " ++ Selector.keyName depth ++ ";")

namespace Statement

mutual
/-- **A statement as lines** at a level. -/
def text (runtime : String) (level : Nat) : Statement → String
  | writeBytes bytes => line level ("w.write_all(b\"" ++ Text.escape bytes ++ "\")?;")
  | writeBool e => line level (runtime ++ "::write_bool(w, " ++ e.text runtime ++ ")?;")
  | writeInt e => line level ("write_int(w, " ++ e.text runtime ++ ")?;")
  | writeString e => line level ("write_string(w, " ++ e.text runtime ++ ")?;")
  | writeNative e => line level ("Bencode::write_bencode(" ++ e.text runtime ++ ", w)?;")
  | forElem depth list body =>
    line level ("for " ++ Selector.elemName depth ++ " in " ++ list.text runtime ++ ".iter() \x7b") ++
      textAll runtime (level + 1) body ++ line level "\x7d"
  | forKey depth map cast body =>
    line level ("for " ++ Selector.keyName depth ++ " in sorted_keys(" ++ map.text runtime ++ ".keys()) \x7b") ++
      castLine (level + 1) depth cast ++ textAll runtime (level + 1) body ++ line level "\x7d"
  | ifThen condition body =>
    line level ("if " ++ condition.text runtime ++ " \x7b") ++
      textAll runtime (level + 1) body ++ line level "\x7d"
termination_by structural s => s

def textAll (runtime : String) (level : Nat) : List Statement → String
  | [] => ""
  | s :: rest => s.text runtime level ++ textAll runtime level rest
termination_by structural ss => ss
end

end Statement

def encoder (runtime : String) (p : Plan) : String :=
  line 0 ("impl Bencode for " ++ p.name ++ " \x7b") ++
    line 1 "fn write_bencode(&self, w: &mut dyn Write) -> io::Result<()> \x7b" ++
    Statement.textAll runtime 2 (Statement.ofInstructions p.body) ++
    line 2 "Ok(())" ++ line 1 "\x7d" ++ line 0 "\x7d"

/-- The mark of a generated file, and the module of its schema. -/
def mark (config : Config) (module : Option String) : String :=
  if config.header then
    "// Code generated by bencode-gen " ++ config.version ++ " DO NOT EDIT.\n" ++
      (match module with
        | some name => "// Schema module: " ++ name ++ "\n"
        | none => "") ++ "\n"
  else ""

def imports (runtime : String) (features : Features) : String :=
  "use std::io::\x7bself, Write\x7d;\n\n" ++
    "use " ++ runtime ++ "::Bencode;\n" ++
    (if features.needsSort then "use " ++ runtime ++ "::sorted_keys;\n" else "") ++
    (if features.needsFormat then
      "#[allow(unused_imports)]\n" ++ "use " ++ runtime ++ "::\x7bwrite_int, write_string\x7d;\n"
    else "")

/-- **A file of encoders.** -/
def file (config : Config) (module : Option String) (plans : List Plan) : String :=
  mark config module ++ imports config.runtime (Plan.combinedFeatures plans) ++
    String.join (plans.map fun p => "\n" ++ encoder config.runtime p)

end Source
end BencodePlan
