import BencodePlan.Notice
/-!
# Why a type has no shape

Four things stop a type from being written: a leaf without an encoding, a map whose keys are not strings, a field that may
be left out but has no empty value, and a type that contains itself.
-/
namespace BencodePlan

inductive CompileError
  | unsupportedType (type : String)
  | nonStringMapKey (map key : String)
  | omitEmptyUnsupported (field type : String)
  | recursiveType (type : String)
  deriving DecidableEq, Repr

namespace CompileError

def message : CompileError → String
  | unsupportedType type => "cannot encode `" ++ type ++ "`"
  | nonStringMapKey map key => "map keys must be strings, found `" ++ key ++ "` in `" ++ map ++ "`"
  | omitEmptyUnsupported field type => "field `" ++ field ++ "` has omitempty but `" ++ type ++ "` has no empty value"
  | recursiveType type => "`" ++ type ++ "` contains itself"

def kind : CompileError → DiagnosticKind
  | unsupportedType _ => .unsupportedType
  | nonStringMapKey .. => .nonStringMapKey
  | omitEmptyUnsupported .. => .omitEmptyUnsupported
  | recursiveType _ => .recursiveType

def diagnostic (e : CompileError) (name : String) : Diagnostic := .plain e.kind name e.message

end CompileError

/-- Work towards a plan: it may fail, and it tells what it does. -/
abbrev Compile := ExceptT CompileError Noted

namespace Compile

def tell (n : Notice) : Compile Unit := ExceptT.lift (Noted.tell n)

end Compile
end BencodePlan
