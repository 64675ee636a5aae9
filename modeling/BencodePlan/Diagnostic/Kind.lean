/-!
# Kinds of diagnostics

What can be wrong with a schema, from a name declared twice to a request for a type that is not there.  Errors stop
generation, warnings are reported and generation goes on.  A kind has a message of its own and a second wording, with a
gap, for when the particulars are known.
-/
namespace BencodePlan

inductive Severity
  | error
  | warning
  deriving DecidableEq, Repr

namespace Severity

def text : Severity → String
  | error => "error"
  | warning => "warning"

end Severity

inductive DiagnosticKind
  | duplicateType
  | duplicateField
  | invalidName
  | invalidDeclaration
  | malformedTypeExpr
  | unknownType
  | aliasCycle
  | unsupportedType
  | nonStringMapKey
  | omitEmptyUnsupported
  | recursiveType
  | malformedTag
  | tagOnEmbeddedField
  | unsupportedEmbedding
  | unknownRequestedType
  | nonStructRoot
  deriving DecidableEq, Repr

namespace DiagnosticKind

def severity : DiagnosticKind → Severity
  | malformedTag | tagOnEmbeddedField | unsupportedEmbedding | unknownRequestedType | nonStructRoot => .warning
  | duplicateType | duplicateField | invalidName | invalidDeclaration | malformedTypeExpr | unknownType | aliasCycle
  | unsupportedType | nonStringMapKey | omitEmptyUnsupported | recursiveType => .error

def general : DiagnosticKind → String
  | duplicateType => "duplicate type declaration"
  | duplicateField => "duplicate field"
  | invalidName => "invalid name"
  | invalidDeclaration => "invalid declaration"
  | malformedTypeExpr => "malformed type expression"
  | unknownType => "unknown type"
  | aliasCycle => "type alias cycle"
  | unsupportedType => "unsupported type"
  | nonStringMapKey => "map keys must be strings"
  | omitEmptyUnsupported => "omitempty has no empty value to test"
  | recursiveType => "recursive type"
  | malformedTag => "malformed tag"
  | tagOnEmbeddedField => "tag on embedded field is ignored"
  | unsupportedEmbedding => "unsupported embedding"
  | unknownRequestedType => "requested type is not declared"
  | nonStructRoot => "requested type is not a struct"

/-- The words before and after the particulars.  What stops the compilation of a type is worded in full where it
happens, so there is nothing to add to it. -/
def wording : DiagnosticKind → String × String
  | duplicateType => ("`", "` is already declared")
  | duplicateField => ("field `", "` is declared twice")
  | invalidName => ("`", "` is not a valid name")
  | unknownType => ("`", "` is not declared")
  | unsupportedType | nonStringMapKey | omitEmptyUnsupported | recursiveType => ("", "")
  | unknownRequestedType => ("`", "` is not declared in the schema")
  | nonStructRoot => ("`", "` is not a struct and cannot have its own encoder")
  | invalidDeclaration => (invalidDeclaration.general ++ ": ", "")
  | malformedTypeExpr => (malformedTypeExpr.general ++ ": ", "")
  | aliasCycle => (aliasCycle.general ++ ": ", "")
  | malformedTag => (malformedTag.general ++ ": ", "")
  | tagOnEmbeddedField => (tagOnEmbeddedField.general ++ ": ", "")
  | unsupportedEmbedding => (unsupportedEmbedding.general ++ ": ", "")

/-- The wording with its gap shown as a pair of braces. -/
def template (k : DiagnosticKind) : String :=
  k.wording.1 ++ "\x7b\x7d" ++ k.wording.2

/-- **The message**, with particulars if there are any. -/
def message (k : DiagnosticKind) : Option String → String
  | none => k.general
  | some detail => k.wording.1 ++ detail ++ k.wording.2

end DiagnosticKind
end BencodePlan
