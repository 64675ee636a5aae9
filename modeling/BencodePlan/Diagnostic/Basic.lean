import BencodePlan.Diagnostic.Kind
import BencodePlan.Text.Span
/-!
# Diagnostics

A diagnostic says what is wrong, where in the schema, and may point into the text that caused it.  The same struct is
walked more than once on the way to a plan, so the same finding may be reported several times; a collection keeps the
first of equal reports, in the order in which they came.
-/
namespace BencodePlan

/-- A piece of schema text to point into: a tag or a type expression. -/
structure Snippet where
  source : String
  span : Span
  label : String
  deriving DecidableEq, Repr

structure Diagnostic where
  kind : DiagnosticKind
  /-- A type, a member of a type, or the schema. -/
  location : String
  message : String
  snippet : Option Snippet
  deriving DecidableEq, Repr

namespace Diagnostic

/-- A report of a kind at a place, with particulars or without. -/
def report (kind : DiagnosticKind) (location : String) (detail : Option String) (snippet : Option Snippet) :
    Diagnostic :=
  ⟨kind, location, kind.message detail, snippet⟩

/-- A report with particulars and no text to point into. -/
def plain (kind : DiagnosticKind) (location detail : String) : Diagnostic :=
  report kind location (some detail) none

def pointing (kind : DiagnosticKind) (location detail source : String) (span : Span) (label : String) : Diagnostic :=
  report kind location (some detail) (some ⟨source, span, label⟩)

def severity (d : Diagnostic) : Severity := d.kind.severity

def isError (d : Diagnostic) : Bool := d.severity = .error

def isWarning (d : Diagnostic) : Bool := d.severity = .warning

def headline (d : Diagnostic) : String := d.location ++ ": " ++ d.message

def display (d : Diagnostic) : String := d.severity.text ++ ": " ++ d.headline

end Diagnostic

/-- A collection of diagnostics, none equal to another. -/
structure Diagnostics where
  messages : List Diagnostic
  deriving DecidableEq, Repr

namespace Diagnostics

def empty : Diagnostics := ⟨[]⟩

def add (ds : Diagnostics) (d : Diagnostic) : Diagnostics :=
  if d ∈ ds.messages then ds else ⟨ds.messages ++ [d]⟩

def addAll (ds : Diagnostics) (reports : List Diagnostic) : Diagnostics :=
  reports.foldl add ds

/-- **What a series of reports comes to.** -/
def ofReports (reports : List Diagnostic) : Diagnostics :=
  empty.addAll reports

def extend (ds other : Diagnostics) : Diagnostics :=
  ds.addAll other.messages

def size (ds : Diagnostics) : Nat := ds.messages.length

def isEmpty (ds : Diagnostics) : Bool := ds.messages.isEmpty

def errorCount (ds : Diagnostics) : Nat := ds.messages.countP Diagnostic.isError

def warningCount (ds : Diagnostics) : Nat := ds.messages.countP Diagnostic.isWarning

def hasErrors (ds : Diagnostics) : Bool := ds.messages.any Diagnostic.isError

def hasWarnings (ds : Diagnostics) : Bool := ds.messages.any Diagnostic.isWarning

def hasKind (ds : Diagnostics) (kind : DiagnosticKind) : Bool := ds.messages.any fun d => d.kind = kind

end Diagnostics
end BencodePlan
