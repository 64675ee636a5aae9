import BencodePlan.Diagnostic.Layout
import BencodePlan.Text.Palette
/-!
# Diagnostics as text

Each diagnostic is its severity and headline, with rows below that point into its text if it has one; blank lines
separate them.
-/
namespace BencodePlan

namespace Diagnostic

def paint (d : Diagnostic) : Text.Paint :=
  match d.severity with
  | .error => .red
  | .warning => .yellow

def style (d : Diagnostic) : Style :=
  match d.severity with
  | .error => .error
  | .warning => .warning

/-- **One diagnostic as text**, ending in a line feed. -/
def render (colored : Bool) (d : Diagnostic) : String :=
  match d.snippet with
  | none => Text.paint colored d.paint d.severity.text ++ ": " ++ d.headline ++ "\n"
  | some snippet =>
    let rows := Layout.titleRows d.style d.severity.text.toList d.headline.toList ++
      Layout.snippetRows d.style snippet
    String.intercalate "\n" (rows.map (Row.render colored)) ++ "\n"

end Diagnostic

namespace Diagnostics

/-- **All diagnostics as text.** -/
def render (colored : Bool) (ds : Diagnostics) : String :=
  String.intercalate "\n" (ds.messages.map (Diagnostic.render colored))

end Diagnostics
end BencodePlan
