/-!
# Colours on a terminal

The sixteen-colour codes of listings and plain messages.  A palette is either on or off; painting with a colour of the
palette that is off leaves the text alone.
-/
namespace BencodePlan
namespace Text

inductive Paint
  | blue
  | green
  | red
  | yellow
  | dim
  deriving DecidableEq, Repr

namespace Paint

def code : Paint → String
  | blue => "\x1b[34m"
  | green => "\x1b[32m"
  | red => "\x1b[31m"
  | yellow => "\x1b[33m"
  | dim => "\x1b[2m"

end Paint

def resetCode : String := "\x1b[0m"

/-- **Paint a text**, if colours are on. -/
def paint (colored : Bool) (p : Paint) (text : String) : String :=
  if colored then p.code ++ text ++ resetCode else text

end Text
end BencodePlan
