/-!
# Rows of styled characters

What a message shows below its headline is set in rows, character by character, because the parts of a row are found in
no fixed order: the number and the bar at its left, the text, the marks below the text, and the dots where a part is left
out.  Setting characters beyond the end of a row fills the gap with blanks; setting them within it replaces what was
there.
-/
namespace BencodePlan

/-- The parts of a shown message that have a style of their own. -/
inductive Style
  | plain
  /-- The severity, the marks under the text, and the label beside them. -/
  | error
  | warning
  /-- The headline. -/
  | title
  /-- Line numbers, bars, and the dots for what is left out. -/
  | gutter
  deriving DecidableEq, Repr

namespace Style

def code : Style → String
  | plain => ""
  | error => "\x1b[1m\x1b[91m"
  | warning => "\x1b[1m\x1b[33m"
  | title => "\x1b[1m"
  | gutter => "\x1b[1m\x1b[94m"

def reset : Style → String
  | plain => ""
  | _ => "\x1b[0m"

end Style

abbrev Row := List (Style × Char)

namespace Row

def blanks (n : Nat) : Row := List.replicate n (.plain, ' ')

/-- **Set characters at a column.**  To set none changes nothing. -/
def set (row : Row) (column : Nat) (style : Style) (chars : List Char) : Row :=
  if chars.isEmpty then row
  else row.take column ++ blanks (column - row.length) ++ chars.map (style, ·) ++ row.drop (column + chars.length)

/-- Take out the characters from one column to another, and set dots where they were.  A row that ends before the second
column stays as it is. -/
def elide (row : Row) (first last : Nat) (style : Style) (dots : List Char) : Row :=
  if last ≤ row.length then row.take first ++ dots.map (style, ·) ++ row.drop last else row

def text (row : Row) : List Char := row.map Prod.snd

/-- The row with codes wherever the style changes; the argument is the style in force. -/
def painted : Style → Row → List Char
  | current, [] => current.reset.toList
  | current, (style, c) :: rest =>
    (if style = current then [] else current.reset.toList ++ style.code.toList) ++ c :: painted style rest

/-- **The row as text**, with codes for its styles or without. -/
def render (colored : Bool) (row : Row) : String :=
  String.ofList (if colored then painted .plain row else row.text)

end Row
end BencodePlan
