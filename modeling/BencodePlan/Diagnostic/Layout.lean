import BencodePlan.Diagnostic.Basic
import BencodePlan.Diagnostic.Row
import BencodePlan.Text.Blank
import BencodePlan.Text.Width
import BencodePlan.Text.Decimal
/-!
# Pointing into a text

A text with a piece of it marked, in rows: the lines with the ends of the piece, numbered, each end marked in a row of
its own below, and the label after the last mark.

A piece within one line has carets under it.  A piece over several lines has a rail at the left from its first line to
its last, joined to both ends:

    1 |   ab
      |  __^
    2 | | cd
    3 | | ef
      | |_^ label

A first end with nothing before it needs no row: the rail then begins with a stroke beside the line itself.

Lines that are too wide for the terminal are shown from where the piece is, with dots for what is left out.
-/
namespace BencodePlan
namespace Layout

/-- A line of the text: its number, its first byte, its characters, and the bytes that end it. -/
structure SourceLine where
  number : Nat
  start : Nat
  chars : List Char
  terminator : Nat
  deriving Repr

namespace SourceLine

def stop (l : SourceLine) : Nat := l.start + Text.byteLength l.chars + l.terminator

/-- The columns taken by the characters that end within so many bytes. -/
def columnsWithin (bytes : Nat) : List Char → Nat
  | [] => 0
  | c :: cs => if c.utf8Size ≤ bytes then Text.columns c + columnsWithin (bytes - c.utf8Size) cs else 0

def columnOf (l : SourceLine) (byte : Nat) : Nat := columnsWithin (byte - l.start) l.chars

def shown (l : SourceLine) : List Char := l.chars.flatMap Text.shown

end SourceLine

/-- A carriage return before the line feed belongs to what ends the line. -/
def endedLine (number start : Nat) (body : List Char) : SourceLine :=
  match body.reverse with
  | '\r' :: before => ⟨number, start, before.reverse, 2⟩
  | _ => ⟨number, start, body, 1⟩

/-- The lines of a text from a number and a byte on. -/
def linesFrom (number start : Nat) (cs : List Char) : List SourceLine :=
  if cs.isEmpty then []
  else
    let body := cs.takeWhile (· != '\n')
    match _rest : cs.dropWhile (· != '\n') with
    | [] => [⟨number, start, body, 0⟩]
    | _ :: more => endedLine number start body :: linesFrom (number + 1) (start + Text.byteLength body + 1) more
termination_by cs.length
decreasing_by
  have h := (List.dropWhile_sublist (l := cs) (· != '\n')).length_le
  rw [_rest] at h
  exact h

/-- **The lines of a text.**  The empty text has one line, which is empty. -/
def sourceLines (cs : List Char) : List SourceLine :=
  if cs.isEmpty then [⟨1, 0, [], 1⟩] else linesFrom 1 0 cs

/-- The line that a byte is in; bytes after the text are in its last line. -/
def lineAt (ls : List SourceLine) (byte : Nat) : SourceLine :=
  match ls.find? fun l => l.start ≤ byte && byte < l.stop with
  | some l => l
  | none => ls.getLast?.getD ⟨1, 0, [], 1⟩

inductive Mark
  /-- The whole piece, from column to column. -/
  | within (first last : Nat)
  /-- The first end of a piece that goes on. -/
  | opens (column : Nat)
  | inside
  /-- The last end of a piece that began before. -/
  | closes (last : Nat)
  deriving Repr

namespace Mark

/-- The columns that have to be seen: the line of the first end and the line of the last have some. -/
def ends : Mark → List Nat
  | within a b => [a, b]
  | opens c => [c, c + 1]
  | inside => []
  | closes b => [b - 1, b]

/-- The column after the mark and what stands beside it: the label stands after the end of the piece. -/
def reach (label : List Char) : Mark → Nat
  | within _ b | closes b => b + (Text.textColumns label + 1)
  | opens c => c + 1
  | inside => 0

end Mark

/-- A line that has something to show: nothing but blanks, a bare bracket or a comment does not count. -/
def isTelling (cs : List Char) : Bool :=
  let body := ((cs.dropWhile Text.isBlank).reverse.dropWhile Text.isBlank).reverse
  let isComment := "//".toList.isPrefixOf body && !("///".toList.isPrefixOf body || "//!".toList.isPrefixOf body)
  !isComment && !([[], ['\x7b'], ['\x7d'], ['('], [')'], ['['], [']']].contains body)

/-- The last number below `upTo` whose line is telling, plus one; `first` if there is none. -/
def tellingEnd (ls : List SourceLine) (first : Nat) : Nat → Nat
  | 0 => first
  | n + 1 =>
    if n + 1 ≤ first then first
    else if (ls.find? fun l => l.number = n).any fun l => isTelling l.chars then n + 1
    else tellingEnd ls first n

/-- **The lines that are shown, each with its part in the piece.**  Of a piece over many lines only the first few and the
last are shown. -/
def markedLines (ls : List SourceLine) (span : Span) : List (SourceLine × Mark) :=
  let a := lineAt ls span.start
  let b := if span.isEmpty then a else lineAt ls span.stop
  let from_ := a.columnOf span.start
  if a.number = b.number then
    let upTo := if span.isEmpty then from_ else b.columnOf span.stop
    [(a, .within from_ (if upTo = from_ then upTo + 1 else upTo))]
  else
    let upTo := b.columnOf span.stop + (if span.stop > b.stop - b.terminator then 1 else 0)
    let middle := min (a.number + 4) b.number
    let until_ := tellingEnd ls a.number middle
    let shownInside (l : SourceLine) : Bool :=
      (a.number < l.number && l.number < until_) ||
        (l.number = b.number - 1 && middle < b.number - 1 && isTelling l.chars)
    (a, .opens from_) :: (ls.filter shownInside).map (·, .inside) ++ [(b, .closes upTo)]

/-- The columns of the text that are shown, and how many there is room for. -/
structure Window where
  left : Nat
  right : Nat
  room : Nat
  deriving Repr

/-- Columns kept free on either side of what must be seen, for the dots. -/
def dotsRoom : Nat := 6

/-- Blanks before a line that are worth leaving out, and those of them that stay. -/
def longBlank : Nat := 20
def keptBlank : Nat := 4

/-- Columns of blank before the first other character of a line. -/
def leadingBlank : List Char → Nat
  | [] => 0
  | c :: cs => if Text.isBlank c then (if c = '\t' then 4 else 1) + leadingBlank cs else 0

/-- The least of some numbers, zero if there are none. -/
def least : List Nat → Nat
  | [] => 0
  | n :: ns => ns.foldl min n

/-- The greatest of some numbers, zero if there are none. -/
def greatest (ns : List Nat) : Nat := ns.foldl max 0

/-- **The part of the lines to show.**  Everything if there is room; else without the blanks before the lines; else
around the piece and its label; else around the piece; else the piece alone.  Blanks at the left are left out only up to
the piece, which may begin among them. -/
def Window.of (marked : List (SourceLine × Mark)) (label : List Char) (room : Nat) : Window :=
  let texts := marked.map fun m => m.1.chars
  let ends := marked.flatMap fun m => m.2.ends
  let spanLeft := least ends - dotsRoom
  let spanRight := greatest ends + dotsRoom
  let labelRight := greatest (marked.map fun m => m.2.reach label) + dotsRoom
  let blank :=
    min (least ((texts.filter fun cs => cs.any fun c => !Text.isBlank c).map leadingBlank) - dotsRoom) spanLeft
  let widest := greatest (texts.map Text.textColumns)
  let left := if blank > longBlank then blank - (longBlank - keptBlank) else 0
  let right := max widest left
  if right - left ≤ room then ⟨left, right, room⟩
  else if labelRight - blank ≤ room then ⟨blank, blank + room, room⟩
  else if labelRight - spanLeft ≤ room then
    let left := spanLeft - (room - (labelRight - spanLeft)) / 2
    ⟨left, left + room, room⟩
  else if spanRight - spanLeft ≤ room then
    let left := spanLeft - (room - (spanRight - spanLeft)) / 5 * 2
    ⟨left, left + room, room⟩
  else ⟨spanLeft, spanRight, room⟩

/-- Where a line of so many columns is cut at the right. -/
def Window.rightOf (w : Window) (lineColumns : Nat) : Nat :=
  if lineColumns - w.left ≤ w.room then lineColumns else min lineColumns w.right

/-- Leave out characters until so many columns are gone; how many were, and the rest. -/
def skipColumns (goal : Nat) : Nat → List Char → Nat × List Char
  | skipped, [] => (skipped, [])
  | skipped, c :: cs =>
    if skipped < goal then skipColumns goal (skipped + Text.columns c) cs else (skipped, c :: cs)

/-- The characters that fit into so many columns. -/
def takeColumns (room : Nat) : List Char → List Char
  | [] => []
  | c :: cs => if Text.columns c ≤ room then c :: takeColumns (room - Text.columns c) cs else []

/-- The first characters that make up so many columns, as their columns and their number. -/
def leadingColumns (goal : Nat) : Nat → Nat → List Char → Nat × Nat
  | columns, count, [] => (columns, count)
  | columns, count, c :: cs =>
    let columns := columns + Text.columns c
    if columns ≥ goal then (columns, count + 1) else leadingColumns goal columns (count + 1) cs

def dots : List Char := ['.', '.', '.']

/-- Places of the columns: the bar, the rail, and the text. -/
structure Frame where
  numberWidth : Nat
  depth : Nat

namespace Frame

def bar (f : Frame) : Nat := f.numberWidth + 1
def rail (f : Frame) : Nat := f.numberWidth + 3
def code (f : Frame) : Nat := if f.depth = 0 then f.numberWidth + 3 else f.numberWidth + 4 + f.depth

end Frame

def withBar (f : Frame) (row : Row) : Row := row.set f.bar .gutter ['|']

def withRail (f : Frame) (style : Style) (row : Row) : Row := row.set f.rail style ['|']

def numberChars (width n : Nat) : List Char :=
  let digits := Text.decimal n
  List.replicate (width - digits.length) ' ' ++ digits

/-- **The row of a line**, and the columns of it that are left out at the left. -/
def lineRow (f : Frame) (w : Window) (number : Nat) (shown : List Char) : Row × Nat :=
  let columns := Text.textColumns shown
  let left := min w.left columns
  let right := w.rightOf columns
  let (skipped, rest) := skipColumns left 0 shown
  let code := takeColumns (right - left) rest
  let (headColumns, headCount) := if w.left > 0 then leadingColumns dots.length 0 0 code else (0, 0)
  let row := if w.left > 0 then Row.set [] f.code .gutter dots else []
  let row := row.set (f.code + headColumns) .plain (code.drop headCount)
  let row :=
    if columns > right then
      let (_, tailCount) := leadingColumns dots.length 0 0 code.reverse
      row.set (f.code + headColumns + (code.length - headCount) - tailCount) .gutter dots
    else row
  (withBar f (row.set 0 .gutter (numberChars f.numberWidth number)), max left skipped)

/-- The rows of one marked line: the line, and the marks below it unless a stroke at the left says enough. -/
def markedRows (f : Frame) (w : Window) (style : Style) (label : List Char) (line : SourceLine) (mark : Mark) :
    List Row :=
  let (row, left) := lineRow f w line.number line.shown
  let at_ (column : Nat) : Nat := f.code + column - left
  match mark with
  | .inside => [withRail f style row]
  | .opens column =>
    if (line.shown.take column).all Text.isBlank then [row.set f.rail style ['/']]
    else
      let below := (withBar f []).set f.rail style [' ']
      let below := below.set (f.rail + 1) style (List.replicate (at_ column - (f.rail + 1)) '_')
      [row, below.set (at_ column) style ['^']]
  | .closes upTo =>
    let column := upTo - 1
    let below := withRail f style (withBar f [])
    let below := below.set (f.rail + 1) style (List.replicate (at_ column - (f.rail + 1)) '_')
    let below := below.set (f.code + (upTo + (if upTo = 0 then 2 else 1)) - left) style label
    [withRail f style row, below.set (at_ column) style ['^']]
  | .within first last =>
    let below := (withBar f []).set (f.code + (last + 1) - left) style label
    let below := below.set (at_ first) style (List.replicate (last - first) '^')
    if last - first > w.room * 2 then
      let pad := max (w.room / 3) 5
      [row.elide (at_ first + pad) (at_ last - pad) .gutter dots,
        below.elide (at_ first + pad) (at_ last - pad) .gutter dots]
    else [row, below]

/-- The rows between two shown lines: nothing, the one line between them, or dots for several. -/
def betweenRows (f : Frame) (w : Window) (style : Style) (ls : List SourceLine) (before after : Nat) : List Row :=
  if after - before ≤ 1 then []
  else if after - before = 2 then
    let shown := ((ls.find? fun l => l.number = before + 1).map SourceLine.shown).getD []
    [withRail f style (lineRow f w (before + 1) shown).1]
  else [withRail f style (Row.set [] 0 .gutter dots)]

def rowsOf (f : Frame) (w : Window) (style : Style) (label : List Char) (ls : List SourceLine) :
    List (SourceLine × Mark) → List Row
  | [] => []
  | [(line, mark)] => markedRows f w style label line mark
  | (line, mark) :: (next, nextMark) :: rest =>
    markedRows f w style label line mark ++ betweenRows f w style ls line.number next.number ++
      rowsOf f w style label ls ((next, nextMark) :: rest)

def terminalColumns : Nat := 140

/-- How many lines a text begins; what ends the last one begins none. -/
def lineCount (cs : List Char) : Nat := (linesFrom 1 0 cs).length

/-- The characters that end within so many bytes. -/
def takeBytes (bytes : Nat) : List Char → List Char
  | [] => []
  | c :: cs => if c.utf8Size ≤ bytes then c :: takeBytes (bytes - c.utf8Size) cs else []

/-- An empty piece is widened to one byte, where the text has one. -/
def widened (span : Span) (limit : Nat) : Span :=
  if span.isEmpty then
    let start := min span.start limit
    ⟨start, max (min (start + 1) limit) start⟩
  else span

/-- **The rows below a headline.**  The place for line numbers is as wide as the number of the last line that the piece
reaches. -/
def snippetRows (style : Style) (snippet : Snippet) : List Row :=
  let chars := snippet.source.toList
  let span := widened snippet.span (Text.byteLength chars)
  let ls := sourceLines chars
  let marked := markedLines ls span
  let width := (Text.decimal (max 1 (lineCount (takeBytes span.stop chars)))).length
  let f : Frame := ⟨width, if marked.length ≤ 1 then 0 else 1⟩
  let label := snippet.label.toList
  let w := Window.of marked label (terminalColumns - f.code)
  withBar f [] :: rowsOf f w style label ls marked

/-- The rows of a headline: its lines after the first are set below the text of the first. -/
def titleRows (style : Style) (severity headline : List Char) : List Row :=
  let shown := headline.flatMap Text.shown
  let hang := severity.length + 2
  match shown.splitOn '\n' with
  | [] => []
  | first :: rest =>
    (Row.set (Row.set [] 0 style severity) severity.length .title ([':', ' '] ++ first)) ::
      rest.map fun more => Row.blanks hang ++ more.map (Style.title, ·)

end Layout
end BencodePlan
