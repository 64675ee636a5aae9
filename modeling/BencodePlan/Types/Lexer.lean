import BencodePlan.Types.Expr
import BencodePlan.Text.Name
/-!
# Tokens of a type expression

A text is cut into symbols, numbers and words, the longest that fits at each place; blanks separate and are dropped.
The first character that belongs to no token ends the reading, whatever stood before it.
-/
namespace BencodePlan
namespace TypeExpr

/-- Blanks between tokens: space, tab, line feed, carriage return. -/
def isBlank (c : Char) : Bool :=
  c = ' ' || c = '\t' || c = '\n' || c = '\r'

def symbol? (c : Char) : Option Token :=
  if c = '<' then some .leftAngle
  else if c = '>' then some .rightAngle
  else if c = '[' then some .leftBracket
  else if c = ']' then some .rightBracket
  else if c = ';' then some .semicolon
  else if c = ',' then some .comma
  else none

/-- **The tokens of a text** that begins at a byte offset. -/
def lex (offset : Nat) : List Char → Except Error (List Located)
  | [] => .ok []
  | c :: cs =>
    if isBlank c then lex (offset + 1) cs
    else match symbol? c with
      | some token => (lex (offset + 1) cs).map (⟨token, ⟨offset, offset + 1⟩⟩ :: ·)
      | none =>
        if c.isDigit then
          let run := c :: cs.takeWhile Char.isDigit
          (lex (offset + run.length) (cs.dropWhile Char.isDigit)).map
            (⟨.number (String.ofList run), ⟨offset, offset + run.length⟩⟩ :: ·)
        else if Text.isNameStart c then
          let run := c :: cs.takeWhile Text.isNamePart
          (lex (offset + run.length) (cs.dropWhile Text.isNamePart)).map
            (⟨.word (String.ofList run), ⟨offset, offset + run.length⟩⟩ :: ·)
        else .error ⟨.character c, ⟨offset, offset + c.utf8Size⟩⟩
termination_by cs => cs.length
decreasing_by
  · exact Nat.lt_succ_self _
  · exact Nat.lt_succ_self _
  · exact Nat.lt_succ_of_le (List.dropWhile_sublist _).length_le
  · exact Nat.lt_succ_of_le (List.dropWhile_sublist _).length_le

end TypeExpr
end BencodePlan
