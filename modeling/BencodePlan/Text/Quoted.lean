import BencodePlan.Text.Unprintable
import BencodePlan.Text.Combining
/-!
# Quoted text in messages

A message that names a piece of the user's text writes it between quotes, with everything that would not show escaped:
the quote itself, the backslash, the five controls that have a letter, and by code point each character that is
unprintable or would join the quote before it.
-/
namespace BencodePlan
namespace Text

/-- The digits of a number in base sixteen, lower case, at least one. -/
def hexDigits (n : Nat) : List Char :=
  Nat.toDigits 16 n

/-- One character between quotes of the kind `mark`. -/
def quotedChar (mark : Char) (c : Char) : List Char :=
  if c = mark || c = '\\' then ['\\', c]
  else if c.toNat = 0 then ['\\', '0']
  else if c = '\t' then ['\\', 't']
  else if c = '\n' then ['\\', 'n']
  else if c = '\r' then ['\\', 'r']
  else if 0x20 ≤ c.toNat && c.toNat < 0x7f then [c]
  else if isUnprintable c || isCombining c then ['\\', 'u', '\x7b'] ++ hexDigits c.toNat ++ ['\x7d']
  else [c]

/-- **A text between double quotes.** -/
def quoted (s : String) : String :=
  String.ofList (['"'] ++ s.toList.flatMap (quotedChar '"') ++ ['"'])

/-- **A single character between single quotes.** -/
def quotedOne (c : Char) : String :=
  String.ofList (['\''] ++ quotedChar '\'' c ++ ['\''])

end Text
end BencodePlan
