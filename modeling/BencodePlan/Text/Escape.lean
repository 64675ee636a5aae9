/-!
# Bytes inside a string literal

The spelling of arbitrary bytes between double quotes, used for the literals of a plan listing and for the byte strings
of generated source.  The text is printable ASCII: a quote and a backslash get a backslash before them, four controls
have a letter, the other unprintable bytes are `\x` and two digits.
-/
namespace BencodePlan

abbrev Bytes := List UInt8

namespace Text

def hexDigit (n : Nat) : Char :=
  if n < 10 then Char.ofNat (48 + n) else Char.ofNat (87 + n)

def escapeByte (b : UInt8) : List Char :=
  if b = 34 then ['\\', '"']
  else if b = 92 then ['\\', '\\']
  else if b = 10 then ['\\', 'n']
  else if b = 13 then ['\\', 'r']
  else if b = 9 then ['\\', 't']
  else if b = 0 then ['\\', '0']
  else if 0x20 ≤ b && b ≤ 0x7e then [Char.ofNat b.toNat]
  else ['\\', 'x', hexDigit (b.toNat / 16), hexDigit (b.toNat % 16)]

def escapeChars (bytes : Bytes) : List Char :=
  bytes.flatMap escapeByte

/-- **The text of a literal**, without its quotes. -/
def escape (bytes : Bytes) : String :=
  String.ofList (escapeChars bytes)

end Text
end BencodePlan
