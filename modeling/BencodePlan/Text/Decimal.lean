/-!
# Numbers in base ten

The digits of a number as characters, most significant first, without leading zeros.
-/
namespace BencodePlan
namespace Text

/-- **The digits of a natural number.** -/
def decimal (n : Nat) : List Char :=
  if n < 10 then [Char.ofNat (48 + n)] else decimal (n / 10) ++ [Char.ofNat (48 + n % 10)]
termination_by n

/-- The digits of an integer, with a minus sign before a negative one. -/
def signedDecimal (n : Int) : List Char :=
  if n < 0 then '-' :: decimal n.natAbs else decimal n.natAbs

def decimalText (n : Nat) : String :=
  String.ofList (decimal n)

end Text
end BencodePlan
