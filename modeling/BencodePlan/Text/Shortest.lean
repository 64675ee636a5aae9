import BencodePlan.Text.Decimal
/-!
# The shortest decimal that reads back

A binary floating-point number stands for an interval of reals: those that are rounded to it.  Of the decimals in the
interval, the one with the fewest digits is written, and of several the nearest to the number.

The search goes by the number of digits.  With so many digits the decimals form a grid, and if a point of the grid is in
the interval, so is one of the two that enclose the number.  All comparisons are between natural numbers.
-/
namespace BencodePlan
namespace Text

/-- A positive number `mantissa * 2 ^ exponent`, by its place among the floating-point numbers of its format. -/
structure Binary where
  mantissa : Nat
  exponent : Int
  /-- The next smaller number is nearer than the next larger one. -/
  narrowBelow : Bool

namespace Binary

/-- A double-precision number other than zero and the infinities, by its bits without the sign. -/
def ofBits (bits : Nat) : Binary :=
  let fraction : Nat := bits % Nat.pow 2 52
  let field : Nat := bits / Nat.pow 2 52
  if field = 0 then ⟨fraction, -1074, false⟩
  else ⟨fraction + Nat.pow 2 52, (field : Int) - 1075, fraction = 0 && field > 1⟩

/-- A quarter of the distance to the next larger number is `scale.1 / scale.2`. -/
def scale (b : Binary) : Nat × Nat :=
  if b.exponent ≥ 2 then (Nat.pow 2 (b.exponent - 2).toNat, 1) else (1, Nat.pow 2 (2 - b.exponent).toNat)

/-- Whether the decimal `c * 10 ^ e` is rounded to the number. -/
def covers (b : Binary) (c : Nat) (e : Int) : Bool :=
  let (num, den) := b.scale
  let low := 4 * b.mantissa - (if b.narrowBelow then 1 else 2)
  let high := 4 * b.mantissa + 2
  let x := if e ≥ 0 then c * Nat.pow 10 e.toNat * den else c * den
  let unit := if e ≥ 0 then num else num * Nat.pow 10 (-e).toNat
  if b.mantissa % 2 = 0 then low * unit ≤ x && x ≤ high * unit else low * unit < x && x < high * unit

/-- The greatest `c` with `c * 10 ^ e` at most the number, and whether the number is nearer to it than to the next. -/
def below (b : Binary) (e : Int) : Nat × Bool :=
  let (num, den) := b.scale
  let x := 4 * b.mantissa * num * (if e ≥ 0 then 1 else Nat.pow 10 (-e).toNat)
  let unit := den * (if e ≥ 0 then Nat.pow 10 e.toNat else 1)
  (x / unit, 2 * (x % unit) < unit || (2 * (x % unit) = unit && x / unit % 2 = 0))

/-- The power of ten that the first digit of the number counts, searched downwards. -/
def magnitudeFrom (b : Binary) : Nat → Int → Int
  | 0, e => e
  | fuel + 1, e => if (b.below e).1 > 0 then e else magnitudeFrom b fuel (e - 1)

def magnitude (b : Binary) : Int := b.magnitudeFrom 640 309

/-- The shortest decimal, tried from so many digits on. -/
def shortestFrom (b : Binary) (top : Int) : Nat → Int → Nat × Int
  | 0, e => ((b.below e).1, e)
  | fuel + 1, e =>
    let (c, nearer) := b.below e
    let low := b.covers c e
    let high := b.covers (c + 1) e
    if low && (nearer || !high) then (c, e)
    else if high then (c + 1, e)
    else shortestFrom b top fuel (e - 1)

/-- **The shortest decimal** as a number `c` and a power of ten. -/
def shortest (b : Binary) : Nat × Int := b.shortestFrom b.magnitude 17 b.magnitude

end Binary

def trimmed : Nat → Nat → Int → Nat × Int
  | 0, c, e => (c, e)
  | fuel + 1, c, e => if c % 10 = 0 && c > 0 then trimmed fuel (c / 10) (e + 1) else (c, e)

/-- A power of ten after the letter, always with its sign. -/
def exponentChars (e : Int) : List Char :=
  'e' :: (if e < 0 then '-' else '+') :: decimal e.natAbs

/-- A decimal `c * 10 ^ e`: with a point from a hundred-thousandth on and below ten to the sixteenth, else with a power
of ten. -/
def decimalChars (c : Nat) (e : Int) : List Char :=
  let (c, e) := trimmed 20 c e
  let digits := decimal c
  let top := e + digits.length - 1
  if 0 ≤ e && top ≤ 15 then digits ++ List.replicate e.toNat '0' ++ ['.', '0']
  else if 0 ≤ top && top ≤ 15 then digits.take (top.toNat + 1) ++ ['.'] ++ digits.drop (top.toNat + 1)
  else if -5 ≤ top && top < 0 then ['0', '.'] ++ List.replicate (-top - 1).toNat '0' ++ digits
  else digits.take 1 ++ (if digits.length > 1 then '.' :: digits.drop 1 else []) ++ exponentChars top

/-- **A double-precision number**, by its bits. -/
def floatText (bits : Nat) : String :=
  let sign := if bits ≥ Nat.pow 2 63 then ['-'] else []
  let bits := bits % Nat.pow 2 63
  if bits = 0 then String.ofList (sign ++ ['0', '.', '0'])
  else
    let (c, e) := (Binary.ofBits bits).shortest
    String.ofList (sign ++ decimalChars c e)

end Text
end BencodePlan
