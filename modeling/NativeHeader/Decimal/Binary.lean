/-! A floating-point number taken apart, and put together from decimal digits.

A finite number is `mantissa * 2 ^ exponent`. The reals that round to it lie
between the middles towards its two neighbours; the neighbour below is half as
far away when the mantissa is the least of its size. Counted in quarters of
`2 ^ exponent` the three places are natural numbers. -/
namespace NativeHeader.Decimal

/-- The magnitude of a finite number. -/
structure Binary where
  mantissa : Nat
  exponent : Int
  /-- Whether the number below is only half as far away as the one above. -/
  narrowBelow : Bool := false
  deriving DecidableEq, Repr

/-- The number itself, in quarters of `2 ^ exponent`. -/
def Binary.quarters (b : Binary) : Nat := 4 * b.mantissa

/-- The middle towards the number below. -/
def Binary.lower (b : Binary) : Nat := b.quarters - (if b.narrowBelow then 1 else 2)

/-- The middle towards the number above. -/
def Binary.upper (b : Binary) : Nat := b.quarters + 2

/-- Whether the middles themselves round to the number: a tie goes to the even mantissa. -/
def Binary.closed (b : Binary) : Bool := b.mantissa % 2 = 0

/-- What a floating-point number is. -/
inductive Shape where
  | notANumber
  | infinite (negative : Bool)
  | finite (negative : Bool) (magnitude : Binary)
  deriving DecidableEq, Repr

/-- The number of fractions: two to the power of 52. -/
def fractions : Nat := 0x10000000000000

/-- The number of exponents; the last one marks what is not finite. -/
def exponents : Nat := 0x800

/-- Reads the three fields of the 64 bits. -/
def Shape.ofFloat (x : Float) : Shape :=
  let bits := x.toBits.toNat
  let negative := bits / fractions / exponents = 1
  let power := bits / fractions % exponents
  let fraction := bits % fractions
  if power + 1 = exponents then (if fraction = 0 then .infinite negative else .notANumber)
  else if power = 0 then .finite negative ⟨fraction, -1074, false⟩
  else .finite negative ⟨fractions + fraction, (power : Int) - 1075, fraction = 0 && power ≠ 1⟩

/-- The number nearest to `digits * 10 ^ exponent`. Beyond the range of exponents
the answer is known without computing the power. -/
def nearest (negative : Bool) (digits : Nat) (exponent : Int) : Float :=
  let size := (Nat.toDigits 10 digits).length + exponent
  let magnitude : Float :=
    if digits = 0 ∨ size < -400 then 0.0
    else if size > 400 then 1.0 / 0.0
    else if exponent < 0 then Float.ofScientific digits true exponent.natAbs
    else Float.ofScientific digits false exponent.natAbs
  if negative then -magnitude else magnitude

end NativeHeader.Decimal
