import NativeHeader.Decimal.Shortest

/-! How a number is laid out in text, as a record of choices.

A form says which numbers are written positionally, how few digits an exponent
may have, and what stands for the values that are no finite number. -/
namespace NativeHeader.Decimal

/-- The choices of a text form. -/
structure Form where
  /-- The least power of ten of a first digit that is written positionally. -/
  positionalFrom : Int
  /-- The least power of ten above them that is not. -/
  positionalBelow : Int
  /-- The fewest digits of an exponent. -/
  exponentDigits : Nat
  notANumber : String
  infinite : String

/-- The digits of a decimal without zeros at the end, the power of ten of the
first one beside them. -/
def Scientific.normal (d : Scientific) : List Char × Int :=
  let digits := Nat.toDigits 10 d.digits
  ((digits.reverse.dropWhile (· = '0')).reverse, d.exponent + digits.length - 1)

/-- Digits around a point; a number without a fraction has a zero after it. -/
def positional (digits : List Char) (power : Int) : List Char :=
  if power < 0 then '0' :: '.' :: List.replicate (-power - 1).toNat '0' ++ digits
  else
    let whole := power.toNat + 1
    let fraction := digits.drop whole
    digits.take whole ++ List.replicate (whole - digits.length) '0' ++
      '.' :: (if fraction.isEmpty then ['0'] else fraction)

/-- One digit before the point, the power of ten after the rest. -/
def Form.scientific (form : Form) (digits : List Char) (power : Int) : List Char :=
  let exponent := Nat.toDigits 10 power.natAbs
  digits.take 1 ++ (if digits.length > 1 then '.' :: digits.drop 1 else []) ++
    'e' :: (if power < 0 then '-' else '+') ::
      List.replicate (form.exponentDigits - exponent.length) '0' ++ exponent

/-- A finite magnitude in text. -/
def Form.magnitude (form : Form) (b : Binary) : List Char :=
  if b.mantissa = 0 then ['0', '.', '0']
  else
    let (digits, power) := b.shortest.normal
    if form.positionalFrom ≤ power ∧ power < form.positionalBelow then positional digits power
    else form.scientific digits power

/-- A number in text. -/
def Form.write (form : Form) (x : Float) : String :=
  match Shape.ofFloat x with
  | .notANumber => form.notANumber
  | .infinite negative => (if negative then "-" else "") ++ form.infinite
  | .finite negative b => String.ofList ((if negative then ['-'] else []) ++ form.magnitude b)

end NativeHeader.Decimal
