import NativeHeader.Decimal.Binary

/-! The fewest decimal digits that read back as a given number.

For one digit, two digits, and so on, the two points of the decimal grid around
the number are tried in exact arithmetic. The first grid with a point that rounds
to the number wins; of two such points the nearer one is taken, and the even one
of two equally near. Seventeen digits always suffice. -/
namespace NativeHeader.Decimal

/-- `digits * 10 ^ exponent`. -/
structure Scientific where
  digits : Nat
  exponent : Int
  deriving DecidableEq, Repr

/-- A grid of decimals `n * 10 ^ exponent`, beside the quarters of a number: `point`
and `quarter` are the sizes of one step of each in a common unit. -/
structure Grid where
  point : Nat
  quarter : Nat

/-- The grid with the given exponent. -/
def Binary.grid (b : Binary) (exponent : Int) : Grid :=
  { point := Nat.pow 10 exponent.toNat * Nat.pow 2 (2 - b.exponent).toNat
    quarter := Nat.pow 2 (b.exponent - 2).toNat * Nat.pow 10 (-exponent).toNat }

/-- The grid point at the number or next below it. -/
def Binary.floorOn (b : Binary) (exponent : Int) : Nat :=
  let g := b.grid exponent
  b.quarters * g.quarter / g.point

/-- The power of ten of the first digit. -/
def Binary.magnitude (b : Binary) : Int :=
  (Nat.toDigits 10 (b.floorOn (-350))).length - 351

/-- Whether a grid point rounds to the number. -/
def Binary.holds (b : Binary) (exponent : Int) (n : Nat) : Bool :=
  let g := b.grid exponent
  if b.closed then b.lower * g.quarter ≤ n * g.point && n * g.point ≤ b.upper * g.quarter
  else b.lower * g.quarter < n * g.point && n * g.point < b.upper * g.quarter

/-- The point of a grid that stands for the number, if one does. -/
def Binary.pointOn? (b : Binary) (exponent : Int) : Option Nat :=
  let g := b.grid exponent
  let below := b.floorOn exponent
  let value := b.quarters * g.quarter
  match b.holds exponent below, b.holds exponent (below + 1) with
  | false, false => none
  | true, false => some below
  | false, true => some (below + 1)
  | true, true =>
    let down := value - below * g.point
    let up := (below + 1) * g.point - value
    some (if down < up ∨ (down = up ∧ below % 2 = 0) then below else below + 1)

/-- The fewest digits that read back as the number. -/
def Binary.shortest (b : Binary) : Scientific :=
  let first := b.magnitude
  let grids := (List.range 17).map fun more => first - (more : Nat)
  match grids.findSome? fun e => (b.pointOn? e).map (Scientific.mk · e) with
  | some decimal => decimal
  | none => ⟨b.floorOn (first - 16), first - 16⟩

end NativeHeader.Decimal
