import NativeHeader.Decimal.Binary
import NativeHeader.Json.Basic

/-! What a value is told apart by when something is kept under it.

Texts are told apart as texts and numbers by their value: a whole number is the same
whether it is written as an integer or not, and true and false count as one and
zero. Lists and objects are nothing that can be kept under. -/
namespace NativeHeader

/-- The magnitude as a natural number, if it is one. -/
def Decimal.Binary.whole? (b : Decimal.Binary) : Option Nat :=
  let scale := Nat.pow 2 b.exponent.natAbs
  if 0 ≤ b.exponent then some (b.mantissa * scale)
  else if b.mantissa % scale = 0 then some (b.mantissa / scale)
  else none

namespace Json

inductive Key where
  | null
  | text (s : String)
  | whole (n : Int)
  /-- A number that is not whole. -/
  | number (shape : Decimal.Shape)
  deriving DecidableEq, Repr

def Key.ofFloat (x : Float) : Key :=
  match Decimal.Shape.ofFloat x with
  | .finite negative b =>
    match b.whole? with
    | some n => .whole (if negative then -(n : Int) else n)
    | none => .number (.finite negative b)
  | shape => .number shape

/-- The key of a value, if it has one. -/
def key? : Json → Option Key
  | .null => some .null
  | .bool value => some (.whole (if value then 1 else 0))
  | .int value => some (.whole value)
  | .float value => some (.ofFloat value)
  | .str value => some (.text value)
  | .arr _ | .obj _ => none

end Json

end NativeHeader
