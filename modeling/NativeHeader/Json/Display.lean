import NativeHeader.Decimal.Form
import NativeHeader.Json.Basic
import NativeHeader.Text.Quoted

/-! A value written into running text.

A text stands for itself; inside a list or an object it is quoted. The other
values have fixed words, and numbers their shortest form. -/
namespace NativeHeader.Json

/-- Numbers are positional from a ten-thousandth up to ten to the sixteenth, and
an exponent has two digits at least. -/
def numberForm : Decimal.Form where
  positionalFrom := -4
  positionalBelow := 16
  exponentDigits := 2
  notANumber := "nan"
  infinite := "inf"

mutual

/-- A value inside another one. -/
def nested : Json → String
  | .null => "None"
  | .bool value => if value then "True" else "False"
  | .int value => toString value
  | .float value => numberForm.write value
  | .str value => Text.quoted value
  | .arr items => "[" ++ ", ".intercalate (nestedItems items) ++ "]"
  | .obj fields => "\x7b" ++ ", ".intercalate (nestedFields fields) ++ "\x7d"

def nestedItems : List Json → List String
  | [] => []
  | item :: rest => nested item :: nestedItems rest

def nestedFields : List (String × Json) → List String
  | [] => []
  | (key, value) :: rest => (Text.quoted key ++ ": " ++ nested value) :: nestedFields rest

end

/-- A value in running text. -/
def display : Json → String
  | .str value => value
  | value => nested value

end NativeHeader.Json
