import NativeHeader.Decimal.Form
import NativeHeader.Json.Display

/-! A value as a document without blanks.

Only the quote, the backslash and the control characters are escaped, so the text
has one form per value. -/
namespace NativeHeader.Json

/-- Numbers that are not finite have the words that the reader accepts. -/
def documentForm : Decimal.Form := { numberForm with notANumber := "NaN", infinite := "Infinity" }

/-- A character inside a string. -/
def compactChar (c : Char) : List Char :=
  if c = '"' ∨ c = '\\' then ['\\', c]
  else if c.toNat < 0x20 then '\\' :: 'u' :: Text.hex 4 c.toNat
  else [c]

def compactString (s : String) : List Char := '"' :: s.toList.flatMap compactChar ++ ['"']

mutual

def compact : Json → List Char
  | .null => ['n', 'u', 'l', 'l']
  | .bool true => ['t', 'r', 'u', 'e']
  | .bool false => ['f', 'a', 'l', 's', 'e']
  | .int value => (toString value).toList
  | .float value => (documentForm.write value).toList
  | .str value => compactString value
  | .arr items => '[' :: compactItems items
  | .obj fields => '\x7b' :: compactFields fields

/-- The items of a list and its closing bracket. -/
def compactItems : List Json → List Char
  | [] => [']']
  | [item] => compact item ++ [']']
  | item :: rest => compact item ++ ',' :: compactItems rest

/-- The fields of an object and its closing brace. -/
def compactFields : List (String × Json) → List Char
  | [] => ['\x7d']
  | [(key, item)] => compactString key ++ ':' :: compact item ++ ['\x7d']
  | (key, item) :: rest => compactString key ++ ':' :: compact item ++ ',' :: compactFields rest

end

end NativeHeader.Json
