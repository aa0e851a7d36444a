import NativeHeader.Decimal.Binary
import NativeHeader.Json.Problem

/-! Reading a JSON document.

The reader works on the characters that are left, and an error says how many were
left where it was noticed; `Json.read` turns that into a place in the text. Beyond
the standard it accepts the words `NaN`, `Infinity` and `-Infinity`, and it refuses
integers of more than 4300 digits.

Of the mutual calls of `value`, `items` and `fields` at least every other one comes
after a character was used up, so fuel above twice the length of the text is never
spent. -/
namespace NativeHeader.Json.Reader

/-- Why reading stopped: a problem where so many characters were left, or an
integer beyond the limit. -/
inductive Stop where
  | problem (cause : Problem) (left : Nat)
  | longInteger
  deriving DecidableEq, Repr

/-! ### Blanks and words -/

def isBlank (c : Char) : Bool := c = ' ' || c = '\t' || c = '\n' || c = '\r'

def skipBlanks (s : List Char) : List Char := s.dropWhile isBlank

/-- What follows a word, if the text begins with it. -/
def after? : (word : List Char) → List Char → Option (List Char)
  | [], s => some s
  | w :: word, c :: s => if w = c then after? word s else none
  | _ :: _, [] => none

/-- The words that stand for a value. -/
def words : List (List Char × Json) :=
  [(['n', 'u', 'l', 'l'], .null), (['t', 'r', 'u', 'e'], .bool true),
   (['f', 'a', 'l', 's', 'e'], .bool false), (['N', 'a', 'N'], .float (0.0 / 0.0)),
   (['I', 'n', 'f', 'i', 'n', 'i', 't', 'y'], .float (1.0 / 0.0)),
   (['-', 'I', 'n', 'f', 'i', 'n', 'i', 't', 'y'], .float (-1.0 / 0.0))]

def word? (s : List Char) : Option (Json × List Char) :=
  words.findSome? fun (word, value) => (after? word s).map (value, ·)

/-! ### Numbers -/

/-- The most digits of an integer. -/
def integerLimit : Nat := 4300

def natOfDigits (digits : List Char) : Nat :=
  digits.foldl (fun n c => 10 * n + (c.toNat - '0'.toNat)) 0

def takeDigits (s : List Char) : List Char × List Char :=
  (s.takeWhile Char.isDigit, s.dropWhile Char.isDigit)

/-- The digits before the point: a zero, or digits that do not begin with one. -/
def wholePart? : List Char → Option (List Char × List Char)
  | '0' :: rest => some (['0'], rest)
  | s => if (takeDigits s).1.isEmpty then none else some (takeDigits s)

/-- The digits after a point; without any, the point is left where it is. -/
def fractionPart : List Char → List Char × List Char
  | '.' :: rest => if (takeDigits rest).1.isEmpty then ([], '.' :: rest) else takeDigits rest
  | s => ([], s)

/-- A sign of an exponent. -/
def exponentSign : List Char → Bool × List Char
  | '-' :: rest => (true, rest)
  | '+' :: rest => (false, rest)
  | s => (false, s)

/-- The exponent; without digits, what looked like one is left where it is. -/
def exponentPart? : List Char → Option (Int × List Char)
  | c :: rest =>
    if c = 'e' ∨ c = 'E' then
      let (negative, rest) := exponentSign rest
      let (digits, rest) := takeDigits rest
      if digits.isEmpty then none
      else some (if negative then -(natOfDigits digits : Int) else natOfDigits digits, rest)
    else none
  | [] => none

/-- An integer, or a floating-point number if there is a fraction or an exponent. -/
def number (s : List Char) : Except Stop (Json × List Char) :=
  let (negative, unsigned) := match s with
    | '-' :: rest => (true, rest)
    | _ => (false, s)
  match wholePart? unsigned with
  | none => .error (.problem .missingValue s.length)
  | some (whole, rest) =>
    let (fraction, rest) := fractionPart rest
    match exponentPart? rest, fraction with
    | none, [] =>
      if whole.length > integerLimit then .error .longInteger
      else
        let n : Int := natOfDigits whole
        .ok (.int (if negative then -n else n), rest)
    | found, _ =>
      let (exponent, rest) := found.getD (0, rest)
      .ok (.float (Decimal.nearest negative (natOfDigits (whole ++ fraction))
        (exponent - fraction.length)), rest)

/-! ### Strings -/

/-- A piece of a string: a character, or a code unit of sixteen bits written in hexadecimal. -/
inductive Piece where
  | char (c : Char)
  | unit (n : Nat)
  deriving DecidableEq, Repr

def isHigh (n : Nat) : Bool := 0xd800 ≤ n && n < 0xdc00

def isLow (n : Nat) : Bool := 0xdc00 ≤ n && n < 0xe000

/-- The character of a code unit; half of a pair alone is replaced. -/
def unitChar (n : Nat) : Char := if isHigh n || isLow n then '\ufffd' else Char.ofNat n

/-- The character of a pair of code units. -/
def pairChar (high low : Nat) : Char := Char.ofNat (0x10000 + (high - 0xd800) * 0x400 + (low - 0xdc00))

/-- Joins pairs of code units. -/
def joinPieces : List Piece → List Char
  | [] => []
  | .unit high :: .unit low :: rest =>
    if isHigh high && isLow low then pairChar high low :: joinPieces rest
    else unitChar high :: joinPieces (.unit low :: rest)
  | .unit n :: rest => unitChar n :: joinPieces rest
  | .char c :: rest => c :: joinPieces rest

def hexDigit? (c : Char) : Option Nat :=
  if c.isDigit then some (c.toNat - '0'.toNat)
  else if 'a' ≤ c ∧ c ≤ 'f' then some (c.toNat - 'a'.toNat + 10)
  else if 'A' ≤ c ∧ c ≤ 'F' then some (c.toNat - 'A'.toNat + 10)
  else none

/-- Four hexadecimal digits. -/
def codeUnit? (a b c d : Char) : Option Nat := do
  let a ← hexDigit? a
  let b ← hexDigit? b
  let c ← hexDigit? c
  let d ← hexDigit? d
  return ((a * 16 + b) * 16 + c) * 16 + d

/-- The character that a letter after a backslash stands for. -/
def escaped? : Char → Option Char
  | '"' => some '"'
  | '\\' => some '\\'
  | '/' => some '/'
  | 'b' => some '\x08'
  | 'f' => some '\x0c'
  | 'n' => some '\n'
  | 'r' => some '\r'
  | 't' => some '\t'
  | _ => none

/-- The pieces up to the closing quote, and what follows it. `start` is the text
from the opening quote on. A code unit needs a character after its four digits. -/
def pieces (start : List Char) : List Char → Except Stop (List Piece × List Char)
  | [] => .error (.problem .openString start.length)
  | '"' :: rest => .ok ([], rest)
  | ['\\'] => .error (.problem .openString start.length)
  | '\\' :: 'u' :: a :: b :: c :: d :: rest =>
    match codeUnit? a b c d, rest.isEmpty with
    | some n, false => (pieces start rest).map fun (more, rest) => (.unit n :: more, rest)
    | _, _ => .error (.problem .badUnicodeEscape (rest.length + 5))
  | '\\' :: 'u' :: rest => .error (.problem .badUnicodeEscape (rest.length + 1))
  | '\\' :: letter :: rest =>
    match escaped? letter with
    | some c => (pieces start rest).map fun (more, rest) => (.char c :: more, rest)
    | none => .error (.problem .badEscape (rest.length + 2))
  | c :: rest =>
    if c.toNat < 0x20 then .error (.problem .controlCharacter (rest.length + 1))
    else (pieces start rest).map fun (more, rest) => (.char c :: more, rest)

/-- The text of a string, from the character after its opening quote on. -/
def string (rest : List Char) : Except Stop (String × List Char) :=
  (pieces ('"' :: rest) rest).map fun (pieces, rest) => (String.ofList (joinPieces pieces), rest)

/-! ### Values -/

mutual

/-- The value that the text begins with, and what follows it. -/
def value : (fuel : Nat) → List Char → Except Stop (Json × List Char)
  | 0, s => .error (.problem .missingValue s.length)
  | _ + 1, '"' :: rest => (string rest).map fun (text, rest) => (.str text, rest)
  | fuel + 1, '[' :: rest =>
    match skipBlanks rest with
    | ']' :: rest => .ok (.arr [], rest)
    | rest => (items fuel rest).map fun (items, rest) => (.arr items, rest)
  | fuel + 1, '\x7b' :: rest =>
    match skipBlanks rest with
    | '\x7d' :: rest => .ok (.obj [], rest)
    | rest => (fields fuel rest).map fun (fields, rest) => (object fields, rest)
  | _ + 1, s =>
    match word? s with
    | some found => .ok found
    | none => number s

/-- The items of a list that is not empty, up to its closing bracket. -/
def items : (fuel : Nat) → List Char → Except Stop (List Json × List Char)
  | 0, s => .error (.problem .missingValue s.length)
  | fuel + 1, s => do
    let (item, rest) ← value fuel s
    match skipBlanks rest with
    | ']' :: rest => .ok ([item], rest)
    | ',' :: rest => (items fuel (skipBlanks rest)).map fun (more, rest) => (item :: more, rest)
    | rest => .error (.problem .missingComma rest.length)

/-- The fields of an object that is not empty, up to its closing brace. -/
def fields : (fuel : Nat) → List Char → Except Stop (List (String × Json) × List Char)
  | 0, s => .error (.problem .missingKey s.length)
  | fuel + 1, '"' :: rest => do
    let (key, rest) ← string rest
    match skipBlanks rest with
    | ':' :: rest =>
      let (item, rest) ← value fuel (skipBlanks rest)
      match skipBlanks rest with
      | '\x7d' :: rest => .ok ([(key, item)], rest)
      | ',' :: rest =>
        (fields fuel (skipBlanks rest)).map fun (more, rest) => ((key, item) :: more, rest)
      | rest => .error (.problem .missingComma rest.length)
    | rest => .error (.problem .missingColon rest.length)
  | _ + 1, s => .error (.problem .missingKey s.length)

end

/-- The one value of a document. -/
def document (s : List Char) : Except Stop Json :=
  match s with
  | '\ufeff' :: _ => .error (.problem .byteOrderMark s.length)
  | _ => do
    let (value, rest) ← value (2 * s.length + 1) (skipBlanks s)
    match skipBlanks rest with
    | [] => .ok value
    | rest => .error (.problem .extraData rest.length)

end NativeHeader.Json.Reader

namespace NativeHeader.Json

/-- Reads a document whose line ends are unified. -/
def read (s : List Char) : Except Unreadable Json :=
  match Reader.document s with
  | .ok value => .ok value
  | .error (.problem cause left) => .error (.malformed (Malformed.locate s cause left))
  | .error .longInteger => .error .longInteger

end NativeHeader.Json
