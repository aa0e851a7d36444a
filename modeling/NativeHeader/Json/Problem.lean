import NativeHeader.Json.Basic
import NativeHeader.Text.Lines

/-! What can be wrong with a JSON document, and where. -/
namespace NativeHeader.Json

/-- What can be wrong with a document. -/
inductive Problem where
  | byteOrderMark | missingValue | missingKey | missingColon | missingComma
  | openString | controlCharacter | badEscape | badUnicodeEscape | extraData
  deriving DecidableEq, Repr

def Problem.text : Problem → String
  | .byteOrderMark => "Unexpected UTF-8 BOM (decode using utf-8-sig)"
  | .missingValue => "Expecting value"
  | .missingKey => "Expecting property name enclosed in double quotes"
  | .missingColon => "Expecting ':' delimiter"
  | .missingComma => "Expecting ',' delimiter"
  | .openString => "Unterminated string starting at"
  | .controlCharacter => "Invalid control character at"
  | .badEscape => "Invalid \\escape"
  | .badUnicodeEscape => "Invalid \\uXXXX escape"
  | .extraData => "Extra data"

/-- A problem and its place in the document. -/
structure Malformed where
  problem : Problem
  offset : Nat
  position : Text.Position
  deriving DecidableEq, Repr

def Malformed.message (e : Malformed) : String :=
  s!"{e.problem.text}: line {e.position.line} column {e.position.column + 1} (char {e.offset})"

/-- Places a problem that was noticed where so many characters were left. -/
def Malformed.locate (s : List Char) (problem : Problem) (left : Nat) : Malformed :=
  let offset := s.length - left
  ⟨problem, offset, ({} : Text.Position).advance (· = '\n') (s.take offset)⟩

/-- Why a text could not be read. -/
inductive Unreadable where
  | malformed (cause : Malformed)
  | longInteger
  deriving DecidableEq, Repr

end NativeHeader.Json
