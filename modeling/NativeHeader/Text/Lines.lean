/-! Lines of a text: where they end, and where a character stands.

Files are read with every line end written as a line feed (`unifyLineEnds`).
Positions in a text are counted by `Position.advance`, which takes the class of
characters that end a line as a parameter: a reader of data knows the line feed
alone, a reader of prose the wider class `isLineEnd`. In both a carriage return
before a line feed belongs to it. -/
namespace NativeHeader.Text

/-- Lines as one text, with a line feed between two of them. -/
def unlines (lines : List String) : String := "\n".intercalate lines

/-- Writes every carriage return, with a line feed after it or not, as a line feed. -/
def unifyLineEnds : List Char → List Char
  | [] => []
  | '\r' :: '\n' :: rest => '\n' :: unifyLineEnds rest
  | '\r' :: rest => '\n' :: unifyLineEnds rest
  | c :: rest => c :: unifyLineEnds rest

/-- The characters that end a line of prose: the feeds and tabs that move down,
the separators of files, groups and records, and the three of Unicode. -/
def isLineEnd (c : Char) : Bool :=
  (0x0a ≤ c.toNat && c.toNat ≤ 0x0d) || (0x1c ≤ c.toNat && c.toNat ≤ 0x1e) ||
    c.toNat = 0x85 || c.toNat = 0x2028 || c.toNat = 0x2029

/-- A place in a text: the line, counted from one, and the number of characters before it there. -/
structure Position where
  line : Nat := 1
  column : Nat := 0
  deriving DecidableEq, Repr

/-- The place after some more characters. -/
def Position.advance (ends : Char → Bool) : Position → List Char → Position
  | p, [] => p
  | p, '\r' :: '\n' :: rest => p.advance ends ('\n' :: rest)
  | p, c :: rest => (if ends c then ⟨p.line + 1, 0⟩ else ⟨p.line, p.column + 1⟩ : Position).advance ends rest

end NativeHeader.Text
