import NativeHeader.Text.Lines

/-! Texts with slots.

In the text of a template a slot is written as a dollar sign and an identifier,
which may stand between braces, and two dollar signs stand for one. A template is
read once, into segments, and what fills a slot is never read again. An identifier
has ASCII letters, digits and underscores, and does not begin with a digit. -/
namespace NativeHeader

inductive Segment where
  | text (s : String)
  | slot (name : String)
  /-- A dollar sign that begins nothing, with the place after it. -/
  | stray (position : Text.Position)
  deriving DecidableEq, Repr

structure Template where
  segments : List Segment
  deriving DecidableEq, Repr

namespace Template

/-- Why a template could not be filled. -/
inductive Failure where
  | missing (name : String)
  | stray (position : Text.Position)
  /-- A value has the name that is kept for the template. -/
  | reservedName
  deriving DecidableEq, Repr

/-- The name that no value may have: it is kept for the template itself. -/
def ownName : String := "template"

def Failure.message : Failure → String
  | .missing name => name
  | .reservedName => s!"No value may be named {ownName}."
  | .stray position =>
    s!"Invalid placeholder in string: line {position.line}, col {position.column}"

/-! ### Filling -/

/-- The first slot without a value, or the first stray dollar sign. -/
def failure? (t : Template) (value? : String → Option String) : Option Failure :=
  t.segments.findSome? fun
    | .text _ => none
    | .slot name => if (value? name).isSome then none else some (.missing name)
    | .stray position => some (.stray position)

/-- The text with every slot filled. -/
def fill (t : Template) (value : String → String) : String :=
  String.join <| t.segments.map fun
    | .text s => s
    | .slot name => value name
    | .stray _ => ""

/-- The text with every slot filled, if every slot has a value. -/
def render (t : Template) (value? : String → Option String) : Except Failure String :=
  match t.failure? value? with
  | some failure => .error failure
  | none => .ok (t.fill fun name => (value? name).getD "")

/-- The text with every slot filled from named values. -/
def renderWith (t : Template) (values : List (String × String)) : Except Failure String :=
  if values.any (·.1 = ownName) then .error .reservedName
  else t.render fun name => values.lookup name

/-! ### Reading -/

def isIdentifierStart (c : Char) : Bool := c.isAlpha || c = '_'

def isIdentifierPart (c : Char) : Bool := c.isAlphanum || c = '_'

/-- The identifier that a text begins with, and what follows it. -/
def identifier? (s : List Char) : Option (String × {rest : List Char // rest.length ≤ s.length}) :=
  if s.head?.any isIdentifierStart then
    some (String.ofList (s.takeWhile isIdentifierPart),
      ⟨s.dropWhile isIdentifierPart, (List.dropWhile_suffix _).length_le⟩)
  else none

/-- What a dollar sign begins, and what follows it. -/
def afterDollar? (s : List Char) : Option (Segment × {rest : List Char // rest.length ≤ s.length}) :=
  match s with
  | '$' :: rest => some (.text "$", ⟨rest, by simp⟩)
  | '\x7b' :: inner =>
    match identifier? inner with
    | some (name, ⟨'\x7d' :: rest, h⟩) => some (.slot name, ⟨rest, by simp at h ⊢; omega⟩)
    | _ => none
  | s => (identifier? s).map fun (name, rest) => (.slot name, rest)

/-- The segments of the rest of a text. -/
def segmentsOf (whole : List Char) : List Char → List Segment
  | [] => []
  | '$' :: rest =>
    match afterDollar? rest with
    | some (segment, ⟨after, _⟩) => segment :: segmentsOf whole after
    | none =>
      let read := whole.take (whole.length - rest.length)
      .stray (({} : Text.Position).advance Text.isLineEnd read) :: segmentsOf whole rest
  | c :: rest =>
    .text (String.ofList (c :: rest.takeWhile (· ≠ '$'))) ::
      segmentsOf whole (rest.dropWhile (· ≠ '$'))
termination_by s => s.length
decreasing_by
  · simp only [List.length_cons]; omega
  · simp
  · have := (List.dropWhile_suffix (l := rest) (· ≠ '$')).length_le
    simp only [List.length_cons]; omega

/-- Reads a template. -/
def ofText (s : String) : Template := ⟨segmentsOf s.toList s.toList⟩

end Template

end NativeHeader
