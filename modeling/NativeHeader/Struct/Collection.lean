import NativeHeader.Fault
import NativeHeader.Json.Key

/-! The structs found in the signatures of a module, in the order they are found.

A collection only grows, at its end, and never by a name that it has (`register`).
It lives in a `Context` while the methods of the module are
worked on; what a step has added stays when the step fails, which is why the
context stands outside the failure in `CollectM`. -/
namespace NativeHeader

/-- A record with the name of its struct. The name made for a record that was found
in a signature is a text. -/
structure Struct where
  name : Name
  fields : List Field
  deriving Repr

/-- The structs found so far. -/
structure Collection where
  toList : List Struct := []
  deriving Repr

namespace Collection

def names (c : Collection) : List Name := c.toList.map (·.name)

def size (c : Collection) : Nat := c.toList.length

/-- Whether a struct has a name with this key. -/
def contains (c : Collection) (key : Json.Key) : Bool := c.toList.any (·.name.key? = some key)

/-- Adds a struct at the end. -/
def add (c : Collection) (s : Struct) : Collection := ⟨c.toList ++ [s]⟩

/-- The collection in one line. -/
def text (c : Collection) : String :=
  "StructCollection(structs=" ++ (Json.arr c.names).nested ++ ")"

end Collection

/-- What is known of a module while its methods are worked on. -/
structure Context where
  moduleName : String
  structs : Collection := {}
  /-- The fields of the module's constants, once they are found. -/
  constants? : Option (List Field) := none
  deriving Repr

/-- Steps that may fail and that keep what they collected when they do. -/
abbrev CollectM := ExceptT Fault (StateM Context)

/-- The key of a name under which a struct is kept. -/
def structKey (name : Name) : Except Fault Json.Key :=
  match name.key? with
  | some key => .ok key
  | none => .error (.notAKey name.kind)

/-- Adds a struct to the collection of the module, unless its name is taken. -/
def register (s : Struct) : CollectM Unit := do
  let key ← structKey s.name
  let context ← get
  if context.structs.contains key then throw (.shape (.repeatedStruct s.name))
  else set { context with structs := context.structs.add s }

end NativeHeader
