import NativeHeader.Naming

/-! Types as they are written in a header.

A type is kept as a tree and becomes text in `CType.text` only, so what a
declaration refers to can be read off it (`CType.references`). -/
namespace NativeHeader

inductive CType where
  /-- A type of the language or its libraries, as it is written. -/
  | plain (text : String)
  /-- A struct declared for a record of a module. -/
  | struct (module name : String)
  /-- A reference to a struct, as parameters take them. -/
  | structRef (module name : String)
  | vector (element : CType)
  | optional (value : CType)
  deriving DecidableEq, Repr

namespace CType

def text : CType → String
  | .plain text => text
  | .struct module name => Naming.reference module name
  | .structRef module name => Naming.reference module name ++ "&"
  | .vector element => "facebook::react::LazyVector<" ++ element.text ++ ">"
  | .optional value => "folly::Optional<" ++ value.text ++ ">"

/-- Makes a type optional if the value may be absent. -/
def orAbsent (nullable : Bool) (t : CType) : CType := if nullable then .optional t else t

/-- The structs that a type refers to, each with its module. -/
def references : CType → List (String × String)
  | .plain _ => []
  | .struct module name | .structRef module name => [(module, name)]
  | .vector t | .optional t => t.references

end CType

end NativeHeader
