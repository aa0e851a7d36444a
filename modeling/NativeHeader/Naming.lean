import NativeHeader.Json.Display
import NativeHeader.Text.Upper

/-! How the names of a header are made from the names of a schema.

A record found in a signature gets the name of the way to it: each part with its
first character in upper case, one after the other (`struct`). Elements of an
array and returned values add a fixed word. What belongs to a module bears the
module's name after `Native` (`nativeModule`), and a record is referred to by the place
where it is declared (`reference`). -/
namespace NativeHeader.Naming

/-- A text with its first character in upper case. -/
def capitalize (s : String) : String :=
  match s.toList with
  | [] => ""
  | c :: rest => String.ofList (Text.upper c ++ rest)

/-- The name of a record, from the parts of the way to it, outermost first. -/
def struct (parts : List String) : String := String.join (parts.map capitalize)

/-- The name of the records in an array. -/
def element (array : String) : String := array ++ "Element"

/-- The name of a record that a method returns. -/
def returned (method : String) : String := capitalize method ++ "ReturnType"

/-- What stands for a module in the header. -/
def nativeModule (module : String) : String := "Native" ++ module

/-- The name that a record is declared by. -/
def spec (name : String) : String := "Spec" ++ name

/-- A declared record, by its full name. -/
def reference (module name : String) : String := "JS::" ++ nativeModule module ++ "::" ++ spec name

end NativeHeader.Naming

namespace NativeHeader

/-- The name of a method, a parameter or a field. A schema may have any value
there; where a name has to be taken apart it must be a text. -/
abbrev Name := Json

end NativeHeader
