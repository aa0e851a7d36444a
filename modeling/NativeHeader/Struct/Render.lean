import NativeHeader.Struct.Collection
import NativeHeader.TypeTable

/-! The structs of a module in the header.

A struct wraps a dictionary and has a getter for every field. The types of fields
that are records refer to structs by the same names that `collect` registers them
by. The constants of a module have a struct of their own, with a typed builder. -/
namespace NativeHeader

/-- The type that stands for a value without a described type. -/
def genericElement : CType := .plain "id<NSObject>"

/-- The type of a field of a struct that is none of the structured ones. -/
def tableType (struct : String) (field : Name) (type : ValueType) (nullable : Bool) :
    Except Fault CType :=
  match TypeTable.fields.find type nullable with
  | .ok type => .ok type
  | .error found => .error (.unsupported (.fieldOfStruct field struct) found)

/-- The type of a value that has the given name in the structs of its module: a
struct for a record, a vector for an array, whatever the table says otherwise. -/
def nestedType (module struct : String) (field : Name) (name : String) :
    ValueType → Except Fault CType
  | .record _ => .ok (.struct module name)
  | .array => .ok (.vector genericElement)
  | .arrayOf element => do
    return .vector (← nestedType module struct field (Naming.element name) element)
  | type => tableType struct field type false

/-- The type of the getter of a field. -/
def fieldType (module : String) (struct : Name) (field : Field) : Except Fault CType :=
  let owner := Naming.spec struct.display
  match field.type with
  | .record _ | .array | .arrayOf _ => do
    let first ← Name.text struct
    let last ← Name.text field.name
    let type ← nestedType module owner field.name (Naming.struct [first, last]) field.type
    return type.orAbsent field.nullable
  | type => tableType owner field.name type field.nullable

/-! ### Blocks of lines -/

/-- The lines that open the namespace of a module. -/
def namespaceStart (module : String) : List String :=
  ["namespace JS \x7b", "  namespace " ++ Naming.nativeModule module ++ " \x7b"]

/-- The lines that close it. -/
def namespaceEnd : List String := ["  \x7d", "\x7d"]

/-- Declarations inside the namespace of a module. -/
def inNamespace (module : String) (body : List String) : List String :=
  namespaceStart module ++ body ++ namespaceEnd

/-- The getter of a field. -/
def getter (module : String) (struct : Name) (field : Field) : Except Fault String := do
  return "      " ++ (← fieldType module struct field).text ++ " " ++ field.name.display ++
    "() const;"

/-- What follows the getters of a struct. -/
def structRest (spec : String) (fields : List Field) : List String :=
  (if fields.isEmpty then [] else [""]) ++
    ["      " ++ spec ++ "(NSDictionary *const v) : _v(v) \x7b\x7d",
     "    private:",
     "      NSDictionary *_v;",
     "    \x7d;"]

/-- The category that converts to a struct. -/
def converter (owner spec : String) : List String :=
  ["",
   "@interface RCTCxxConvert (" ++ owner ++ "_" ++ spec ++ ")",
   "+ (RCTManagedPointer *)JS_" ++ owner ++ "_" ++ spec ++ ":(id)json;",
   "@end"]

/-- A struct and its category. -/
def structLines (module : String) (s : Struct) : Except Fault (List String) := do
  let spec := Naming.spec s.name.display
  let getters ← s.fields.mapM (getter module s.name)
  return inNamespace module
      (["    struct " ++ spec ++ " \x7b"] ++ getters ++ structRest spec s.fields) ++
    converter (Naming.nativeModule module) spec

def renderStruct (module : String) (s : Struct) : Except Fault String := do
  return Text.unlines (← structLines module s)

/-! ### Constants -/

/-- The type that a constant is given to the builder in. -/
def constantType (field : Field) : Except Fault CType :=
  match field.type with
  | .record _ => .ok (.plain "NSDictionary *")
  | .array | .arrayOf _ => .ok (.plain "NSArray *")
  | type => tableType "Constants" field.name type false

/-- The member of the builder's input for a constant. -/
def constantInput (field : Field) : Except Fault String := do
  let type ← constantType field
  let wrapper := if field.nullable then "folly::Optional" else "RCTRequired"
  return "          " ++ wrapper ++ "<" ++ type.text ++ "> " ++ field.name.display ++ ";"

/-- The constants of a module and their builder. -/
def constantsLines (module : String) (fields : List Field) : Except Fault (List String) := do
  let inputs ← fields.mapM constantInput
  return inNamespace module
    (["    struct Constants \x7b",
      "",
      "      struct Builder \x7b",
      "        struct Input \x7b"] ++ inputs ++
     ["        \x7d;",
      "",
      "        /** Initialize with a set of values */",
      "        Builder(const Input i);",
      "        /** Initialize with an existing Constants */",
      "        Builder(Constants i);",
      "        /** Builds the object. Generally used only by the infrastructure. */",
      "        NSDictionary *buildUnsafeRawValue() const \x7b return _factory(); \x7d;",
      "      private:",
      "        NSDictionary *(^_factory)(void);",
      "      \x7d;",
      "",
      "      static Constants fromUnsafeRawValue(NSDictionary *const v) \x7b return \x7bv\x7d; \x7d",
      "      NSDictionary *unsafeRawValue() const \x7b return _v; \x7d",
      "    private:",
      "      Constants(NSDictionary *const v) : _v(v) \x7b\x7d",
      "      NSDictionary *_v;",
      "    \x7d;"])

def renderConstants (module : String) (fields : List Field) : Except Fault String := do
  return Text.unlines (← constantsLines module fields)

/-! ### All of a module -/

/-- The constants, if any, and the structs of a module, with a blank line between two blocks. -/
def renderStructs (module : String) (structs : List Struct) (constants? : Option (List Field)) :
    Except Fault String := do
  let constants ← match constants? with
    | some fields => pure [← renderConstants module fields]
    | none => pure []
  let blocks ← structs.mapM (renderStruct module)
  return "\n\n".intercalate (constants ++ blocks)

end NativeHeader
