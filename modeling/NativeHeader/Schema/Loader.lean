import NativeHeader.Fault

/-! From a JSON document to a schema.

A document has to have the layout

    modules → component → nativeModules → module → properties → method

and every function here takes the location of its value, for the messages. Keys
are looked up by name, in a fixed order per object, so neither the order of the
keys nor keys that nobody asks for can be told from the outcome; only the order of
components, modules and list items shows. Where a value has an unexpected kind the
first check that meets it decides. Unknown tags of annotations are kept. -/
namespace NativeHeader.Loader

/-- The value of a key that has to be there. -/
def require (data : Json) (key location : String) :
    Except Fault {value : Json // sizeOf value < sizeOf data} :=
  match h : data.field? key with
  | some value => .ok ⟨value, Json.sizeOf_field?_lt h⟩
  | none =>
    match data with
    | .obj _ => .error (.shape (.missingKey key location))
    | _ => .error (.shape (.notAnObject location data.kind))

/-- The items of a key that has to be there and hold a list. -/
def requireList (data : Json) (key location : String) : Except Fault (List Json) := do
  match ← require data key location with
  | ⟨.arr items, _⟩ => return items
  | _ => throw (.shape (.notAList key location))

/-- The location of an item of a list. -/
def itemOf (location list : String) (index : Nat) : String := s!"{location}.{list}[{index}]"

/-- Whether a key is there and set. -/
def isSet (data : Json) (key : String) : Bool :=
  match data.field? key with
  | some value => value.truthy
  | none => false

/-- Whether a field may be absent: `optional` decides if it is there, `nullable` otherwise. -/
def isOptional (data : Json) : Bool :=
  match data.field? "optional" with
  | some value => value.truthy
  | none => isSet data "nullable"

/-- The annotations that their tag says all about. -/
def plain? : String → Option ValueType
  | "StringTypeAnnotation" => some .string
  | "NumberTypeAnnotation" => some .number
  | "FloatTypeAnnotation" => some .float
  | "Int32TypeAnnotation" => some .int32
  | "BooleanTypeAnnotation" => some .boolean
  | "GenericObjectTypeAnnotation" => some .genericObject
  | "FunctionTypeAnnotation" => some .function
  | "VoidTypeAnnotation" => some .void
  | "GenericPromiseTypeAnnotation" => some .promise
  | _ => none

/-- What is done with fields that are not given as a list: nothing if they are not
set, and what has members has none that is a field. -/
def noFields (location : String) (given : Json) : Except Fault ValueType :=
  if given.truthy then
    match given with
    | .str _ | .obj _ => .error (.shape (.notAnObject (itemOf location "properties" 0) .str))
    | _ => .error (.notIterable given.kind)
  else .ok (.record [])

mutual

/-- The annotation that a value stands for. -/
def valueType (location : String) (data : Json) : Except Fault ValueType := do
  match ← require data "type" location with
  | ⟨.str tag, _⟩ =>
    match plain? tag with
    | some type => return type
    | none =>
      match tag with
      | "ReservedFunctionValueTypeAnnotation" =>
        match ← require data "name" location with
        | ⟨.str name, _⟩ => return .reserved name
        | _ => throw (.shape (.reservedNameNotText location))
      | "TypeAliasTypeAnnotation" => return .alias ((data.field? "name").getD (.str ""))
      | "ArrayTypeAnnotation" =>
        match _h : data.field? "elementType" with
        | none | some .null => return .array
        | some element => return .arrayOf (← valueType (location ++ ".elementType") element)
      | "ObjectTypeAnnotation" =>
        match _h : data.field? "properties" with
        | none => return .record []
        | some (.arr items) => return .record (← fields location 0 items)
        | some given => noFields location given
      | _ => return .unsupported tag
  | _ => throw (.shape (.tagNotText location))
termination_by sizeOf data
decreasing_by
  · exact Json.sizeOf_field?_lt _h
  · have := Json.sizeOf_field?_lt _h
    simp only [Json.arr.sizeOf_spec] at this
    omega

/-- A field of a record. -/
def field (location : String) (data : Json) : Except Fault Field := do
  let name ← require data "name" location
  let ⟨given, _⟩ ← require data "typeAnnotation" location
  return { name, type := ← valueType location given, nullable := isOptional data }
termination_by sizeOf data

/-- The fields of a record, from the one with the given index on. -/
def fields (location : String) (index : Nat) : List Json → Except Fault (List Field)
  | [] => return []
  | data :: rest => do
    let first ← field (itemOf location "properties" index) data
    return first :: (← fields location (index + 1) rest)
termination_by items => sizeOf items

end

/-- A parameter of a method. -/
def parameter (location : String) (data : Json) : Except Fault Parameter := do
  let name ← require data "name" location
  let given ← require data "typeAnnotation" location
  return { name, type := ← valueType location given, nullable := isSet data "nullable" }

/-- The parameters of a method, from the one with the given index on. -/
def parameters (location : String) (index : Nat) : List Json → Except Fault (List Parameter)
  | [] => return []
  | data :: rest => do
    let first ← parameter (itemOf location "params" index) data
    return first :: (← parameters location (index + 1) rest)

/-- A method. Its name is part of the location of everything inside it. -/
def method (location : String) (data : Json) : Except Fault Method := do
  let ⟨name, _⟩ ← require data "name" location
  let location := s!"{location}({name.display})"
  let function ← require data "typeAnnotation" location
  let parameters ← parameters location 0 (← requireList function "params" location)
  let returned ← require function "returnTypeAnnotation" location
  let type ← valueType (location ++ ".returnTypeAnnotation") returned
  return { name, parameters, returned := { type, nullable := isSet returned "nullable" } }

/-- The methods of a module, from the one with the given index on. -/
def methods (location : String) (index : Nat) : List Json → Except Fault (List Method)
  | [] => return []
  | data :: rest => do
    let first ← method (itemOf location "properties" index) data
    return first :: (← methods location (index + 1) rest)

def module (location name : String) (data : Json) : Except Fault Module := do
  return { name, methods := ← methods location 0 (← requireList data "properties" location) }

/-- The modules of a component, in document order. -/
def modules (location : String) (entries : List (String × Json)) : Except Fault (List Module) :=
  entries.mapM fun (name, data) => module s!"{location}.nativeModules.{name}" name data

def component (name : String) (data : Json) : Except Fault Component := do
  let location := "modules." ++ name
  match data.field? "nativeModules" with
  | none | some .null => return { name, modules? := none }
  | some (.obj entries) => return { name, modules? := some (← modules location entries) }
  | some _ => throw (.shape (.nativeModulesNotAnObject location))

/-- The components of a schema, in document order. -/
def components (entries : List (String × Json)) : Except Fault (List Component) :=
  entries.mapM fun (name, data) => component name data

end NativeHeader.Loader

namespace NativeHeader

/-- The schema that a document stands for. -/
def Schema.ofJson (data : Json) : Except Fault Schema := do
  match ← Loader.require data "modules" "schema" with
  | ⟨.obj entries, _⟩ => return { components := ← Loader.components entries }
  | _ => throw (.shape .modulesNotAnObject)

end NativeHeader
