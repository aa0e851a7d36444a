import NativeHeader.Struct.Collection
import NativeHeader.TypeTable

/-! Finding the records of a signature.

A record is registered before the records below it, and its fields are visited in
order: a field that no struct can hold is an error, and a field that is a record or
an array is followed, its own name added to the name made so far. Arrays are looked
through at any depth. -/
namespace NativeHeader

/-- The part of a signature that is searched. -/
inductive Site where
  | parameter (param method : Name)
  | returned (method : Name)

/-- A field below the site. -/
def Site.field (path : String) : Site → Place
  | .parameter param method => .fieldOfParameter path param method
  | .returned method => .fieldOfReturned path method

/-- Whether a value of this type has a name of its own in a struct: records and arrays do. -/
def ValueType.isNested : ValueType → Bool
  | .record _ | .array | .arrayOf _ => true
  | _ => false

/-- The path to a field, from the path to its record. -/
def fieldPath (path : String) (name : Name) : String :=
  if path.isEmpty then name.display else path ++ "." ++ name.display

mutual

/-- Registers the records of a value that has the given name. -/
def collect (site : Site) (name path : String) : ValueType → CollectM Unit
  | .record fields => do
    register ⟨.str name, fields⟩
    collectFields site name path fields
  | .arrayOf element => collect site (Naming.element name) path element
  | _ => return ()

def collectFields (site : Site) (name path : String) : List Field → CollectM Unit
  | [] => return ()
  | field :: rest => do
    collectField site name path field
    collectFields site name path rest

/-- Checks a field of the struct with the given name and follows it. -/
def collectField (site : Site) (name path : String) : Field → CollectM Unit
  | ⟨fieldName, type, _⟩ => do
    let path := fieldPath path fieldName
    match type.unsupportedInField? with
    | some found => throw (.unsupported (site.field path) found)
    | none =>
      if type.isNested then
        let last ← Name.text fieldName
        collect site (Naming.struct [name, last]) path type

end

/-- The name of the records of a parameter. -/
def parameterStruct (method : Method) (param : Parameter) : Except Fault String := do
  let first ← Name.text method.name
  let last ← Name.text param.name
  return Naming.struct [first, last]

/-- Registers the records of a parameter that is a record. -/
def collectParameter (method : Method) (param : Parameter) : CollectM CType := do
  match param.type with
  | .record _ =>
    let name ← parameterStruct method param
    collect (.parameter param.name method.name) name "" param.type
    return .struct (← get).moduleName name
  | _ => throw .notRecord

/-- Registers the records in a parameter that is an array. -/
def collectElements (method : Method) (param : Parameter) : CollectM Unit := do
  match param.type with
  | .array | .arrayOf _ =>
    let name ← parameterStruct method param
    collect (.parameter param.name method.name) name "" param.type
  | _ => return ()

/-- Registers the records of a returned value that is a record. -/
def collectReturned (method : Method) : CollectM CType := do
  match method.returned.type with
  | .record _ =>
    let name := Naming.returned (← Name.text method.name)
    collect (.returned method.name) name "" method.returned.type
    return .struct (← get).moduleName name
  | _ => throw .notRecord

end NativeHeader
