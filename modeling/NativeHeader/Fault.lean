import NativeHeader.Json.Problem
import NativeHeader.Schema.Basic

/-! What can be wrong with a schema.

A `ShapeError` is a defect of the document, an unsupported type a correct document
that asks for something a header cannot have. The remaining faults are values of a
kind that the step in question cannot work on. -/
namespace NativeHeader

/-- A defect in the shape of a schema. Locations are paths from the root of the document. -/
inductive ShapeError where
  | notAnObject (location : String) (found : Json.Kind)
  | missingKey (key location : String)
  | notAList (key location : String)
  | tagNotText (location : String)
  | reservedNameNotText (location : String)
  | modulesNotAnObject
  | nativeModulesNotAnObject (location : String)
  | repeatedModule (module first second : String)
  | repeatedStruct (name : Name)
  | notJson (path : String) (cause : Json.Malformed)

/-- Where a type was used that a header cannot have there. -/
inductive Place where
  | parameter (param method : Name)
  | returned (method : Name)
  /-- A field below a parameter, with its path from there. -/
  | fieldOfParameter (path : String) (param method : Name)
  /-- A field below a returned value, with its path from there. -/
  | fieldOfReturned (path : String) (method : Name)
  | fieldOfStruct (field : Name) (struct : String)
  | constant (field : Name) (module : String)

inductive Fault where
  | shape (error : ShapeError)
  | unsupported (place : Place) (found : String)
  /-- A value was read as a list of fields and has no members. -/
  | notIterable (found : Json.Kind)
  /-- A name had to be taken apart and is no text. -/
  | nameNotText (found : Json.Kind)
  /-- Something was to be kept or looked up under a value without a key. -/
  | notAKey (found : Json.Kind)
  /-- A struct was asked of something that is no record. -/
  | notRecord

def ShapeError.message : ShapeError → String
  | .notAnObject location found => s!"Expected an object at {location}, found {found.word}."
  | .missingKey key location => s!"Missing \"{key}\" at {location}."
  | .notAList key location => s!"Expected \"{key}\" at {location} to be a list."
  | .tagNotText location => s!"Expected a string type tag at {location}."
  | .reservedNameNotText location => s!"Expected a string reserved type name at {location}."
  | .modulesNotAnObject => "Expected \"modules\" to be an object."
  | .nativeModulesNotAnObject location =>
    s!"Expected \"nativeModules\" at {location} to be an object."
  | .repeatedModule module first second =>
    s!"Native module \"{module}\" is declared by both \"{first}\" and \"{second}\"."
  | .repeatedStruct name =>
    s!"Struct name \"{name.display}\" is synthesized twice. " ++
      "Rename one of the methods, parameters or fields that produce it."
  | .notJson path cause => s!"Schema file '{path}' is not valid JSON: {cause.message}"

/-- What is unsupported, as the subject of a message. -/
def Place.text : Place → String
  | .parameter param method =>
    s!"Unsupported type for param \"{param.display}\" in {method.display}"
  | .returned method => s!"Unsupported return type for {method.display}"
  | .fieldOfParameter path param method =>
    s!"Unsupported type for field \"{path}\" of param \"{param.display}\" in {method.display}"
  | .fieldOfReturned path method =>
    s!"Unsupported type for field \"{path}\" of the return type of {method.display}"
  | .fieldOfStruct field struct =>
    s!"Unsupported type for field \"{field.display}\" of struct {struct}"
  | .constant field module => s!"Unsupported type for constant \"{field.display}\" in {module}"

def Fault.message : Fault → String
  | .shape error => error.message
  | .unsupported place found => s!"{place.text}. Found: {found}"
  | .notIterable found => s!"A value of type {found.word} has no members."
  | .nameNotText found => s!"A name of type {found.word} cannot be part of a struct name."
  | .notAKey found => s!"Nothing can be kept under a value of type {found.word}."
  | .notRecord => "Only a record has a struct."

/-- The text of a name that has to be taken apart. -/
def Name.text : Name → Except Fault String
  | .str text => .ok text
  | name => .error (.nameNotText name.kind)

end NativeHeader
