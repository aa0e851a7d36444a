import NativeHeader.Naming

/-! What a schema describes: components, their modules, and the methods of a module.

The type of a parameter, a returned value or a field is a `ValueType`. Every one
has a tag in the schema; a tag that no header can have is kept as `unsupported`, so
that it can be reported together with the place where it was used. -/
namespace NativeHeader

/-- A name with what is said about it, and whether it may be absent. -/
structure Named (α : Type) where
  name : Name
  type : α
  nullable : Bool
  deriving Repr

/-- The type of a value. -/
inductive ValueType where
  /-- A type known by its own name. -/
  | reserved (name : String)
  | string
  | number
  | float
  | int32
  | boolean
  /-- An object whose fields are not described. -/
  | genericObject
  | alias (name : Name)
  /-- An array whose elements are not described. -/
  | array
  | arrayOf (element : ValueType)
  | record (fields : List (Named ValueType))
  | function
  | void
  | promise
  | unsupported (tag : String)
  deriving Repr, Inhabited

/-- A field of a record. -/
abbrev Field := Named ValueType

/-- A parameter of a method. -/
abbrev Parameter := Named ValueType

/-- What a method gives back. -/
structure Returned where
  type : ValueType
  nullable : Bool
  deriving Repr

structure Method where
  name : Name
  parameters : List Parameter
  returned : Returned
  deriving Repr

structure Module where
  name : String
  methods : List Method
  deriving Repr

/-- A component and its modules; a component without native code has none at all. -/
structure Component where
  name : String
  modules? : Option (List Module)
  deriving Repr

/-- The components of a schema, in document order. -/
structure Schema where
  components : List Component
  deriving Repr

namespace ValueType

/-- The tag of an annotation in a schema. -/
def tag : ValueType → String
  | .reserved _ => "ReservedFunctionValueTypeAnnotation"
  | .string => "StringTypeAnnotation"
  | .number => "NumberTypeAnnotation"
  | .float => "FloatTypeAnnotation"
  | .int32 => "Int32TypeAnnotation"
  | .boolean => "BooleanTypeAnnotation"
  | .genericObject => "GenericObjectTypeAnnotation"
  | .alias _ => "TypeAliasTypeAnnotation"
  | .array | .arrayOf _ => "ArrayTypeAnnotation"
  | .record _ => "ObjectTypeAnnotation"
  | .function => "FunctionTypeAnnotation"
  | .void => "VoidTypeAnnotation"
  | .promise => "GenericPromiseTypeAnnotation"
  | .unsupported tag => tag

/-- What a message calls the annotation: the name of a reserved type, the tag otherwise. -/
def label : ValueType → String
  | .reserved name => name
  | type => type.tag

end ValueType

/-- Whether the result travels through callbacks. -/
def Method.returnsPromise (m : Method) : Bool :=
  match m.returned.type with
  | .promise => true
  | _ => false

/-- The name of the method that describes the constants of a module. -/
def constantsMethod : String := "getConstants"

/-- Whether the method describes the constants of its module. -/
def Method.describesConstants (m : Method) : Bool :=
  match m.name with
  | .str name => name = constantsMethod
  | _ => false

end NativeHeader
