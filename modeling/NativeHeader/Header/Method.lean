import NativeHeader.Header.Templates
import NativeHeader.Struct.Collect

/-! The declaration of a method.

A declaration is kept as data, with its arguments in order, and becomes text in
`Declaration.text`. The first argument has no label and every later one is
labelled with its own name. A method whose result travels through callbacks takes
two more arguments. The method that describes the constants of a module is not
declared as such: it stands for a pair of accessors, or for nothing if there are
no constants. -/
namespace NativeHeader

/-- One part of a selector: a label, and the type and the name of the argument. -/
structure Argument where
  label : String
  type : CType
  name : String
  deriving DecidableEq, Repr

def Argument.text (a : Argument) : String := a.label ++ ":(" ++ a.type.text ++ ")" ++ a.name

/-- Arguments, one a line. -/
def joinArguments (arguments : List String) : String := "\n   ".intercalate arguments

structure Declaration where
  returned : CType
  name : String
  arguments : List Argument
  deriving DecidableEq, Repr

/-- A method declaration, from the texts of its parts. -/
def declare (name returned arguments : String) : String :=
  "- (" ++ returned ++ ") " ++ name ++ arguments ++ ";"

def Declaration.text (d : Declaration) : String :=
  declare d.name d.returned.text (joinArguments (d.arguments.map Argument.text))

/-- What a method contributes to the protocol of its module. -/
inductive Member where
  | declaration (declaration : Declaration)
  | constantsAccessors (module : String)
  deriving DecidableEq, Repr

def Member.text : Member → String
  | .declaration d => d.text
  | .constantsAccessors module => accessorsText module

/-! ### Arguments -/

/-- The type of a parameter, after registering what it is made of. -/
def parameterType (method : Method) (param : Parameter) : CollectM CType := do
  match param.type with
  | .record _ =>
    match ← collectParameter method param with
    | .struct module name => return .structRef module name
    | type => return type
  | _ =>
    match TypeTable.parameters.find param.type param.nullable with
    | .error found => throw (.unsupported (.parameter param.name method.name) found)
    | .ok type =>
      collectElements method param
      return type

/-- The arguments for parameters; `first` tells whether the list begins the declaration. -/
def parameterArguments (method : Method) : (first : Bool) → List Parameter → CollectM (List Argument)
  | _, [] => return []
  | first, param :: rest => do
    let type ← parameterType method param
    let name := param.name.display
    return ⟨if first then "" else name, type, name⟩ :: (← parameterArguments method false rest)

/-- The two callbacks of a method whose result travels through them. -/
def promiseArguments (first : Bool) : List Argument :=
  [⟨if first then "" else "resolve", .plain "RCTPromiseResolveBlock", "resolve"⟩,
   ⟨"reject", .plain "RCTPromiseRejectBlock", "reject"⟩]

/-- All arguments of a method. -/
def arguments (method : Method) : CollectM (List Argument) := do
  let own ← parameterArguments method true method.parameters
  return own ++ (if method.returnsPromise then promiseArguments method.parameters.isEmpty else [])

/-! ### Members -/

/-- The returned type, after registering what it is made of. -/
def returnedType (method : Method) : CollectM CType := do
  match method.returned.type with
  | .record _ => collectReturned method
  | type =>
    match TypeTable.returned.find type method.returned.nullable with
    | .ok type => return type
    | .error found => throw (.unsupported (.returned method.name) found)

/-- Refuses constants that no struct can hold. -/
def checkConstants (module : String) (fields : List Field) : CollectM Unit :=
  fields.forM fun field =>
    match field.type.unsupportedInField? with
    | some found => throw (.unsupported (.constant field.name module) found)
    | none => return ()

/-- The accessors of the constants. A record is kept for the struct of the
constants; without fields there is nothing to access. -/
def constantsMember (method : Method) : CollectM (Option Member) := do
  let context ← get
  let accessors := Member.constantsAccessors context.moduleName
  match method.returned.type with
  | .record [] => return none
  | .record fields =>
    checkConstants context.moduleName fields
    modify fun context => { context with constants? := some fields }
    return some accessors
  | _ => return some accessors

/-- What a method contributes to the protocol of its module, if anything. -/
def member (method : Method) : CollectM (Option Member) := do
  if method.describesConstants then constantsMember method
  else
    let arguments ← arguments method
    let returned ← returnedType method
    return some (.declaration ⟨returned, method.name.display, arguments⟩)

/-- The members of a protocol, in the order of the methods. -/
def members (methods : List Method) : CollectM (List Member) := do
  return (← methods.mapM member).filterMap id

end NativeHeader
