import NativeHeader.Header.Method
import NativeHeader.Struct.Render

/-! Working on the context of one module step by step.

A session is a list of steps on one context. A step that fails does not end it:
what the step collected before it failed stays, and the next step starts there. -/
namespace NativeHeader.Session

/-- What can be asked of a context. -/
inductive Step where
  | add (s : Struct)
  | contains (name : Name)
  | size
  /-- The collection in one line. -/
  | text
  | structs
  /-- The text of all structs and constants found so far. -/
  | render
  | member (method : Method)
  | arguments (method : Method)
  | returned (method : Method)
  | constants (method : Method)
  | parameterStruct (method : Method) (param : Parameter)
  | parameterElements (method : Method) (param : Parameter)
  | returnedStruct (method : Method)

inductive Answer where
  | nothing
  | flag (value : Bool)
  | count (value : Nat)
  | text (value : String)
  | structs (value : List Struct)

/-- The text of a member; nothing is written for a method without one. -/
def memberText (m : Option Member) : Answer := .text ((m.map Member.text).getD "")

/-- A step on a context. -/
def perform : Step → CollectM Answer
  | .add s => do
    register s
    return .nothing
  | .contains name => do
    let key ← structKey name
    return .flag ((← get).structs.contains key)
  | .size => return .count (← get).structs.size
  | .text => return .text (← get).structs.text
  | .structs => return .structs (← get).structs.toList
  | .render => do
    let context ← get
    return .text (← renderStructs context.moduleName context.structs.toList context.constants?)
  | .member method => return memberText (← member method)
  | .arguments method => do
    return .text (joinArguments ((← arguments method).map Argument.text))
  | .returned method => return .text (← returnedType method).text
  | .constants method => return memberText (← constantsMember method)
  | .parameterStruct method param => return .text (← collectParameter method param).text
  | .parameterElements method param => do
    collectElements method param
    return .nothing
  | .returnedStruct method => return .text (← collectReturned method).text

/-- The answer of a step, and the context after it. -/
def outcome (step : Step) (context : Context) : Except Fault Answer × Context :=
  (perform step).run.run context

/-- The contexts after each step of a session, with the answers. -/
def run : Context → List Step → List (Except Fault Answer × Context)
  | _, [] => []
  | context, step :: rest =>
    let (answer, after) := outcome step context
    (answer, after) :: run after rest

end NativeHeader.Session
