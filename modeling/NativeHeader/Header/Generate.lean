import NativeHeader.Header.Method
import NativeHeader.Schema.Flatten
import NativeHeader.Struct.Render

/-! The header of a schema.

Every module is worked on alone, in a context of its own, and modules are written
in the order of their names, so the same schema always gives the same text. -/
namespace NativeHeader

/-- The members of a module, and the context after collecting what they need. -/
def Module.collect (m : Module) : Except Fault (List Member × Context) :=
  match (members m.methods).run.run { moduleName := m.name } with
  | (.ok members, context) => .ok (members, context)
  | (.error fault, _) => .error fault

/-- The structs and the protocol of a module. -/
def Module.protocol (m : Module) : Except Fault String := do
  let (members, context) ← m.collect
  let structs ← renderStructs m.name context.structs.toList context.constants?
  return protocolText m.name structs (Text.unlines (members.map Member.text))

/-- The modules of a schema in the order of their names. -/
def Schema.sortedModules (s : Schema) : Except Fault (List Module) := do
  return (← s.nativeModules).mergeSort fun a b => decide (a.name ≤ b.name)

/-- The header of a schema. -/
def Schema.header (s : Schema) : Except Fault String := do
  let modules ← s.sortedModules
  let protocols ← modules.mapM Module.protocol
  return documentText (Text.unlines protocols) (Text.unlines (modules.map (classText ·.name)))

/-- The file name of a header. -/
def headerFile (spec : String) : String := spec ++ ".h"

end NativeHeader
