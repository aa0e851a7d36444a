import NativeHeader.Run.Failure

/-! What a run is asked to do. -/
namespace NativeHeader

/-- The options of a run. An empty text stands for the default: the output goes
next to the schema, and both names are the name of the schema file. -/
structure Options where
  /-- The path of the schema. -/
  schema : String
  output : String := ""
  /-- The name of the header, without its ending. -/
  spec : String := ""
  /-- The library that the schema belongs to. The header does not depend on it. -/
  library : String := ""
  deriving DecidableEq, Repr

/-- The text of an option; what is not set stands for the default. -/
def Options.text (data : Json) (name : String) : Except Failure String :=
  match data.field? name with
  | none => .ok ""
  | some (.str text) => .ok text
  | some value => if value.truthy then .error (.optionNotText name) else .ok ""

/-- Options given as an object. The names only have to be something that can be
written; the paths have to be texts. -/
def Options.ofJson (data : Json) : Except Failure Options := do
  let name (key : String) : String :=
    match data.field? key with
    | some value => if value.truthy then value.display else ""
    | none => ""
  match data.field? "schema" with
  | none => throw (.missingOption "schema")
  | some (.str schema) =>
    return { schema, output := ← Options.text data "output_dir",
             spec := name "module_spec_name", library := name "library_name" }
  | some _ => throw (.optionNotText "schema")

end NativeHeader
