import NativeHeader.Files.Access
import NativeHeader.Header.Generate
import NativeHeader.Json.Reader
import NativeHeader.Run.Options
import NativeHeader.Schema.Loader

/-! From a schema file to a header file.

Everything that can go wrong with the schema goes wrong before anything is written:
the schema is read, loaded and turned into the text of the header first. -/
namespace NativeHeader

/-! ### Lines of the log -/

/-- What is told in the log. -/
inductive Notice where
  | workingFrom (root : String)
  | loaded (path : String) (modules : Nat)
  | wrote (path : String)
  | failed (message : String)
  deriving DecidableEq, Repr

/-- A line of the log: level, source, and what is told. -/
def Notice.line : Notice → String
  | .workingFrom root => s!"INFO:root:Working from root directory: {root}"
  | .loaded path modules =>
    s!"INFO:native_module_codegen.run:Loaded schema '{path}' with {modules} native module(s)."
  | .wrote path => s!"INFO:native_module_codegen.run:Wrote header to '{path}'."
  | .failed message => s!"ERROR:native_module_codegen.cli:Header generation failed: {message}"

/-! ### Loading -/

/-- The schema in a file, from its bytes. The path is for messages. -/
def Schema.ofBytes (path : String) (bytes : ByteArray) : Except Failure Schema :=
  match String.fromUTF8? bytes with
  | none => .error .notUnicode
  | some text =>
    match Json.read (Text.unifyLineEnds text.toList) with
    | .error (.malformed cause) => .error (.fault (.shape (.notJson path cause)))
    | .error .longInteger => .error .longInteger
    | .ok data =>
      match Schema.ofJson data with
      | .ok schema => .ok schema
      | .error fault => .error (.fault fault)

/-! ### Running -/

/-- Where a run reads from and what it writes where. -/
structure Options.Paths where
  schema : String
  spec : String
  directory : String
  deriving DecidableEq, Repr

/-- The paths of a run that is started in `root`. -/
def Options.paths (options : Options) (root : String) : Options.Paths :=
  let schema := Path.join root options.schema
  { schema
    spec := if options.spec.isEmpty then Path.stem (Path.file schema) else options.spec
    directory :=
      if options.output.isEmpty then Path.directory schema else Path.join root options.output }

section
variable {m : Type → Type} [Monad m] [Files m]

def note (notice : Notice) : ExceptT Failure m Unit := ExceptT.lift (Files.note notice.line)

/-- A step on files as a step of a run. -/
def onFiles {α : Type} (step : ExceptT FileError m α) : ExceptT Failure m α :=
  step.adapt Failure.file

/-- A step on the schema as a step of a run. -/
def onSchema {α : Type} (step : Except Fault α) : ExceptT Failure m α :=
  ExceptT.mk (pure (step.mapError Failure.fault))

/-- Reads the schema, writes the header, and gives back the paths of what was written. -/
def run (options : Options) (root : String) : ExceptT Failure m (List String) := do
  let paths := options.paths root
  let bytes ← onFiles (Files.readFile paths.schema)
  let schema ← ExceptT.mk (pure (Schema.ofBytes paths.schema bytes))
  let modules ← onSchema schema.nativeModules
  note (.loaded paths.schema modules.length)
  let header ← onSchema schema.header
  let written ← onFiles (Files.writeOutputs paths.directory [(headerFile paths.spec, header)])
  written.forM fun path => note (.wrote path)
  return written

end

end NativeHeader
