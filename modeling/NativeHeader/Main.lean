import NativeHeader.CommandLine.Program

/-! The program on a disk. The log goes to standard error. -/
namespace NativeHeader

/-- What the operating system says, as a cause. -/
def FileError.ofSystem : IO.Error → FileError
  | .noFileOrDirectory .. => .notFound
  | .alreadyExists .. => .alreadyThere
  | .inappropriateType _ code _ => if code = 21 ∨ code = -21 then .isADirectory else .notADirectory
  | error => .other (toString error)

/-- An action on the disk as a step that may fail. -/
def onDisk {α : Type} (action : IO α) : ExceptT FileError IO α :=
  ExceptT.mk <|
    tryCatch (Except.ok <$> action) fun error => return .error (.ofSystem error)

/-- Whether something is at a path, and is as asked. -/
def isOnDisk (path : String) (test : IO.FS.Metadata → Bool) : IO Bool :=
  tryCatch (do return test (← (← IO.FS.realPath path).metadata)) fun _ => return false

instance : Files IO where
  readFile path := onDisk (IO.FS.readBinFile path)
  makeDirectory path := onDisk (IO.FS.createDir path)
  writeFile path content := onDisk (IO.FS.writeBinFile path content)
  isThere path := isOnDisk path fun _ => true
  isDirectory path := isOnDisk path (·.type == .dir)
  note line := IO.eprintln line

end NativeHeader

open NativeHeader in
def main (words : List String) : IO UInt32 := do
  match ← CommandLine.program words (← IO.currentDir).toString with
  | .finished status => return status.toUInt32
  | .stopped status =>
    if status = 0 then IO.println CommandLine.usage else IO.eprintln CommandLine.usage
    return status.toUInt32
  | .failed cause =>
    IO.eprintln cause.message
    return 1
