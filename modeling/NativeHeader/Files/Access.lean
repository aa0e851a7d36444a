import NativeHeader.Files.Tree

/-! Working on files, in a tree held in memory or on a disk.

`Files m` is what the program needs of a file system, and a log. Everything above
it is written once for any `m`; `Workspace` is the instance that can be reasoned
about. -/
namespace NativeHeader

/-- The operations on files that a monad offers. -/
class Files (m : Type → Type) where
  readFile : String → ExceptT FileError m ByteArray
  /-- Makes one directory. -/
  makeDirectory : String → ExceptT FileError m Unit
  writeFile : String → ByteArray → ExceptT FileError m Unit
  isThere : String → m Bool
  isDirectory : String → m Bool
  /-- Puts a line into the log. -/
  note : String → m Unit

namespace Files

variable {m : Type → Type} [Monad m] [Files m]

/-- Makes a directory unless it is there. -/
def ensureDirectory (path : String) : ExceptT FileError m Unit :=
  tryCatch (Files.makeDirectory path) fun cause => do
    if ← Files.isDirectory (m := m) path then return () else throw cause

/-- Makes a directory and what is missing above it, the topmost first. `depth`
bounds the number of directories; the length of the path is enough. -/
def makeDirectoriesTo : (depth : Nat) → String → ExceptT FileError m Unit
  | 0, path => ensureDirectory path
  | depth + 1, path => do
    let (above, name) :=
      if (Path.split path).2.isEmpty then Path.split (Path.split path).1 else Path.split path
    if above.isEmpty || name.isEmpty then ensureDirectory path
    else if ← Files.isThere (m := m) above then ensureDirectory path
    else
      tryCatch (makeDirectoriesTo depth above) fun
        | .alreadyThere => return ()
        | cause => throw cause
      if name = "." then return () else ensureDirectory path

def makeDirectories (path : String) : ExceptT FileError m Unit :=
  makeDirectoriesTo path.length path

/-- Writes texts into a directory, in order, and gives back their paths. A text
that cannot be written ends it; the ones before it stay. -/
def writeTexts (directory : String) (texts : List (String × String)) :
    ExceptT FileError m (List String) :=
  texts.mapM fun (name, text) => do
    let path := Path.join directory name
    Files.writeFile path text.toUTF8
    return path

/-- Writes texts into a directory that is made if need be. -/
def writeOutputs (directory : String) (texts : List (String × String)) :
    ExceptT FileError m (List String) := do
  makeDirectories directory
  writeTexts directory texts

end Files

/-! ### The instance in memory -/

/-- A file tree and the lines of the log so far. -/
structure Workspace where
  tree : FileTree := {}
  log : List String := []

/-- Keeps a changed tree, or the cause why there is none. -/
def Workspace.update (w : Workspace) : Except FileError FileTree → Except FileError Unit × Workspace
  | .ok tree => (.ok (), { w with tree })
  | .error cause => (.error cause, w)

instance : Files (StateM Workspace) where
  readFile path := fun w => (w.tree.readFile path, w)
  makeDirectory path := fun w => w.update (w.tree.makeDirectory path)
  writeFile path content := fun w => w.update (w.tree.writeFile path content)
  isThere path := fun w => (w.tree.isThere path, w)
  isDirectory path := fun w => (w.tree.isDirectory path, w)
  note line := fun w => ((), { w with log := w.log ++ [line] })

end NativeHeader
