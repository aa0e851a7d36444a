import NativeHeader.Files.Path

/-! A tree of directories and files, and what following a path in it gives.

A `Location` is the list of names from the top down. A path is followed component
by component: each has to be in a directory, an empty component and `.` stay where
they are, and `..` goes up. The last component alone may be missing, and only where
something is to be created. Every path starts at the top. -/
namespace NativeHeader

inductive Entry where
  | directory
  | file (content : ByteArray)
  deriving Inhabited

/-- Files are equal if their bytes are. -/
instance : DecidableEq Entry
  | .directory, .directory => .isTrue rfl
  | .directory, .file _ | .file _, .directory => .isFalse nofun
  | .file ⟨a⟩, .file ⟨b⟩ =>
    if h : a = b then .isTrue (by rw [h]) else .isFalse fun e => h (by cases e; rfl)

/-- The names from the top of the tree down. -/
abbrev Location := List String

/-- Why a file could not be worked on. -/
inductive FileError where
  | notFound
  | notADirectory
  | isADirectory
  | alreadyThere
  | nameTooLong
  | nullCharacter
  | other (detail : String)
  deriving DecidableEq, Repr

def FileError.message : FileError → String
  | .notFound => "No such file or directory"
  | .notADirectory => "Not a directory"
  | .isADirectory => "Is a directory"
  | .alreadyThere => "File exists"
  | .nameTooLong => "File name too long"
  | .nullCharacter => "embedded null character"
  | .other detail => detail

structure FileTree where
  entries : List (Location × Entry) := []

namespace FileTree

/-- What is at a location. The top is a directory. -/
def get? (t : FileTree) (location : Location) : Option Entry :=
  if location.isEmpty then some .directory else t.entries.lookup location

/-- Puts an entry at a location, in the place of what was there. -/
def put (t : FileTree) (location : Location) (entry : Entry) : FileTree :=
  ⟨(location, entry) :: t.entries.filter (·.1 ≠ location)⟩

/-! ### Following a path -/

/-- The most bytes of a name. -/
def nameLimit : Nat := 255

/-- The most bytes of a path. -/
def pathLimit : Nat := 4095

/-- The location that components lead to from a directory. -/
def follow (t : FileTree) : (here : Location) → List String → Except FileError Location
  | here, [] => .ok here
  | here, name :: rest =>
    match t.get? here with
    | none => .error .notFound
    | some (.file _) => .error .notADirectory
    | some .directory =>
      if name = "" ∨ name = "." then t.follow here rest
      else if name = ".." then t.follow here.dropLast rest
      else if name.utf8ByteSize > nameLimit then .error .nameTooLong
      else t.follow (here ++ [name]) rest

/-- Refuses paths that no system call takes. -/
def checkPath (path : String) : Except FileError Unit :=
  if path.toList.contains '\x00' then .error .nullCharacter
  else if path.isEmpty then .error .notFound
  else if path.utf8ByteSize > pathLimit then .error .nameTooLong
  else .ok ()

/-- The location of a path and what is there. -/
def find (t : FileTree) (path : String) : Except FileError (Location × Entry) := do
  checkPath path
  let location ← t.follow [] (Path.components path)
  match t.get? location with
  | some entry => return (location, entry)
  | none => throw .notFound

/-- Where a path leads if its last component is left out, and that component with
a mark for slashes after it. Without a component the path is the top. -/
def findParent (t : FileTree) (path : String) : Except FileError (Location × String × Bool) := do
  checkPath path
  let parts := Path.components path
  let named := (parts.reverse.dropWhile (· = "")).reverse
  let parent ← t.follow [] named.dropLast
  match t.get? parent with
  | none => throw .notFound
  | some (.file _) => throw .notADirectory
  | some .directory => return (parent, named.getLastD ".", named.length < parts.length)

/-! ### Operations -/

/-- Whether a path leads to something. -/
def isThere (t : FileTree) (path : String) : Bool := (t.find path).toOption.isSome

def isDirectory (t : FileTree) (path : String) : Bool :=
  match t.find path with
  | .ok (_, .directory) => true
  | _ => false

def readFile (t : FileTree) (path : String) : Except FileError ByteArray := do
  match ← t.find path with
  | (_, .file content) => return content
  | (_, .directory) => throw .isADirectory

/-- Makes one directory; everything above it has to be there. -/
def makeDirectory (t : FileTree) (path : String) : Except FileError FileTree := do
  let (parent, name, _) ← t.findParent path
  if name = "." ∨ name = ".." then throw .alreadyThere
  else if name.utf8ByteSize > nameLimit then throw .nameTooLong
  else if (t.get? (parent ++ [name])).isSome then throw .alreadyThere
  else return t.put (parent ++ [name]) .directory

/-- Writes a file, a new one or over an old one. -/
def writeFile (t : FileTree) (path : String) (content : ByteArray) : Except FileError FileTree := do
  let (parent, name, slashes) ← t.findParent path
  if name = "." ∨ name = ".." ∨ slashes then throw .isADirectory
  else if name.utf8ByteSize > nameLimit then throw .nameTooLong
  else
    match t.get? (parent ++ [name]) with
    | some .directory => throw .isADirectory
    | _ => return t.put (parent ++ [name]) (.file content)

/-! ### Trees side by side -/

/-- Puts a file and the directories above it. -/
def insert (t : FileTree) (location : Location) (content : ByteArray) : FileTree :=
  let above := (List.range location.length).tail.map fun size => location.take size
  (above.foldl (fun t directory => t.put directory .directory) t).put location (.file content)

/-- The path of an entry from a directory down, if it is below it; the path of a
directory ends in a slash. -/
def pathBelow? (root : Location) : Location × Entry → Option (String × Entry)
  | (location, entry) =>
    if root.isPrefixOf location && root.length < location.length then
      let path := "/".intercalate (location.drop root.length)
      some (if entry = .directory then path ++ "/" else path, entry)
    else none

/-- What is below a directory and was not there before, or was something else, in
the order of the paths. -/
def changes (before after : FileTree) (root : Location) : List (String × Entry) :=
  let new := after.entries.filter fun (location, entry) => before.get? location ≠ some entry
  (new.filterMap (pathBelow? root)).mergeSort fun a b => decide (a.1 ≤ b.1)

end FileTree

end NativeHeader
