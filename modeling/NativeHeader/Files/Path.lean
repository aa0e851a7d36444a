/-! Paths as texts: components between slashes.

A path is taken apart at its last slash, put together with one, and is never
tidied up: what stands between two slashes stays there until the path is followed. -/
namespace NativeHeader.Path

def isAbsolute (path : String) : Bool := path.toList.head? = some '/'

/-- A path seen from a directory; an absolute path is seen alike from everywhere. -/
def join (directory path : String) : String :=
  if isAbsolute path then path
  else if directory.isEmpty || directory.toList.getLast? = some '/' then directory ++ path
  else directory ++ "/" ++ path

/-- A text without the slashes at its end. -/
def withoutSlashes (s : List Char) : List Char := (s.reverse.dropWhile (· = '/')).reverse

/-- What stands before the last slash and after it. The slashes at the end of the
first part are dropped unless there is nothing else in it. -/
def split (path : String) : String × String :=
  let reversed := path.toList.reverse
  let last := (reversed.takeWhile (· ≠ '/')).reverse
  let before := (reversed.dropWhile (· ≠ '/')).reverse
  let trimmed := withoutSlashes before
  (String.ofList (if trimmed.isEmpty then before else trimmed), String.ofList last)

/-- The directory of a path. -/
def directory (path : String) : String := (split path).1

/-- The file of a path. -/
def file (path : String) : String := (split path).2

/-- A file name without its last dot and what follows it. Dots at the beginning
belong to the name. -/
def stem (name : String) : String :=
  match name.toList.reverse.dropWhile (· ≠ '.') with
  | [] => name
  | _ :: before => if before.all (· = '.') then name else String.ofList before.reverse

/-- The parts between slashes. -/
def cut : List Char → List (List Char)
  | [] => [[]]
  | c :: rest =>
    if c = '/' then [] :: cut rest
    else
      match cut rest with
      | [] => [[c]]
      | first :: more => (c :: first) :: more

/-- The components of a path, empty ones included. -/
def components (path : String) : List String := (cut path.toList).map String.ofList

end NativeHeader.Path
