import RegistryPublisher.Text.Split

/-!
# Paths

- `Path.join` puts a path below a directory, `Path.ancestors` lists a directory and those above it;
- `Path.fileName?` is the last name of a path.
-/

namespace RegistryPublisher.Path

/-- Whether a path starts at the root. -/
def isAbsolute (path : String) : Bool := path.toList.head? == some '/'

/-- The names between the slashes of a path. -/
def names (path : String) : List String := Text.splitAt '/' path

/-- A path below a directory; an absolute path stays as it is. -/
def join (directory path : String) : String :=
  if isAbsolute path || directory.isEmpty then path
  else if directory.toList.getLast? = some '/' then directory ++ path
  else directory ++ "/" ++ path

/-- The absolute path of some names. -/
def ofNames (names : List String) : String := "/" ++ "/".intercalate names

/-- All beginnings of a list, the longest first. -/
def beginnings {α : Type} (l : List α) : List (List α) := ((List.range (l.length + 1)).map fun n => l.take n).reverse

/-- A directory and those above it, up to the root. -/
def ancestors (directory : String) : List String :=
  (beginnings ((names directory).filter (· ≠ ""))).map ofNames

/-- The last name of a path; none when the path ends in a step upwards or has no name. -/
def fileName? (path : String) : Option String :=
  ((names path).filter fun n => n ≠ "" ∧ n ≠ ".").getLast?.filter (· ≠ "..")

end RegistryPublisher.Path
