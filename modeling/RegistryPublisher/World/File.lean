import RegistryPublisher.Text.Utf8
import RegistryPublisher.World.Path

/-!
# Files

- `FileError` lists why a file cannot be read, and `PathKind` what there is at a path;
- `FileTree` is a tree of folders and files, and `FileTree.read` reads a path in it from a current directory.
-/

namespace RegistryPublisher

/-- Why a file cannot be read. -/
inductive FileError where
  | notFound
  | notDirectory
  | isDirectory
  | nameTooLong
  | nulInPath
  | other (message : String)
  deriving DecidableEq, Repr

/-- The reason in words. -/
def FileError.message : FileError → String
  | notFound => "No such file or directory (os error 2)"
  | notDirectory => "Not a directory (os error 20)"
  | isDirectory => "Is a directory (os error 21)"
  | nameTooLong => "File name too long (os error 36)"
  | nulInPath => "file name contained an unexpected NUL byte"
  | other message => message

/-- What there is at a path. -/
inductive PathKind where
  | file
  /-- No regular file, but a folder or a device for instance. -/
  | other
  deriving DecidableEq, Repr

/-- What there is at a path if every file can be read, by what reading it gives. -/
def PathKind.ofContent : Except FileError Bytes → Except FileError PathKind
  | .ok _ => .ok .file
  | .error .isDirectory => .ok .other
  | .error e => .error e

/-- A file with its content, or a folder. -/
inductive FileNode where
  | file (content : Bytes)
  | folder
  deriving DecidableEq, Repr

/-- The nodes below the root, by the names on the way to them. -/
structure FileTree where
  nodes : List (List String × FileNode)
  deriving DecidableEq, Repr

namespace FileTree

/-- What is at a place. -/
def node? (t : FileTree) (place : List String) : Option FileNode :=
  if place.isEmpty then some .folder else t.nodes.lookup place

/-- Removes a place and everything below it. -/
def remove (t : FileTree) (place : List String) : FileTree := ⟨t.nodes.filter fun n => !(place.isPrefixOf n.1)⟩

/-- Puts a node at a place. -/
def put (t : FileTree) (place : List String) (node : FileNode) : FileTree :=
  ⟨(t.nodes.filter fun n => n.1 != place) ++ [(place, node)]⟩

/-- Makes a folder and those above it. -/
def putFolder (t : FileTree) (place : List String) : FileTree :=
  ((Path.beginnings place).filter (!·.isEmpty)).foldl (fun t p => t.put p .folder) t

/-- Puts a file, and the folders above it. -/
def putFile (t : FileTree) (place : List String) (content : Bytes) : FileTree :=
  (t.putFolder place.dropLast).put place (.file content)

/-- The longest name a node can have, in bytes. -/
def maxName : Nat := 255

/-- The longest path that can be looked up, in bytes. -/
def maxPath : Nat := 4095

/-- One step along a path. An empty name, as after a final slash, stays where it is, but only in a folder. -/
def step (t : FileTree) (place : List String) (name : String) : Except FileError (List String) :=
  match t.node? place with
  | none => .error .notFound
  | some (.file _) => .error .notDirectory
  | some .folder =>
    if name = "" ∨ name = "." then .ok place
    else if name = ".." then .ok place.dropLast
    else if maxName < name.utf8ByteSize then .error .nameTooLong
    else if (t.node? (place ++ [name])).isSome then .ok (place ++ [name])
    else .error .notFound

/-- The place that a path leads to from a directory. -/
def resolve (t : FileTree) (directory : List String) (path : String) : Except FileError (List String) :=
  if path.toList.contains (Char.ofNat 0) then .error .nulInPath
  else if path.isEmpty then .error .notFound
  else if maxPath < path.utf8ByteSize then .error .nameTooLong
  else (Path.names path).foldlM t.step (if Path.isAbsolute path then [] else directory)

/-- The content of the file that a path leads to from a directory. -/
def read (t : FileTree) (directory : List String) (path : String) : Except FileError Bytes := do
  match t.node? (← t.resolve directory path) with
  | none => .error .notFound
  | some .folder => .error .isDirectory
  | some (.file content) => .ok content

end FileTree

end RegistryPublisher
