/-
# `MethodSkeleton.Files.Tree` — a file system that is a value

A tree lists files and directories by the names that lead to them from the root; whatever
lies on the way to a listed entry is a directory.  Paths are followed part by part as a
file system follows them, so every part but the last has to lead to a directory.
-/
import MethodSkeleton.Files.Basic
import MethodSkeleton.Files.Path

namespace MethodSkeleton

/-- Files, with their contents, and directories; and the directory in which relative paths
start. -/
structure FileTree where
  entries : List (List String × Option ByteArray)
  start : List String

/-- What is at a place of a tree. -/
inductive Place
  | file (content : ByteArray)
  | directory
  | nothing

namespace FileTree

/-- What is at the place that names lead to from the root. -/
def place (t : FileTree) (names : List String) : Place :=
  match t.entries.lookup names with
  | some (some content) => .file content
  | some none => .directory
  | none =>
    if names.isPrefixOf t.start || t.entries.any (fun e => names.isPrefixOf e.1) then .directory
    else .nothing

/-- The place that a part leads to from a directory. -/
def step (names : List String) (part : String) : List String :=
  if Path.isIdle part then names
  else if part = ".." then names.dropLast
  else names ++ [part]

/-- Follows parts from a place. -/
def follow (t : FileTree) : List String → List String → Except ReadFault Place
  | names, [] => .ok (t.place names)
  | names, part :: parts =>
    match t.place names with
    | .directory => follow t (step names part) parts
    | .file _ => .error .notDirectory
    | .nothing => .error .notFound

/-- What a path holds. -/
def read (t : FileTree) (path : String) : Except ReadFault ByteArray :=
  if path = "" then .error .notFound
  else
    match t.follow (if Path.isAbsolute path then [] else t.start) (Path.parts path) with
    | .ok (.file content) => .ok content
    | .ok .directory => .error .isDirectory
    | .ok .nothing => .error .notFound
    | .error why => .error why

/-- The tree with an entry added at a path below `directory`. -/
def put (t : FileTree) (directory : List String) (path : String) (content : Option ByteArray) :
    FileTree :=
  { t with entries := (directory ++ Path.parts path, content) :: t.entries }

/-- The tree as a way to read files. -/
def files (t : FileTree) : Files Id where
  read := t.read
  isFile path := (t.read path).isOk

end FileTree

end MethodSkeleton
