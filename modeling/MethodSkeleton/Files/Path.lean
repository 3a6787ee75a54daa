/-
# `MethodSkeleton.Files.Path` — paths as they are written

A path is kept as the text that was given for it, because messages repeat that text.  Its
parts are what slashes separate; empty parts and single dots lead nowhere, but for a dot at
the start of a relative path, which stands for where one is.
-/
import MethodSkeleton.Text.Search

namespace MethodSkeleton.Path

/-- The parts of a path, empty ones included. -/
def parts (path : String) : List String := splitText "/" path

/-- The path of the given parts. -/
def ofParts (ps : List String) : String := "/".intercalate ps

/-- Whether a path starts at the root. -/
def isAbsolute (path : String) : Bool := path.toList.head? == some '/'

/-- A path read from inside a directory: an absolute path is itself. -/
def join (directory path : String) : String :=
  if isAbsolute path ∨ directory = "" then path
  else if directory.toList.getLast? = some '/' then directory ++ path
  else directory ++ "/" ++ path

/-- Whether a part leads nowhere. -/
def isIdle (part : String) : Bool := part == "" || part == "."

/-- The parts without the idle ones at the end. -/
def trimEnd (ps : List String) : List String := (ps.reverse.dropWhile isIdle).reverse

/-- The directory that a path lies in; the root and the empty path lie in none. -/
def parent? (path : String) : Option String :=
  match parts path with
  | [] => none
  | first :: rest =>
    if trimEnd rest = [] then if first = "" then none else some ""
    else
      let above := trimEnd (trimEnd rest).dropLast
      if above = [] ∧ first = "" then some "/" else some (ofParts (first :: above))

end MethodSkeleton.Path
