/-
# `MethodSkeleton.Toml.Reader` — TOML documents

A document written in TOML is its table.  How tables came to be is not told any more, and neither
are numbers, dates and arrays.
-/
import MethodSkeleton.Config.Document
import MethodSkeleton.Toml.Read

namespace MethodSkeleton.Toml

mutual

/-- A value as a document gives it. -/
def Value.toDocument : Value → Document.Value
  | .string s => .text s
  | .boolean b => .flag b
  | .table _ entries => .table (entriesToDocument entries)
  | .integer _ | .float | .datetime | .array _ | .tables _ => .other

/-- The entries of a table as a document. -/
def entriesToDocument : List (String × Value) → Document
  | [] => []
  | (key, v) :: entries => (key, v.toDocument) :: entriesToDocument entries

end

/-- Reads TOML. -/
def reader : Document.Reader where
  read text :=
    match read? text with
    | some entries => .ok (entriesToDocument entries)
    | none => .error "not a TOML document"
  refusal _ := "not a configuration"

end MethodSkeleton.Toml
