/-
# `MethodSkeleton.Toml.Value` — TOML documents as trees

A table remembers how it came to be, because that decides what may be added to it later:
by a header of its own, by being on the way to another header, by a dotted key, or as an
inline table, which is complete as it is written.  Numbers and dates that are well formed
need no value here; their kind is kept.
-/

namespace MethodSkeleton.Toml

/-- How a table came to be. -/
inductive Origin
  | header
  | implied
  | dotted
  | inline
deriving DecidableEq, Repr

/-- A TOML value. -/
inductive Value
  | string (s : String)
  | boolean (b : Bool)
  | integer (i : Int)
  | float
  | datetime
  | array (items : List Value)
  | table (origin : Origin) (entries : List (String × Value))
  | tables (items : List (List (String × Value)))
deriving Repr

/-- The entries of a table, in the order in which they were written. -/
abbrev Entries := List (String × Value)

end MethodSkeleton.Toml
