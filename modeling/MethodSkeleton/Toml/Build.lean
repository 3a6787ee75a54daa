/-
# `MethodSkeleton.Toml.Build` — putting tables together

No key is given twice and no table is defined twice.  A dotted key goes through tables that
dotted keys or headers have implied, and ends in one that dotted keys made; a header goes
through any table that was not written inline, and through the last element of an array of
tables.
-/
import MethodSkeleton.Toml.Value

namespace MethodSkeleton.Toml

/-- The entries with the value of `key` put in its place, or added at the end. -/
def setEntry (key : String) (v : Value) : Entries → Entries
  | [] => [(key, v)]
  | (k, w) :: es => if k = key then (k, v) :: es else (k, w) :: setEntry key v es

/-- The value at the end of a dotted key that nothing has been defined on. -/
def dottedChain (v : Value) : List String → String → Value
  | [], key => .table .dotted [(key, v)]
  | k :: path, key => .table .dotted [(k, dottedChain v path key)]

/-- Gives a value to the key `key` behind the dotted keys `path`. -/
def putKey (v : Value) : List String → String → Entries → Option Entries
  | [], key, es => if (es.lookup key).isSome then none else some (es ++ [(key, v)])
  | k :: path, key, es =>
    match es.lookup k with
    | none => some (es ++ [(k, dottedChain v path key)])
    | some (.table origin inner) =>
      if origin = .dotted ∨ (origin = .implied ∧ path ≠ []) then
        (putKey v path key inner).map fun inner => setEntry k (.table origin inner) es
      else none
    | some _ => none

/-- A key with its value: the keys in front of the last, the last, and the value. -/
structure Pair where
  path : List String
  key : String
  value : Value

/-- Puts pairs in, one after the other. -/
def putPairs : List Pair → Entries → Option Entries
  | [], es => some es
  | p :: ps, es => (putKey p.value p.path p.key es).bind (putPairs ps)

/-- The last element of a list replaced by what a function makes of it. -/
def changeLast {α : Type} (f : α → Option α) : List α → Option (List α)
  | [] => none
  | [a] => (f a).map ([·])
  | a :: b :: as => (changeLast f (b :: as)).map (a :: ·)

/-- Changes the entries of the table that the keys `path` lead to, making tables on the way
where there are none. -/
def changeAt (f : Entries → Option Entries) : List String → Entries → Option Entries
  | [], es => f es
  | k :: path, es =>
    match es.lookup k with
    | none => (changeAt f path []).map fun inner => es ++ [(k, .table .implied inner)]
    | some (.table .inline _) => none
    | some (.table origin inner) =>
      (changeAt f path inner).map fun inner => setEntry k (.table origin inner) es
    | some (.tables items) =>
      (changeLast (changeAt f path) items).map fun items => setEntry k (.tables items) es
    | some _ => none

/-- Defines the table `key` with the given pairs.  It may have been implied before, but not
defined. -/
def defineTable (pairs : List Pair) (key : String) (es : Entries) : Option Entries :=
  match es.lookup key with
  | none => (putPairs pairs []).map fun inner => es ++ [(key, .table .header inner)]
  | some (.table .implied inner) =>
    (putPairs pairs inner).map fun inner => setEntry key (.table .header inner) es
  | some _ => none

/-- Adds a table with the given pairs to the array of tables `key`. -/
def appendTable (pairs : List Pair) (key : String) (es : Entries) : Option Entries :=
  (putPairs pairs []).bind fun inner =>
    match es.lookup key with
    | none => some (es ++ [(key, .tables [inner])])
    | some (.tables items) => some (setEntry key (.tables (items ++ [inner])) es)
    | some _ => none

/-- A header and the pairs below it; `many` says that it adds to an array of tables. -/
structure Section where
  many : Bool
  path : List String
  key : String
  pairs : List Pair

/-- Adds a section. -/
def addSection (s : Section) (es : Entries) : Option Entries :=
  changeAt ((if s.many then appendTable else defineTable) s.pairs s.key) s.path es

/-- The table of a document: the pairs before the first header, then the sections. -/
def build (pairs : List Pair) (sections : List Section) : Option Entries :=
  (putPairs pairs []).bind fun es => sections.foldlM (fun es s => addSection s es) es

end MethodSkeleton.Toml
