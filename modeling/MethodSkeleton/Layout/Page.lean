/-
# `MethodSkeleton.Layout.Page` — the layout of a whole source

A page is its rows, each with a mark that says whether a blank line comes before it.  Runs
of blank lines count once, and none stands at the top or at the bottom.  `reformat` is the
whole of it: refuse what cannot be laid out, arrange the lines one after the other, write
the page.
-/
import MethodSkeleton.Layout.Row
import MethodSkeleton.Source.Utf8

namespace MethodSkeleton

/-- A row and whether a blank line comes before it. -/
structure PageRow where
  apart : Bool
  row : Row
deriving DecidableEq, Repr

/-- Arranges lines in front of which `openings` are open; `apart` says that a blank line has
just been passed. -/
def arrangeLines : List Opening → Bool → List (List Piece) → List PageRow
  | _, _, [] => []
  | openings, _, [] :: lines => arrangeLines openings true lines
  | openings, apart, (p :: line) :: lines =>
    let (row, openings) := arrangeRow openings (p :: line)
    ⟨apart, row⟩ :: arrangeLines openings false lines

/-- The text of rows that follow another row. -/
def renderBelow (rows : List PageRow) : List Char :=
  rows.flatMap fun r => (if r.apart then ['\n', '\n'] else ['\n']) ++ r.row.render

/-- The text of a page; `closed` says that its last row is ended by a line feed. -/
def renderPage (closed : Bool) : List PageRow → List Char
  | [] => []
  | r :: rows => r.row.render ++ renderBelow rows ++ if closed then ['\n'] else []

/-- The layout of the tokens of a source. -/
def layout (pieces : List Piece) : List Char :=
  renderPage (pieces.any (·.kind == .newline)) (arrangeLines [] false (Piece.lines pieces))

/-- Lays a text out anew, or says why it cannot be. -/
def reformat (source : String) : Except LayoutError String :=
  let xs := lexemes source.toList
  match layoutFault? (Lexeme.locate 0 xs) with
  | some e => .error e
  | none => .ok (String.ofList (layout (Piece.ofLexemes none xs)))

/-- Lays out the text that bytes encode. -/
def reformatBytes (bytes : ByteArray) : Except LayoutError String :=
  match decodeUtf8 bytes with
  | .ok source => reformat source
  | .error valid => .error ⟨.invalidUtf8, ⟨valid, bytes.size⟩⟩

end MethodSkeleton
