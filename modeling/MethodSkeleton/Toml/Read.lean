/-
# `MethodSkeleton.Toml.Read` — reading a TOML document

A document is its lines: pairs, headers, comments and blanks.  The lines are collected into
sections, which are put together only afterwards.  Arrays and inline tables nest at most
`nestingLimit` deep and no key has more parts than that; the readers of lists, which take
something away from the text at every turn, count their turns down from its length.
-/
import MethodSkeleton.Toml.Build
import MethodSkeleton.Toml.Number

namespace MethodSkeleton.Toml

/-- How deep values may nest, and how many parts a key may have. -/
def nestingLimit : Nat := 79

/-! ## Blanks and comments -/

/-- What follows spaces and tabs. -/
def skipSpaces (cs : List Char) : List Char := cs.dropWhile isSpace

/-- What follows a comment, if there is one. -/
def skipComment : List Char → List Char
  | '#' :: cs => cs.dropWhile isPlain
  | cs => cs

/-- What follows the end of a line: blanks, a comment and a line break, which may be missing
at the end of the text. -/
def lineEnd? (cs : List Char) : Option (List Char) :=
  match skipComment (skipSpaces cs) with
  | [] => some []
  | cs => afterNewline? cs

/-- What follows blanks, comments and line breaks; at most as many lines as `turns`. -/
def skipLines : Nat → List Char → Option (List Char)
  | 0, cs => some cs
  | turns + 1, cs =>
    match skipSpaces cs with
    | '#' :: cs => (afterNewline? (cs.dropWhile isPlain)).bind (skipLines turns)
    | cs =>
      match afterNewline? cs with
      | some cs => skipLines turns cs
      | none => some cs

/-! ## Keys -/

/-- The characters of a key without quotes. -/
def isBare (c : Char) : Bool := c.isAlphanum || c == '_' || c == '-'

/-- Reads one part of a key. -/
def simpleKey? : List Char → Option (String × List Char)
  | '"' :: cs => (basicFrom? 0 cs).map fun r => (String.ofList r.1, r.2)
  | '\'' :: cs => (literal? cs).map fun r => (String.ofList r.1, r.2)
  | cs =>
    if cs.takeWhile isBare = [] then none
    else some (String.ofList (cs.takeWhile isBare), cs.dropWhile isBare)

/-- Reads a key, in at most as many parts as `parts`, with the blanks around it; the last
part is answered apart. -/
def key? : Nat → List Char → Option ((List String × String) × List Char)
  | 0, _ => none
  | parts + 1, cs =>
    (simpleKey? (skipSpaces cs)).bind fun (k, cs) =>
      match skipSpaces cs with
      | '.' :: cs => (key? parts cs).map fun ((path, key), cs) => ((k :: path, key), cs)
      | cs => some (([], k), cs)

/-! ## Values -/

/-- Reads the items of an array, behind its bracket or a comma. -/
def items? (value? : List Char → Option (Value × List Char)) :
    Nat → List Char → Option (List Value × List Char)
  | 0, _ => none
  | turns + 1, cs =>
    (skipLines cs.length cs).bind fun cs =>
      match cs with
      | ']' :: cs => some ([], cs)
      | cs =>
        (value? cs).bind fun (v, cs) =>
          (skipLines cs.length cs).bind fun cs =>
            match cs with
            | ',' :: cs => (items? value? turns cs).map fun (vs, cs) => (v :: vs, cs)
            | ']' :: cs => some ([v], cs)
            | _ => none

/-- Reads a pair. -/
def pair? (value? : List Char → Option (Value × List Char)) (cs : List Char) :
    Option (Pair × List Char) :=
  (key? nestingLimit cs).bind fun ((path, key), cs) =>
    match cs with
    | '=' :: cs => (value? (skipSpaces cs)).map fun (v, cs) => (⟨path, key, v⟩, cs)
    | _ => none

/-- Reads the pairs of an inline table, at least one. -/
def inlinePairs? (value? : List Char → Option (Value × List Char)) :
    Nat → List Char → Option (List Pair × List Char)
  | 0, _ => none
  | turns + 1, cs =>
    (pair? value? cs).bind fun (p, cs) =>
      match skipSpaces cs with
      | ',' :: cs => (inlinePairs? value? turns cs).map fun (ps, cs) => (p :: ps, cs)
      | '}' :: cs => some ([p], cs)
      | _ => none

/-- Reads an inline table, behind its brace. -/
def inlineTable? (value? : List Char → Option (Value × List Char)) (cs : List Char) :
    Option (Value × List Char) :=
  match skipSpaces cs with
  | '}' :: cs => some (.table .inline [], cs)
  | cs =>
    (inlinePairs? value? cs.length cs).bind fun (ps, cs) =>
      (putPairs ps []).map fun es => (.table .inline es, cs)

/-- Reads a value that nests at most `depth` deep. -/
def value? : Nat → List Char → Option (Value × List Char)
  | depth, cs =>
    match cs with
    | '"' :: _ | '\'' :: _ => (string? cs).map fun (s, cs) => (.string s, cs)
    | 't' :: 'r' :: 'u' :: 'e' :: cs => some (.boolean true, cs)
    | 'f' :: 'a' :: 'l' :: 's' :: 'e' :: cs => some (.boolean false, cs)
    | '[' :: cs =>
      match depth with
      | 0 => none
      | depth + 1 => (items? (value? depth) (cs.length + 1) cs).map fun (vs, cs) => (.array vs, cs)
    | '{' :: cs =>
      match depth with
      | 0 => none
      | depth + 1 => inlineTable? (value? depth) cs
    | cs => number? cs

/-! ## Lines -/

/-- A line that says something. -/
inductive Line
  | header (many : Bool) (path : List String) (key : String)
  | pair (p : Pair)

/-- Reads a header. -/
def header? : List Char → Option (Line × List Char)
  | '[' :: '[' :: cs =>
    (key? nestingLimit cs).bind fun ((path, key), cs) =>
      match cs with
      | ']' :: ']' :: cs => some (.header true path key, cs)
      | _ => none
  | '[' :: cs =>
    (key? nestingLimit cs).bind fun ((path, key), cs) =>
      match cs with
      | ']' :: cs => some (.header false path key, cs)
      | _ => none
  | _ => none

/-- Reads a line that says something, without its end. -/
def line? : List Char → Option (Line × List Char)
  | '[' :: cs => header? ('[' :: cs)
  | cs => (pair? (value? nestingLimit) cs).map fun (p, cs) => (.pair p, cs)

/-- Reads all lines. -/
def lines? : Nat → List Char → Option (List Line)
  | 0, _ => none
  | turns + 1, cs =>
    match skipSpaces cs with
    | [] => some []
    | cs =>
      match lineEnd? cs with
      | some cs => lines? turns cs
      | none =>
        (line? cs).bind fun (line, cs) =>
          (lineEnd? cs).bind fun cs => (lines? turns cs).map (line :: ·)

/-- The pairs in front of the first header, and the sections. -/
def sections : List Line → List Pair × List Section
  | [] => ([], [])
  | .pair p :: lines =>
    let (ps, ss) := sections lines
    (p :: ps, ss)
  | .header many path key :: lines =>
    let (ps, ss) := sections lines
    ([], ⟨many, path, key, ps⟩ :: ss)

/-- The text behind a byte order mark, if there is one. -/
def skipByteOrderMark : List Char → List Char
  | '\uFEFF' :: cs => cs
  | cs => cs

/-- The table that a document defines. -/
def read? (s : String) : Option Entries :=
  let cs := skipByteOrderMark s.toList
  (lines? (cs.length + 1) cs).bind fun lines =>
    let (pairs, ss) := sections lines
    build pairs ss

end MethodSkeleton.Toml
