/-
# `MethodSkeleton.Template.Element` — the elements of a template text

A template text is plain text with outputs, in double braces, and tags, in a brace and a
percent sign.  As with source texts, `elementAt` says what starts at a character and how
many further characters belong to it, and the cutting is recursion on the text.

A dash next to an opening or closing mark takes the white space on its side into the
element, so that it is written nowhere.  An element keeps its own text: inside `raw` it is
written as it stands.  A mark that opens nothing that can be read is broken off as an
element of one character.
-/
import MethodSkeleton.Template.Term

namespace MethodSkeleton

/-- What an element is. -/
inductive ElementClass
  | text
  | output (subject : Expression) (calls : List FilterCall)
  | tag (name : String) (terms : List Term)
  | broken
deriving Repr

/-- A stretch of a template text and what it is. -/
structure Element where
  is : ElementClass
  source : List Char
deriving Repr

/-! ## Marks -/

/-- What follows an opening mark and the white space it takes; `opener` is the mark's second
character. -/
def opening? (opener : Char) (cs : List Char) : Option (List Char) :=
  match dropSpace cs, cs with
  | '{' :: c :: '-' :: rest, '{' :: d :: plain =>
    if c = opener then some rest else if d = opener then some plain else none
  | '{' :: c :: '-' :: rest, _ => if c = opener then some rest else none
  | _, '{' :: d :: plain => if d = opener then some plain else none
  | _, _ => none

/-- What follows a closing mark and the white space it takes; `closer` is the mark's first
character but for a dash. -/
def closing? (closer : Char) : List Char → Option (List Char)
  | '-' :: c :: '}' :: cs => if c = closer then some (dropSpace cs) else none
  | c :: '}' :: cs => if c = closer then some cs else none
  | _ => none

/-- Whether an output or a tag may begin here. -/
def opensHere (cs : List Char) : Bool :=
  (opening? '{' cs).isSome || (opening? '%' cs).isSome

/-! ## Elements -/

/-- Reads an output. -/
def output? (cs : List Char) : Option (ElementClass × List Char) :=
  (opening? '{' cs).bind fun cs =>
    (chain? (dropSpace cs)).bind fun (subject, calls, rest) =>
      (closing? '}' (dropSpace rest)).map (.output subject calls, ·)

/-- Reads a tag: its name and its terms. -/
def tag? (cs : List Char) : Option (ElementClass × List Char) :=
  (opening? '%' cs).bind fun cs =>
    (readName? (dropSpace cs)).bind fun (name, rest) =>
      let (terms, rest) := readTerms rest
      (closing? '%' (dropSpace rest)).map (.tag name terms, ·)

/-- Reads an output or a tag. -/
def marked? (cs : List Char) : Option (ElementClass × List Char) :=
  match output? cs with
  | some r => some r
  | none => tag? cs

/-- The length of the plain text up to the next place where an element may begin. -/
def textLength : List Char → Nat
  | [] => 0
  | c :: cs => if opensHere (c :: cs) then 0 else textLength cs + 1

/-- What starts at `c`, with `cs` behind it, and how many characters of `cs` it takes. -/
def elementAt (c : Char) (cs : List Char) : ElementClass × Nat :=
  if opensHere (c :: cs) then
    match marked? (c :: cs) with
    | some (is, rest) => (is, cs.length - rest.length)
    | none => (.broken, 0)
  else (.text, textLength cs)

/-- Cuts a template text into elements after skipping its first `skip` characters. -/
def elementsAfter : Nat → List Char → List Element
  | _, [] => []
  | skip + 1, _ :: cs => elementsAfter skip cs
  | 0, c :: cs =>
    let (is, more) := elementAt c cs
    ⟨is, c :: cs.take more⟩ :: elementsAfter more cs

/-- The elements of a template text. -/
def elements (s : String) : List Element := elementsAfter 0 s.toList

end MethodSkeleton
