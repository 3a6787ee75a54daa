/-
# `MethodSkeleton.Layout.Piece` — tokens as the layout sees them

The layout keeps the line structure of a source and nothing else of its blanks, except
where the tokens alone do not tell how they belong together: for that, each token remembers
whether it was written with a blank in front of it and with one behind it.
-/
import MethodSkeleton.Source.Scan

namespace MethodSkeleton

/-- A token, its text, and the blanks next to it in the source. -/
structure Piece where
  kind : Kind
  text : List Char
  blankBefore : Bool
  blankAfter : Bool
deriving DecidableEq, Repr

namespace Piece

/-- Whether the character in front of a token sets it off; a form feed does not. -/
def setsOff : Option Char → Bool
  | some c => c == ' ' || c == '\t'
  | none => false

/-- Whether the character behind a token ends it visibly; the end of the text does. -/
def endsAt : Option Char → Bool
  | some c => isBlank c || isLineEnd c
  | none => true

/-- The first character of what lexemes spell. -/
def firstChar? (xs : List Lexeme) : Option Char := xs.head?.bind (·.text.head?)

/-- The tokens among lexemes that follow the character `before`. -/
def ofLexemes : Option Char → List Lexeme → List Piece
  | _, [] => []
  | before, x :: xs =>
    let rest := ofLexemes x.text.getLast? xs
    match x.is with
    | .token kind => ⟨kind, x.text, setsOff before, endsAt (firstChar? xs)⟩ :: rest
    | _ => rest

/-- The lines that line breaks cut tokens into; there is one more than there are breaks. -/
def lines : List Piece → List (List Piece)
  | [] => [[]]
  | p :: ps =>
    if p.kind = .newline then [] :: lines ps
    else
      match lines ps with
      | [] => [[p]]
      | line :: rest => (p :: line) :: rest

/-- Whether a token is the word `w`. -/
def isWord (p : Piece) (w : String) : Bool := p.kind == .identifier && p.text == w.toList

/-- Whether a token is one of the words `ws`. -/
def isOneOf (p : Piece) (ws : List String) : Bool := ws.any p.isWord

end Piece

end MethodSkeleton
