/-
# `MethodSkeleton.Source.RawToken` — the tokens of a source, or its first fault

The layout's view of the scanner: every token with its text, comments and line breaks among
them, blanks left out.  One stretch that cannot be read refuses the whole source, and the
first one is reported.
-/
import MethodSkeleton.Source.Scan

namespace MethodSkeleton

/-- A token as it is written. -/
structure RawToken where
  kind : Kind
  text : List Char
deriving DecidableEq, Repr

/-- The tokens among located lexemes, or the first fault. -/
def rawTokensOf : List (Located Lexeme) → Except (Located ScanFault) (List (Located RawToken))
  | [] => .ok []
  | x :: xs =>
    match x.value.is with
    | .blank => rawTokensOf xs
    | .token kind => (rawTokensOf xs).map (⟨x.span, ⟨kind, x.value.text⟩⟩ :: ·)
    | .fault why => .error ⟨x.span, why⟩

/-- The tokens of a text, or the first fault in it. -/
def rawTokens (source : String) : Except (Located ScanFault) (List (Located RawToken)) :=
  rawTokensOf (Lexeme.locate 0 (lexemes source.toList))

end MethodSkeleton
