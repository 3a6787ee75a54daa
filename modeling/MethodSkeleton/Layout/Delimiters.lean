/-
# `MethodSkeleton.Layout.Delimiters` — whether a source can be laid out at all

Everything that can make the layout fail is decided here, before any line is arranged:
first whether every lexeme can be read, then whether the delimiters nest and every comma
has an element in front of it.  The faults of nesting are found token by token, so the
first token that breaks a rule is the one reported; a delimiter that is never closed shows
only at the end.
-/
import MethodSkeleton.Layout.Error

namespace MethodSkeleton

/-- The first lexeme that cannot be read. -/
def scanFault? : List (Located Lexeme) → Option LayoutError
  | [] => none
  | x :: xs =>
    match x.value.is with
    | .fault why => some ⟨.scan why, x.span⟩
    | _ => scanFault? xs

/-- The tokens of a source that the delimiter rules look at: comments and line breaks are
not among them. -/
def significantKinds (xs : List (Located Lexeme)) : List (Located Kind) :=
  xs.filterMap fun x =>
    match x.value.is with
    | .token kind => if kind = .newline || kind.isComment then none else some ⟨x.span, kind⟩
    | _ => none

/-- Whether a comma may not stand directly behind this token, or at the start. -/
def lacksElement : Option Kind → Bool
  | none => true
  | some kind => kind.opens?.isSome || kind == .comma

/-- The first fault among tokens that follow the token `last` while the delimiters
`opened` — the innermost first — are open. -/
def nestingFault? : List (Located Bracket) → Option Kind → List (Located Kind) →
    Option LayoutError
  | [], _, [] => none
  | innermost :: _, _, [] => some ⟨.unclosed innermost.value, innermost.span⟩
  | opened, last, t :: ts =>
    if t.value = .comma ∧ lacksElement last = true then some ⟨.emptyElement, t.span⟩
    else
      match t.value.opens?, t.value.closes? with
      | some bracket, _ => nestingFault? (⟨t.span, bracket⟩ :: opened) t.value ts
      | none, some bracket =>
        match opened with
        | [] => some ⟨.unexpectedClose bracket, t.span⟩
        | innermost :: outer =>
          if innermost.value = bracket then nestingFault? outer t.value ts
          else some ⟨.mismatched innermost.value bracket, t.span⟩
      | none, none => nestingFault? opened t.value ts

/-- The reason to refuse a source, if there is one. -/
def layoutFault? (xs : List (Located Lexeme)) : Option LayoutError :=
  match scanFault? xs with
  | some e => some e
  | none => nestingFault? [] none (significantKinds xs)

end MethodSkeleton
