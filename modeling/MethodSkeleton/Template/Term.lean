/-
# `MethodSkeleton.Template.Term` — what stands inside outputs and tags

Inside an output or a tag stand terms: expressions, each with the filters it goes through,
and the symbols between them.  The readers here work on characters and answer what they have
read and what follows it.  Each takes as much as it can, and what it has taken it does not
give back.

That decides where a term ends, for white space between terms is free.  A literal is tried
before a name, so a word that begins with a literal is that literal and then whatever is
left: `nilor` reads as `nil` and `or`, and `nilable` is no variable.  A name may begin with
a dash, unless the dash belongs to a closing mark.
-/
import MethodSkeleton.Template.Syntax

namespace MethodSkeleton

/-- Space and the two line ends; a tab is no white space here. -/
def isTemplateSpace (c : Char) : Bool := c == ' ' || c == '\n' || c == '\r'

/-- What follows white space. -/
def dropSpace (cs : List Char) : List Char := cs.dropWhile isTemplateSpace

/-- Reads as often as it can, at most `turns` times, with white space in front each time. -/
def readMany {α : Type} (read? : List Char → Option (α × List Char)) :
    Nat → List Char → List α × List Char
  | 0, cs => ([], cs)
  | turns + 1, cs =>
    match read? (dropSpace cs) with
    | some (a, rest) =>
      let (as, rest) := readMany read? turns rest
      (a :: as, rest)
    | none => ([], cs)

/-! ## Names and literals -/

/-- The length of the letters, digits, underscores and dashes that a text begins with, up to
a dash that belongs to a closing mark. -/
def nameLength : List Char → Nat
  | [] => 0
  | '-' :: c :: d :: cs =>
    if (c == '}' || c == '%') && d == '}' then 0 else nameLength (c :: d :: cs) + 1
  | c :: cs => if c.isAlphanum || c == '_' || c == '-' then nameLength cs + 1 else 0

/-- Reads a name, which does not begin with a digit. -/
def readName? (cs : List Char) : Option (String × List Char) :=
  let n := nameLength cs
  if n = 0 ∨ (cs.head?.map Char.isDigit).getD false = true then none
  else some (String.ofList (cs.take n), cs.drop n)

/-- The words that are literals. -/
def literalWords : List (List Char × Value) :=
  [(['n', 'i', 'l'], .nil),
   (['n', 'u', 'l', 'l'], .nil),
   (['e', 'm', 'p', 't', 'y'], .hollow .empty),
   (['b', 'l', 'a', 'n', 'k'], .hollow .blank),
   (['t', 'r', 'u', 'e'], .ofBool true),
   (['f', 'a', 'l', 's', 'e'], .ofBool false)]

/-- Reads a word that is a literal, whatever follows it. -/
def readLiteralWord? (cs : List Char) : Option (Value × List Char) :=
  (literalWords.find? fun entry => entry.1.isPrefixOf cs).map fun entry =>
    (entry.2, cs.drop entry.1.length)

/-- Reads up to the next `quote`, and past it. -/
def readQuoted? (quote : Char) (cs : List Char) : Option (Value × List Char) :=
  match cs.dropWhile (· != quote) with
  | [] => none
  | _ :: rest => some (.ofText (String.ofList (cs.takeWhile (· != quote))), rest)

/-- Reads an integer, with or without a sign. -/
def readNumber? (cs : List Char) : Option (Value × List Char) :=
  let (negative, digits) := numberSign cs
  match digits.takeWhile Char.isDigit with
  | [] => none
  | ds => some (.ofInt (signedValue negative ds), digits.dropWhile Char.isDigit)

/-- Reads a literal. -/
def readLiteral? : List Char → Option (Value × List Char)
  | '\'' :: cs => readQuoted? '\'' cs
  | '"' :: cs => readQuoted? '"' cs
  | cs =>
    match readLiteralWord? cs with
    | some r => some r
    | none => readNumber? cs

/-! ## Expressions -/

mutual

/-- Reads an expression; each step costs one of the first argument. -/
def readExpression? : Nat → List Char → Option (Expression × List Char)
  | 0, _ => none
  | steps + 1, cs =>
    match readLiteral? cs with
    | some (v, rest) => some (.constant v, rest)
    | none =>
      match readName? cs with
      | some (root, rest) =>
        let (keys, rest) := readKeys steps rest
        some (.path root keys, rest)
      | none => none

/-- Reads the keys that are followed from a variable; they stand right behind it. -/
def readKeys : Nat → List Char → List Expression × List Char
  | 0, cs => ([], cs)
  | steps + 1, '.' :: cs =>
    match readName? cs with
    | some (key, rest) =>
      let (keys, rest) := readKeys steps rest
      (.constant (.ofText key) :: keys, rest)
    | none => ([], '.' :: cs)
  | steps + 1, '[' :: cs =>
    match readExpression? steps (dropSpace cs) with
    | some (key, rest) =>
      match dropSpace rest with
      | ']' :: rest =>
        let (keys, rest) := readKeys steps rest
        (key :: keys, rest)
      | _ => ([], '[' :: cs)
    | none => ([], '[' :: cs)
  | _ + 1, cs => ([], cs)

end

/-- Reads an expression.  Every step takes a character away, so there are enough of them. -/
def expression? (cs : List Char) : Option (Expression × List Char) :=
  readExpression? (cs.length + 1) cs

/-! ## Terms -/

/-- A filter as it is written. -/
structure FilterCall where
  name : String
  arguments : List Expression
deriving Repr

/-- What may stand between expressions in a tag. -/
inductive Symbol
  | comparison (op : Comparison)
  | assign
  | comma
  | colon
deriving DecidableEq, Repr

/-- An expression with its filters, or a symbol. -/
inductive Term
  | chain (subject : Expression) (calls : List FilterCall)
  | symbol (s : Symbol)
deriving Repr

/-- An expression without filters. -/
@[match_pattern] def Term.value (e : Expression) : Term := .chain e []

/-- The word `w`, standing alone; its place makes it a keyword or a variable. -/
@[match_pattern] def Term.word (w : String) : Term := .value (.path w [])

/-- Reads a further argument of a filter. -/
def furtherArgument? : List Char → Option (Expression × List Char)
  | ',' :: cs => expression? (dropSpace cs)
  | _ => none

/-- Reads the arguments of a filter, behind the colon. -/
def arguments? (cs : List Char) : Option (List Expression × List Char) :=
  match expression? (dropSpace cs) with
  | some (e, rest) =>
    let (es, rest) := readMany furtherArgument? rest.length rest
    some (e :: es, rest)
  | none => none

/-- Reads a filter, behind the bar. -/
def filterCall? (cs : List Char) : Option (FilterCall × List Char) :=
  match readName? (dropSpace cs) with
  | none => none
  | some (name, rest) =>
    match dropSpace rest with
    | ':' :: behind =>
      match arguments? behind with
      | some (es, rest) => some (⟨name, es⟩, rest)
      | none => some (⟨name, []⟩, rest)
    | _ => some (⟨name, []⟩, rest)

/-- Reads a bar and the filter behind it. -/
def furtherFilter? : List Char → Option (FilterCall × List Char)
  | '|' :: cs => filterCall? cs
  | _ => none

/-- Reads an expression and the filters it goes through. -/
def chain? (cs : List Char) : Option (Expression × List FilterCall × List Char) :=
  match expression? cs with
  | some (e, rest) => some (e, readMany furtherFilter? rest.length rest)
  | none => none

/-- Reads a symbol; of two that fit, the longer. -/
def symbol? : List Char → Option (Symbol × List Char)
  | '>' :: '=' :: cs => some (.comparison .ge, cs)
  | '<' :: '=' :: cs => some (.comparison .le, cs)
  | '=' :: '=' :: cs => some (.comparison .eq, cs)
  | '!' :: '=' :: cs => some (.comparison .ne, cs)
  | '<' :: '>' :: cs => some (.comparison .ne, cs)
  | '>' :: cs => some (.comparison .gt, cs)
  | '<' :: cs => some (.comparison .lt, cs)
  | '=' :: cs => some (.assign, cs)
  | ',' :: cs => some (.comma, cs)
  | ':' :: cs => some (.colon, cs)
  | _ => none

/-- Reads a term. -/
def term? (cs : List Char) : Option (Term × List Char) :=
  match chain? cs with
  | some (e, calls, rest) => some (.chain e calls, rest)
  | none => (symbol? cs).map fun r => (.symbol r.1, r.2)

/-- Reads the terms of a tag. -/
def readTerms (cs : List Char) : List Term × List Char := readMany term? cs.length cs

end MethodSkeleton
