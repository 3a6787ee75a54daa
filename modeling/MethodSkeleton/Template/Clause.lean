/-
# `MethodSkeleton.Template.Clause` — what the terms of a tag say

The terms inside an output or a tag are read from the left into what they say: a pipeline, a
condition, the head of a loop, the values of a `when`, an assignment.  A word is a keyword
where a keyword is looked for and a variable where an expression is, so `or or or` asks
twice for the variable `or`.
-/
import MethodSkeleton.Template.Term

namespace MethodSkeleton

/-! ## Pipelines -/

/-- The filter of a name and its arguments, if the core language has it. -/
def Filter.of? (name : String) (arguments : List Expression) : Option Filter :=
  match name, arguments with
  | "upcase", [] => some .upcase
  | "downcase", [] => some .downcase
  | "capitalize", [] => some .capitalize
  | "append", [a] => some (.append a)
  | "prepend", [a] => some (.prepend a)
  | "replace", [a] => some (.replace a none)
  | "replace", [a, b] => some (.replace a (some b))
  | "remove", [a] => some (.remove a)
  | "size", [] => some .size
  | "join", [] => some (.join none)
  | "join", [a] => some (.join (some a))
  | "first", [] => some .first
  | "last", [] => some .last
  | "default", [a] => some (.default a)
  | "split", [a] => some (.split a)
  | "strip", [] => some .strip
  | _, _ => none

/-- The pipeline that an expression and the filters written behind it make. -/
def Pipeline.of? (subject : Expression) (calls : List FilterCall) : Option Pipeline :=
  (calls.mapM fun call => Filter.of? call.name call.arguments).map (⟨subject, ·⟩)

/-- The expression that terms are, if they are exactly one. -/
def single? : List Term → Option Expression
  | [.value e] => some e
  | _ => none

/-- Reads an assignment. -/
def assignment? : List Term → Option Node
  | [.word name, .symbol .assign, .chain subject calls] =>
    (Pipeline.of? subject calls).map (.assign name)
  | _ => none

/-! ## Conditions -/

/-- The words between conditions. -/
inductive Connective
  | and
  | or
deriving DecidableEq, Repr

/-- The connective that a term is. -/
def Term.connective? : Term → Option Connective
  | .word "and" => some .and
  | .word "or" => some .or
  | _ => none

/-- The comparison that a term is. -/
def Term.comparison? : Term → Option Comparison
  | .symbol (.comparison op) => some op
  | .word "contains" => some .contains
  | _ => none

/-- Reads a comparison, or an expression that is only asked for. -/
def atom? : List Term → Option (Condition × List Term)
  | .value a :: t :: ts =>
    match t.comparison?, ts with
    | some op, .value b :: rest => some (.compare op a b, rest)
    | some _, _ => none
    | none, _ => some (.present a, t :: ts)
  | [.value a] => some (.present a, [])
  | _ => none

/-- Reads conditions and the connectives between them, at most `turns` of them. -/
def atoms? : Nat → List Term → Option (Condition × List (Connective × Condition))
  | 0, _ => none
  | turns + 1, ts =>
    match atom? ts with
    | some (c, []) => some (c, [])
    | some (c, t :: ts) =>
      match t.connective?, atoms? turns ts with
      | some w, some (d, rest) => some (c, (w, d) :: rest)
      | _, _ => none
    | none => none

/-- Joins conditions: `and` binds its sides together more tightly than `or`. -/
def joinConditions : Condition → List (Connective × Condition) → Condition
  | c, [] => c
  | c, (.and, d) :: rest => joinConditions (.both c d) rest
  | c, (.or, d) :: rest => .either c (joinConditions d rest)

/-- Reads a condition. -/
def condition? (ts : List Term) : Option Condition :=
  (atoms? ts.length ts).map fun r => joinConditions r.1 r.2

/-! ## Loops and choices -/

/-- Reads what may follow the list in the head of a loop; of two settings the later holds. -/
def loopOptions? (head : LoopHead) : List Term → Option LoopHead
  | [] => some head
  | .word "reversed" :: ts => loopOptions? { head with reversed := true } ts
  | .word "limit" :: .symbol .colon :: .value e :: ts =>
    loopOptions? { head with limit := some e } ts
  | .word "offset" :: .symbol .colon :: .value e :: ts =>
    loopOptions? { head with offset := some e } ts
  | _ => none

/-- Reads the head of a loop. -/
def loopHead? : List Term → Option LoopHead
  | .word name :: .word "in" :: .value source :: options =>
    loopOptions? ⟨name, source, none, none, false⟩ options
  | _ => none

/-- Whether a term separates the values of a `when`. -/
def Term.separates : Term → Bool
  | .symbol .comma | .word "or" => true
  | _ => false

/-- Reads the values of a `when`. -/
def alternatives? : List Term → Option (List Expression)
  | [.value e] => some [e]
  | .value e :: t :: ts => if t.separates then (alternatives? ts).map (e :: ·) else none
  | _ => none

end MethodSkeleton
