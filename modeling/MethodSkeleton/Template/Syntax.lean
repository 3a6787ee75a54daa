/-
# `MethodSkeleton.Template.Syntax` — templates of the core language as trees

The core language is that of the built-in templates and some of what is around it: a few of the
tags and filters that a template language may have.  Others are no templates of it; who needs
them brings an engine of their own (`TemplateEngine`).

A template is a list of nodes.  Two forms are smaller than what is written: `elsif` is a
branch inside the other side of a branch, and each `when` of a `case` is a choice whose
other side is the rest of the `case`.
-/
import MethodSkeleton.Template.Value

namespace MethodSkeleton

/-- An expression: a constant, or a variable with the keys that are followed from it. -/
inductive Expression
  | constant (value : Value)
  | path (root : String) (keys : List Expression)
deriving Repr

/-- What a value goes through before it is written. -/
inductive Filter
  | upcase
  | downcase
  | capitalize
  | append (suffix : Expression)
  | prepend (front : Expression)
  | replace (pattern : Expression) (new : Option Expression)
  | remove (pattern : Expression)
  | size
  | join (separator : Option Expression)
  | first
  | last
  | default (fallback : Expression)
  | split (pattern : Expression)
  | strip
deriving Repr

/-- An expression and its filters. -/
structure Pipeline where
  subject : Expression
  filters : List Filter
deriving Repr

/-- A condition. -/
inductive Condition
  | present (e : Expression)
  | compare (op : Comparison) (a b : Expression)
  | both (a b : Condition)
  | either (a b : Condition)
  | negated (c : Condition)
deriving Repr

/-- The head of a loop. -/
structure LoopHead where
  name : String
  source : Expression
  limit : Option Expression
  offset : Option Expression
  reversed : Bool
deriving Repr

/-- A piece of a template. -/
inductive Node
  | text (s : String)
  | output (pipeline : Pipeline)
  | assign (name : String) (pipeline : Pipeline)
  | capture (name : String) (body : List Node)
  | branch (condition : Condition) (yes no : List Node)
  | choose (target : Expression) (values : List Expression) (yes no : List Node)
  | loop (head : LoopHead) (body otherwise : List Node)
  | breakLoop
  | continueLoop
deriving Repr

/-- A template. -/
abbrev Template := List Node

end MethodSkeleton
