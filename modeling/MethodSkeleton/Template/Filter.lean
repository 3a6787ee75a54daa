/-
# `MethodSkeleton.Template.Filter` — evaluating expressions and filters

A scope is what names mean: the variables of the loops that are running, the innermost
first, then what the template assigned, then the method.  Asking for a name, a field or an
index that is not there is a failure, not an empty answer.
-/
import MethodSkeleton.Template.Error
import MethodSkeleton.Template.Syntax
import MethodSkeleton.Text.Case

namespace MethodSkeleton

/-- The meaning of names. -/
structure Scope where
  loops : List (String × Value)
  assigned : List (String × Value)
  method : List (String × Value)
deriving Repr

/-- The value of a name. -/
def Scope.value? (s : Scope) (name : String) : Option Value :=
  (s.loops ++ s.assigned ++ s.method).lookup name

/-- The scope with one more assignment. -/
def Scope.assign (s : Scope) (name : String) (v : Value) : Scope :=
  { s with assigned := (name, v) :: s.assigned }

/-- The simple value that a value is. -/
def Value.scalar? : Value → Option Scalar
  | .item (.scalar s) => some s
  | _ => none

mutual

/-- The value of an expression, if everything it asks for is there. -/
def Expression.value? (s : Scope) : Expression → Option Value
  | .constant v => some v
  | .path root keys =>
    match s.value? root with
    | some v => followKeys s v keys
    | none => none

/-- The value that keys lead to. -/
def followKeys (s : Scope) (v : Value) : List Expression → Option Value
  | [] => some v
  | key :: keys =>
    match (key.value? s).bind Value.scalar? with
    | some k =>
      match v.field? k with
      | some w => followKeys s w keys
      | none => none
    | none => none

end

/-- What an expression is called in a complaint. -/
def Expression.label : Expression → String
  | .constant _ => ""
  | .path root _ => root

/-- The value of an expression. -/
def Expression.evaluate (s : Scope) (e : Expression) : Except RenderFault Value :=
  match e.value? s with
  | some v => .ok v
  | none => .error (.missing e.label)

/-- The text of an expression's value. -/
def Expression.evaluateText (s : Scope) (e : Expression) : Except RenderFault String :=
  (e.evaluate s).map Value.render

/-- The text of an optional expression's value. -/
def evaluateTextOr (s : Scope) (fallback : String) : Option Expression → Except RenderFault String
  | none => .ok fallback
  | some e => e.evaluateText s

/-- A character as a text, empty if there is none. -/
def characterText : Option Char → Value
  | some c => .ofText c.toString
  | none => .ofText ""

/-- Applies a filter. -/
def Filter.apply (s : Scope) (v : Value) : Filter → Except RenderFault Value
  | .upcase => .ok (.ofText (upperText v.render))
  | .downcase => .ok (.ofText (lowerText v.render))
  | .capitalize => .ok (.ofText (capitalized v.render))
  | .append suffix => do return .ofText (v.render ++ (← suffix.evaluateText s))
  | .prepend front => do return .ofText ((← front.evaluateText s) ++ v.render)
  | .replace pattern new => do
    let pattern ← pattern.evaluateText s
    let new ← evaluateTextOr s "" new
    return .ofText (replaceText pattern new v.render)
  | .remove pattern => do return .ofText (replaceText (← pattern.evaluateText s) "" v.render)
  | .size => .ok (.ofInt v.size)
  | .join separator => do
    let separator ← evaluateTextOr s " " separator
    match v with
    | .list items => return .ofText (separator.intercalate (items.map Item.render))
    | _ => .error (.unsuitable "join")
  | .first =>
    match v with
    | .list items => .ok ((items.head?.map .item).getD .nil)
    | .item (.scalar c) => .ok (characterText c.render.toList.head?)
    | _ => .error (.unsuitable "first")
  | .last =>
    match v with
    | .list items => .ok ((items.getLast?.map .item).getD .nil)
    | .item (.scalar c) => .ok (characterText c.render.toList.getLast?)
    | _ => .error (.unsuitable "last")
  | .default fallback => do
    let fallback ← fallback.evaluate s
    return if !v.isTruthy || v.isEmpty then fallback else v
  | .split pattern => do
    let pattern ← pattern.evaluateText s
    let parts := if v.render = "" then [] else splitText pattern v.render
    return .list (parts.map fun part => .scalar (.text part))
  | .strip => .ok (.ofText (stripped v.render))

/-- The value of an expression that has gone through filters. -/
def Pipeline.evaluate (s : Scope) (p : Pipeline) : Except RenderFault Value := do
  p.filters.foldlM (fun v f => f.apply s v) (← p.subject.evaluate s)

/-- Whether a condition holds.  Something that is not there counts as false where a
condition only asks for it. -/
def Condition.holds (s : Scope) : Condition → Except RenderFault Bool
  | .present e => .ok ((e.value? s).any Value.isTruthy)
  | .compare op a b => do
    let a ← a.evaluate s
    let b ← b.evaluate s
    match op.holds? a b with
    | some answer => return answer
    | none => .error .notSearchable
  | .both a b => do if ← a.holds s then b.holds s else return false
  | .either a b => do if ← a.holds s then return true else b.holds s
  | .negated c => do return !(← c.holds s)

end MethodSkeleton
