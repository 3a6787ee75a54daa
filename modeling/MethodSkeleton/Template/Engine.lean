/-
# `MethodSkeleton.Template.Engine` — what fills in templates

An engine reads a template as a whole before it is given anything to fill in, and then fills it in
for the variables of a method.  Which template language that is and how its faults are worded is
the engine's concern alone: the program runs with any engine, and what is said of the program is
said of it with all of them.
-/
import MethodSkeleton.Template.Value

namespace MethodSkeleton

/-- A template language.  Either step may fail, and says why in its own words. -/
structure TemplateEngine where
  Compiled : Type
  compile : String → Except String Compiled
  fill : Compiled → List (String × Value) → Except String String

/-- The failure of a template: it is none, or it cannot be filled in for the method. -/
inductive TemplateError
  | parse (why : String)
  | render (why : String)
deriving DecidableEq, Repr

/-- The full text of the error. -/
def TemplateError.message : TemplateError → String
  | parse why => "template parse error: " ++ why
  | render why => "template render error: " ++ why

/-- Reads a template and fills it in for a method. -/
def TemplateEngine.render (engine : TemplateEngine) (m : Method) (template : String) :
    Except TemplateError String := do
  let compiled ← (engine.compile template).mapError .parse
  (engine.fill compiled m.variables).mapError .render

end MethodSkeleton
