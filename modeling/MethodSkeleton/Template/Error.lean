/-
# `MethodSkeleton.Template.Error` — the faults of the core language

A template fails as a whole before anything is written, because it is not well formed, or
on a method that does not give it what it asks for.  The wording is that of the core engine.
-/

namespace MethodSkeleton

/-- Why a text is no template. -/
inductive TemplateFault
  | brokenElement
  | malformed (tag : String)
  | unexpectedTag (tag : String)
  | unclosed (tag : String)
deriving DecidableEq, Repr

/-- The wording of a fault. -/
def TemplateFault.message : TemplateFault → String
  | brokenElement => "an output or a tag cannot be read"
  | malformed tag => "malformed `" ++ tag ++ "`"
  | unexpectedTag tag => "unexpected tag `" ++ tag ++ "`"
  | unclosed tag => "unclosed `" ++ tag ++ "`"

/-- Why a template cannot be rendered. -/
inductive RenderFault
  | missing (name : String)
  | notIterable
  | notCountable
  | notSearchable
  | unsuitable (filter : String)
deriving DecidableEq, Repr

/-- The wording of a fault. -/
def RenderFault.message : RenderFault → String
  | missing name => "unknown variable or field `" ++ name ++ "`"
  | notIterable => "a loop needs a list"
  | notCountable => "a loop's limit and offset are whole numbers"
  | notSearchable => "nothing can be asked of a value without content"
  | unsuitable filter => "unsuitable input for `" ++ filter ++ "`"

end MethodSkeleton
