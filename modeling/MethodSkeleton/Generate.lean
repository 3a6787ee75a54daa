/-
# `MethodSkeleton.Generate` — from a signature to its skeleton

The stages are reading the signature, rendering the template and, if asked for, laying the
text out anew.  The first that fails ends it, and then nothing of the text is given.
-/
import MethodSkeleton.Layout.Page
import MethodSkeleton.Signature.Grammar
import MethodSkeleton.Template.Read

namespace MethodSkeleton

/-- The stage that failed, and how. -/
inductive GenerateError
  | signature (e : ParseError)
  | template (e : TemplateError)
  | layout (e : LayoutError)
deriving DecidableEq, Repr

/-- The full text of the error. -/
def GenerateError.message : GenerateError → String
  | signature e => e.message
  | template e => e.message
  | layout e => e.message

/-- The text that a template makes of a signature, laid out anew if asked for. -/
def generate (signature template : String) (formatted : Bool) (engine : TemplateEngine := .core) :
    Except GenerateError String := do
  let method ← (parseSignature signature).mapError .signature
  let text ← (engine.render method template).mapError .template
  if formatted then (reformat text).mapError .layout else return text

end MethodSkeleton
