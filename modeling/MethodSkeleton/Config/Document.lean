/-
# `MethodSkeleton.Config.Document` — what a configuration is read from

A document gives values to keys.  Of a value a configuration asks whether it is a text, a truth
value or a table; anything else is of no use to it.

Who reads a document from a text is a parameter, like the engine that fills in templates: the
reader says what the document is, or why the text is none, and it words the refusal of a document
that is no configuration.
-/

namespace MethodSkeleton

/-- A value in a document. -/
inductive Document.Value
  | text (s : String)
  | flag (b : Bool)
  | table (entries : List (String × Document.Value))
  | other
deriving Repr

/-- The keys of a table with their values, in the order in which they are met. -/
abbrev Document := List (String × Document.Value)

namespace Document

/-- The values that a document gives to a key. -/
def valuesOf (key : String) (document : Document) : List Value :=
  (document.filter (·.1 == key)).map Prod.snd

/-- A way to read documents: `read` gives the document that a text is, or the reason why it is none,
and `refusal` the reason why the document in a text is no configuration. -/
structure Reader where
  read : String → Except String Document
  refusal : String → String

/-- The text at a path is no configuration. -/
structure Refusal where
  path : String
  reason : String
deriving DecidableEq, Repr

end Document

end MethodSkeleton
