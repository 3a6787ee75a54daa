/-
# `MethodSkeleton.Signature.Method` — what a signature declares

A method is what is left of a signature once spacing, comments, pointer marks on the
receiver and the grouping of parameter names are gone.  Types are kept as flat text.
-/

namespace MethodSkeleton

/-- A declared parameter.  The name is empty in a list of bare types; the type is empty
only for a name that no type follows. -/
structure Parameter where
  name : String
  type : String
deriving DecidableEq, Repr

/-- A method: the type it belongs to, its name, its parameters and the types of its
results, the last two in the order of their declaration. -/
structure Method where
  receiver : String
  name : String
  parameters : List Parameter
  results : List String
deriving DecidableEq, Repr

end MethodSkeleton
