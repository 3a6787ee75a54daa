/-
# `MethodSkeleton.Registry.Basic` — named templates

A registry maps names to template texts.  Asking it for a name that it does not hold is an
error that says the name.
-/
import MethodSkeleton.NameMap

namespace MethodSkeleton

/-- Template texts by name. -/
abbrev Registry := NameMap String

/-- Why a registry cannot answer. -/
inductive RegistryError
  | notFound (name : String)
deriving DecidableEq, Repr

/-- The wording of the error. -/
def RegistryError.message : RegistryError → String
  | notFound name => "unable to find template: " ++ name

/-- The template of a name. -/
def Registry.find (r : Registry) (name : String) : Except RegistryError String :=
  match r.get? name with
  | some text => .ok text
  | none => .error (.notFound name)

end MethodSkeleton
