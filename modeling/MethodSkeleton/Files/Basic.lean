/-
# `MethodSkeleton.Files.Basic` — reading files

The program asks two things of files: what a path holds and whether it is a file.  Who
answers is a parameter, together with the monad in which the answers come, so that the same
program runs on a real file system and on one that is a value.
-/
import MethodSkeleton.Source.Utf8

namespace MethodSkeleton

/-- Why a path cannot be read as text. -/
inductive ReadFault
  | notFound
  | notDirectory
  | isDirectory
  | invalidUtf8
  | other (reason : String)
deriving DecidableEq, Repr

/-- The wording of a fault. -/
def ReadFault.message : ReadFault → String
  | notFound => "No such file or directory (os error 2)"
  | notDirectory => "Not a directory (os error 20)"
  | isDirectory => "Is a directory (os error 21)"
  | invalidUtf8 => "stream did not contain valid UTF-8"
  | other reason => reason

/-- A way to read files. -/
structure Files (m : Type → Type) where
  read : String → m (Except ReadFault ByteArray)
  isFile : String → m Bool

/-- The text that bytes are. -/
def textOfBytes (bytes : ByteArray) : Except ReadFault String :=
  match decodeUtf8 bytes with
  | .ok text => .ok text
  | .error _ => .error .invalidUtf8

/-- The text that a path holds. -/
def Files.readText {m : Type → Type} [Monad m] (files : Files m) (path : String) :
    ExceptT ReadFault m String := do
  let bytes ← ExceptT.mk (files.read path)
  ExceptT.mk (pure (textOfBytes bytes))

end MethodSkeleton
