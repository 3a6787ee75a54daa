/-
# `MethodSkeleton.Signature.Error` — why a text is no signature

A cause keeps the token that could not be accepted, or the tokens that were; the words
of the message are made from it in one place.
-/
import MethodSkeleton.Signature.Token

namespace MethodSkeleton

/-- Where in a signature a type is read. -/
inductive SlotContext
  | parameter
  | resultList
  | resultType
deriving DecidableEq, Repr

/-- How a message names the place. -/
def SlotContext.label : SlotContext → String
  | .parameter => "parameter list"
  | .resultList => "result list"
  | .resultType => "result type"

/-- Why reading a signature stops. -/
inductive ParseCause
  | missingFunc (found : Token)
  | receiverNotFound (found : Token)
  | receiverNotClosed (found : Token)
  | missingMethodName (found : Token)
  | parametersNotOpened (found : Token)
  | unexpectedInParameters (found : Token)
  | resultsNotOpened (found : Token)
  | unexpectedToken (context : SlotContext) (found : Token)
  | incompleteType (context : SlotContext) (read : List Token)
  | unterminated (context : SlotContext)
deriving DecidableEq, Repr

/-- The wording of a cause. -/
def ParseCause.message : ParseCause → String
  | missingFunc found => "expected `func`, found " ++ found.describe
  | receiverNotFound found => "unable to find receiver: found " ++ found.describe
  | receiverNotClosed found =>
    "receiver clause not closed: expected `)`, found " ++ found.describe
  | missingMethodName found => "unable to find method name: found " ++ found.describe
  | parametersNotOpened found =>
    "expected `(` to open the parameter list, found " ++ found.describe
  | unexpectedInParameters found =>
    "unexpected token while parsing arguments: " ++ found.describe
  | resultsNotOpened found =>
    "expected `(` to open the result list, found " ++ found.describe
  | unexpectedToken context found =>
    "unexpected token in " ++ context.label ++ ": " ++ found.describe
  | incompleteType context read =>
    "incomplete type expression `" ++ Token.spell read ++ "` in " ++ context.label
  | unterminated context => "unterminated " ++ context.label

/-- A cause and the place of the token at which it showed. -/
structure ParseError where
  cause : ParseCause
  span : Span
deriving DecidableEq, Repr

/-- The full text of the error. -/
def ParseError.message (e : ParseError) : String :=
  e.cause.message ++ " (at " ++ e.span.render ++ ")"

end MethodSkeleton
