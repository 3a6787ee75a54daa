/-
# `MethodSkeleton.Source.Utf8` — texts out of bytes

Bytes are a text or they are not; when they are not, what can be said about them is how
far they go well: the length of the longest leading part made of whole encoded characters.
-/

namespace MethodSkeleton

/-- The position behind the last whole encoded character, reading on from `i`. -/
def validPrefixFrom (bytes : ByteArray) (i : Nat) : Nat :=
  if i < bytes.size then
    match bytes.utf8DecodeChar? i with
    | some c => validPrefixFrom bytes (i + c.utf8Size)
    | none => i
  else i
termination_by bytes.size - i
decreasing_by
  have := c.utf8Size_pos
  omega

/-- The length of the longest leading part that is well-formed. -/
def validPrefix (bytes : ByteArray) : Nat := validPrefixFrom bytes 0

/-- The text that bytes encode, or the length of their well-formed part. -/
def decodeUtf8 (bytes : ByteArray) : Except Nat String :=
  match String.fromUTF8? bytes with
  | some text => .ok text
  | none => .error (validPrefix bytes)

end MethodSkeleton
