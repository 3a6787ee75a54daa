/-
# `MethodSkeleton.Toml.Number` — numbers and dates

Numbers may have a sign and may have underscores between digits.  Integers fit into 64 bits
and floats do not exceed the greatest double; dates exist in the calendar.  Each reader
answers what follows, and the first that fits is taken: a date or a time, a float, an
integer.
-/
import MethodSkeleton.Text.Integer
import MethodSkeleton.Toml.Value
import MethodSkeleton.Toml.Text

namespace MethodSkeleton.Toml

/-! ## Digits -/

/-- The digits up to the first character that is neither a digit nor an underscore in front
of one, and what follows. -/
def moreDigits (isDigit : Char → Bool) : List Char → List Char × List Char
  | '_' :: c :: cs =>
    if isDigit c then
      let (ds, rest) := moreDigits isDigit cs
      (c :: ds, rest)
    else ([], '_' :: c :: cs)
  | c :: cs =>
    if isDigit c then
      let (ds, rest) := moreDigits isDigit cs
      (c :: ds, rest)
    else ([], c :: cs)
  | [] => ([], [])

/-- One or more digits. -/
def digits? (isDigit : Char → Bool) : List Char → Option (List Char × List Char)
  | c :: cs =>
    if isDigit c then
      let (ds, rest) := moreDigits isDigit cs
      some (c :: ds, rest)
    else none
  | [] => none

/-- The number that digits write to a base. -/
def numberOf (base : Nat) (ds : List Char) : Nat :=
  ds.foldl (fun n c => base * n + (hexValue? c).getD 0) 0

/-- The digits of a whole number without leading zeros. -/
def wholeDigits? : List Char → Option (List Char × List Char)
  | '0' :: cs => some (['0'], cs)
  | cs => digits? Char.isDigit cs

/-! ## Integers -/

/-- An integer that fits into 64 bits. -/
def integerValue? (i : Int) : Option Value :=
  if fitsInt64 i then some (.integer i) else none

/-- Reads an integer to a base, behind the mark of the base. -/
def basedInteger? (base : Nat) (isDigit : Char → Bool) (cs : List Char) :
    Option (Value × List Char) :=
  (digits? isDigit cs).bind fun (ds, rest) =>
    (integerValue? (numberOf base ds)).map (·, rest)

/-- Reads a decimal integer. -/
def decimalInteger? (cs : List Char) : Option (Value × List Char) :=
  let (negative, cs) := numberSign cs
  (wholeDigits? cs).bind fun (ds, rest) =>
    let n : Int := numberOf 10 ds
    (integerValue? (if negative then -n else n)).map (·, rest)

/-- Reads an integer. -/
def integer? : List Char → Option (Value × List Char)
  | '0' :: 'x' :: cs => basedInteger? 16 (fun c => (hexValue? c).isSome) cs
  | '0' :: 'o' :: cs => basedInteger? 8 (fun c => '0' ≤ c && c ≤ '7') cs
  | '0' :: 'b' :: cs => basedInteger? 2 (fun c => c == '0' || c == '1') cs
  | cs => decimalInteger? cs

/-! ## Floats -/

/-- Whether `mantissa` times ten to the power `exponent` rounds beyond the greatest double.
Numbers far from that border are decided by their number of digits alone. -/
def overflows (mantissa : List Char) (exponent : Int) : Bool :=
  let ds := mantissa.dropWhile (· == '0')
  let magnitude : Int := ds.length + exponent
  if ds = [] then false
  else if magnitude < 300 then false
  else if 320 < magnitude then true
  else
    let n := numberOf 10 ds
    let bound := Nat.pow 2 1024 - Nat.pow 2 970
    if 0 ≤ exponent then bound ≤ n * Nat.pow 10 exponent.toNat
    else bound * Nat.pow 10 (-exponent).toNat ≤ n

/-- Reads the digits behind a point. -/
def fraction? : List Char → Option (List Char × List Char)
  | '.' :: cs => digits? Char.isDigit cs
  | _ => none

/-- Reads an exponent. -/
def exponent? : List Char → Option (Int × List Char)
  | c :: cs =>
    if c = 'e' ∨ c = 'E' then
      let (negative, cs) := numberSign cs
      (digits? Char.isDigit cs).map fun (ds, rest) =>
        let n : Int := numberOf 10 ds
        (if negative then -n else n, rest)
    else none
  | [] => none

/-- Reads a float that is written with digits. -/
def decimalFloat? (cs : List Char) : Option (Value × List Char) :=
  let (negative, cs) := numberSign cs
  (wholeDigits? cs).bind fun (whole, rest) =>
    let finish (part : List Char) (e : Int) (rest : List Char) : Option (Value × List Char) :=
      if !negative && overflows (whole ++ part) (e - part.length) then none
      else some (.float, rest)
    match fraction? rest with
    | some (part, rest) =>
      match exponent? rest with
      | some (e, rest) => finish part e rest
      | none => finish part 0 rest
    | none => (exponent? rest).bind fun (e, rest) => finish [] e rest

/-- Reads a float. -/
def float? (cs : List Char) : Option (Value × List Char) :=
  match (numberSign cs).2 with
  | 'i' :: 'n' :: 'f' :: rest => some (.float, rest)
  | 'n' :: 'a' :: 'n' :: rest => some (.float, rest)
  | _ => decimalFloat? cs

/-! ## Dates and times -/

/-- Reads a number of exactly `count` digits within bounds. -/
def fixedNumber? (count low high : Nat) (cs : List Char) : Option (Nat × List Char) :=
  let ds := cs.take count
  if ds.length = count ∧ ds.all Char.isDigit = true ∧ low ≤ numberOf 10 ds ∧
      numberOf 10 ds ≤ high then
    some (numberOf 10 ds, cs.drop count)
  else none

/-- What follows the character `c`. -/
def after? (c : Char) : List Char → Option (List Char)
  | d :: cs => if d = c then some cs else none
  | [] => none

/-- The number of days of a month. -/
def daysOf (year month : Nat) : Nat :=
  if month = 2 then
    if year % 4 = 0 ∧ (year % 100 ≠ 0 ∨ year % 400 = 0) then 29 else 28
  else if month = 4 ∨ month = 6 ∨ month = 9 ∨ month = 11 then 30
  else 31

/-- Reads a date. -/
def date? (cs : List Char) : Option (List Char) := do
  let (year, cs) ← fixedNumber? 4 0 9999 cs
  let (month, cs) ← fixedNumber? 2 1 12 (← after? '-' cs)
  let (_, cs) ← fixedNumber? 2 1 (daysOf year month) (← after? '-' cs)
  return cs

/-- Reads the fraction of a second, if there is one. -/
def skipFraction : List Char → List Char
  | '.' :: c :: cs => if c.isDigit then cs.dropWhile Char.isDigit else '.' :: c :: cs
  | cs => cs

/-- Reads a time of day. -/
def time? (cs : List Char) : Option (List Char) := do
  let (_, cs) ← fixedNumber? 2 0 23 cs
  let (_, cs) ← fixedNumber? 2 0 59 (← after? ':' cs)
  let (_, cs) ← fixedNumber? 2 0 60 (← after? ':' cs)
  return skipFraction cs

/-- Reads the distance from universal time. -/
def offset? : List Char → Option (List Char)
  | c :: cs => do
    if c = 'Z' ∨ c = 'z' then return cs
    else if c = '+' ∨ c = '-' then
      let (_, cs) ← fixedNumber? 2 0 23 cs
      let (_, cs) ← fixedNumber? 2 0 59 (← after? ':' cs)
      return cs
    else none
  | [] => none

/-- Reads a date with a time behind it, or alone, or a time alone. -/
def datetime? (cs : List Char) : Option (Value × List Char) :=
  match date? cs with
  | some rest =>
    match rest with
    | c :: behind =>
      if c = 'T' ∨ c = 't' ∨ c = ' ' then
        match time? behind with
        | some behind => some (.datetime, (offset? behind).getD behind)
        | none => some (.datetime, rest)
      else some (.datetime, rest)
    | [] => some (.datetime, rest)
  | none => (time? cs).map (.datetime, ·)

/-- Reads a number, a date or a time. -/
def number? (cs : List Char) : Option (Value × List Char) :=
  (datetime? cs).orElse fun _ => (float? cs).orElse fun _ => integer? cs

end MethodSkeleton.Toml
