/-
# `MethodSkeleton.Template.Value` — what templates compute with

A template sees a method as four variables.  Their values are texts and lists of texts or
of records, so values never nest deeper than a list of records, and the type says so: a
scalar is a truth value, an integer or a text; an item is a scalar or a record of scalars;
a value is nothing, an item or a list of items.  Two more values, `empty` and `blank`, are
there to be compared with: every value without content equals them.
-/
import MethodSkeleton.Signature.Method
import MethodSkeleton.Text.Integer
import MethodSkeleton.Text.Search

namespace MethodSkeleton

/-- A simple value. -/
inductive Scalar
  | bool (b : Bool)
  | integer (i : Int)
  | text (s : String)
deriving DecidableEq, Repr

/-- What a list holds: simple values or records of simple values, by field name. -/
inductive Item
  | scalar (s : Scalar)
  | record (fields : List (String × Scalar))
deriving DecidableEq, Repr

/-- The values that stand for any value without content. -/
inductive Hollow
  | empty
  | blank
deriving DecidableEq, Repr

/-- A value of a template. -/
inductive Value
  | nil
  | hollow (h : Hollow)
  | item (i : Item)
  | list (items : List Item)
deriving DecidableEq, Repr

/-- How two operands of a condition are compared. -/
inductive Comparison
  | eq
  | ne
  | lt
  | le
  | gt
  | ge
  | contains
deriving DecidableEq, Repr

/-! ## Texts and numbers as values -/

/-- A text as a value. -/
def Value.ofText (s : String) : Value := .item (.scalar (.text s))

/-- An integer as a value. -/
def Value.ofInt (i : Int) : Value := .item (.scalar (.integer i))

/-- A truth value as a value. -/
def Value.ofBool (b : Bool) : Value := .item (.scalar (.bool b))

/-- The digits of a decimal number, as a number. -/
def digitsValue (cs : List Char) : Nat :=
  cs.foldl (fun n c => 10 * n + (c.toNat - '0'.toNat)) 0

/-- The number with the given digits, below zero if it has a minus. -/
def signedValue (negative : Bool) (digits : List Char) : Int :=
  if negative then -(digitsValue digits : Int) else digitsValue digits

/-- The integer that a text writes in decimal, within 64 bits. -/
def readInteger? (s : String) : Option Int :=
  let (negative, digits) := numberSign s.toList
  if digits ≠ [] ∧ digits.all Char.isDigit = true then
    let i := signedValue negative digits
    if fitsInt64 i then some i else none
  else none

/-- How a simple value is written. -/
def Scalar.render : Scalar → String
  | .bool b => if b then "true" else "false"
  | .integer i => toString i
  | .text s => s

/-- How an item is written; a record is its fields run together. -/
def Item.render : Item → String
  | .scalar s => s.render
  | .record fields => String.join (fields.map fun f => f.1 ++ f.2.render)

/-- How a value is written: nothing for what has no content, and a list as its items run
together. -/
def Value.render : Value → String
  | .nil | .hollow _ => ""
  | .item i => i.render
  | .list items => String.join (items.map Item.render)

/-- The integer that a simple value is or writes. -/
def Scalar.integer? : Scalar → Option Int
  | .bool _ => none
  | .integer i => some i
  | .text s => readInteger? s

/-- The size of a value: bytes of a text, fields of a record, items of a list. -/
def Value.size : Value → Nat
  | .nil | .hollow _ => 0
  | .item (.scalar s) => s.render.utf8ByteSize
  | .item (.record fields) => fields.length
  | .list items => items.length

/-! ## Fields and elements -/

/-- The item at an index, which counts from the end if it is negative. -/
def itemAt? (items : List Item) (i : Int) : Option Item :=
  if 0 ≤ i then items[i.toNat]?
  else if 0 ≤ items.length + i then items[(items.length + i).toNat]?
  else none

/-- What a value has under a key, if it has it. -/
def Value.field? (v : Value) (key : Scalar) : Option Value :=
  match v with
  | .nil | .hollow _ => none
  | .item (.scalar _) => if key.render = "size" then some (.ofInt v.size) else none
  | .item (.record fields) =>
    match fields.lookup key.render with
    | some s => some (.item (.scalar s))
    | none => if key.render = "size" then some (.ofInt v.size) else none
  | .list items =>
    match key.integer? with
    | some i => (itemAt? items i).map .item
    | none =>
      if key.render = "first" then items.head?.map .item
      else if key.render = "last" then items.getLast?.map .item
      else if key.render = "size" then some (.ofInt v.size)
      else none

/-! ## Truth and comparison -/

/-- Only nil, false and the values without content are false. -/
def Value.isTruthy : Value → Bool
  | .nil | .hollow _ | .item (.scalar (.bool false)) => false
  | _ => true

/-- Whether a value is nothing or holds nothing. -/
def Value.isEmpty : Value → Bool
  | .nil | .hollow _ => true
  | .item (.scalar (.text s)) => s == ""
  | .item (.scalar _) => false
  | .item (.record fields) => fields.isEmpty
  | .list items => items.isEmpty

/-- Whether a value shows nothing: it is false or empty, or a text of white space. -/
def Value.isBlank (v : Value) : Bool :=
  !v.isTruthy || v.isEmpty ||
    match v with
    | .item (.scalar (.text s)) => stripped s == ""
    | _ => false

/-- Whether a value is one of those that `h` stands for. -/
def Hollow.covers (h : Hollow) (v : Value) : Bool :=
  match h with
  | .empty => v.isEmpty
  | .blank => v.isBlank

/-- Whether simple values are equal; against a truth value it is their own truth that
counts, and every number and every text is true. -/
def Scalar.same : Scalar → Scalar → Bool
  | .bool a, .bool b => a == b
  | .bool b, _ | _, .bool b => b
  | .integer a, .integer b => a == b
  | .text a, .text b => a == b
  | _, _ => false

/-- Whether values are equal; against a truth value it is their own truth that counts. -/
def Value.same : Value → Value → Bool
  | .hollow h, v | v, .hollow h => h.covers v
  | .item (.scalar a), .item (.scalar b) => a.same b
  | .item (.scalar (.bool b)), v | v, .item (.scalar (.bool b)) => v.isTruthy == b
  | .nil, .nil => true
  | .item (.record a), .item (.record b) => a == b
  | .list a, .list b => a == b
  | _, _ => false

/-- The order of simple values of one kind. -/
def Scalar.order? : Scalar → Scalar → Option Ordering
  | .bool a, .bool b => some (compare a b)
  | .integer a, .integer b => some (compare a b)
  | .text a, .text b => some (compare a b)
  | _, _ => none

/-- The order of lists: that of the first elements that are not equal; if there are none, the
shorter list comes first. -/
def listOrder? {α : Type} (order? : α → α → Option Ordering) : List α → List α → Option Ordering
  | [], [] => some .eq
  | [], _ :: _ => some .lt
  | _ :: _, [] => some .gt
  | a :: as, b :: bs =>
    match order? a b with
    | some .eq => listOrder? order? as bs
    | answer => answer

/-- The order of fields: that of their names, and then that of their values. -/
def fieldOrder? (a b : String × Scalar) : Option Ordering :=
  match compare a.1 b.1 with
  | .eq => a.2.order? b.2
  | answer => some answer

/-- The order of items, where they have one. -/
def Item.order? : Item → Item → Option Ordering
  | .scalar a, .scalar b => a.order? b
  | .record a, .record b => listOrder? fieldOrder? a b
  | _, _ => none

/-- The order of values, where they have one. -/
def Value.order? : Value → Value → Option Ordering
  | .item a, .item b => a.order? b
  | .list a, .list b => listOrder? Item.order? a b
  | _, _ => none

/-- Whether `a` contains `b`: its text as a part of a text, a name as a field of a record, or
the value as an item of a list.  Nothing can be asked of what has no content. -/
def Value.contains? (a b : Value) : Option Bool :=
  match a with
  | .nil | .hollow _ => none
  | .item (.scalar s) => some (containsText s.render b.render)
  | .item (.record fields) =>
    match b with
    | .item (.scalar t) => some (fields.any (·.1 == t.render))
    | _ => some false
  | .list items => some (items.any fun i => (Value.item i).same b)

/-- The outcome of a comparison, unless it cannot be asked. -/
def Comparison.holds? (op : Comparison) (a b : Value) : Option Bool :=
  match op with
  | .eq => some (a.same b)
  | .ne => some (!a.same b)
  | .lt => some (a.order? b == some .lt)
  | .le => some ((a.order? b).any Ordering.isLE)
  | .gt => some (a.order? b == some .gt)
  | .ge => some ((a.order? b).any Ordering.isGE)
  | .contains => a.contains? b

/-! ## A method's variables -/

/-- The record that stands for a parameter. -/
def Parameter.toItem (p : Parameter) : Item :=
  .record [("Name", .text p.name), ("TypeExpr", .text p.type)]

/-- The variables that a method gives a template. -/
def Method.variables (m : Method) : List (String × Value) :=
  [("ReceiverType", .ofText m.receiver),
   ("Name", .ofText m.name),
   ("Parameters", .list (m.parameters.map Parameter.toItem)),
   ("Returns", .list (m.results.map fun r => .scalar (.text r)))]

end MethodSkeleton
