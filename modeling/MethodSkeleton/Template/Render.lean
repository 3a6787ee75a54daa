/-
# `MethodSkeleton.Template.Render` — filling in a template

Rendering goes through the nodes from the left.  It carries what the template has assigned
so far, and it can be cut short: `break` and `continue` stop everything up to the loop they
belong to, and outside any loop they stop the template.
-/
import MethodSkeleton.Template.Filter

namespace MethodSkeleton

/-- Whether rendering goes on. -/
inductive Signal
  | proceed
  | breakLoop
  | continueLoop
deriving DecidableEq, Repr

/-- What rendering has come to: the text written, the scope behind it, and whether to go
on. -/
structure Progress where
  out : String
  scope : Scope
  signal : Signal
deriving Repr

/-- Nothing written yet. -/
def Progress.start (s : Scope) : Progress := ⟨"", s, .proceed⟩

/-- What is known inside a loop about its `i`-th turn of `n`. -/
def loopRecord (i n : Nat) : Value :=
  .item (.record
    [("length", .integer n), ("index", .integer (i + 1)), ("index0", .integer i),
     ("rindex", .integer (n - i : Nat)), ("rindex0", .integer (n - i - 1 : Nat)),
     ("first", .bool (i == 0)), ("last", .bool (i + 1 == n))])

/-- The items a loop runs over. -/
def loopItems : Value → Except RenderFault (List Item)
  | .list items => .ok items
  | .nil | .hollow _ => .ok []
  | .item _ => .error .notIterable

/-- The number an optional bound of a loop stands for, out of `n`; below zero there is no
number, and the bound is out of reach. -/
def loopBound (s : Scope) (n fallback : Nat) : Option Expression → Except RenderFault Nat
  | none => .ok fallback
  | some e => do
    match (← e.evaluate s).scalar?.bind Scalar.integer? with
    | some i => return if i < 0 then n else i.toNat
    | none => .error .notCountable

/-- The turns of a loop: what is left of the items behind the offset, up to the limit, and
then the other way round if so asked. -/
def LoopHead.items (s : Scope) (head : LoopHead) : Except RenderFault (List Item) := do
  let all ← loopItems (← head.source.evaluate s)
  let limit ← loopBound s all.length all.length head.limit
  let offset ← loopBound s all.length 0 head.offset
  let chosen := (all.drop offset).take limit
  return if head.reversed then chosen.reverse else chosen

/-- Runs a loop's body, given as a function on scopes, over the items left; `i` of `n` turns
are done.  Names of the loop are forgotten after each turn. -/
def runTurns (name : String) (body : Scope → Except RenderFault Progress) (n : Nat) :
    Nat → List Item → Progress → Except RenderFault Progress
  | _, [], p => .ok p
  | i, item :: items, p => do
    let inner : Scope :=
      { p.scope with
        loops := (name, .item item) :: ("forloop", loopRecord i n) :: p.scope.loops }
    let turn ← body inner
    let p : Progress :=
      ⟨p.out ++ turn.out, { p.scope with assigned := turn.scope.assigned }, .proceed⟩
    if turn.signal = .breakLoop then return p else runTurns name body n (i + 1) items p

/-- Whether one of the values a `when` lists is the target. -/
def anySame (s : Scope) (target : Value) : List Expression → Except RenderFault Bool
  | [] => .ok false
  | e :: es => do
    let v ← e.evaluate s
    if v.same target then return true else anySame s target es

mutual

/-- Renders a node. -/
def Node.render (s : Scope) : Node → Except RenderFault Progress
  | .text t => .ok ⟨t, s, .proceed⟩
  | .output pipeline => do return ⟨(← pipeline.evaluate s).render, s, .proceed⟩
  | .assign name pipeline => do
    return ⟨"", s.assign name (← pipeline.evaluate s), .proceed⟩
  | .capture name body => do
    let p ← renderNodes s body
    return ⟨"", p.scope.assign name (.ofText p.out), p.signal⟩
  | .branch condition yes no => do
    if ← condition.holds s then renderNodes s yes else renderNodes s no
  | .choose target values yes no => do
    let target ← target.evaluate s
    if ← anySame s target values then renderNodes s yes else renderNodes s no
  | .loop head body otherwise => do
    let items ← head.items s
    if items.isEmpty then renderNodes s otherwise
    else
      runTurns head.name (fun inner => renderNodes inner body) items.length 0 items (.start s)
  | .breakLoop => .ok ⟨"", s, .breakLoop⟩
  | .continueLoop => .ok ⟨"", s, .continueLoop⟩

/-- Renders nodes one after the other, as long as none stops them. -/
def renderNodes (s : Scope) : List Node → Except RenderFault Progress
  | [] => .ok (.start s)
  | node :: nodes => do
    let p ← node.render s
    if p.signal = .proceed then
      let q ← renderNodes p.scope nodes
      return { q with out := p.out ++ q.out }
    else return p

end

/-- The text that a template makes of variables. -/
def Template.render (t : Template) (globals : List (String × Value)) :
    Except RenderFault String := do
  return (← renderNodes ⟨[], [], globals⟩ t).out

end MethodSkeleton
