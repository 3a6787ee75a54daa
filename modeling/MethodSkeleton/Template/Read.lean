/-
# `MethodSkeleton.Template.Read` — building the tree of a template, and the core engine

The elements are taken one by one.  What is open at any time is a stack of blocks, each of
which remembers the nodes that came before it; what is done is the list of nodes of the
innermost block, the latest first.  An element adds a node, opens a block, turns to another
part of the innermost block, or closes it.

Inside a comment nothing needs to make sense: a fault there gives up the blocks opened
within the comment and goes on.  A tag that closes a block takes no terms; one that has some
is a fault of the block itself, except that inside `raw` it is text like everything else.
-/
import MethodSkeleton.Template.Clause
import MethodSkeleton.Template.Element
import MethodSkeleton.Template.Engine
import MethodSkeleton.Template.Render

namespace MethodSkeleton

/-- A block that is open, with what has been read of it.  The arms that are complete are
kept with the latest first. -/
inductive Block
  | branch (word : String) (arms : List (Condition × List Node)) (condition : Condition)
  | branchElse (word : String) (arms : List (Condition × List Node))
  | loop (head : LoopHead)
  | loopElse (head : LoopHead) (body : List Node)
  | choice (target : Expression) (arms : List (List Expression × List Node))
      (values : Option (List Expression))
  | choiceElse (target : Expression) (arms : List (List Expression × List Node))
  | capture (name : String)
  | comment
  | raw

namespace Block

/-- The word that opens the block. -/
def word : Block → String
  | branch word _ _ | branchElse word _ => word
  | loop _ | loopElse _ _ => "for"
  | choice _ _ _ | choiceElse _ _ => "case"
  | capture _ => "capture"
  | comment => "comment"
  | raw => "raw"

/-- The tag that closes the block. -/
def endTag (b : Block) : String := "end" ++ b.word

/-- Branches, each of which is the other side of the one before; the latest comes first. -/
def nestBranches (arms : List (Condition × List Node)) (otherwise : List Node) : List Node :=
  arms.foldl (fun no arm => [.branch arm.1 arm.2 no]) otherwise

/-- Choices, each of which is the other side of the one before; the latest comes first. -/
def nestChoices (target : Expression) (arms : List (List Expression × List Node))
    (otherwise : List Node) : List Node :=
  arms.foldl (fun no arm => [.choose target arm.1 arm.2 no]) otherwise

/-- The arms of a choice when the nodes of the current one are complete; what comes before
the first `when` belongs to none. -/
def closeArm (arms : List (List Expression × List Node)) (values : Option (List Expression))
    (nodes : List Node) : List (List Expression × List Node) :=
  match values with
  | none => arms
  | some vs => (vs, nodes) :: arms

/-- The nodes that the block comes to when `nodes` complete it. -/
def finish (b : Block) (nodes : List Node) : List Node :=
  match b with
  | branch _ arms condition => nestBranches ((condition, nodes) :: arms) []
  | branchElse _ arms => nestBranches arms nodes
  | loop head => [.loop head nodes []]
  | loopElse head body => [.loop head body nodes]
  | choice target arms values =>
    match closeArm arms values nodes with
    | [] => [.choose target [] [] []]
    | arms => nestChoices target arms []
  | choiceElse target [] => [.choose target [] [] nodes]
  | choiceElse target arms => nestChoices target arms nodes
  | capture name => [.capture name nodes]
  | comment => []
  | raw => nodes

/-- Turns to another part of the block, `nodes` being complete; nothing if the tag means no
such turn. -/
def turn? (b : Block) (nodes : List Node) (name : String) (ts : List Term) :
    Option (Except TemplateFault Block) :=
  match b, name with
  | branch "if" arms condition, "elsif" =>
    match condition? ts with
    | some next => some (.ok (branch "if" ((condition, nodes) :: arms) next))
    | none => some (.error (.malformed name))
  | branch word arms condition, "else" => some (bare (branchElse word ((condition, nodes) :: arms)))
  | loop head, "else" => some (bare (loopElse head nodes))
  | choice target arms values, "when" =>
    match alternatives? ts with
    | some vs => some (.ok (choice target (closeArm arms values nodes) (some vs)))
    | none => some (.error (.malformed name))
  | choice target arms values, "else" =>
    some (bare (choiceElse target (closeArm arms values nodes)))
  | _, _ => none
where
  /-- A turn that takes no terms. -/
  bare (b : Block) : Except TemplateFault Block :=
    if ts.isEmpty then .ok b else .error (.malformed name)

/-- The block that a tag opens; nothing if the tag opens none in the core language. -/
def open? (name : String) (ts : List Term) : Option (Except TemplateFault Block) :=
  match name with
  | "if" => some (orMalformed ((condition? ts).map (branch name [] ·)))
  | "unless" => some (orMalformed ((condition? ts).map fun c => branch name [] (.negated c)))
  | "for" => some (orMalformed ((loopHead? ts).map loop))
  | "case" => some (orMalformed ((single? ts).map (choice · [] none)))
  | "capture" =>
    match ts with
    | [.word v] => some (.ok (capture v))
    | _ => some (.error (.malformed name))
  | "comment" => some (orMalformed (if ts.isEmpty then some comment else none))
  | "raw" => some (orMalformed (if ts.isEmpty then some raw else none))
  | _ => none
where
  /-- What was read, or the complaint that nothing could be. -/
  orMalformed (b : Option Block) : Except TemplateFault Block :=
    match b with
    | some b => .ok b
    | none => .error (.malformed name)

end Block

/-- The node of a tag that stands alone; a tag that the core language lacks is a fault. -/
def Node.ofTag (name : String) (ts : List Term) : Except TemplateFault Node :=
  match name with
  | "assign" =>
    match assignment? ts with
    | some node => .ok node
    | none => .error (.malformed name)
  | "break" => if ts.isEmpty then .ok .breakLoop else .error (.malformed name)
  | "continue" => if ts.isEmpty then .ok .continueLoop else .error (.malformed name)
  | _ => .error (.unexpectedTag name)

/-- An open block and the nodes that came before it, the latest first. -/
structure OpenBlock where
  block : Block
  before : List Node

/-- A template in the making: the blocks that are open, the innermost first, and the nodes
of the innermost, the latest first. -/
structure Draft where
  opened : List OpenBlock
  done : List Node

namespace Draft

/-- Adds a node. -/
def add (d : Draft) (node : Node) : Draft := { d with done := node :: d.done }

/-- Opens a block. -/
def enter (d : Draft) (b : Block) : Draft := ⟨⟨b, d.done⟩ :: d.opened, []⟩

/-- Takes a tag that neither closes nor turns the innermost block. -/
def takeTag (d : Draft) (name : String) (ts : List Term) : Except TemplateFault Draft :=
  match Block.open? name ts with
  | some b => b.map d.enter
  | none => (Node.ofTag name ts).map d.add

/-- Takes a tag outside `raw`. -/
def takeTagInside (d : Draft) (name : String) (ts : List Term) : Except TemplateFault Draft :=
  match d.opened with
  | [] => d.takeTag name ts
  | innermost :: outer =>
    if name = innermost.block.endTag then
      if ts.isEmpty then
        .ok ⟨outer, (innermost.block.finish d.done.reverse).reverse ++ innermost.before⟩
      else .error (.malformed name)
    else
      match innermost.block.turn? d.done.reverse name ts with
      | some b => b.map fun b => ⟨⟨b, innermost.before⟩ :: outer, []⟩
      | none => d.takeTag name ts

/-- Takes an element outside `raw`. -/
def takeElement (d : Draft) (e : Element) : Except TemplateFault Draft :=
  match e.is with
  | .text => .ok (d.add (.text (String.ofList e.source)))
  | .broken => .error .brokenElement
  | .output subject calls =>
    match Pipeline.of? subject calls with
    | some p => .ok (d.add (.output p))
    | none => .error .brokenElement
  | .tag name ts => d.takeTagInside name ts

/-- Whether an element is the tag of a name, with or without terms. -/
def isTag (name : String) (e : Element) : Bool :=
  match e.is with
  | .tag n _ => n == name
  | _ => false

/-- Whether an element is the tag of a name and nothing else. -/
def isBareTag (name : String) (e : Element) : Bool :=
  match e.is with
  | .tag n ts => n == name && ts.isEmpty
  | _ => false

/-- Takes an element.  Inside `raw` everything up to its end is text. -/
def take (d : Draft) (e : Element) : Except TemplateFault Draft :=
  match d.opened with
  | ⟨.raw, before⟩ :: outer =>
    if isBareTag "endraw" e then .ok ⟨outer, d.done ++ before⟩
    else .ok (d.add (.text (String.ofList e.source)))
  | _ => d.takeElement e

/-- Gives up the blocks opened within the innermost comment, if there is a comment. -/
def retreat? : List OpenBlock → Option Draft
  | [] => none
  | ⟨.comment, before⟩ :: outer => some ⟨⟨.comment, before⟩ :: outer, []⟩
  | _ :: outer => retreat? outer

/-- The draft to go on with after a fault at an element, if there is one.  A fault in the tag
that closes a block gives that block up too. -/
def recover? (d : Draft) (e : Element) : Option Draft :=
  match d.opened with
  | [] => none
  | innermost :: outer =>
    retreat? (if isTag innermost.block.endTag e then outer else innermost :: outer)

/-- Takes the remaining elements and closes the draft. -/
def complete : Draft → List Element → Except TemplateFault Template
  | d, [] =>
    match d.opened with
    | [] => .ok d.done.reverse
    | innermost :: _ => .error (.unclosed innermost.block.word)
  | d, e :: es =>
    match d.take e with
    | .ok d => complete d es
    | .error why =>
      match d.recover? e with
      | some d => complete d es
      | none => .error why

end Draft

/-- Reads a template. -/
def parseTemplate (s : String) : Except TemplateFault Template :=
  Draft.complete ⟨[], []⟩ (elements s)

/-- The engine of the core language: the outputs, tags and filters that this library reads and
fills in itself. -/
def TemplateEngine.core : TemplateEngine where
  Compiled := Template
  compile s := (parseTemplate s).mapError TemplateFault.message
  fill t globals := (t.render globals).mapError RenderFault.message

/-- Reads a template of the core language and fills it in for a method. -/
def renderText (m : Method) (template : String) : Except TemplateError String :=
  TemplateEngine.core.render m template

end MethodSkeleton
