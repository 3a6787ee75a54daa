/-
# `MethodSkeleton.Proofs.Template.Writing` — rendering a template piece by piece

`Writes s ns t` says that in the scope `s` the nodes `ns` write the text `t` and go on as they
began: nothing is assigned, and no loop is cut short.  For such nodes what is written is put
together from what each of them writes, and a loop writes what its turns write, one after the
other (`Writes.loop`).  The turns are followed by induction on the items that are left
(`runTurns_ok`); that a turn ends in the scope it began in is what makes the next one start
where the loop started.
-/
import MethodSkeleton.Template.Render

namespace MethodSkeleton

/-- In the scope `s` the nodes write `t` and rendering goes on. -/
def Writes (s : Scope) (nodes : List Node) (t : String) : Prop :=
  renderNodes s nodes = .ok ⟨t, s, .proceed⟩

section
variable {s : Scope} {ns : List Node} {t u : String}

theorem Writes.nil : Writes s [] "" := by
  rw [Writes, renderNodes]
  rfl

/-- A node that writes `u`, and the rest. -/
theorem Writes.cons {node : Node} (hn : node.render s = .ok ⟨u, s, .proceed⟩)
    (h : Writes s ns t) : Writes s (node :: ns) (u ++ t) := by
  rw [Writes] at h
  simp [Writes, renderNodes, hn, h, bind, Except.bind, pure, Except.pure]

theorem Writes.text (v : String) (h : Writes s ns t) : Writes s (.text v :: ns) (v ++ t) :=
  .cons (by rw [Node.render]) h

theorem Writes.output {p : Pipeline} {v : Value} (hv : p.evaluate s = .ok v)
    (h : Writes s ns t) : Writes s (.output p :: ns) (v.render ++ t) := by
  refine .cons ?_ h
  simp [Node.render, hv, bind, Except.bind, pure, Except.pure]

/-- A branch writes what its side writes. -/
theorem Writes.branch {c : Condition} {b : Bool} {yes no : List Node} (hc : c.holds s = .ok b)
    (hb : Writes s (if b then yes else no) u) (h : Writes s ns t) :
    Writes s (.branch c yes no :: ns) (u ++ t) := by
  refine .cons ?_ h
  rw [Node.render, hc]
  rw [Writes] at hb
  cases b with
  | true => exact hb
  | false => exact hb

end

/-! ## Loops -/

/-- The scope of the `i`-th turn of `n`, which is about `item`. -/
def Scope.turn (s : Scope) (name : String) (n i : Nat) (item : Item) : Scope :=
  { s with loops := (name, .item item) :: ("forloop", loopRecord i n) :: s.loops }

/-- The turns that are left write what each of them writes. -/
theorem runTurns_ok {α : Type} {name : String} {body : List Node} {n : Nat} {item : α → Item}
    {f : Nat → α → String} {s : Scope}
    (hbody : ∀ i x, Writes (s.turn name n i (item x)) body (f i x)) (xs : List α) (i : Nat)
    (out : String) :
    runTurns name (fun inner => renderNodes inner body) n i (xs.map item) ⟨out, s, .proceed⟩ =
      .ok ⟨out ++ String.join (xs.mapIdx fun j => f (i + j)), s, .proceed⟩ := by
  induction xs generalizing i out with
  | nil => simp [runTurns]
  | cons x xs ih =>
      have hturn : renderNodes (s.turn name n i (item x)) body =
        .ok ⟨f i x, s.turn name n i (item x), .proceed⟩ := hbody i x
      rw [List.map_cons, runTurns]
      show (renderNodes (s.turn name n i (item x)) body >>= _) = _
      rw [hturn]
      show runTurns name _ n (i + 1) (xs.map item) ⟨out ++ f i x, s, .proceed⟩ = _
      rw [ih, List.mapIdx_cons, String.join_cons, String.append_assoc]
      simp only [Nat.add_zero, Nat.add_assoc, Nat.add_comm 1]

/-- A loop over a list writes what its turns write. -/
theorem Writes.loop {α : Type} {name : String} {source : Expression} {body : List Node}
    {item : α → Item} {f : Nat → α → String} {s : Scope} {xs : List α} {ns : List Node}
    {t : String} (hsource : source.evaluate s = .ok (.list (xs.map item)))
    (hbody : ∀ i x, Writes (s.turn name xs.length i (item x)) body (f i x))
    (h : Writes s ns t) :
    Writes s (.loop ⟨name, source, none, none, false⟩ body [] :: ns)
      (String.join (xs.mapIdx f) ++ t) := by
  refine .cons ?_ h
  have hitems : (⟨name, source, none, none, false⟩ : LoopHead).items s = .ok (xs.map item) := by
    have hall : (xs.map item).take xs.length = xs.map item :=
      List.take_of_length_le (Nat.le_of_eq (List.length_map _))
    simp [LoopHead.items, hsource, loopItems, loopBound, bind, Except.bind, pure, Except.pure,
      hall]
  rw [Node.render, hitems]
  cases xs with
  | nil => simp [bind, Except.bind, renderNodes, Progress.start]
  | cons x xs =>
      have hrun := runTurns_ok hbody (x :: xs) 0 ""
      simp only [Nat.zero_add, String.empty_append] at hrun
      show runTurns name _ _ 0 _ (.start s) = _
      rw [List.length_map]
      exact hrun

end MethodSkeleton
