/-
# `MethodSkeleton.Proofs.Result` — answers that may be failures

What a sequence of steps answers, said step by step: a good answer comes from good answers all
along, a failure from the first step that fails.  Steps that also ask the outside world are steps of
the same kind once the world is a value (`run_bind`).
-/
import Mathlib.Logic.Basic

namespace MethodSkeleton

variable {ε δ α β : Type}

/-! ## Answers -/

theorem ok_bind (a : α) (f : α → Except ε β) : (.ok a : Except ε α) >>= f = f a := rfl

theorem bind_ok_iff {x : Except ε α} {f : α → Except ε β} {b : β} :
    x >>= f = .ok b ↔ ∃ a, x = .ok a ∧ f a = .ok b := by
  cases x with
  | error e => simp [bind, Except.bind]
  | ok a => simp [bind, Except.bind]

theorem bind_error_iff {x : Except ε α} {f : α → Except ε β} {e : ε} :
    x >>= f = .error e ↔ x = .error e ∨ ∃ a, x = .ok a ∧ f a = .error e := by
  cases x with
  | error e => simp [bind, Except.bind]
  | ok a => simp [bind, Except.bind]

theorem map_ok_iff {x : Except ε α} {f : α → β} {b : β} :
    x.map f = .ok b ↔ ∃ a, x = .ok a ∧ f a = b := by
  cases x with
  | error e => simp [Except.map]
  | ok a => simp [Except.map]

theorem map_error_iff {x : Except ε α} {f : α → β} {e : ε} :
    x.map f = .error e ↔ x = .error e := by
  cases x with
  | error e => simp [Except.map]
  | ok a => simp [Except.map]

@[simp] theorem mapError_ok (f : ε → δ) (a : α) : (.ok a : Except ε α).mapError f = .ok a := rfl

@[simp] theorem mapError_error (f : ε → δ) (e : ε) :
    (.error e : Except ε α).mapError f = .error (f e) := rfl

/-! ## Answers of a world that is a value -/

theorem run_bind (x : ExceptT ε Id α) (f : α → ExceptT ε Id β) :
    (x >>= f).run.run = x.run.run >>= fun a => (f a).run.run := by
  cases h : x.run.run with
  | error e =>
      obtain rfl : x = ExceptT.mk (pure (.error e)) := h
      rfl
  | ok a =>
      obtain rfl : x = ExceptT.mk (pure (.ok a)) := h
      rfl

theorem run_adapt (f : ε → δ) (x : ExceptT ε Id α) :
    (x.adapt f).run.run = x.run.run.mapError f := rfl

theorem run_mk_pure (x : Except ε α) : (ExceptT.mk (pure x) : ExceptT ε Id α).run.run = x := rfl

end MethodSkeleton
