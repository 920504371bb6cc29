import TmatePlugin.Lib.Transition

/-!
# A first-in first-out queue with its history

`Queue α` remembers everything that was ever pushed and everything that was
ever popped; that the second is an initial part of the first, in the same
order, is a field. `fifo` is the transition system of the two operations, the
specification a message channel between two threads is compared with:
a system that simulates into it (`Transition.System.Simulation`) pops what was
pushed, once and in order.
-/
namespace Fifo

open Transition

structure Queue (α : Type) where
  pushed : List α
  popped : List α
  order : popped <+: pushed

namespace Queue

variable {α : Type}

def empty : Queue α := ⟨[], [], List.prefix_refl _⟩

/-- What was pushed and not popped yet, oldest first. -/
def pending (q : Queue α) : List α := q.pushed.drop q.popped.length

def push (q : Queue α) (a : α) : Queue α :=
  ⟨q.pushed ++ [a], q.popped, q.order.trans (List.prefix_append _ _)⟩

theorem pushed_eq (q : Queue α) : q.popped ++ q.pending = q.pushed :=
  List.prefix_iff_eq_append.mp q.order

/-- Takes the oldest pending element. -/
def pop (q : Queue α) (a : α) (h : q.pending.head? = some a) : Queue α :=
  ⟨q.pushed, q.popped ++ [a], by
    obtain ⟨rest, hrest⟩ := List.head?_eq_some_iff.mp h
    exact ⟨rest, by rw [List.append_assoc, ← q.pushed_eq, hrest]; rfl⟩⟩

theorem pending_of_pushed_eq {q : Queue α} {rest : List α} (h : q.pushed = q.popped ++ rest) :
    q.pending = rest := by
  rw [pending, h, List.drop_left]

end Queue

inductive Op (α : Type) where
  | push (a : α)
  | pop (a : α)
  deriving DecidableEq, Repr

/-- The queue as a transition system. -/
def fifo (α : Type) : System (Queue α) (Op α) where
  init := (· = .empty)
  step q op q' :=
    match op with
    | .push a => q' = q.push a
    | .pop a => ∃ h, q' = q.pop a h

end Fifo
