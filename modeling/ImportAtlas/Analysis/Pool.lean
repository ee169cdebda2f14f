import ImportAtlas.Assoc

set_option autoImplicit false

/-!
# Pools of workers

A pool works off a list of tasks.  A worker that is free takes the next task; the
tasks that are being worked on may end in any order.  The outcome of a task is
kept under its number, so that the outcomes can be collected in the order of the
tasks once all have ended.  In which order things happen is left open: a course
of the pool is any list of moves that it can make.
-/

namespace ImportAtlas

/-- What happens in a pool. -/
inductive PoolMove where
  /-- a free worker takes the next task -/
  | start
  /-- the work on a task ends -/
  | finish (number : Nat)
  deriving DecidableEq, Repr

/-- A pool with outcomes of one type. -/
structure Pool (β : Type) where
  /-- how many tasks were taken -/
  started : Nat
  /-- the numbers of the tasks that are being worked on -/
  running : List Nat
  /-- the outcomes of the tasks that have ended -/
  outcomes : List (Nat × β)
  deriving DecidableEq, Repr

namespace Pool

variable {α β : Type}

/-- The pool that has taken nothing. -/
def idle : Pool β := ⟨0, [], []⟩

variable (workers : Nat) (tasks : List α) (work : α → β)

/-- The pool after a move, if the move is possible. -/
def move? (p : Pool β) : PoolMove → Option (Pool β)
  | .start =>
    if p.running.length < workers ∧ p.started < tasks.length then
      some { p with started := p.started + 1, running := p.running ++ [p.started] }
    else none
  | .finish number =>
    if number ∈ p.running then
      tasks[number]?.map fun task =>
        { p with
          running := p.running.erase number
          outcomes := Assoc.put number (work task) p.outcomes }
    else none

/-- The pool after several moves, if they are possible. -/
def run (p : Pool β) (moves : List PoolMove) : Option (Pool β) :=
  moves.foldlM (move? workers tasks work) p

/-- The outcomes in the order of the tasks, once all have ended. -/
def collect? (tasks : List α) (p : Pool β) : Option (List β) :=
  (List.range tasks.length).mapM fun number => Assoc.get? number p.outcomes

/-- The outcomes of a course of the pool, if all tasks have ended in it. -/
def outcomes? (moves : List PoolMove) : Option (List β) :=
  (run workers tasks work idle moves).bind (collect? tasks)

end Pool

end ImportAtlas
