import ImportAtlas.Watch.Watcher

set_option autoImplicit false

/-!
# The loop of a watcher, step by step

Events reach a watcher at any time: between two turns of its loop, between the
test whether it runs and the look at what is pending, and while the report is
written.  `Loop.run` follows the loop through its steps with any events between
them; taking what is pending is one step, and so is noting an event.  The times
that the steps see are arbitrary.

A session (`Watch/Session.lean`) is such a history in which the events come during
the sleeps only.
-/

namespace ImportAtlas.Watch

variable {τ : Type}

/-- Where the loop of a watcher stands. -/
inductive Phase where
  /-- before the test whether the watcher runs -/
  | testing
  /-- before the look at what is pending -/
  | checking
  /-- while the report is written -/
  | updating
  | sleeping
  | ended
  deriving DecidableEq, Repr

/-- A watcher and the place of its loop. -/
structure Loop (τ : Type) where
  watcher : Watcher τ
  phase : Phase
  deriving DecidableEq, Repr

/-- What happens to a watcher: something from outside, or the next step of its loop. -/
inductive Move (τ : Type) where
  /-- an event reaches the watcher -/
  | event (now : τ) (event : FileEvent)
  /-- the watcher is started or told to stop -/
  | switch (running observing : Bool)
  /-- the loop finds that the watcher runs, or that it does not -/
  | test (running : Bool)
  /-- the loop takes what is pending at a time, or finds nothing due -/
  | take (now : τ) (due : Bool)
  /-- writing the report ends, in whatever way -/
  | finish (outcome : UpdateOutcome)
  | wake
  /-- the sleep is broken off -/
  | interrupt
  deriving DecidableEq, Repr

namespace Loop

/-- The loop of a new watcher. -/
def start (filter : EventFilter) (delay created : τ) : Loop τ :=
  ⟨.create filter delay created, .testing⟩

variable [Sub τ] [LT τ] [DecidableLT τ]

/-- The loop after a move, if the move is possible. -/
def move? (l : Loop τ) : Move τ → Option (Loop τ)
  | .event now event => some { l with watcher := l.watcher.deliver now event }
  | .switch running observing =>
    some { l with watcher := { l.watcher with running := running, observing := observing } }
  | .test running =>
    if l.phase = .testing ∧ l.watcher.running = running then
      some { l with phase := if running then .checking else .ended }
    else none
  | .take now due =>
    if l.phase = .checking ∧ (l.watcher.take now).1 = due then
      some ⟨(l.watcher.take now).2, if due then .updating else .sleeping⟩
    else none
  -- an error is logged and the loop goes on, so the outcome does not matter
  | .finish _ => if l.phase = .updating then some { l with phase := .sleeping } else none
  | .wake => if l.phase = .sleeping then some { l with phase := .testing } else none
  | .interrupt => if l.phase = .sleeping then some { l with phase := .ended } else none

/-- The loop after a history of moves, if each of them is possible when it is made. -/
def run (l : Loop τ) (history : List (Move τ)) : Option (Loop τ) :=
  history.foldlM move? l

end Loop

end ImportAtlas.Watch
