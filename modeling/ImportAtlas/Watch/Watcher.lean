import ImportAtlas.Watch.Debounce
import ImportAtlas.Watch.Event

set_option autoImplicit false

/-!
# Watchers

A watcher filters events and waits for them to settle.  It holds an observer
while it watches: `start` asks for one and `stop` gives it back, each with the
calls the observer receives.
-/

namespace ImportAtlas.Watch

/-- A call that an observer receives. -/
inductive ObserverCall where
  /-- watch a folder with all below it -/
  | schedule (root : Path)
  | start
  | stop
  /-- wait for the observer to end, at most so many seconds -/
  | join (seconds : Nat)
  deriving DecidableEq, Repr

/-- The weight of a log line. -/
inductive LogLevel where
  | info
  | warning
  | error
  deriving DecidableEq, Repr

/-- The name of a weight. -/
def LogLevel.name : LogLevel → String
  | info => "INFO"
  | warning => "WARNING"
  | error => "ERROR"

/-- A line of the log. -/
structure LogLine where
  level : LogLevel
  text : String
  deriving DecidableEq, Repr

/-- How an update of the report ends. -/
inductive UpdateOutcome where
  | updated
  | incomplete
  | failed (message : String)
  deriving DecidableEq, Repr

/-- A watcher with times of type `τ`. -/
structure Watcher (τ : Type) where
  filter : EventFilter
  delay : τ
  debounce : Debounce τ
  running : Bool
  observing : Bool
  deriving DecidableEq, Repr

namespace Watcher

variable {τ : Type}

/-- A watcher that does not watch yet. -/
def create (filter : EventFilter) (delay now : τ) : Watcher τ :=
  ⟨filter, delay, .start now, false, false⟩

/-- An event reaches the watcher. -/
def deliver (now : τ) (w : Watcher τ) (event : FileEvent) : Watcher τ :=
  if w.filter.triggers event then { w with debounce := w.debounce.note now } else w

/-- Takes the pending changes if they have settled. -/
def take [Sub τ] [LT τ] [DecidableLT τ] (now : τ) (w : Watcher τ) : Bool × Watcher τ :=
  let (due, debounce) := w.debounce.take w.delay now
  (due, { w with debounce := debounce })

/-- The line that the end of an update leaves in the log. -/
def outcomeLine (w : Watcher τ) : UpdateOutcome → LogLine
  | .updated => ⟨.info, "Updated report for " ++ w.filter.projectRoot.text⟩
  | .incomplete => ⟨.warning, "Report update for " ++ w.filter.projectRoot.text ++
    " did not complete"⟩
  | .failed message => ⟨.error, "Error updating report: " ++ message⟩

/-- What the observer and the log receive when watching starts. -/
def startEffects (w : Watcher τ) : List ObserverCall × List LogLine :=
  if w.observing then ([], [])
  else
    ([.schedule w.filter.projectRoot, .start],
      [⟨.info, "Started watching " ++ w.filter.projectRoot.text⟩])

/-- The watcher that watches. -/
def start (w : Watcher τ) : Watcher τ :=
  { w with running := true, observing := true }

/-- How long an observer may take to end, in seconds. -/
def joinSeconds : Nat := 5

/-- What the observer receives when watching stops. -/
def stopEffects (w : Watcher τ) : List ObserverCall :=
  if w.observing then [.stop, .join joinSeconds] else []

/-- The watcher that does not watch. -/
def stop (w : Watcher τ) : Watcher τ :=
  { w with running := false, observing := false }

end Watcher

end ImportAtlas.Watch
