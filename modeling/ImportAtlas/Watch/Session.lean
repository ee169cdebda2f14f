import ImportAtlas.Watch.Watcher

set_option autoImplicit false

/-!
# Watching

While a watcher runs, each turn of its loop writes the report again if changes
have settled, and then sleeps.  What happens during a sleep is a tick: time goes
on, the world changes, events arrive, and the watcher may be told to stop.  When
the ticks are used up, watching is interrupted.  However it ends, the watcher
gives its observer back.

The world and the way a report is written are parameters: `regenerate` takes a
world to the world afterwards and the outcome.
-/

namespace ImportAtlas.Watch

variable {σ τ : Type}

/-- What happens during one sleep. -/
structure Tick (σ τ : Type) where
  /-- the time from now on, if it changes -/
  time : Option τ
  /-- how the world changes -/
  change : σ → σ
  events : List FileEvent
  stop : Bool

/-- A watcher in a world at a time, and what its observer and its log have received. -/
structure Session (σ τ : Type) where
  watcher : Watcher τ
  world : σ
  now : τ
  calls : List ObserverCall
  log : List LogLine

/-- How watching ends. -/
inductive RunEnd where
  | stopped
  | interrupted
  deriving DecidableEq, Repr

namespace Session

/-- The session with watching started. -/
def start (s : Session σ τ) : Session σ τ :=
  let (calls, lines) := s.watcher.startEffects
  { s with watcher := s.watcher.start, calls := s.calls ++ calls, log := s.log ++ lines }

/-- The session with watching stopped. -/
def stop (s : Session σ τ) : Session σ τ :=
  { s with watcher := s.watcher.stop, calls := s.calls ++ s.watcher.stopEffects }

/-- Writes the report again. -/
def update (regenerate : σ → σ × UpdateOutcome) (s : Session σ τ) : Session σ τ :=
  let (world, outcome) := regenerate s.world
  { s with world := world, log := s.log ++ [s.watcher.outcomeLine outcome] }

/-- One turn of the loop before its sleep. -/
def turn [Sub τ] [LT τ] [DecidableLT τ] (regenerate : σ → σ × UpdateOutcome) (s : Session σ τ) :
    Session σ τ :=
  let (due, watcher) := s.watcher.take s.now
  let s := { s with watcher := watcher }
  if due then s.update regenerate else s

/-- What a tick does to the session. -/
def pass (s : Session σ τ) (tick : Tick σ τ) : Session σ τ :=
  let now := tick.time.getD s.now
  let watcher := tick.events.foldl (Watcher.deliver now) s.watcher
  { s with
    now := now
    world := tick.change s.world
    watcher := if tick.stop then { watcher with running := false } else watcher }

/-- Turns of the loop, a tick after each, as long as the watcher runs. -/
def loop [Sub τ] [LT τ] [DecidableLT τ] (regenerate : σ → σ × UpdateOutcome) :
    List (Tick σ τ) → Session σ τ → Session σ τ × RunEnd
  | [], s => if s.watcher.running then (s.turn regenerate, .interrupted) else (s, .stopped)
  | tick :: rest, s =>
    if s.watcher.running then loop regenerate rest ((s.turn regenerate).pass tick)
    else (s, .stopped)

/-- Watches until stopped or interrupted. -/
def run [Sub τ] [LT τ] [DecidableLT τ] (regenerate : σ → σ × UpdateOutcome)
    (ticks : List (Tick σ τ)) (s : Session σ τ) : Session σ τ × RunEnd :=
  let (s, ended) := loop regenerate ticks s.start
  (s.stop, ended)

end Session

end ImportAtlas.Watch
