import ImportAtlas.Watch.Loop
import ImportAtlas.Watch.Session
import Mathlib.Data.List.DropRight
import Mathlib.Data.List.Induction

set_option autoImplicit false

/-!
# Events between the steps of a watcher

The debounce of a watcher remembers two things of a history of its loop: whether
an accepted event came since the report was last begun, and when the latest one
came (`Remembers`).  So no change is lost (`no_change_lost`).  The turns of a
session are such a history (`exists_run_of_run`).
-/

namespace ImportAtlas.Watch

variable {σ τ : Type}

/-! ## Runs of a loop -/

namespace Loop

variable [Sub τ] [LT τ] [DecidableLT τ]

@[simp] theorem run_nil (l : Loop τ) : l.run [] = some l := rfl

@[simp] theorem run_cons (l : Loop τ) (m : Move τ) (history : List (Move τ)) :
    l.run (m :: history) = (l.move? m).bind fun l => l.run history := rfl

theorem run_append (l : Loop τ) (before after : List (Move τ)) :
    l.run (before ++ after) = (l.run before).bind fun l => l.run after :=
  List.foldlM_append

/-- A history leads up to each of its moves. -/
theorem run_split {l l' : Loop τ} {before after : List (Move τ)} {m : Move τ}
    (h : l.run (before ++ m :: after) = some l') :
    ∃ here next, l.run before = some here ∧ here.move? m = some next ∧
      next.run after = some l' := by
  rw [run_append] at h
  obtain ⟨here, hbefore, h⟩ := Option.bind_eq_some_iff.mp h
  obtain ⟨next, hmove, hafter⟩ := Option.bind_eq_some_iff.mp h
  exact ⟨here, next, hbefore, hmove, hafter⟩

end Loop

/-! ## Histories -/

/-- Whether the report is begun. -/
def Move.isStart : Move τ → Bool
  | .take _ due => due
  | _ => false

/-- The time of a move that is an accepted event. -/
def Move.accepted? (f : EventFilter) : Move τ → Option τ
  | .event now e => if f.triggers e then some now else none
  | _ => none

/-- The times of the accepted events of a history. -/
def accepted (f : EventFilter) (history : List (Move τ)) : List τ :=
  history.filterMap (Move.accepted? f)

/-- The moves since the report was last begun; all of them if it never was. -/
def sinceStart (history : List (Move τ)) : List (Move τ) :=
  history.rtakeWhile fun m => !m.isStart

@[simp] theorem accepted_append (f : EventFilter) (before after : List (Move τ)) :
    accepted f (before ++ after) = accepted f before ++ accepted f after :=
  List.filterMap_append

theorem accepted_singleton (f : EventFilter) (m : Move τ) :
    accepted f [m] = (m.accepted? f).toList := by
  cases h : m.accepted? f <;> simp [accepted, h]

theorem sinceStart_concat_start {m : Move τ} (h : m.isStart = true) (history : List (Move τ)) :
    sinceStart (history ++ [m]) = [] :=
  List.rtakeWhile_concat_neg _ _ _ (by simp [h])

theorem sinceStart_concat {m : Move τ} (h : m.isStart = false) (history : List (Move τ)) :
    sinceStart (history ++ [m]) = sinceStart history ++ [m] :=
  List.rtakeWhile_concat_pos _ _ _ (by simp [h])

theorem sinceStart_suffix (history : List (Move τ)) : sinceStart history <:+ history :=
  List.rtakeWhile_suffix _ _

/-- What is accepted since the last start is accepted. -/
theorem accepted_ne_nil {f : EventFilter} {history : List (Move τ)}
    (h : accepted f (sinceStart history) ≠ []) : accepted f history ≠ [] := by
  obtain ⟨before, hbefore⟩ := sinceStart_suffix history
  rw [← hbefore, accepted_append]
  exact List.append_ne_nil_of_right_ne_nil _ h

/-- Behind a start, the moves since the last start are among those behind it. -/
theorem sinceStart_append_suffix {m : Move τ} (h : m.isStart = true)
    (before after : List (Move τ)) :
    sinceStart (before ++ m :: after) <:+ after := by
  induction after using List.reverseRecOn with
  | nil => exact List.suffix_nil.mpr (sinceStart_concat_start h before)
  | append_singleton after last ih =>
    rw [← List.cons_append, ← List.append_assoc]
    cases hlast : last.isStart with
    | true =>
      rw [sinceStart_concat_start hlast]
      exact List.nil_suffix
    | false =>
      rw [sinceStart_concat hlast]
      obtain ⟨front, hfront⟩ := ih
      exact ⟨front, by rw [← List.append_assoc, hfront]⟩

/-! ## What the debounce remembers -/

variable [Sub τ] [LT τ] [DecidableLT τ]

omit [Sub τ] [LT τ] [DecidableLT τ] in
/-- What a watcher knows of its history: whether an accepted event came since the last start, and
the time of the latest one. -/
structure Remembers (f : EventFilter) (delay created : τ) (history : List (Move τ))
    (w : Watcher τ) : Prop where
  filter : w.filter = f
  delay : w.delay = delay
  pending : w.debounce.pending = true ↔ accepted f (sinceStart history) ≠ []
  last : w.debounce.last = (accepted f history).getLastD created

namespace Remembers

variable {f : EventFilter} {delay created : τ} {history : List (Move τ)} {w : Watcher τ}

omit [Sub τ] [LT τ] [DecidableLT τ] in
theorem create (f : EventFilter) (delay created : τ) :
    Remembers f delay created [] (Watcher.create f delay created) :=
  ⟨rfl, rfl, by simp [Watcher.create, Debounce.start, sinceStart, accepted], rfl⟩

omit [Sub τ] [LT τ] [DecidableLT τ] in
/-- A move that is no accepted event and no start leaves nothing to remember. -/
theorem quiet (h : Remembers f delay created history w) {m : Move τ}
    (haccepted : m.accepted? f = none) (hstart : m.isStart = false) {w' : Watcher τ}
    (hfilter : w'.filter = w.filter) (hdelay : w'.delay = w.delay)
    (hdebounce : w'.debounce = w.debounce) : Remembers f delay created (history ++ [m]) w' where
  filter := hfilter.trans h.filter
  delay := hdelay.trans h.delay
  pending := by
    rw [hdebounce, sinceStart_concat hstart, accepted_append, accepted_singleton, haccepted,
      Option.toList_none, List.append_nil]
    exact h.pending
  last := by
    rw [hdebounce, accepted_append, accepted_singleton, haccepted, Option.toList_none,
      List.append_nil]
    exact h.last

omit [Sub τ] [LT τ] [DecidableLT τ] in
theorem deliver (h : Remembers f delay created history w) (now : τ) (event : FileEvent) :
    Remembers f delay created (history ++ [.event now event]) (w.deliver now event) := by
  unfold Watcher.deliver
  rw [h.filter]
  cases htriggers : f.triggers event with
  | false => exact h.quiet (by simp [Move.accepted?, htriggers]) rfl rfl rfl rfl
  | true =>
    have haccepted : accepted f [Move.event now event] = [now] := by
      simp [accepted_singleton, Move.accepted?, htriggers]
    refine ⟨rfl, h.delay, ?_, ?_⟩
    · rw [sinceStart_concat rfl, accepted_append, haccepted]
      simp
    · rw [accepted_append, haccepted]
      simp

theorem take (h : Remembers f delay created history w) (now : τ) :
    Remembers f delay created (history ++ [.take now (w.take now).1]) (w.take now).2 := by
  cases hdue : w.debounce.isDue w.delay now with
  | false =>
    have htake : w.take now = (false, w) := by simp [Watcher.take, Debounce.take, hdue]
    rw [htake]
    exact h.quiet rfl rfl rfl rfl rfl
  | true =>
    have htake : w.take now =
        (true, { w with debounce := { w.debounce with pending := false } }) := by
      simp [Watcher.take, Debounce.take, hdue]
    rw [htake]
    refine ⟨h.filter, h.delay, ?_, ?_⟩
    · rw [sinceStart_concat_start rfl]
      simp [accepted]
    · rw [accepted_append, accepted_singleton]
      simpa [Move.accepted?] using h.last

/-- Each move keeps what is remembered in step with the history. -/
theorem move {l l' : Loop τ} {m : Move τ} (h : Remembers f delay created history l.watcher)
    (hmove : l.move? m = some l') : Remembers f delay created (history ++ [m]) l'.watcher := by
  cases m with
  | event now event =>
    cases hmove
    exact h.deliver now event
  | switch running observing =>
    cases hmove
    exact h.quiet rfl rfl rfl rfl rfl
  | take now due =>
    obtain ⟨⟨-, rfl⟩, hl⟩ := Option.ite_none_right_eq_some.mp hmove
    cases hl
    exact h.take now
  | test _ | finish _ | wake | interrupt =>
    obtain ⟨-, hl⟩ := Option.ite_none_right_eq_some.mp hmove
    cases hl
    exact h.quiet rfl rfl rfl rfl rfl

theorem run {l : Loop τ} (hrun : (Loop.start f delay created).run history = some l) :
    Remembers f delay created history l.watcher := by
  induction history using List.reverseRecOn generalizing l with
  | nil =>
    cases hrun
    exact create f delay created
  | append_singleton history m ih =>
    obtain ⟨here, next, hhere, hmove, hnext⟩ := Loop.run_split hrun
    cases hnext
    exact (ih hhere).move hmove

/-- What is due: an accepted event came since the last start, and the latest one settled. -/
theorem take_fst_iff (h : Remembers f delay created history w) (now : τ) :
    (w.take now).1 = true ↔ accepted f (sinceStart history) ≠ [] ∧
      ∀ last ∈ (accepted f history).getLast?, ¬ now - last < delay := by
  have hdue : (w.take now).1 = (w.debounce.pending && !decide (now - w.debounce.last < w.delay)) :=
    Debounce.take_fst ..
  rw [hdue, Bool.and_eq_true, Bool.not_eq_true', decide_eq_false_iff_not, h.pending, h.last,
    h.delay]
  refine and_congr_right fun hpending => ?_
  have hne : accepted f history ≠ [] := accepted_ne_nil hpending
  simp [List.getLast?_eq_some_getLast hne, List.getLastD_eq_getLast?]

end Remembers

/-! ## The way to the next look -/

/-- The moves of the loop itself up to its next look at what is pending, while the watcher runs. -/
def Phase.untilTake (outcome : UpdateOutcome) (now : τ) (due : Bool) : Phase → List (Move τ)
  | .testing => [.test true, .take now due]
  | .checking => [.take now due]
  | .updating => [.finish outcome, .wake, .test true, .take now due]
  | .sleeping => [.wake, .test true, .take now due]
  | .ended => []

namespace Loop

/-- As long as the watcher runs, its loop comes to the next look, however the report was left. -/
theorem run_untilTake {l : Loop τ} (hphase : l.phase ≠ .ended) (hrunning : l.watcher.running = true)
    (outcome : UpdateOutcome) {now : τ} {due : Bool} (hdue : (l.watcher.take now).1 = due) :
    l.run (l.phase.untilTake outcome now due) =
      some ⟨(l.watcher.take now).2, if due then .updating else .sleeping⟩ := by
  rcases l with ⟨w, phase⟩
  cases phase with
  | ended => exact absurd rfl hphase
  | testing | checking | updating | sleeping =>
    simp only at hrunning hdue
    simp [Phase.untilTake, move?, hrunning, hdue]

/-- A loop ends by a test that finds the watcher told to stop, or by a sleep that is broken off. -/
theorem exists_of_ended {start l : Loop τ} {history : List (Move τ)} (hstart : start.phase ≠ .ended)
    (hrun : start.run history = some l) (hended : l.phase = .ended) :
    .interrupt ∈ history ∨ ∃ before after here, history = before ++ .test false :: after ∧
      start.run before = some here ∧ here.watcher.running = false := by
  induction history using List.reverseRecOn generalizing l with
  | nil =>
    cases hrun
    exact absurd hended hstart
  | append_singleton history m ih =>
    obtain ⟨here, next, hhere, hmove, hnext⟩ := run_split hrun
    cases hnext
    -- a loop that has ended already makes no further move of its own
    have hearlier : here.phase = .ended → .interrupt ∈ history ++ [m] ∨
        ∃ before after there, history ++ [m] = before ++ .test false :: after ∧
          start.run before = some there ∧ there.watcher.running = false := by
      intro hphase
      rcases ih hhere hphase with hmem | ⟨before, after, there, rfl, hbefore, hstopped⟩
      · exact .inl (List.mem_append_left _ hmem)
      · exact .inr ⟨before, after ++ [m], there, by simp, hbefore, hstopped⟩
    cases m with
    | event | switch =>
      cases hmove
      exact hearlier hended
    | interrupt => exact .inl (by simp)
    | test running =>
      obtain ⟨⟨-, hrunning⟩, hl⟩ := Option.ite_none_right_eq_some.mp hmove
      cases hl
      cases running with
      | true => cases hended
      | false => exact .inr ⟨history, [], here, rfl, hhere, hrunning⟩
    | take now due =>
      obtain ⟨-, hl⟩ := Option.ite_none_right_eq_some.mp hmove
      cases hl
      cases due <;> cases hended
    | finish | wake =>
      obtain ⟨-, hl⟩ := Option.ite_none_right_eq_some.mp hmove
      cases hl
      cases hended

end Loop

/-! ## The loop of a session -/

namespace Session

/-- The moves of one turn of a session's loop. -/
def turnMoves (regenerate : σ → σ × UpdateOutcome) (s : Session σ τ) : List (Move τ) :=
  if (s.watcher.take s.now).1 then
    [.test true, .take s.now true, .finish (regenerate s.world).2]
  else [.test true, .take s.now false]

omit [Sub τ] [LT τ] [DecidableLT τ] in
/-- The moves of a tick. -/
def tickMoves (s : Session σ τ) (tick : Tick σ τ) : List (Move τ) :=
  tick.events.map (.event (tick.time.getD s.now)) ++
    if tick.stop then [.switch false s.watcher.observing] else []

theorem run_turnMoves {regenerate : σ → σ × UpdateOutcome} {s : Session σ τ}
    (hrunning : s.watcher.running = true) :
    (⟨s.watcher, .testing⟩ : Loop τ).run (s.turnMoves regenerate) =
      some ⟨(s.turn regenerate).watcher, .sleeping⟩ := by
  unfold turnMoves turn
  cases hdue : (s.watcher.take s.now).1 with
  | true => simp [Loop.move?, hrunning, hdue, update]
  | false => simp [Loop.move?, hrunning, hdue]

/-- Events are noted one after the other, wherever the loop stands. -/
theorem run_events (now : τ) (events : List FileEvent) (w : Watcher τ) (phase : Phase) :
    (⟨w, phase⟩ : Loop τ).run (events.map (.event now)) =
      some ⟨events.foldl (Watcher.deliver now) w, phase⟩ := by
  induction events generalizing w with
  | nil => rfl
  | cons event events ih =>
    rw [List.map_cons, Loop.run_cons, List.foldl_cons, ← ih]
    rfl

omit [Sub τ] [LT τ] [DecidableLT τ] in
theorem observing_events (now : τ) (events : List FileEvent) (w : Watcher τ) :
    (events.foldl (Watcher.deliver now) w).observing = w.observing := by
  induction events generalizing w with
  | nil => rfl
  | cons event events ih =>
    rw [List.foldl_cons, ih, Watcher.deliver]
    split <;> rfl

theorem run_tickMoves (s : Session σ τ) (tick : Tick σ τ) :
    (⟨s.watcher, .sleeping⟩ : Loop τ).run (s.tickMoves tick) =
      some ⟨(s.pass tick).watcher, .sleeping⟩ := by
  unfold tickMoves pass
  rw [Loop.run_append, run_events, Option.bind_some]
  cases tick.stop with
  | true =>
    rw [← observing_events (tick.time.getD s.now) tick.events s.watcher]
    rfl
  | false => rfl

/-- The loop of a session is one of the histories: each turn with the events of its tick behind. -/
theorem exists_run_of_loop (regenerate : σ → σ × UpdateOutcome) (ticks : List (Tick σ τ))
    (s : Session σ τ) :
    ∃ history, (⟨s.watcher, .testing⟩ : Loop τ).run history =
      some ⟨(loop regenerate ticks s).1.watcher, .ended⟩ := by
  induction ticks generalizing s with
  | nil =>
    unfold loop
    cases hrunning : s.watcher.running with
    | true =>
      refine ⟨s.turnMoves regenerate ++ [.interrupt], ?_⟩
      rw [Loop.run_append, run_turnMoves hrunning]
      rfl
    | false => exact ⟨[.test false], by simp [Loop.move?, hrunning]⟩
  | cons tick rest ih =>
    unfold loop
    cases hrunning : s.watcher.running with
    | true =>
      obtain ⟨history, hhistory⟩ := ih ((s.turn regenerate).pass tick)
      refine ⟨s.turnMoves regenerate ++ ((s.turn regenerate).tickMoves tick ++
        (.wake :: history)), ?_⟩
      rw [Loop.run_append, run_turnMoves hrunning, Option.bind_some, Loop.run_append, run_tickMoves,
        Option.bind_some]
      exact hhistory
    | false => exact ⟨[.test false], by simp [Loop.move?, hrunning]⟩

/-- A session that watches from start to end follows a history, too. -/
theorem exists_run_of_run (regenerate : σ → σ × UpdateOutcome) (ticks : List (Tick σ τ))
    (s : Session σ τ) :
    ∃ history, (⟨s.watcher, .testing⟩ : Loop τ).run history =
      some ⟨(run regenerate ticks s).1.watcher, .ended⟩ := by
  obtain ⟨history, hhistory⟩ := exists_run_of_loop regenerate ticks s.start
  refine ⟨.switch true true :: (history ++ [.switch false false]), ?_⟩
  rw [Loop.run_cons, Loop.move?, Option.bind_some, Loop.run_append]
  have hstart : (⟨{ s.watcher with running := true, observing := true }, .testing⟩ : Loop τ) =
      ⟨s.start.watcher, .testing⟩ := rfl
  rw [hstart, hhistory]
  rfl

end Session

/-! ## No change is lost -/

/-- **No accepted change is lost.**  Whatever events come between the steps of a loop: an update is
pending exactly when an accepted event came since the report was last begun.  A look at what is
pending begins the report exactly when that is so and the latest accepted event lies no less than
the delay back; so between two beginnings there is an accepted event.  While the watcher runs, the
loop comes to its next look whatever became of the report, and then begins it if all has settled; it
ends only by a test that finds the watcher told to stop, or by a sleep that is broken off. -/
theorem no_change_lost (f : EventFilter) (delay created : τ) (history : List (Move τ)) (l : Loop τ)
    (hrun : (Loop.start f delay created).run history = some l) :
    (l.watcher.debounce.pending = true ↔ accepted f (sinceStart history) ≠ []) ∧
    (∀ before now due after, history = before ++ .take now due :: after →
      (due = true ↔ accepted f (sinceStart before) ≠ [] ∧
        ∀ last ∈ (accepted f before).getLast?, ¬ now - last < delay)) ∧
    (∀ before first between second after,
      history = before ++ .take first true :: (between ++ .take second true :: after) →
      accepted f between ≠ []) ∧
    (l.phase ≠ .ended → l.watcher.running = true → accepted f (sinceStart history) ≠ [] →
      ∀ now, (∀ last ∈ (accepted f history).getLast?, ¬ now - last < delay) → ∀ outcome,
      ∃ next, l.run (l.phase.untilTake outcome now true) = some next ∧ next.phase = .updating) ∧
    (l.phase = .ended → .interrupt ∈ history ∨
      ∃ before after here, history = before ++ .test false :: after ∧
        (Loop.start f delay created).run before = some here ∧ here.watcher.running = false) := by
  have htake : ∀ before now due after, history = before ++ .take now due :: after →
      (due = true ↔ accepted f (sinceStart before) ≠ [] ∧
        ∀ last ∈ (accepted f before).getLast?, ¬ now - last < delay) := by
    rintro before now due after rfl
    obtain ⟨here, next, hhere, hmove, -⟩ := Loop.run_split hrun
    obtain ⟨⟨-, rfl⟩, -⟩ := Option.ite_none_right_eq_some.mp hmove
    exact (Remembers.run hhere).take_fst_iff now
  refine ⟨(Remembers.run hrun).pending, htake, ?_, ?_, ?_⟩
  · intro before first between second after hsplit
    -- what was accepted since the last start came behind the first of the two
    have hsecond := htake (before ++ .take first true :: between) second true after
      (by rw [hsplit]; simp)
    have haccepted := (hsecond.mp rfl).1
    obtain ⟨front, hfront⟩ : sinceStart (before ++ .take first true :: between) <:+ between :=
      sinceStart_append_suffix rfl before between
    rw [← hfront, accepted_append]
    exact List.append_ne_nil_of_right_ne_nil _ haccepted
  · intro hphase hrunning haccepted now hsettled outcome
    have hdue : (l.watcher.take now).1 = true :=
      ((Remembers.run hrun).take_fst_iff now).mpr ⟨haccepted, hsettled⟩
    exact ⟨_, Loop.run_untilTake hphase hrunning outcome hdue, rfl⟩
  · exact Loop.exists_of_ended (by simp [Loop.start]) hrun

/-- A filter for the scripts of a folder. -/
def scriptFilter : EventFilter :=
  .create ⟨.root, ["p"]⟩ ⟨.root, ["p"]⟩ none []

def scriptChanged : FileEvent :=
  ⟨.modified, "/p/a.js", "", false⟩

/-- A change comes while the report is written, which then fails. -/
def restlessHistory : List (Move Int) :=
  [.switch true true, .event 0 scriptChanged, .test true, .take 3 true, .event 4 scriptChanged,
    .finish (.failed "broken"), .wake, .test true, .take 5 false]

/-- The change that came while the report was written is still pending, and once it has settled the
report is written again. -/
theorem no_change_lost_restless :
    ∃ l, (Loop.start scriptFilter 2 0).run restlessHistory = some l ∧
      l.watcher.debounce.pending = true ∧
      ∃ next, l.run (l.phase.untilTake .incomplete 6 true) = some next ∧
        next.phase = .updating := by
  have hrun : (Loop.start scriptFilter 2 0).run restlessHistory =
      some ⟨⟨scriptFilter, 2, ⟨true, 4⟩, true, true⟩, .sleeping⟩ := by decide +kernel
  have haccepted : accepted scriptFilter (sinceStart restlessHistory) = [4] := by decide +kernel
  have hlast : (accepted scriptFilter restlessHistory).getLast? = some 4 := by decide +kernel
  have h := no_change_lost scriptFilter 2 0 restlessHistory _ hrun
  refine ⟨_, hrun, h.1.mpr (by simp [haccepted]), ?_⟩
  refine h.2.2.2.1 (by decide) rfl (by simp [haccepted]) 6 ?_ .incomplete
  simp [hlast]

end ImportAtlas.Watch
