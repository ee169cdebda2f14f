import ImportAtlas.Proofs.Watch.Interleaving
import Mathlib.Algebra.Order.Ring.Rat

set_option autoImplicit false

/-!
# Calls of a watcher

From outside a watcher is called in two ways: an event is delivered, or what is
pending is taken.  `Watcher.answer` follows any sequence of such calls, at any
readings of the clock, which may run backwards.  Time is any linear order with a
subtraction, such as the rational numbers.

A call that takes gives something away exactly when an accepted event came since
the last one that did and the latest accepted event lies a delay back
(`take_iff_settled`).  What came in between is given away all at once, so there are
never more such calls than accepted events.
-/

namespace ImportAtlas.Watch

variable {τ : Type} [Sub τ] [LinearOrder τ]

omit [Sub τ] [LinearOrder τ] in
/-- A call of a watcher at a reading of the clock. -/
inductive WatcherCall (τ : Type) where
  | deliver (now : τ) (event : FileEvent)
  | take (now : τ)
  deriving DecidableEq, Repr

namespace Watcher

/-- What a call is answered, and the watcher after it. -/
def answerCall (w : Watcher τ) : WatcherCall τ → Move τ × Watcher τ
  | .deliver now event => (.event now event, w.deliver now event)
  | .take now => (.take now (w.take now).1, (w.take now).2)

/-- The history of a sequence of calls, each with its answer, and the watcher after them. -/
def answer (w : Watcher τ) : List (WatcherCall τ) → List (Move τ) × Watcher τ
  | [] => ([], w)
  | call :: rest =>
    let (move, w) := w.answerCall call
    let (history, w) := w.answer rest
    (move :: history, w)

@[simp] theorem answer_nil (w : Watcher τ) : w.answer [] = ([], w) := rfl

theorem answer_cons_fst (w : Watcher τ) (call : WatcherCall τ) (rest : List (WatcherCall τ)) :
    (w.answer (call :: rest)).1 =
      [(w.answerCall call).1] ++ ((w.answerCall call).2.answer rest).1 := rfl

theorem answer_cons_snd (w : Watcher τ) (call : WatcherCall τ) (rest : List (WatcherCall τ)) :
    (w.answer (call :: rest)).2 = ((w.answerCall call).2.answer rest).2 := rfl

/-- What is taken is pending no more. -/
theorem pending_take {w : Watcher τ} {now : τ} (h : (w.take now).1 = true) :
    (w.take now).2.debounce.pending = false := by
  have hdue : w.debounce.isDue w.delay now = true := (Debounce.take_fst ..).symm.trans h
  simp [take, Debounce.take, hdue]

/-- Nothing is taken where nothing is pending. -/
theorem take_of_not_pending {w : Watcher τ} (now : τ) (h : w.debounce.pending = false) :
    (w.take now).1 = false := by
  have hdue : (w.take now).1 = w.debounce.isDue w.delay now := Debounce.take_fst ..
  rw [hdue, Debounce.isDue, h, Bool.false_and]

end Watcher

namespace Remembers

variable {f : EventFilter} {delay created : τ} {history : List (Move τ)} {w : Watcher τ}

theorem answerCall (h : Remembers f delay created history w) (call : WatcherCall τ) :
    Remembers f delay created (history ++ [(w.answerCall call).1]) (w.answerCall call).2 := by
  cases call with
  | deliver now event => exact h.deliver now event
  | take now => exact h.take now

theorem answer (h : Remembers f delay created history w) (calls : List (WatcherCall τ)) :
    Remembers f delay created (history ++ (w.answer calls).1) (w.answer calls).2 := by
  induction calls generalizing history w with
  | nil =>
    rw [Watcher.answer_nil, List.append_nil]
    exact h
  | cons call rest ih =>
    rw [Watcher.answer_cons_fst, Watcher.answer_cons_snd, ← List.append_assoc]
    exact ih (h.answerCall call)

/-- What is due, told by the latest accepted event. -/
theorem take_iff (h : Remembers f delay created history w) (now : τ) :
    (w.take now).1 = true ↔ accepted f (sinceStart history) ≠ [] ∧
      ∃ last ∈ (accepted f history).getLast?, delay ≤ now - last := by
  rw [h.take_fst_iff]
  refine and_congr_right fun haccepted => ?_
  have hlast := List.getLast?_eq_some_getLast (accepted_ne_nil haccepted)
  simp [hlast]

end Remembers

namespace Watcher

variable {f : EventFilter} {w : Watcher τ}

/-- One for a change that waits to be taken. -/
def waiting (w : Watcher τ) : Nat :=
  if w.debounce.pending then 1 else 0

/-- A call that gives something away takes what was waiting, and only an accepted event makes
something wait. -/
theorem countP_answerCall_le (w : Watcher τ) (hfilter : w.filter = f) (call : WatcherCall τ) :
    [(w.answerCall call).1].countP Move.isStart + (w.answerCall call).2.waiting ≤
      (accepted f [(w.answerCall call).1]).length + w.waiting := by
  cases call with
  | deliver now event =>
    cases htriggers : f.triggers event with
    | false => simp [answerCall, deliver, hfilter, htriggers, Move.isStart]
    | true =>
      have haccepted : accepted f [Move.event now event] = [now] := by
        simp [accepted_singleton, Move.accepted?, htriggers]
      simp [answerCall, deliver, hfilter, htriggers, Move.isStart, haccepted, waiting]
  | take now =>
    cases hdue : w.debounce.isDue w.delay now with
    | false =>
      have htake : w.take now = (false, w) := by simp [take, Debounce.take, hdue]
      simp [answerCall, htake, Move.isStart]
    | true =>
      have hpending : w.debounce.pending = true := (Bool.and_eq_true_iff.mp hdue).1
      have hgiven : (w.take now).1 = true := (Debounce.take_fst ..).trans hdue
      simp [answerCall, hgiven, Move.isStart, waiting, pending_take hgiven, hpending]

theorem filter_answerCall (w : Watcher τ) (call : WatcherCall τ) :
    (w.answerCall call).2.filter = w.filter := by
  cases call with
  | deliver now event =>
    simp only [answerCall, deliver]
    split <;> rfl
  | take now => rfl

/-- The calls that give something away, and one if something is waiting then, are no more than the
accepted events, and one if something was waiting before. -/
theorem countP_answer_le (w : Watcher τ) (hfilter : w.filter = f) (calls : List (WatcherCall τ)) :
    (w.answer calls).1.countP Move.isStart + (w.answer calls).2.waiting ≤
      (accepted f (w.answer calls).1).length + w.waiting := by
  induction calls generalizing w with
  | nil => simp [accepted]
  | cons call rest ih =>
    have hstep := w.countP_answerCall_le hfilter call
    have hrest := ih (w.answerCall call).2 ((w.filter_answerCall call).trans hfilter)
    rw [answer_cons_fst, answer_cons_snd, List.countP_append, accepted_append, List.length_append]
    omega

/-- Without an accepted event nothing comes to wait. -/
theorem pending_answer_of_none (w : Watcher τ) (hfilter : w.filter = f)
    (hpending : w.debounce.pending = false) {calls : List (WatcherCall τ)}
    (h : accepted f (w.answer calls).1 = []) : (w.answer calls).2.debounce.pending = false := by
  have hle := w.countP_answer_le hfilter calls
  rw [h, List.length_nil] at hle
  by_contra hwaiting
  simp [waiting, hpending, hwaiting] at hle

end Watcher

/-- **What settled is taken, once.**  After any calls of a new watcher: a call that takes gives
something away exactly when an accepted event came since the last call that did and the latest
accepted event lies no less than the delay back.  The calls that give something away are no more
than the accepted events.  Such a call gives away all that came before it: until the next accepted
event comes, no later call gives anything away. -/
theorem take_iff_settled (f : EventFilter) (delay created : τ) (calls : List (WatcherCall τ))
    (history : List (Move τ)) (w : Watcher τ)
    (hcalls : (Watcher.create f delay created).answer calls = (history, w)) :
    (∀ now, (w.take now).1 = true ↔ accepted f (sinceStart history) ≠ [] ∧
      ∃ last ∈ (accepted f history).getLast?, delay ≤ now - last) ∧
    history.countP Move.isStart ≤ (accepted f history).length ∧
    (∀ now, (w.take now).1 = true → ∀ more, accepted f ((w.take now).2.answer more).1 = [] →
      ∀ later, (((w.take now).2.answer more).2.take later).1 = false) := by
  have hremembers := (Remembers.create f delay created).answer calls
  have hcount := (Watcher.create f delay created).countP_answer_le rfl calls
  rw [hcalls] at hremembers hcount
  refine ⟨hremembers.take_iff, ?_, ?_⟩
  · have hnone : (Watcher.create f delay created).waiting = 0 := rfl
    rw [hnone] at hcount
    exact (Nat.le_add_right _ _).trans hcount
  · intro now hdue more hmore later
    have hfilter : (w.take now).2.filter = f := hremembers.filter
    exact Watcher.take_of_not_pending later
      ((w.take now).2.pending_answer_of_none hfilter (Watcher.pending_take hdue) hmore)

/-- Two changes with an event of another file between them, and takes before, at and behind the
delay; then the clock is set back. -/
def burstCalls : List (WatcherCall ℚ) :=
  [.take 9, .deliver 0 scriptChanged, .deliver (1 / 3) scriptChanged,
    .deliver (1 / 2) ⟨.modified, "/p/a.txt", "", false⟩, .take (5 / 6 - 1 / 100), .take (5 / 6),
    .take 9, .deliver (-2) scriptChanged]

/-- The history of the calls: only the take at exactly the delay gives anything away. -/
def burstHistory : List (Move ℚ) :=
  [.take 9 false, .event 0 scriptChanged, .event (1 / 3) scriptChanged,
    .event (1 / 2) ⟨.modified, "/p/a.txt", "", false⟩, .take (5 / 6 - 1 / 100) false,
    .take (5 / 6) true, .take 9 false, .event (-2) scriptChanged]

/-- The change that came when the clock was set back is taken by its own time, and only once. -/
theorem take_iff_settled_burst :
    ∃ w, (Watcher.create scriptFilter (1 / 2 : ℚ) 0).answer burstCalls = (burstHistory, w) ∧
      (w.take (-3 / 2)).1 = true ∧ (w.take (-7 / 4)).1 = false ∧
      ((w.take (-3 / 2)).2.take 9).1 = false := by
  have hanswer : (Watcher.create scriptFilter (1 / 2 : ℚ) 0).answer burstCalls =
      (burstHistory, ⟨scriptFilter, 1 / 2, ⟨true, -2⟩, false, false⟩) := by decide +kernel
  have haccepted : accepted scriptFilter (sinceStart burstHistory) = [-2] := by decide +kernel
  have hlast : (accepted scriptFilter burstHistory).getLast? = some (-2) := by decide +kernel
  obtain ⟨htake, -, honce⟩ := take_iff_settled scriptFilter (1 / 2) 0 burstCalls _ _ hanswer
  have hdue := (htake (-3 / 2)).mpr ⟨by simp [haccepted], -2, hlast, by decide +kernel⟩
  refine ⟨_, hanswer, hdue, ?_, honce (-3 / 2) hdue [] rfl 9⟩
  rw [← Bool.not_eq_true, htake]
  rintro ⟨-, last, hmem, hsettled⟩
  obtain rfl : -2 = last := Option.some.inj (hlast.symm.trans hmem)
  exact absurd hsettled (by decide +kernel)

end ImportAtlas.Watch
