set_option autoImplicit false

/-!
# Waiting for changes to settle

Changes come in bursts.  A debounce remembers that a change is pending and when
the last one came; `take` gives the pending changes away, all at once, as soon
as nothing has come for the delay.  Time is any type with a subtraction and an
order.
-/

namespace ImportAtlas.Watch

/-- Whether a change is pending, and the time of the last one. -/
structure Debounce (τ : Type) where
  pending : Bool
  last : τ
  deriving DecidableEq, Repr

namespace Debounce

variable {τ : Type}

/-- Nothing is pending at the start. -/
def start (now : τ) : Debounce τ :=
  ⟨false, now⟩

/-- A change comes. -/
def note (now : τ) (_ : Debounce τ) : Debounce τ :=
  ⟨true, now⟩

@[simp] theorem pending_note (now : τ) (d : Debounce τ) : (d.note now).pending = true := rfl

@[simp] theorem last_note (now : τ) (d : Debounce τ) : (d.note now).last = now := rfl

variable [Sub τ] [LT τ] [DecidableLT τ]

/-- Whether what is pending has settled. -/
def isDue (delay now : τ) (d : Debounce τ) : Bool :=
  d.pending && !decide (now - d.last < delay)

/-- Takes what is pending if it has settled. -/
def take (delay now : τ) (d : Debounce τ) : Bool × Debounce τ :=
  if d.isDue delay now then (true, { d with pending := false }) else (false, d)

theorem take_fst (delay now : τ) (d : Debounce τ) : (d.take delay now).1 = d.isDue delay now := by
  unfold take
  split <;> simp_all

/-- Taking never changes the time of the last change. -/
@[simp] theorem last_take (delay now : τ) (d : Debounce τ) :
    (d.take delay now).2.last = d.last := by
  unfold take
  split <;> rfl

end Debounce

end ImportAtlas.Watch
