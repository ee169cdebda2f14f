import ImportAtlas.Console.Printing

set_option autoImplicit false

/-!
# Computations that print

What a computation prints goes on behind what was printed before, and the first
step that ends the command ends it.  A command that breaks off never looks as if
it had finished: no step throws `finished` (`NeverFinishes`).
-/

namespace ImportAtlas.Printing

variable {α β : Type} {p : Printing α} {f : α → Printing β} {b : β} {ending : Ending}
  {before output : String}

@[simp] theorem runFrom_pure (a : α) (before : String) :
    (pure a : Printing α).runFrom before = (.ok a, before) := rfl

@[simp] theorem runFrom_throw (ending : Ending) (before : String) :
    (throw ending : Printing α).runFrom before = (.error ending, before) := rfl

@[simp] theorem runFrom_echo (text before : String) :
    (echo text).runFrom before = (.ok (), before ++ text ++ "\n") := rfl

theorem runFrom_bind (p : Printing α) (f : α → Printing β) (before : String) :
    (p >>= f).runFrom before =
      match p.runFrom before with
      | (.ok a, printed) => (f a).runFrom printed
      | (.error ending, printed) => (.error ending, printed) := by
  change ExceptT.bindCont f (p before).1 (p before).2 = _
  rw [runFrom, ExceptT.run]
  rcases p before with ⟨ending | a, printed⟩ <;> rfl

/-- Steps that returned returned one by one. -/
theorem bind_eq_ok (h : (p >>= f).runFrom before = (.ok b, output)) :
    ∃ a printed, p.runFrom before = (.ok a, printed) ∧ (f a).runFrom printed = (.ok b, output) := by
  rw [runFrom_bind] at h
  rcases hp : p.runFrom before with ⟨ending | a, printed⟩
  · simp [hp] at h
  · exact ⟨a, printed, rfl, by simpa [hp] using h⟩

/-- The text of lines that are printed one after the other. -/
def printedLines : List String → String
  | [] => ""
  | line :: rest => line ++ "\n" ++ printedLines rest

theorem runFrom_forM_echo (lines : List String) (before : String) :
    (lines.forM echo).runFrom before = (.ok (), before ++ printedLines lines) := by
  induction lines generalizing before with
  | nil => simp [printedLines]
  | cons line rest ih =>
    change (echo line >>= fun _ => rest.forM echo).runFrom before = _
    rw [runFrom_bind, runFrom_echo]
    simp only [ih, printedLines, String.append_assoc]

/-! ## How a computation may end -/

/-- The computation does not end the command as one that has finished. -/
def NeverFinishes (p : Printing α) : Prop :=
  ∀ before output, p.runFrom before ≠ (.error .finished, output)

namespace NeverFinishes

theorem of_pure (a : α) : NeverFinishes (pure a : Printing α) := by
  simp [NeverFinishes]

theorem of_throw (h : ending ≠ .finished) : NeverFinishes (throw ending : Printing α) := by
  simp [NeverFinishes, h]

theorem of_fail (fault : CommandFault) : NeverFinishes (fail fault : Printing α) :=
  of_throw nofun

theorem of_echo (text : String) : NeverFinishes (echo text) := by
  simp [NeverFinishes]

theorem bind (h : NeverFinishes p) (h' : ∀ a, NeverFinishes (f a)) : NeverFinishes (p >>= f) := by
  intro before output hrun
  rw [runFrom_bind] at hrun
  rcases hp : p.runFrom before with ⟨ending | a, printed⟩
  · simp only [hp, Prod.mk.injEq, Except.error.injEq] at hrun
    exact h before printed (hrun.1 ▸ hp)
  · simp only [hp] at hrun
    exact h' a printed output hrun

theorem of_attempt {ε : Type} (fault : ε → CommandFault) (result : Except ε α) :
    NeverFinishes (attempt fault result) := by
  cases result with
  | ok a => exact of_pure a
  | error e => exact of_fail (fault e)

theorem forM {items : List α} {f : α → Printing Unit} (h : ∀ a, NeverFinishes (f a)) :
    NeverFinishes (items.forM f) := by
  induction items with
  | nil => exact of_pure ()
  | cons a items ih => exact (h a).bind fun _ => ih

theorem mapM {items : List α} (h : ∀ a, NeverFinishes (f a)) : NeverFinishes (items.mapM f) := by
  induction items with
  | nil =>
    rw [List.mapM_nil]
    exact of_pure []
  | cons a items ih =>
    rw [List.mapM_cons]
    exact (h a).bind fun _ => ih.bind fun _ => of_pure _

end NeverFinishes

theorem exitCode_eq_zero {ending : Ending} (h : ending.exitCode = 0) : ending = .finished := by
  cases ending <;> first | rfl | cases h

/-! ## Messages -/

variable [Console] {message text : String}

/-- What a message shows is known before it is printed. -/
theorem textOf_eq_ok_iff : (textOf message).runFrom before = (.ok text, output) ↔
    Console.plain message = .ok text ∧ output = before := by
  unfold textOf
  cases Console.plain message with
  | error fault => simp [attempt, fail]
  | ok shown => simp [attempt, eq_comm]

theorem runFrom_say (h : Console.plain message = .ok text) (before : String) :
    (say message).runFrom before = (.ok (), before ++ Console.shown text ++ "\n") := by
  rw [say, runFrom_bind, textOf_eq_ok_iff.mpr ⟨h, rfl⟩]
  exact runFrom_echo _ _

/-- Printing goes on behind what was printed before. -/
theorem exists_append_of_say {u : Unit} (h : (say message).runFrom before = (.ok u, output)) :
    ∃ after, output = before ++ after := by
  obtain ⟨text, printed, htext, hline⟩ := bind_eq_ok h
  obtain ⟨-, rfl⟩ := textOf_eq_ok_iff.mp htext
  refine ⟨Console.shown text ++ "\n", ?_⟩
  rw [← String.append_assoc]
  exact (congrArg Prod.snd hline).symm

theorem NeverFinishes.of_say (message : String) : NeverFinishes (say message) :=
  (of_attempt .markup _).bind fun _ => of_echo _

end ImportAtlas.Printing
