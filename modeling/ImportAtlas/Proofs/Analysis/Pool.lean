import ImportAtlas.Analysis.Batch
import ImportAtlas.Proofs.Disk.Look
import Mathlib.Data.List.Basic

set_option autoImplicit false

/-!
# Working off tasks in a pool

Whatever order the tasks of a pool end in, their outcomes are collected in the
order of the tasks, and each is what the work on that task alone gives.  A pool
with a worker never gets stuck before all tasks have ended.  So a batch has the
same result with any number of workers.
-/

namespace ImportAtlas

theorem map_some_of_mapM {α β : Type} {f : α → Option β} {items : List α} {found : List β}
    (h : items.mapM f = some found) : items.map f = found.map some := by
  induction items generalizing found with
  | nil => simp_all
  | cons item items ih =>
    rw [List.mapM_cons] at h
    obtain ⟨first, hfirst, h⟩ := Option.bind_eq_some_iff.mp h
    obtain ⟨rest, hrest, h⟩ := Option.bind_eq_some_iff.mp h
    cases h
    rw [List.map_cons, List.map_cons, hfirst, ih hrest]

theorem exists_mapM_iff {α β : Type} {f : α → Option β} {items : List α} :
    (∃ found, items.mapM f = some found) ↔ ∀ item ∈ items, ∃ b, f item = some b := by
  induction items with
  | nil => simp
  | cons item items ih =>
    rw [List.forall_mem_cons, ← ih, List.mapM_cons]
    constructor
    · rintro ⟨found, h⟩
      obtain ⟨first, hfirst, h⟩ := Option.bind_eq_some_iff.mp h
      obtain ⟨rest, hrest, -⟩ := Option.bind_eq_some_iff.mp h
      exact ⟨⟨first, hfirst⟩, rest, hrest⟩
    · rintro ⟨⟨first, hfirst⟩, rest, hrest⟩
      exact ⟨first :: rest, by simp [hfirst, hrest]⟩

namespace Pool

variable {α β : Type} {workers : Nat} {tasks : List α} {work : α → β}

/-- A task that was taken is being worked on or has an outcome, and every outcome is that of its
task. -/
structure Working (tasks : List α) (work : α → β) (p : Pool β) : Prop where
  started_le : p.started ≤ tasks.length
  running : ∀ number ∈ p.running, number < p.started
  taken : ∀ number < p.started, number ∈ p.running ∨ ∃ b, Assoc.get? number p.outcomes = some b
  outcome : ∀ number b, Assoc.get? number p.outcomes = some b → tasks[number]?.map work = some b

/-- How much is left to do: two moves for a task that waits, one for a task that is worked on. -/
def remaining (tasks : List α) (p : Pool β) : Nat :=
  2 * (tasks.length - p.started) + p.running.length

namespace Working

variable {p p' : Pool β}

theorem idle : Working tasks work Pool.idle where
  started_le := Nat.zero_le _
  running := nofun
  taken := nofun
  outcome := nofun

/-- A free worker takes the next task. -/
theorem start (h : Working tasks work p) (hnext : p.started < tasks.length) :
    Working tasks work { p with
      started := p.started + 1, running := p.running ++ [p.started] } where
  started_le := hnext
  running number hmem := by
    rcases List.mem_append.mp hmem with hmem | hmem
    · exact Nat.lt_succ_of_lt (h.running number hmem)
    · exact List.mem_singleton.mp hmem ▸ Nat.lt_succ_self _
  taken number hlt := by
    rcases Nat.lt_succ_iff_lt_or_eq.mp hlt with hlt | rfl
    · exact (h.taken number hlt).imp_left (List.mem_append_left _)
    · exact .inl (List.mem_append_right _ (List.mem_singleton.mpr rfl))
  outcome := h.outcome

/-- The work on a task ends. -/
theorem finish (h : Working tasks work p) {number : Nat} {task : α}
    (htask : tasks[number]? = some task) :
    Working tasks work { p with
      running := p.running.erase number
      outcomes := Assoc.put number (work task) p.outcomes } where
  started_le := h.started_le
  running other hmem := h.running other (List.mem_of_mem_erase hmem)
  taken other hlt := by
    by_cases hother : other = number
    · exact .inr ⟨work task, by rw [hother, Assoc.get?_put_self]⟩
    · refine (h.taken other hlt).imp (List.mem_erase_of_ne hother).mpr fun ⟨b, hb⟩ => ⟨b, ?_⟩
      rw [Assoc.get?_put_of_ne hother, hb]
  outcome other b hb := by
    by_cases hother : other = number
    · rw [hother, Assoc.get?_put_self] at hb
      rw [hother, htask, Option.map_some, hb]
    · rw [Assoc.get?_put_of_ne hother] at hb
      exact h.outcome other b hb

/-- A move keeps the pool in order and leaves less to do. -/
theorem move (h : Working tasks work p) {m : PoolMove}
    (hmove : move? workers tasks work p m = some p') :
    Working tasks work p' ∧ remaining tasks p' < remaining tasks p := by
  cases m with
  | start =>
    obtain ⟨⟨-, hnext⟩, hp⟩ := Option.ite_none_right_eq_some.mp hmove
    cases hp
    refine ⟨h.start hnext, ?_⟩
    simp only [remaining, List.length_append, List.length_singleton]
    omega
  | finish number =>
    obtain ⟨hrunning, hp⟩ := Option.ite_none_right_eq_some.mp hmove
    obtain ⟨task, htask, rfl⟩ := Option.map_eq_some_iff.mp hp
    refine ⟨h.finish htask, ?_⟩
    have hlength := List.length_erase_of_mem hrunning
    have hpos := List.length_pos_of_mem hrunning
    simp only [remaining]
    omega

theorem run (h : Working tasks work p) {moves : List PoolMove}
    (hrun : run workers tasks work p moves = some p') : Working tasks work p' := by
  induction moves generalizing p with
  | nil =>
    cases hrun
    exact h
  | cons m moves ih =>
    obtain ⟨q, hmove, hrun⟩ := Option.bind_eq_some_iff.mp hrun
    exact ih (h.move hmove).1 hrun

/-- What is collected are the outcomes of the tasks, in their order. -/
theorem collect (h : Working tasks work p) {found : List β}
    (hcollect : collect? tasks p = some found) : found = tasks.map work := by
  have hall := map_some_of_mapM hcollect
  have hsome : ∀ number ∈ List.range tasks.length,
      Assoc.get? number p.outcomes = tasks[number]?.map work := by
    intro number hnumber
    obtain ⟨b, hb⟩ := exists_mapM_iff.mp ⟨found, hcollect⟩ number hnumber
    rw [hb, h.outcome number b hb]
  rw [List.map_congr_left hsome] at hall
  refine List.map_injective_iff.mpr (fun _ _ => Option.some.inj) (hall.symm.trans ?_)
  refine List.ext_getElem (by simp) fun number hleft hright => ?_
  have hnumber : number < tasks.length := by simpa using hleft
  simp [hnumber]

/-- Before all tasks have ended, something can be done. -/
theorem exists_move (h : Working tasks work p) (hworkers : 0 < workers)
    (hcollect : collect? tasks p = none) : ∃ m p', move? workers tasks work p m = some p' := by
  have hmissing : ∃ number < tasks.length, Assoc.get? number p.outcomes = none := by
    by_contra hall
    push Not at hall
    have hfound : ∃ found, collect? tasks p = some found :=
      exists_mapM_iff.mpr fun number hnumber =>
        Option.ne_none_iff_exists'.mp (hall number (List.mem_range.mp hnumber))
    obtain ⟨found, hfound⟩ := hfound
    cases hcollect.symm.trans hfound
  obtain ⟨number, hnumber, hnone⟩ := hmissing
  cases hrunning : p.running with
  | cons other rest =>
    -- a worker is busy, and its task may end
    have hmem : other ∈ p.running := hrunning ▸ List.mem_cons_self
    have hlt : other < tasks.length := Nat.lt_of_lt_of_le (h.running other hmem) h.started_le
    exact ⟨.finish other, _, by rw [move?, if_pos hmem, List.getElem?_eq_getElem hlt,
      Option.map_some]⟩
  | nil =>
    -- no worker is busy, so the task with no outcome was not taken
    have hnext : p.started < tasks.length := by
      refine Nat.lt_of_le_of_lt (Nat.le_of_not_lt fun hlt => ?_) hnumber
      rcases h.taken number hlt with hmem | ⟨b, hb⟩
      · rw [hrunning] at hmem
        cases hmem
      · cases hnone.symm.trans hb
    exact ⟨.start, _, by rw [move?, if_pos ⟨by simpa [hrunning] using hworkers, hnext⟩]⟩

/-- From any state, a course ends all tasks. -/
theorem exists_course (h : Working tasks work p) (hworkers : 0 < workers) :
    ∃ moves p' found, Pool.run workers tasks work p moves = some p' ∧
      collect? tasks p' = some found := by
  induction hn : remaining tasks p using Nat.strongRecOn generalizing p with
  | _ n ih =>
    cases hcollect : collect? tasks p with
    | some found => exact ⟨[], p, found, rfl, hcollect⟩
    | none =>
      obtain ⟨m, q, hmove⟩ := h.exists_move hworkers hcollect
      obtain ⟨hq, hless⟩ := h.move hmove
      obtain ⟨moves, p', found, hrun, hfound⟩ := ih _ (hn ▸ hless) hq rfl
      exact ⟨m :: moves, p', found, by rw [Pool.run, List.foldlM_cons, hmove]; exact hrun, hfound⟩

end Working

/-- In whatever order the tasks end, the outcomes are those of the tasks, in their order. -/
theorem outcomes?_eq {moves : List PoolMove} {found : List β}
    (h : outcomes? workers tasks work moves = some found) : found = tasks.map work := by
  obtain ⟨p, hrun, hcollect⟩ := Option.bind_eq_some_iff.mp h
  exact (Working.idle.run hrun).collect hcollect

theorem exists_outcomes? (hworkers : 0 < workers) :
    ∃ moves, outcomes? workers tasks work moves = some (tasks.map work) := by
  have hidle : Working tasks work Pool.idle := .idle
  obtain ⟨moves, p, found, hrun, hcollect⟩ := hidle.exists_course hworkers
  have hfound : outcomes? workers tasks work moves = some found := by
    rw [outcomes?, hrun]
    exact hcollect
  exact ⟨moves, by rw [hfound, outcomes?_eq hfound]⟩

end Pool

namespace Batch

variable {disk : Disk} {options : Options} {entries : List String}

/-- With a number of workers, and in some course of their pool, the batch has this result. -/
def Returns (workers : Int) (disk : Disk) (options : Options) (entries : List String) (b : Batch) :
    Prop :=
  ∃ moves, ofEntriesOn workers moves disk options entries = .ok (some b)

theorem exists_runEntries_iff {workers : Int} {found : List (FailedEntry ⊕ Analysis)} :
    (∃ moves, runEntries workers moves disk options entries = some found) ↔
      found = entries.map (run disk options) := by
  unfold runEntries
  by_cases hpool : 1 < workers ∧ 1 < entries.length
  · simp only [if_pos hpool]
    constructor
    · rintro ⟨moves, h⟩
      exact Pool.outcomes?_eq h
    · rintro rfl
      exact Pool.exists_outcomes? (by omega)
  · simp only [if_neg hpool]
    constructor
    · rintro ⟨-, h⟩
      exact (Option.some.inj h).symm
    · rintro rfl
      exact ⟨[], rfl⟩

/-- **The number of workers makes no difference**, and neither does the course of their pool: a
batch has the result that it has when its entries are analysed one after the other. -/
theorem returns_iff {workers : Int} {b : Batch} :
    Returns workers disk options entries b ↔ ofEntries disk options entries = .ok b := by
  unfold Returns ofEntriesOn ofEntries
  cases hvalidate : validate disk options entries with
  | error e =>
    constructor
    · rintro ⟨moves, h⟩
      cases h
    · intro h
      cases h
  | ok v =>
    simp only [Except.ok_bind]
    by_cases hvalid : v.valid = []
    · simp [hvalid, pure, Except.pure]
    · simp only [if_neg hvalid]
      have hruns := @exists_runEntries_iff disk (forEntry disk options) v.valid workers
      constructor
      · rintro ⟨moves, h⟩
        obtain ⟨found, hfound, rfl⟩ := Option.map_eq_some_iff.mp (Except.ok.inj h)
        rw [hruns.mp ⟨moves, hfound⟩]
        rfl
      · intro h
        obtain ⟨moves, hmoves⟩ := hruns.mpr rfl
        obtain rfl := Except.ok.inj h
        exact ⟨moves, by rw [hmoves]; rfl⟩

end Batch

end ImportAtlas
