import ImportAtlas.Proofs.Analysis.Pool
import ImportAtlas.Proofs.Walk.Lists

set_option autoImplicit false

/-!
# The outcomes of a batch

Each entry that is not blank has one outcome: it is invalid, its analysis fails,
or it has a result.  `HasOutcome` gives the rules, which ask about the entry
alone.  A batch sorts its entries in two stages, before the analysis and after
it; what it returns are the outcomes of its entries, in order, sorted by their
kind.
-/

namespace ImportAtlas

open Project
open Walk (pairDisk)

/-! ## The root of an entry -/

theorem Disk.isAbsolute_absolute (d : Disk) (p : Path) : (d.absolute p).isAbsolute = true :=
  Path.isAbsolute_append rfl

theorem Disk.absolute_absolute (d : Disk) (p : Path) : d.absolute (d.absolute p) = d.absolute p :=
  Path.append_normalize_of_absolute (Path.isAbsolute_append rfl) d.workingPath

/-- An entry is analysed alike with the options of its batch. -/
theorem Analysis.ofEntry_forEntry (disk : Disk) (options : Options) (entry : Path) :
    ofEntry disk (Batch.forEntry disk options) entry = ofEntry disk options entry := by
  unfold ofEntry Context.create Batch.forEntry Batch.rootOf
  simp only [Option.getD_some, Disk.absolute_absolute]
  rfl

/-! ## Outcomes of entries -/

/-- What becomes of an entry. -/
inductive EntryOutcome where
  | invalid (entry : String)
  | failed (error : FailedEntry)
  | analysed (result : Analysis)
  deriving DecidableEq, Repr

namespace EntryOutcome

def invalid? : EntryOutcome → Option String
  | invalid entry => some entry
  | _ => none

def failed? : EntryOutcome → Option FailedEntry
  | failed error => some error
  | _ => none

def analysed? : EntryOutcome → Option Analysis
  | analysed result => some result
  | _ => none

/-- What the analysis of the entry gives, if it comes to that. -/
def run? : EntryOutcome → Option (FailedEntry ⊕ Analysis)
  | invalid _ => none
  | failed error => some (.inl error)
  | analysed result => some (.inr result)

end EntryOutcome

namespace Batch

variable {disk : Disk} {options : Options} {entries : List String} {entry : String}

/-- The normalized absolute path that an entry names. -/
def entryPath (disk : Disk) (options : Options) (entry : String) : Path :=
  (rootOf disk options ++ Path.ofString entry).normalize

/-- The disk can be asked whether the path that an entry names exists. -/
def IsAskable (disk : Disk) (options : Options) (entry : String) : Prop :=
  ∃ there, disk.contains (entryPath disk options entry) = .ok there

/-- The entry names a path outside the project. -/
def IsOutside (disk : Disk) (options : Options) (entry : String) : Prop :=
  contains disk.workingPath (rootOf disk options) (entryPath disk options entry) = false

instance : Decidable (IsOutside disk options entry) :=
  inferInstanceAs (Decidable (_ = false))

/-- The rules by which an entry gets its outcome. -/
inductive HasOutcome (disk : Disk) (options : Options) (entry : String) : EntryOutcome → Prop where
  | missing (hthere : disk.contains (entryPath disk options entry) = .ok false) :
      HasOutcome disk options entry (.invalid entry)
  | outside (hthere : disk.contains (entryPath disk options entry) = .ok true)
      (houtside : IsOutside disk options entry) :
      HasOutcome disk options entry (.invalid entry)
  | failed {error : AnalysisError}
      (hthere : disk.contains (entryPath disk options entry) = .ok true)
      (hinside : ¬ IsOutside disk options entry)
      (hanalysis : Analysis.ofEntry disk options
        (Path.ofString (entryPath disk options entry).text) = .error error) :
      HasOutcome disk options entry
        (.failed ⟨(entryPath disk options entry).text, error.message⟩)
  | analysed {result : Analysis}
      (hthere : disk.contains (entryPath disk options entry) = .ok true)
      (hinside : ¬ IsOutside disk options entry)
      (hanalysis : Analysis.ofEntry disk options
        (Path.ofString (entryPath disk options entry).text) = .ok result) :
      HasOutcome disk options entry (.analysed result)

/-- An entry has one outcome only. -/
theorem HasOutcome.unique {x y : EntryOutcome} (hx : HasOutcome disk options entry x)
    (hy : HasOutcome disk options entry y) : x = y := by
  cases hx <;> cases hy <;> simp_all

/-- An entry has an outcome when the disk can be asked about its path. -/
theorem IsAskable.exists_outcome (h : IsAskable disk options entry) :
    ∃ x, HasOutcome disk options entry x := by
  obtain ⟨there, h⟩ := h
  cases there with
  | false => exact ⟨_, .missing h⟩
  | true =>
    by_cases houtside : IsOutside disk options entry
    · exact ⟨_, .outside h houtside⟩
    · rcases hanalysis : Analysis.ofEntry disk options
        (Path.ofString (entryPath disk options entry).text) with error | result
      · exact ⟨_, .failed h houtside hanalysis⟩
      · exact ⟨_, .analysed h houtside hanalysis⟩

/-- The invalid entries are those that do not exist or are outside. -/
theorem HasOutcome.invalid_iff {x : EntryOutcome} (h : HasOutcome disk options entry x) :
    x = .invalid entry ↔ disk.contains (entryPath disk options entry) = .ok false ∨
      IsOutside disk options entry := by
  cases h <;> simp_all

/-! ## Sorting -/

theorem run_of_ok {result : Analysis} {path : String}
    (h : Analysis.ofEntry disk options (Path.ofString path) = .ok result) :
    run disk (forEntry disk options) path = .inr result := by
  unfold run
  rw [Analysis.ofEntry_forEntry, h]

theorem run_of_error {error : AnalysisError} {path : String}
    (h : Analysis.ofEntry disk options (Path.ofString path) = .error error) :
    run disk (forEntry disk options) path = .inl ⟨path, error.message⟩ := by
  unfold run
  rw [Analysis.ofEntry_forEntry, h]

theorem add_of_contains {v : Validation} {there : Bool}
    (h : disk.contains (entryPath disk options entry) = .ok there) :
    Validation.add disk (rootOf disk options) v entry =
      .ok (if there = true ∧ ¬ IsOutside disk options entry then
        { v with valid := v.valid ++ [(entryPath disk options entry).text] }
      else { v with invalid := v.invalid ++ [entry] }) := by
  unfold Validation.add
  change (disk.contains (entryPath disk options entry) >>= _) = _
  rw [h, Except.ok_bind]
  by_cases hvalid : there = true ∧ ¬ IsOutside disk options entry
  · have hcontains : (there && contains disk.workingPath (rootOf disk options)
        (entryPath disk options entry)) = true := by
      simpa [IsOutside] using hvalid
    rw [if_pos hvalid]
    exact if_pos hcontains
  · have hcontains : ¬ (there && contains disk.workingPath (rootOf disk options)
        (entryPath disk options entry)) = true := by
      simpa [IsOutside] using hvalid
    rw [if_neg hvalid]
    exact if_neg hcontains

/-- What was sorted so far gives these outcomes. -/
structure Sorted (disk : Disk) (options : Options) (outcomes : List EntryOutcome) (v : Validation) :
    Prop where
  invalid : v.invalid = outcomes.filterMap EntryOutcome.invalid?
  valid : v.valid.map (run disk (forEntry disk options)) = outcomes.filterMap EntryOutcome.run?

namespace Sorted

variable {outcomes : List EntryOutcome} {v : Validation} {x : EntryOutcome}

theorem addInvalid (h : Sorted disk options outcomes v) (entry : String) :
    Sorted disk options (outcomes ++ [.invalid entry])
      { v with invalid := v.invalid ++ [entry] } where
  invalid := by simp [h.invalid, EntryOutcome.invalid?]
  valid := by simp [h.valid, EntryOutcome.run?]

theorem addValid (h : Sorted disk options outcomes v) {path : String}
    (hrun : x.run? = some (run disk (forEntry disk options) path)) :
    Sorted disk options (outcomes ++ [x]) { v with valid := v.valid ++ [path] } where
  invalid := by
    have hnone : x.invalid? = none := by
      cases x with
      | invalid entry => cases hrun
      | failed error => rfl
      | analysed result => rfl
    simp [h.invalid, hnone]
  valid := by simp [h.valid, hrun]

/-- An entry is sorted by its outcome. -/
theorem add (h : Sorted disk options outcomes v) (hx : HasOutcome disk options entry x) :
    ∃ v', Validation.add disk (rootOf disk options) v entry = .ok v' ∧
      Sorted disk options (outcomes ++ [x]) v' := by
  cases hx with
  | missing hthere =>
    refine ⟨_, add_of_contains hthere, ?_⟩
    rw [if_neg fun hvalid => Bool.false_ne_true hvalid.1]
    exact h.addInvalid entry
  | outside hthere houtside =>
    refine ⟨_, add_of_contains hthere, ?_⟩
    rw [if_neg fun hvalid => hvalid.2 houtside]
    exact h.addInvalid entry
  | failed hthere hinside hanalysis =>
    refine ⟨_, add_of_contains hthere, ?_⟩
    rw [if_pos ⟨rfl, hinside⟩]
    exact h.addValid (by rw [run_of_error hanalysis]; rfl)
  | analysed hthere hinside hanalysis =>
    refine ⟨_, add_of_contains hthere, ?_⟩
    rw [if_pos ⟨rfl, hinside⟩]
    exact h.addValid (by rw [run_of_ok hanalysis]; rfl)

/-- Entries that have outcomes are sorted by them. -/
theorem foldlM {more : List EntryOutcome} (h : Sorted disk options outcomes v)
    (hmore : List.Forall₂ (HasOutcome disk options) entries more) :
    ∃ v', entries.foldlM (Validation.add disk (rootOf disk options)) v = .ok v' ∧
      Sorted disk options (outcomes ++ more) v' := by
  induction hmore generalizing outcomes v with
  | nil => exact ⟨v, rfl, by rwa [List.append_nil]⟩
  | @cons entry x entries more hx _ ih =>
    obtain ⟨u, hadd, hu⟩ := h.add hx
    obtain ⟨v', hrest, hv'⟩ := ih hu
    refine ⟨v', ?_, by rwa [List.append_assoc] at hv'⟩
    rw [List.foldlM_cons, hadd]
    exact hrest

end Sorted

/-- When entries were sorted, the disk could be asked about each of them. -/
theorem isAskable_of_foldlM {v v' : Validation}
    (h : entries.foldlM (Validation.add disk (rootOf disk options)) v = .ok v') :
    ∀ entry ∈ entries, IsAskable disk options entry := by
  induction entries generalizing v with
  | nil => nofun
  | cons entry entries ih =>
    obtain ⟨u, hadd, hrest⟩ := Except.bind_eq_ok h
    obtain ⟨there, hthere, -⟩ := Except.bind_eq_ok hadd
    exact List.forall_mem_cons.mpr ⟨⟨there, hthere⟩, ih hrest⟩

theorem exists_outcomes (h : ∀ entry ∈ entries, IsAskable disk options entry) :
    ∃ outcomes, List.Forall₂ (HasOutcome disk options) entries outcomes := by
  induction entries with
  | nil => exact ⟨[], .nil⟩
  | cons entry entries ih =>
    obtain ⟨hentry, hrest⟩ := List.forall_mem_cons.mp h
    obtain ⟨x, hx⟩ := hentry.exists_outcome
    obtain ⟨outcomes, houtcomes⟩ := ih hrest
    exact ⟨x :: outcomes, .cons hx houtcomes⟩

/-! ## Batches -/

/-- The results of the entries of a batch, none when it has no data. -/
def entryResults (b : Batch) : List Analysis :=
  (b.data?.map Merged.entryResults).getD []

/-- A batch shows these outcomes, sorted by their kind. -/
structure Shows (b : Batch) (outcomes : List EntryOutcome) : Prop where
  invalid : b.invalidEntries = outcomes.filterMap EntryOutcome.invalid?
  failed : b.errors = outcomes.filterMap EntryOutcome.failed?
  analysed : b.entryResults = outcomes.filterMap EntryOutcome.analysed?
  merged : b.data? = Merged.ofResults? b.entryResults

/-- A batch without data says why. -/
theorem message_ne_empty {b : Batch} (h : b.success = false) : b.message ≠ "" := by
  rcases b with ⟨_ | _ | _, invalidEntries, errors⟩
  · cases h
  · change "No valid entry files" ≠ ""
    decide
  · change "All entry files failed to analyse" ≠ ""
    decide

theorem results_filterMap_run? (outcomes : List EntryOutcome) :
    results (outcomes.filterMap EntryOutcome.run?) = outcomes.filterMap EntryOutcome.analysed? := by
  rw [results, List.filterMap_filterMap]
  congr 1
  funext x
  cases x <;> rfl

theorem failures_filterMap_run? (outcomes : List EntryOutcome) :
    failures (outcomes.filterMap EntryOutcome.run?) = outcomes.filterMap EntryOutcome.failed? := by
  rw [failures, List.filterMap_filterMap]
  congr 1
  funext x
  cases x <;> rfl

/-- The batch of outcomes shows their results. -/
theorem entryResults_ofOutcomes (invalid : List String) (outcomes : List (FailedEntry ⊕ Analysis)) :
    (ofOutcomes invalid outcomes).entryResults = results outcomes := by
  unfold ofOutcomes
  cases results outcomes <;> rfl

theorem data?_ofOutcomes (invalid : List String) (outcomes : List (FailedEntry ⊕ Analysis)) :
    (ofOutcomes invalid outcomes).data? = Merged.ofResults? (results outcomes) := by
  unfold ofOutcomes
  cases results outcomes <;> rfl

theorem shows_ofOutcomes {outcomes : List EntryOutcome} {v : Validation}
    (h : Sorted disk options outcomes v) :
    (ofOutcomes v.invalid (v.valid.map (run disk (forEntry disk options)))).Shows outcomes := by
  rw [h.valid, h.invalid]
  constructor
  · unfold ofOutcomes
    split <;> rfl
  · rw [← failures_filterMap_run?]
    unfold ofOutcomes
    split <;> rfl
  · rw [entryResults_ofOutcomes, results_filterMap_run?]
  · rw [entryResults_ofOutcomes, data?_ofOutcomes]

theorem validate_eq (hne : entries ≠ []) :
    validate disk options entries =
      ((trimmedEntries entries).foldlM (Validation.add disk (rootOf disk options))
        ⟨[], []⟩).mapError
        .disk := by
  have hroot : disk.absolute (rootOf disk options) = rootOf disk options := disk.absolute_absolute _
  unfold validate
  rw [if_neg hne]
  change Except.mapError _ ((trimmedEntries entries).foldlM
    (Validation.add disk (disk.absolute (rootOf disk options))) ⟨[], []⟩) = _
  rw [hroot]

/-- Entries that have outcomes make a batch that shows them. -/
theorem exists_shows {outcomes : List EntryOutcome} (hne : entries ≠ [])
    (h : List.Forall₂ (HasOutcome disk options) (trimmedEntries entries) outcomes) :
    ∃ b, ofEntries disk options entries = .ok b ∧ b.Shows outcomes := by
  have hempty : Sorted disk options [] ⟨[], []⟩ := ⟨rfl, rfl⟩
  obtain ⟨v, hfold, hv⟩ := hempty.foldlM h
  rw [List.nil_append] at hv
  have hvalidate : validate disk options entries = .ok v := by
    rw [validate_eq hne, hfold]
    rfl
  unfold ofEntries
  rw [hvalidate, Except.ok_bind]
  by_cases hvalid : v.valid = []
  · refine ⟨_, if_pos hvalid, ?_⟩
    have hnone : outcomes.filterMap EntryOutcome.run? = [] := by
      rw [← hv.valid, hvalid, List.map_nil]
    refine ⟨hv.invalid, ?_, ?_, rfl⟩
    · rw [← failures_filterMap_run?, hnone]
      rfl
    · rw [← results_filterMap_run?, hnone]
      rfl
  · exact ⟨_, if_neg hvalid, shows_ofOutcomes hv⟩

/-- A batch returns when there are entries, and the disk can be asked about each that is not
blank. -/
theorem exists_ofEntries_iff :
    (∃ b, ofEntries disk options entries = .ok b) ↔ entries ≠ [] ∧
      ∀ entry ∈ trimmedEntries entries, IsAskable disk options entry := by
  constructor
  · rintro ⟨b, h⟩
    obtain ⟨v, hvalidate, -⟩ := Except.bind_eq_ok h
    have hne : entries ≠ [] := by
      rintro rfl
      cases hvalidate
    rw [validate_eq hne] at hvalidate
    refine ⟨hne, ?_⟩
    cases hfold : (trimmedEntries entries).foldlM
      (Validation.add disk (rootOf disk options)) ⟨[], []⟩ with
    | error fault =>
      rw [hfold] at hvalidate
      cases hvalidate
    | ok sorted => exact isAskable_of_foldlM hfold
  · rintro ⟨hne, hall⟩
    obtain ⟨outcomes, houtcomes⟩ := exists_outcomes hall
    obtain ⟨b, hb, -⟩ := exists_shows hne houtcomes
    exact ⟨b, hb⟩

theorem exists_entry_of_mem {outcomes : List EntryOutcome} {x : EntryOutcome}
    (h : List.Forall₂ (HasOutcome disk options) entries outcomes) (hx : x ∈ outcomes) :
    ∃ entry ∈ entries, HasOutcome disk options entry x := by
  induction h with
  | nil => cases hx
  | cons hentry _ ih =>
    rcases List.mem_cons.mp hx with rfl | hx
    · exact ⟨_, List.mem_cons_self, hentry⟩
    · obtain ⟨entry, hmem, hentry⟩ := ih hx
      exact ⟨entry, List.mem_cons_of_mem _ hmem, hentry⟩

/-- A batch that returns shows an outcome of each entry. -/
theorem exists_outcomes_of_ofEntries {b : Batch} (h : ofEntries disk options entries = .ok b) :
    ∃ outcomes, List.Forall₂ (HasOutcome disk options) (trimmedEntries entries) outcomes ∧
      b.Shows outcomes := by
  obtain ⟨hne, hall⟩ := exists_ofEntries_iff.mp ⟨b, h⟩
  obtain ⟨outcomes, houtcomes⟩ := exists_outcomes hall
  obtain ⟨shown, hshown, hshows⟩ := exists_shows hne houtcomes
  obtain rfl : shown = b := Except.ok.inj (hshown.symm.trans h)
  exact ⟨outcomes, houtcomes, hshows⟩

/-- **A batch accounts for its entries.**  Each entry that is not blank has one outcome, and the
batch shows the outcomes in order, sorted by their kind; the invalid ones are those that do not
exist or lie outside the project.  There is merged data exactly when an entry has a result, and
a message when none has.  The number of workers makes no difference. -/
theorem entries_accounted {workers : Int} {b : Batch}
    (h : Returns workers disk options entries b) :
    (∃ outcomes, List.Forall₂ (HasOutcome disk options) (trimmedEntries entries) outcomes ∧
      b.Shows outcomes) ∧
    (∀ entry x y, HasOutcome disk options entry x → HasOutcome disk options entry y → x = y) ∧
    (∀ entry x, HasOutcome disk options entry x →
      (x = .invalid entry ↔ disk.contains (entryPath disk options entry) = .ok false ∨
        IsOutside disk options entry)) ∧
    (b.success = true ↔ b.entryResults ≠ []) ∧
    (b.data?.isSome = true ↔ b.entryResults ≠ []) ∧
    (b.success = false → b.message ≠ "") ∧
    ∀ others b', Returns others disk options entries b' ↔ b' = b := by
  have hreturns := returns_iff.mp h
  obtain ⟨hne, hall⟩ := exists_ofEntries_iff.mp ⟨b, hreturns⟩
  obtain ⟨outcomes, houtcomes⟩ := exists_outcomes hall
  obtain ⟨b', hb', hshows⟩ := exists_shows hne houtcomes
  obtain rfl : b' = b := Except.ok.inj (hb'.symm.trans hreturns)
  have hdata : b'.data?.isSome = true ↔ b'.entryResults ≠ [] := by
    rw [hshows.merged]
    cases b'.entryResults <;> simp [Merged.ofResults?]
  refine ⟨⟨outcomes, houtcomes, hshows⟩, fun _ _ _ hx hy => hx.unique hy,
    fun _ _ hx => hx.invalid_iff, hdata, hdata, message_ne_empty, fun others b'' => ?_⟩
  rw [returns_iff, hreturns]
  exact ⟨fun heq => (Except.ok.inj heq).symm, fun heq => heq ▸ rfl⟩

/-- An entry with a blank before it, a blank one, one that does not exist, and the project itself,
which is no file. -/
def pairEntries : List String :=
  [" a.js", " ", "gone.js", "."]

def pairOptions : Options :=
  ⟨none, 3, 10, true, []⟩

theorem trimmedEntries_pairEntries : trimmedEntries pairEntries = ["a.js", "gone.js", "."] := by
  decide +kernel

theorem isAskable_pairEntries :
    ∀ entry ∈ trimmedEntries pairEntries, IsAskable pairDisk pairOptions entry := by
  rw [trimmedEntries_pairEntries]
  simp only [List.forall_mem_cons]
  exact ⟨⟨true, by decide +kernel⟩, ⟨false, by decide +kernel⟩, ⟨true, by decide +kernel⟩, nofun⟩

theorem entries_accounted_pair : ∃ b, Returns 2 pairDisk pairOptions pairEntries b ∧
    ∃ outcomes, List.Forall₂ (HasOutcome pairDisk pairOptions) ["a.js", "gone.js", "."] outcomes ∧
      b.Shows outcomes := by
  obtain ⟨b, hb⟩ := exists_ofEntries_iff.mpr ⟨List.cons_ne_nil _ _, isAskable_pairEntries⟩
  have hreturns : Returns 2 pairDisk pairOptions pairEntries b := returns_iff.mpr hb
  exact ⟨b, hreturns, trimmedEntries_pairEntries ▸ (entries_accounted hreturns).1⟩

end Batch

end ImportAtlas
