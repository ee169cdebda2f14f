import ImportAtlas.Proofs.Analysis.Outcomes
import ImportAtlas.Proofs.Disk.Below
import ImportAtlas.Proofs.Disk.Edit
import ImportAtlas.Proofs.Text.Trim
import Mathlib.Data.List.Forall2

set_option autoImplicit false

/-!
# Entries of a batch and entries alone

When the disk can be asked about every entry, a batch returns, and it is put
together from the batches of its entries alone, in order; so no entry changes
the outcome of another one.  But an entry is looked up before its analysis is
guarded: a single name that is too long for the disk aborts the whole batch
(`long_name_aborts`).
-/

namespace ImportAtlas

/-! ## Paths that are short enough -/

/-- The names of a path and its whole text are short enough to be looked up. -/
structure Path.IsShort (p : Path) : Prop where
  names : ∀ part ∈ p.parts, part.utf8ByteSize ≤ maxNameBytes
  text : p.text.utf8ByteSize ≤ maxPathBytes

namespace Disk

theorem follow_ne_nameTooLong {d : Disk} {parts : List String} {here : Location}
    (h : ∀ part ∈ parts, part.utf8ByteSize ≤ maxNameBytes) :
    d.follow here parts ≠ .error .nameTooLong := by
  induction parts generalizing here with
  | nil => simp [follow]
  | cons part parts ih =>
    obtain ⟨hpart, hrest⟩ := List.forall_mem_cons.mp h
    unfold follow
    rw [if_neg (Nat.not_lt.mpr hpart)]
    split
    · simp
    · split
      · exact ih hrest
      · split
        · simp
        · exact ih hrest

/-- Whether a short path exists can be asked. -/
theorem exists_contains_of_isShort {d : Disk} {p : Path} (h : p.IsShort) :
    ∃ there, d.contains p = .ok there := by
  have hlocate : d.locate .lookUp p ≠ .error .nameTooLong := by
    unfold locate checkPath
    split
    · simp [bind, Except.bind]
    · rw [if_neg (Nat.not_lt.mpr h.text)]
      exact follow_ne_nameTooLong h.names
  unfold contains look
  split
  · exact ⟨_, rfl⟩
  · rename_i hfault
    exact absurd hfault hlocate
  · exact ⟨_, rfl⟩

/-- A name in a folder that is too long cannot be looked up. -/
theorem contains_child_of_long {d : Disk} {folder : Path} {name : String}
    (hfolder : d.isFolder folder = .ok true) (hup : name ≠ "..")
    (hnul : '\x00' ∉ name.toList) (hlong : maxNameBytes < name.utf8ByteSize) :
    d.contains (folder.child name) = .error ⟨.nameTooLong, folder.child name⟩ := by
  obtain ⟨location, hlocate, hat⟩ := isFolder_iff.mp hfolder
  obtain ⟨hfits, hfollow⟩ := locate_eq_ok_iff.mp hlocate
  have hfault : d.follow (d.start (folder.child name)) (folder.child name).parts =
      .error .nameTooLong := by
    change d.follow (d.start folder) (folder.parts ++ [name]) = _
    rw [follow_append, hfollow]
    simp [Disk.follow, hat, hup, hlong]
  have hheld : (folder.child name).holdsNul = false := by
    have hnone : folder.parts.any (·.toList.contains '\x00') = false := hfits.noNul
    change (folder.parts ++ [name]).any (·.toList.contains '\x00') = false
    rw [List.any_append, hnone]
    simpa using hnul
  have hlook : d.locate .lookUp (folder.child name) = .error .nameTooLong := by
    unfold locate checkPath
    rw [hheld]
    by_cases htext : maxPathBytes < (folder.child name).text.utf8ByteSize
    · simp [htext, bind, Except.bind]
    · simp [htext, hfault, bind, Except.bind]
  rw [contains, look, hlook]
  rfl

end Disk

namespace Batch

variable {disk : Disk} {options : Options} {entries : List String} {entry : String}

/-! ## Entries alone -/

theorem trimmedEntries_cons (entry : String) (entries : List String) :
    trimmedEntries (entry :: entries) = trimmedEntries [entry] ++ trimmedEntries entries := by
  rw [← List.singleton_append, trimmedEntries, List.map_append, List.filter_append]
  rfl

theorem trimmedEntries_singleton (entry : String) :
    trimmedEntries [entry] = if Text.strip entry = "" then [] else [Text.strip entry] := by
  by_cases h : Text.strip entry = "" <;> simp [trimmedEntries, h]

/-- A batch of one entry, with any number of workers; it shows one outcome, or none for a blank
entry. -/
structure IsAlone (disk : Disk) (options : Options) (entry : String) (b : Batch) : Prop where
  returns : ∀ workers, Returns workers disk options [entry] b
  length : b.invalidEntries.length + b.errors.length + b.entryResults.length =
    if Text.strip entry = "" then 0 else 1

/-- Each outcome is of one kind. -/
theorem Shows.length_eq {b : Batch} {outcomes : List EntryOutcome} (h : b.Shows outcomes) :
    b.invalidEntries.length + b.errors.length + b.entryResults.length = outcomes.length := by
  rw [h.invalid, h.failed, h.analysed]
  clear h
  induction outcomes with
  | nil => rfl
  | cons x outcomes ih =>
    rw [List.length_cons, ← ih]
    cases x <;> simp only [List.filterMap_cons, EntryOutcome.invalid?, EntryOutcome.failed?,
      EntryOutcome.analysed?, List.length_cons] <;> omega

/-- An entry alone makes a batch that shows its outcome. -/
theorem exists_isAlone (h : ∀ trimmed ∈ trimmedEntries [entry], IsAskable disk options trimmed) :
    ∃ b outcomes, IsAlone disk options entry b ∧
      List.Forall₂ (HasOutcome disk options) (trimmedEntries [entry]) outcomes ∧
      b.Shows outcomes := by
  obtain ⟨outcomes, houtcomes⟩ := exists_outcomes h
  obtain ⟨b, hb, hshows⟩ := exists_shows (List.cons_ne_nil _ _) houtcomes
  refine ⟨b, outcomes, ⟨fun workers => returns_iff.mpr hb, ?_⟩, houtcomes, hshows⟩
  rw [hshows.length_eq, ← houtcomes.length_eq, trimmedEntries_singleton]
  split <;> rfl

/-- What batches show one after the other. -/
structure ShowTogether (batches : List Batch) (outcomes : List EntryOutcome) : Prop where
  invalid : batches.flatMap Batch.invalidEntries = outcomes.filterMap EntryOutcome.invalid?
  failed : batches.flatMap Batch.errors = outcomes.filterMap EntryOutcome.failed?
  analysed : batches.flatMap Batch.entryResults = outcomes.filterMap EntryOutcome.analysed?

/-- The batches of the entries alone show the outcomes of all entries. -/
theorem exists_alone (h : ∀ trimmed ∈ trimmedEntries entries, IsAskable disk options trimmed) :
    ∃ batches outcomes, List.Forall₂ (IsAlone disk options) entries batches ∧
      List.Forall₂ (HasOutcome disk options) (trimmedEntries entries) outcomes ∧
      ShowTogether batches outcomes := by
  induction entries with
  | nil => exact ⟨[], [], .nil, .nil, rfl, rfl, rfl⟩
  | cons entry entries ih =>
    rw [trimmedEntries_cons, List.forall_mem_append] at h
    obtain ⟨b, first, halone, hfirst, hshows⟩ := exists_isAlone h.1
    obtain ⟨batches, rest, hbatches, hrest, htogether⟩ := ih h.2
    refine ⟨b :: batches, first ++ rest, .cons halone hbatches, ?_, ?_⟩
    · rw [trimmedEntries_cons]
      exact List.rel_append hfirst hrest
    · constructor
      · rw [List.flatMap_cons, hshows.invalid, htogether.invalid, List.filterMap_append]
      · rw [List.flatMap_cons, hshows.failed, htogether.failed, List.filterMap_append]
      · rw [List.flatMap_cons, hshows.analysed, htogether.analysed, List.filterMap_append]

/-- **Entries do not disturb each other**, as long as the disk can be asked about them.  A batch
returns exactly when it can be asked about every entry that is not blank, which short paths ensure;
and then it is put together from the batches of the entries alone, in order. -/
theorem entries_isolated (disk : Disk) (options : Options) (workers : Int) (hne : entries ≠ []) :
    ((∃ b, Returns workers disk options entries b) ↔
      ∀ trimmed ∈ trimmedEntries entries, IsAskable disk options trimmed) ∧
    (∀ trimmed, (entryPath disk options trimmed).IsShort → IsAskable disk options trimmed) ∧
    ∀ b, Returns workers disk options entries b →
      ∃ alone, List.Forall₂ (IsAlone disk options) entries alone ∧
        b.invalidEntries = alone.flatMap Batch.invalidEntries ∧
        b.errors = alone.flatMap Batch.errors ∧
        b.entryResults = alone.flatMap Batch.entryResults := by
  refine ⟨?_, fun _ => Disk.exists_contains_of_isShort, fun b hb => ?_⟩
  · simp only [returns_iff, exists_ofEntries_iff]
    exact and_iff_right hne
  · have hreturns := returns_iff.mp hb
    have hall := (exists_ofEntries_iff.mp ⟨b, hreturns⟩).2
    obtain ⟨alone, outcomes, halone, houtcomes, htogether⟩ := exists_alone hall
    obtain ⟨b', hb', hshows⟩ := exists_shows hne houtcomes
    obtain rfl : b' = b := Except.ok.inj (hb'.symm.trans hreturns)
    refine ⟨alone, halone, ?_, ?_, ?_⟩
    · rw [hshows.invalid, htogether.invalid]
    · rw [hshows.failed, htogether.failed]
    · rw [hshows.analysed, htogether.analysed]

theorem entries_isolated_pair : ∃ b, Returns 3 Walk.pairDisk pairOptions pairEntries b ∧
    ∃ alone, List.Forall₂ (IsAlone Walk.pairDisk pairOptions) pairEntries alone ∧
      b.invalidEntries = alone.flatMap Batch.invalidEntries ∧
      b.errors = alone.flatMap Batch.errors ∧
      b.entryResults = alone.flatMap Batch.entryResults := by
  have h := entries_isolated Walk.pairDisk pairOptions 3
    (List.cons_ne_nil " a.js" [" ", "gone.js", "."])
  obtain ⟨b, hb⟩ := h.1.mpr isAskable_pairEntries
  exact ⟨b, hb, h.2.2 b hb⟩

/-! ## Names that are too long -/

/-- A name that is too long is below no project a path that the disk can be asked about. -/
theorem not_isAskable_of_long {name : String}
    (hroot : disk.isFolder (rootOf disk options) = .ok true) (hname : IsName name)
    (hnul : '\x00' ∉ name.toList) (hlong : maxNameBytes < name.utf8ByteSize) :
    ¬ IsAskable disk options name := by
  have hpath : entryPath disk options name = (rootOf disk options).child name := by
    have habs : (disk.workingPath ++ options.projectRoot.getD disk.workingPath).isAbsolute = true :=
      Path.isAbsolute_append rfl
    rw [entryPath, Path.ofString_name hname, Path.append_of_relative rfl]
    refine Path.normalize_of_ne_up (List.forall_mem_append.mpr ⟨?_, ?_⟩)
    · exact Path.ne_up_of_mem_normalize habs
    · exact List.forall_mem_singleton.mpr hname.ne_up
  rintro ⟨there, hthere⟩
  rw [hpath, Disk.contains_child_of_long hroot hname.ne_up hnul hlong] at hthere
  cases hthere

/-- One name that is too long aborts any batch of a project, whatever its other entries are. -/
theorem not_returns_of_long {workers : Int} {name : String}
    (hroot : disk.isFolder (rootOf disk options) = .ok true) (hname : IsName name)
    (hnul : '\x00' ∉ name.toList) (hlong : maxNameBytes < name.utf8ByteSize)
    (hmem : name ∈ trimmedEntries entries) : ¬ ∃ b, Returns workers disk options entries b := by
  simp only [returns_iff, exists_ofEntries_iff]
  exact fun hall => not_isAskable_of_long hroot hname hnul hlong (hall.2 name hmem)

/-- A name of letters that is too long. -/
def longName : String :=
  String.ofList (List.replicate 300 'x')

theorem toList_longName : longName.toList = List.replicate 300 'x' :=
  String.toList_ofList

theorem not_mem_longName {c : Char} (h : c ≠ 'x') : c ∉ longName.toList := by
  rw [toList_longName]
  exact fun hmem => h (List.eq_of_mem_replicate hmem)

theorem isName_longName : IsName longName := by
  have hne : ∀ text : String, text.toList.length < 300 → longName ≠ text := by
    rintro text hlength rfl
    rw [toList_longName, List.length_replicate] at hlength
    exact absurd hlength (Nat.lt_irrefl _)
  exact ⟨hne "" (by decide), hne "." (by decide), hne ".." (by decide),
    not_mem_longName (by decide)⟩

theorem strip_longName : Text.strip longName = longName := by
  have hfilled : ∀ c ∈ List.replicate 300 'x', Text.isBlank c = false := by
    intro c hc
    rw [List.eq_of_mem_replicate hc]
    decide
  rw [Text.strip, toList_longName, Text.trim_of_tight (Text.isTight_of_filled hfilled)]
  rfl

/-- A batch is aborted by one entry with a long name, though its other entry has a result. -/
theorem long_name_aborts :
    (∃ b, Returns 1 Walk.pairDisk pairOptions ["a.js"] b ∧ b.success = true) ∧
    ¬ ∀ (disk : Disk) (options : Options) (workers : Int) (entries : List String),
      disk.isFolder (rootOf disk options) = .ok true → entries ≠ [] →
        ∃ b, Returns workers disk options entries b := by
  constructor
  · have halone : (ofEntries Walk.pairDisk pairOptions ["a.js"]).map success = .ok true := by
      decide +kernel
    cases hb : ofEntries Walk.pairDisk pairOptions ["a.js"] with
    | error e =>
      rw [hb] at halone
      cases halone
    | ok b =>
      rw [hb] at halone
      exact ⟨b, returns_iff.mpr hb, Except.ok.inj halone⟩
  · intro hall
    have hmem : longName ∈ trimmedEntries ["a.js", longName] := by
      rw [trimmedEntries_cons, trimmedEntries_singleton longName, strip_longName,
        if_neg isName_longName.ne_empty]
      exact List.mem_append_right _ List.mem_cons_self
    refine not_returns_of_long ?_ isName_longName (not_mem_longName (by decide)) (by decide +kernel)
      hmem (hall Walk.pairDisk pairOptions 1 ["a.js", longName] ?_ (List.cons_ne_nil _ _))
    · decide +kernel
    · decide +kernel

end Batch

end ImportAtlas
