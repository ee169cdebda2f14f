import ImportAtlas.Proofs.Disk.Edit
import ImportAtlas.Proofs.Report.Section
import ImportAtlas.Proofs.Text.LineEnds

set_option autoImplicit false

/-!
# Updating a report file

Every update goes one of four ways (`Updates`).  Once the file is open it holds as
much of the new text as can be encoded and as the disk takes (`stored`), also when
the update fails then.  So an update of a file that holds text writes what is left
around the section and the new content behind it, and one that does not succeed
keeps the file only if it does not come to open it, or by chance
(`update_keeps_rest_iff`).
-/

namespace ImportAtlas

open Disk

namespace Disk

theorem contains_of_read {disk : Disk} {path : Path} {bytes : ByteArray}
    (h : disk.read path = .ok bytes) : disk.contains path = .ok true := by
  obtain ⟨location, hlocate, hentry⟩ := read_eq_ok_iff.mp h
  have hlook := look_eq_some_iff.mpr ⟨location, locate_task .lookUp hlocate, hentry⟩
  rw [contains, hlook]
  rfl

/-- A file that is read is opened in its place, and the folder above it is there. -/
theorem target_of_read {disk : Disk} {path : Path} {bytes : ByteArray}
    (h : disk.read path = .ok bytes) :
    disk.makeFolders path.parent = (disk, none) ∧ ∃ location,
      disk.locate .openFile path = .ok location ∧
        disk.entryAt? location = some (.file bytes) ∧ disk.target path = .ok location := by
  obtain ⟨location, hlocate, hentry⟩ := read_eq_ok_iff.mp h
  exact ⟨makeFolders_of_hasFolder (hasFolder_parent hlocate), location, hlocate, hentry,
    target_of_locate hlocate (opensAt_of_file hentry)⟩

/-- What stood on a disk stays exactly when the file that was there, if any, is written as it was.
-/
theorem keeps_put_file_iff {disk made : Disk} {location : Location} {after : ByteArray}
    (hkeeps : disk.Keeps made) (hopen : made.OpensAt location) :
    disk.Keeps (made.put location (.file after)) ↔
      ∀ before, disk.entryAt? location = some (.file before) → after = before := by
  constructor
  · intro hafter before hbefore
    have hfile := hafter.entries _ _ hbefore
    rw [hopen.entryAt?_put] at hfile
    exact Entry.file.inj (Option.some.inj hfile)
  · intro hsame
    refine ⟨hkeeps.workingFolder, fun other entry hentry => ?_⟩
    have hmade := hkeeps.entries _ _ hentry
    by_cases hother : other = location
    · subst hother
      -- what can be opened is neither a folder nor a closed file
      cases entry with
      | file before => rw [hopen.entryAt?_put, hsame before hentry]
      | folder =>
        have hfolder := hopen.noFolder
        rw [isFolderAt, hmade] at hfolder
        cases hfolder
      | closedFile => exact absurd hmade hopen.notClosed
    · rw [entryAt?_put_of_ne hother, hmade]

end Disk

namespace Section

open Text

variable {disk : Disk} {path : Path} {content : List Point}

/-! ## The new text -/

theorem newText_of_read {bytes : ByteArray} {text : String} (h : disk.read path = .ok bytes)
    (htext : Text.readStrict bytes = .ok text) (content : List Point) :
    newText disk path content = .ok ((front content text.toList).map .char ++ content) := by
  simp [newText, contains_of_read h, h, htext, Except.mapError, pure, Except.pure]

theorem ofFault_ne_written (fault : DiskFault) : Outcome.ofFault fault ≠ .written := by
  unfold Outcome.ofFault
  split <;> nofun

/-- An update cannot read the file, or finds no file, or reads its text. -/
theorem newText_cases (disk : Disk) (path : Path) :
    (∃ outcome, outcome ≠ .written ∧ ∀ content, newText disk path content = .error outcome) ∨
      (∀ content, newText disk path content = .ok content) ∨
      ∃ bytes text, disk.read path = .ok bytes ∧ Text.readStrict bytes = .ok text := by
  cases hcontains : disk.contains path with
  | error fault =>
    refine .inl ⟨_, ofFault_ne_written fault, fun content => ?_⟩
    simp [newText, hcontains, Except.mapError, bind, Except.bind]
  | ok found =>
    cases found with
    | false =>
      refine .inr (.inl fun content => ?_)
      simp [newText, hcontains, Except.mapError, pure, Except.pure]
    | true =>
      cases hread : disk.read path with
      | error fault =>
        refine .inl ⟨_, ofFault_ne_written fault, fun content => ?_⟩
        simp [newText, hcontains, hread, Except.mapError, bind, Except.bind]
      | ok bytes =>
        cases htext : Text.readStrict bytes with
        | error fault =>
          refine .inl ⟨.notText fault, nofun, fun content => ?_⟩
          simp [newText, hcontains, hread, htext, Except.mapError, bind, Except.bind]
        | ok text => exact .inr (.inr ⟨bytes, text, rfl, htext⟩)

theorem ne_written_of_newText {outcome : Outcome} (h : newText disk path content = .error outcome) :
    outcome ≠ .written := by
  rcases newText_cases disk path with ⟨outcome', hne, hnew⟩ | hnew | ⟨bytes, text, hread, htext⟩
  · rw [hnew] at h
    exact Except.error.inj h ▸ hne
  · rw [hnew] at h
    cases h
  · rw [newText_of_read hread htext] at h
    cases h

/-! ## The ways of an update -/

/-- What a file holds once it was opened for a text: as much of the text as the disk takes, and
nothing of one that cannot be encoded. -/
def stored (disk : Disk) (location : Location) (text : List Point) : ByteArray :=
  match encode text with
  | .ok bytes => disk.taken location bytes
  | .error _ => .empty

@[simp] theorem stored_put (disk : Disk) (other : Location) (entry : Entry) (location : Location)
    (text : List Point) :
    stored (disk.put other entry) location text = stored disk location text := by
  simp only [stored, taken_put]

/-- The text can be encoded, and the disk has room for it. -/
def Takes (disk : Disk) (location : Location) (text : List Point) : Prop :=
  ∃ bytes, encode text = .ok bytes ∧ disk.takesAll location bytes = true

theorem Takes.encode_eq {location : Location} {text : List Point} (h : Takes disk location text) :
    encode text = .ok (stored disk location text) := by
  obtain ⟨bytes, hbytes, htakes⟩ := h
  simp only [stored, hbytes, taken_of_takesAll htakes]

/-- An update comes to open the file at a location for a new text, with the folders above it made.
-/
structure Opens (disk : Disk) (path : Path) (content : List Point) (made : Disk)
    (location : Location) (new : List Point) : Prop where
  text : newText disk path content = .ok new
  folders : disk.makeFolders path.parent = (made, none)
  target : made.target path = .ok location

/-- The ways of an update: the text there is cannot be read, or the folder cannot be made, or the
file cannot be opened; or it is opened, and holds then what can be stored of the new text. -/
inductive Updates (disk : Disk) (path : Path) (content : List Point) : Disk → Outcome → Prop where
  | unread {outcome : Outcome} (hnew : newText disk path content = .error outcome) :
      Updates disk path content disk outcome
  | unmade {made : Disk} {fault : DiskFault}
      (hmade : disk.makeFolders path.parent = (made, some fault)) :
      Updates disk path content made (.ofFault fault)
  | unopened {made : Disk} {fault : DiskFault}
      (hmade : disk.makeFolders path.parent = (made, none))
      (htarget : made.target path = .error fault) :
      Updates disk path content made (.ofFault fault)
  | opened {made : Disk} {location : Location} {new : List Point} {outcome : Outcome}
      (hopens : Opens disk path content made location new)
      (hwritten : outcome = .written ↔ Takes made location new) :
      Updates disk path content (made.put location (.file (stored made location new))) outcome

theorem fill_spec (made : Disk) (path : Path) (location : Location) (new : List Point) :
    (fill (made.put location (.file .empty)) path location new).1 =
        made.put location (.file (stored made location new)) ∧
      ((fill (made.put location (.file .empty)) path location new).2 = .written ↔
        Takes made location new) := by
  unfold fill stored Takes
  cases hencode : encode new with
  | error fault => simp
  | ok bytes =>
    simp only [Disk.fill, put_put, taken_put, takesAll_put]
    by_cases htakes : made.takesAll location bytes = true
    · simp [htakes]
    · simp [htakes, ofFault_ne_written]

theorem updates_update (disk : Disk) (path : Path) (content : List Point) :
    Updates disk path content (update disk path content).1 (update disk path content).2 := by
  unfold update
  cases hnew : newText disk path content with
  | error outcome => exact .unread hnew
  | ok new =>
    rcases hmade : disk.makeFolders path.parent with ⟨made, _ | fault⟩
    · cases htarget : made.target path with
      | error fault =>
        simp only [openEmpty, htarget, Except.map]
        exact .unopened hmade htarget
      | ok location =>
        simp only [openEmpty, htarget, Except.map]
        obtain ⟨hdisk, hwritten⟩ := fill_spec made path location new
        rw [hdisk]
        exact .opened ⟨hnew, hmade, htarget⟩ hwritten
    · exact .unmade hmade

/-- A file that is opened holds what can be stored, and the update succeeds if that is all. -/
theorem Opens.update_eq {made : Disk} {location : Location} {new : List Point}
    (h : Opens disk path content made location new) :
    (update disk path content).1 = made.put location (.file (stored made location new)) ∧
      ((update disk path content).2 = .written ↔ Takes made location new) := by
  simp only [update, h.text, h.folders, openEmpty, h.target, Except.map]
  exact fill_spec made path location new

/-- A report that is there is opened in its place. -/
theorem opens_of_read {bytes : ByteArray} {text : String} (h : disk.read path = .ok bytes)
    (htext : Text.readStrict bytes = .ok text) :
    ∃ location, disk.locate .openFile path = .ok location ∧
      disk.entryAt? location = some (.file bytes) ∧ ∀ content : List Point,
        Opens disk path content disk location
          ((front content text.toList).map .char ++ content) := by
  obtain ⟨hfolders, location, hlocate, hentry, htarget⟩ := target_of_read h
  exact ⟨location, hlocate, hentry, fun content =>
    ⟨newText_of_read h htext content, hfolders, htarget⟩⟩

/-! ## What an update leaves -/

/-- An update that opens the file keeps what stood on the disk exactly when the file, if it was
there, holds the same again. -/
theorem Opens.keeps_iff {made : Disk} {location : Location} {new : List Point}
    (h : Opens disk path content made location new) :
    disk.Keeps (update disk path content).1 ↔
      ∀ before, disk.entryAt? location = some (.file before) →
        stored made location new = before := by
  have hkeeps : disk.Keeps made := by
    have hall := keeps_makeFolders disk path.parent
    rwa [h.folders] at hall
  rw [h.update_eq.1]
  exact keeps_put_file_iff hkeeps (target_ok h.target).1

/-- An update that does not open the file writes nothing and keeps what stood on the disk. -/
theorem keeps_of_not_opens (h : ∀ made location new, ¬ Opens disk path content made location new) :
    (update disk path content).2 ≠ .written ∧ disk.Keeps (update disk path content).1 := by
  have hmakes := keeps_makeFolders disk path.parent
  have hupdates := updates_update disk path content
  generalize update disk path content = after at hupdates ⊢
  obtain ⟨_, outcome⟩ := after
  cases hupdates with
  | unread hnew => exact ⟨ne_written_of_newText hnew, .refl _⟩
  | unmade hmade =>
    rw [hmade] at hmakes
    exact ⟨ofFault_ne_written _, hmakes⟩
  | unopened hmade htarget =>
    rw [hmade] at hmakes
    exact ⟨ofFault_ne_written _, hmakes⟩
  | opened hopens _ => exact absurd hopens (h _ _ _)

/-- **What a report update keeps.**  Of a file that holds text, the new text is what the update
leaves when it cuts out the section that the first line of the content starts and trims the two
parts around it, with the content behind them and a blank line between any two; so the lines
outside the section that are not blank stay, but for blanks at the ends and at the join.

The update succeeds exactly when it comes to open the file, the new text can be encoded and the
disk takes all of it.  One that does not open the file keeps every entry of the disk; but one that
opens it leaves what can be stored of the new text, and so it keeps the file that was there only
if that is the same by chance. -/
theorem update_keeps_rest_iff (disk : Disk) (path : Path) (content : List Point) :
    (∀ bytes text, disk.read path = .ok bytes → Text.readStrict bytes = .ok text →
      ∃ location new, disk.locate .openFile path = .ok location ∧
        disk.entryAt? location = some (.file bytes) ∧
        Opens disk path content disk location new ∧
        ∀ report : String, content = report → ∃ before after,
          Splits (markerOf report.toList) (linesOf text.toList) before after ∧
          new = String.ofList (spaced (partsAround before after ++ [report.toList])) ∧
          filledLines (spaced (partsAround before after ++ [report.toList])) =
            trimEnds (before.filter isFilled) ++ trimEnds (after.filter isFilled) ++
              filledLines report.toList ∧
          report.toList <:+ spaced (partsAround before after ++ [report.toList])) ∧
    (∀ made location new, Opens disk path content made location new →
      (update disk path content).1 = made.put location (.file (stored made location new)) ∧
      ((update disk path content).2 = .written ↔ Takes made location new) ∧
      (Takes made location new → encode new = .ok (stored made location new)) ∧
      (disk.Keeps (update disk path content).1 ↔
        ∀ before, disk.entryAt? location = some (.file before) →
          stored made location new = before)) ∧
    ((∀ made location new, ¬ Opens disk path content made location new) →
      (update disk path content).2 ≠ .written ∧ disk.Keeps (update disk path content).1) := by
  refine ⟨fun bytes text hread htext => ?_, fun made location new hopens => ?_, keeps_of_not_opens⟩
  · obtain ⟨location, hlocate, hentry, hopens⟩ := opens_of_read hread htext
    refine ⟨location, _, hlocate, hentry, hopens content, ?_⟩
    rintro report rfl
    obtain ⟨before, after, hsplits⟩ := exists_splits (markerOf report.toList) (linesOf text.toList)
    refine ⟨before, after, hsplits, ?_, ?_, ?_⟩
    · rw [front_append_points, hsplits.replace_eq]
    · exact filledLines_spaced before after report.toList hsplits.not_mem.1 hsplits.not_mem.2
    · rw [spaced_concat]
      exact List.suffix_append _ _
  · obtain ⟨hdisk, hwritten⟩ := hopens.update_eq
    exact ⟨hdisk, hwritten, Takes.encode_eq, hopens.keeps_iff⟩

/-- A report between other text. -/
def notes : String := "Intro\n\n# Report  \nold\n# Later\ntext\n"

/-- A disk with this document and a folder. -/
def notesDisk : Disk where
  entries := [(["notes.md"], .file notes.toUTF8), (["folder"], .folder)]
  workingFolder := []

theorem read_notesDisk : notesDisk.read (Path.ofString "notes.md") = .ok notes.toUTF8 := by
  decide +kernel

/-- The report is taken out from between the other text; a folder takes no report. -/
theorem update_keeps_rest_iff_notes :
    (∃ location new before after,
      notesDisk.locate .openFile (Path.ofString "notes.md") = .ok location ∧
        Splits "# Report".toList (linesOf (unifyLineEnds notes.toList)) before after ∧
        new = String.ofList (spaced (partsAround before after ++ ["# Report\nnew\n".toList])) ∧
        (update notesDisk (Path.ofString "notes.md") "# Report\nnew\n").1 =
          notesDisk.put location (.file (stored notesDisk location (points new))) ∧
        (update notesDisk (Path.ofString "notes.md") "# Report\nnew\n").2 = .written) ∧
      (update notesDisk (Path.ofString "folder") "# Report\n").2 ≠ .written ∧
      notesDisk.Keeps (update notesDisk (Path.ofString "folder") "# Report\n").1 := by
  have hmarker : markerOf "# Report\nnew\n".toList = "# Report".toList := by decide +kernel
  obtain ⟨htext, hopened, -⟩ :=
    update_keeps_rest_iff notesDisk (Path.ofString "notes.md") "# Report\nnew\n"
  obtain ⟨location, new, hlocate, -, hopens, hparts⟩ :=
    htext _ _ read_notesDisk (readStrict_toUTF8 notes)
  obtain ⟨before, after, hsplits, hnew, -⟩ := hparts _ rfl
  rw [hmarker, String.toList_ofList] at hsplits
  obtain ⟨hdisk, -⟩ := hopened _ _ _ hopens
  have hfolder := (update_keeps_rest_iff notesDisk (Path.ofString "folder") "# Report\n").2.2
    fun made location new hopens => by
      have htarget := hopens.target
      have hfolders := hopens.folders
      have hmade : made = notesDisk := by
        have hnone : notesDisk.makeFolders (Path.ofString "folder").parent = (notesDisk, none) := by
          decide +kernel
        exact congrArg Prod.fst (hfolders.symm.trans hnone)
      have hfails : notesDisk.target (Path.ofString "folder") =
          .error ⟨.isFolder, Path.ofString "folder"⟩ := by decide +kernel
      rw [hmade, hfails] at htarget
      cases htarget
  refine ⟨⟨location, _, before, after, hlocate, hsplits, rfl, ?_, by decide +kernel⟩, hfolder⟩
  rw [← hnew, hdisk]

/-- A file is emptied for a report with a surrogate, and cut on a disk without room, although
neither update succeeds. -/
theorem update_empties_notes :
    let halved := points "# Report\n" ++ [Point.surrogate 0]
    let full : Disk := { notesDisk with limits := [(["notes.md"], 3)] }
    ((update notesDisk (Path.ofString "notes.md") halved).2 ≠ .written ∧
      ¬ notesDisk.Keeps (update notesDisk (Path.ofString "notes.md") halved).1) ∧
    (update full (Path.ofString "notes.md") "# Report\n").2 ≠ .written ∧
      ¬ full.Keeps (update full (Path.ofString "notes.md") "# Report\n").1 := by
  intro halved full
  have hread : full.read (Path.ofString "notes.md") = .ok notes.toUTF8 := by decide +kernel
  have hemptied : (update notesDisk (Path.ofString "notes.md") halved).1.read
      (Path.ofString "notes.md") = .ok "".toUTF8 := by decide +kernel
  have hcut : (update full (Path.ofString "notes.md") "# Report\n").1.read
      (Path.ofString "notes.md") = .ok "Int".toUTF8 := by decide +kernel
  refine ⟨⟨by decide +kernel, fun hkeeps => ?_⟩, by decide +kernel, fun hkeeps => ?_⟩
  · have hsame := hemptied.symm.trans (hkeeps.read read_notesDisk)
    exact absurd (Except.ok.inj hsame) (by decide +kernel)
  · have hsame := hcut.symm.trans (hkeeps.read hread)
    exact absurd (Except.ok.inj hsame) (by decide +kernel)

end Section

end ImportAtlas
