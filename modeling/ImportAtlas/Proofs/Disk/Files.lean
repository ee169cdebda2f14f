import ImportAtlas.Proofs.Report.Update

set_option autoImplicit false

/-!
# The files that an operation leaves

Making folders leaves every file as it is and makes none; writing a file, or
updating a report, changes the file at its path alone.  Where that is, the disk
afterwards tells: there the path is located in any case, while before there may
have been no file to locate.
-/

namespace ImportAtlas

namespace Disk

variable {d e f : Disk} {p : Path} {location : Location} {written more : List Path}

/-- The file at a location, open or closed, if there is one. -/
def fileAt? (d : Disk) (location : Location) : Option Entry :=
  (d.entryAt? location).filter (· != .folder)

theorem fileAt?_put_of_ne {other : Location} (h : other ≠ location) (entry : Entry) :
    (d.put location entry).fileAt? other = d.fileAt? other := by
  rw [fileAt?, fileAt?, entryAt?_put_of_ne h]

/-- A folder made where nothing stands is no file, and was none. -/
theorem fileAt?_put_folder (h : d.entryAt? location = none) (other : Location) :
    (d.put location .folder).fileAt? other = d.fileAt? other := by
  by_cases hother : other = location
  · subst hother
    simp [fileAt?, entryAt?_put, h]
  · exact fileAt?_put_of_ne hother _

theorem Within.trans (h : d.Within e) (h' : e.Within f) : d.Within f where
  workingFolder := h'.workingFolder.trans h.workingFolder
  folders location hfolder := h'.folders location (h.folders location hfolder)
  entries location hsome := h'.entries location (h.entries location hsome)

/-- The later disk has what the earlier one has, and the same files but for those at the paths that
were written to. -/
structure SameFiles (written : List Path) (d e : Disk) : Prop where
  within : d.Within e
  files : ∀ location, (∀ p ∈ written, e.locate .openFile p ≠ .ok location) →
    e.fileAt? location = d.fileAt? location

namespace SameFiles

theorem refl (d : Disk) : SameFiles [] d d :=
  ⟨(Keeps.refl d).within, fun _ _ => rfl⟩

theorem mono (h : SameFiles written d e) (hsub : written ⊆ more) : SameFiles more d e :=
  ⟨h.within, fun location hother => h.files location fun p hp => hother p (hsub hp)⟩

/-- A path that was located stays where it is, so what two steps wrote to is what either wrote
to. -/
theorem trans (h : SameFiles written d e) (h' : SameFiles more e f) :
    SameFiles (written ++ more) d f where
  within := h.within.trans h'.within
  files location hother := by
    have hmore : ∀ p ∈ more, f.locate .openFile p ≠ .ok location := fun p hp =>
      hother p (List.mem_append_right written hp)
    have hwritten : ∀ p ∈ written, e.locate .openFile p ≠ .ok location := fun p hp hlocate =>
      hother p (List.mem_append_left more hp) (h'.within.locate hlocate)
    rw [h'.files location hmore, h.files location hwritten]

end SameFiles

/-- Making folders changes no file. -/
theorem sameFiles_makeFolders (d : Disk) (p : Path) : SameFiles [] d (d.makeFolders p).1 :=
  makeFoldersTo_induction
    (fun _ _ hnone h =>
      h.trans ⟨(keeps_put hnone).within, fun other _ => fileAt?_put_folder hnone other⟩)
    (.refl d) p p.parts.length

/-- What is put where a file is opened changes no other file. -/
theorem sameFiles_put (h : d.target p = .ok location) (bytes : ByteArray) :
    SameFiles [p] d (d.put location (.file bytes)) := by
  obtain ⟨hopen, hlocate⟩ := target_ok h
  refine ⟨within_put hopen.noFolder, fun other hother => fileAt?_put_of_ne ?_ _⟩
  rintro rfl
  exact hother p (List.mem_singleton_self p) (hlocate bytes)

end Disk

namespace Section

open Disk

variable {disk : Disk} {path : Path} {content : List Text.Point}

/-- An update changes the report file alone. -/
theorem sameFiles_update (disk : Disk) (path : Path) (content : List Text.Point) :
    SameFiles [path] disk (update disk path content).1 := by
  have hfolders := sameFiles_makeFolders disk path.parent
  have hupdates := updates_update disk path content
  generalize update disk path content = after at hupdates ⊢
  obtain ⟨_, outcome⟩ := after
  cases hupdates with
  | unread => exact (SameFiles.refl _).mono (List.nil_subset _)
  | unmade hmade =>
    rw [hmade] at hfolders
    exact hfolders.mono (List.nil_subset _)
  | unopened hmade _ =>
    rw [hmade] at hfolders
    exact hfolders.mono (List.nil_subset _)
  | opened hopens _ =>
    rw [hopens.folders] at hfolders
    exact hfolders.trans (sameFiles_put hopens.target _)

/-- Nothing stands at a path, the folders above it can be made, and the disk lacks no room. -/
structure HasFreePlace (disk : Disk) (path : Path) : Prop where
  free : disk.contains path = .ok false
  folders : (disk.makeFolders path.parent).2 = none
  target : ((disk.makeFolders path.parent).1.target path).isOk = true
  room : (disk.makeFolders path.parent).1.limits = []

instance (disk : Disk) (path : Path) : Decidable (HasFreePlace disk path) :=
  decidable_of_iff
    (disk.contains path = .ok false ∧ (disk.makeFolders path.parent).2 = none ∧
      ((disk.makeFolders path.parent).1.target path).isOk = true ∧
      (disk.makeFolders path.parent).1.limits = [])
    ⟨fun ⟨hfree, hfolders, htarget, hroom⟩ => ⟨hfree, hfolders, htarget, hroom⟩,
      fun h => ⟨h.free, h.folders, h.target, h.room⟩⟩

/-- A new report of which all is text is written in a free place. -/
theorem HasFreePlace.update_eq (h : HasFreePlace disk path) (content : String) :
    (update disk path content).2 = .written := by
  obtain ⟨location, htarget⟩ := Except.exists_of_isOk h.target
  have hopens : Opens disk path content (disk.makeFolders path.parent).1 location content := by
    refine ⟨?_, Prod.ext rfl h.folders, htarget⟩
    simp [newText, h.free, Except.mapError, pure, Except.pure]
  refine hopens.update_eq.2.mpr ⟨content.toUTF8, Text.encode_points content, ?_⟩
  simp [takesAll, h.room, Assoc.get?]

/-- After an update that wrote the file, the file holds the text that was to be written. -/
theorem read_of_update {e : Disk} (h : update disk path content = (e, .written)) :
    ∃ text : String, newText disk path content = .ok text ∧ e.read path = .ok text.toUTF8 := by
  have hupdates := updates_update disk path content
  rw [h] at hupdates
  generalize hwritten : Outcome.written = outcome at hupdates
  cases hupdates with
  | unread hnew => exact absurd hwritten.symm (ne_written_of_newText hnew)
  | unmade => exact absurd hwritten.symm (ofFault_ne_written _)
  | unopened => exact absurd hwritten.symm (ofFault_ne_written _)
  | opened hopens hiff =>
    obtain ⟨text, rfl, hstored⟩ := Text.encode_eq_ok_iff.mp (hiff.mp hwritten.symm).encode_eq
    exact ⟨text, hopens.text, hstored ▸ read_put hopens.target _⟩

end Section

end ImportAtlas
