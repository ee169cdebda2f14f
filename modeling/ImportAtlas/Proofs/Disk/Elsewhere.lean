import ImportAtlas.Proofs.Disk.Edit

set_option autoImplicit false

/-!
# Disks that differ in one place

A file is opened or removed at its place in a folder (`target_of_place`,
`unlink_of_place`), and all else on the disk stays (`SameElsewhere`).  A path
that does not lead there is followed to the same location on both disks
(`SameElsewhere.follow`), so it shows the same; a path that leads through the
location leads nowhere on either.
-/

namespace ImportAtlas.Disk

variable {d e : Disk} {p : Path} {task : DiskTask} {place here there location folder : Location}

/-- The disks differ at a location or below it only, where neither has a folder and the working
folder does not lie. -/
structure SameElsewhere (place : Location) (d e : Disk) : Prop where
  workingFolder : e.workingFolder = d.workingFolder
  outside : ¬ place <+: d.workingFolder
  notFolder : d.isFolderAt place = false
  notFolder' : e.isFolderAt place = false
  entries : ∀ location, ¬ place <+: location → e.entryAt? location = d.entryAt? location

theorem ne_nil_of_notFolder (h : d.isFolderAt place = false) : place ≠ [] := by
  rintro rfl
  simp [isFolderAt, entryAt?] at h

theorem SameElsewhere.isFolderAt (h : SameElsewhere place d e) (hlocation : ¬ place <+: location) :
    e.isFolderAt location = d.isFolderAt location := by
  rw [Disk.isFolderAt, Disk.isFolderAt, h.entries location hlocation]

theorem SameElsewhere.refl (hfile : d.isFolderAt place = false)
    (houtside : ¬ place <+: d.workingFolder) : SameElsewhere place d d :=
  ⟨rfl, houtside, hfile, hfile, fun _ _ => rfl⟩

theorem sameElsewhere_put (bytes : ByteArray) (hfile : d.isFolderAt place = false)
    (houtside : ¬ place <+: d.workingFolder) :
    SameElsewhere place d (d.put place (.file bytes)) where
  workingFolder := rfl
  outside := houtside
  notFolder := hfile
  notFolder' := by simp [Disk.isFolderAt, entryAt?_put, ne_nil_of_notFolder hfile]
  entries location hlocation := by
    have hne : location ≠ place := by
      rintro rfl
      exact hlocation List.prefix_rfl
    exact entryAt?_put_of_ne hne _

theorem entryAt?_erase (hroot : location ≠ []) :
    (d.erase place).entryAt? location =
      if place <+: location then none else d.entryAt? location := by
  have hget : ∀ entries : List (Location × Entry),
      Assoc.get? location (entries.filter fun e => !place.isPrefixOf e.1) =
        if place <+: location then none else Assoc.get? location entries := by
    intro entries
    induction entries with
    | nil => simp [Assoc.get?]
    | cons first rest ih =>
      obtain ⟨other, entry⟩ := first
      by_cases hother : place <+: other
      · rw [List.filter_cons_of_neg (by simpa using hother), ih]
        split
        · rfl
        · rename_i hlocation
          have hne : other ≠ location := by
            rintro rfl
            exact hlocation hother
          rw [Assoc.get?, if_neg hne]
      · have hkept : (!place.isPrefixOf other) = true := by
          rwa [Bool.not_eq_true', Bool.eq_false_iff, ne_eq, List.isPrefixOf_iff_prefix]
        simp only [List.filter_cons, hkept, if_true, Assoc.get?, ih]
        by_cases heq : other = location
        · subst heq
          simp [hother]
        · simp [heq]
  simp only [entryAt?, erase, if_neg hroot, hget]

theorem sameElsewhere_erase (hfile : d.isFolderAt place = false)
    (houtside : ¬ place <+: d.workingFolder) : SameElsewhere place d (d.erase place) where
  workingFolder := rfl
  outside := houtside
  notFolder := hfile
  notFolder' := by
    have hroot := ne_nil_of_notFolder hfile
    simp [Disk.isFolderAt, entryAt?_erase hroot]
  entries location hlocation := by
    by_cases hroot : location = []
    · simp [entryAt?, hroot]
    · rw [entryAt?_erase hroot, if_neg hlocation]

/-- Every location on the way to a folder is a folder. -/
theorem isFolderAt_of_prefix (hp : p.IsNormal) (h : d.isFolder p = .ok true)
    (hway : location <+: p.parts) : d.isFolderAt location = true := by
  obtain ⟨hfollow, hentry⟩ := entryAt?_of_isFolder hp h
  obtain ⟨rest, hrest⟩ := hway
  cases rest with
  | nil =>
    obtain rfl : location = p.parts := by simpa using hrest
    simp [Disk.isFolderAt, hentry]
  | cons part rest =>
    rw [← hrest, follow_append] at hfollow
    obtain ⟨there, hthere, hpart⟩ := Except.bind_eq_ok hfollow
    have hnames : ∀ name ∈ location, IsName name :=
      fun name hname => hp.names name (hrest ▸ List.mem_append_left _ hname)
    obtain rfl : there = location := by simpa using follow_of_names hnames hthere
    by_contra hno
    rw [Bool.not_eq_true] at hno
    rw [Disk.follow, hno] at hpart
    cases hpart

/-! ## Following a path -/

/-- Where a path ends that leads to the location or through it. -/
def LeadsTo (place : Location) (result : Except DiskCause Location) : Prop :=
  result = .ok place ∨ result = .error .missing ∨ result = .error .notFolder

/-- Nothing is followed through a location that is no folder. -/
theorem leadsTo_of_notFolder (h : d.isFolderAt place = false) (parts : List String) :
    LeadsTo place (if (d.entryAt? place).isNone then .error .missing
      else d.follow place parts) := by
  split
  · exact .inr (.inl rfl)
  · cases parts with
    | nil => exact .inl rfl
    | cons part parts =>
      rw [Disk.follow, h]
      exact .inr (.inr rfl)

/-- A path leads to the same location on both disks, outside of the place where they differ, or it
leads to that place or through it on both. -/
theorem SameElsewhere.follow (h : SameElsewhere place d e) {parts : List String}
    (hhere : ¬ place <+: here) :
    (e.follow here parts = d.follow here parts ∧
      ∀ there, d.follow here parts = .ok there → ¬ place <+: there) ∨
    (LeadsTo place (d.follow here parts) ∧ LeadsTo place (e.follow here parts)) := by
  induction parts generalizing here with
  | nil =>
    refine .inl ⟨rfl, fun there hthere => ?_⟩
    cases hthere
    exact hhere
  | cons part parts ih =>
    simp only [Disk.follow, h.isFolderAt hhere]
    cases hfolder : d.isFolderAt here with
    | false => exact .inl ⟨rfl, by simp⟩
    | true =>
      simp only [Bool.not_true, Bool.false_eq_true, if_false]
      by_cases hup : part = ".."
      · simp only [hup, if_true]
        exact ih fun hway => hhere (hway.trans (List.dropLast_prefix here))
      · simp only [hup, if_false]
        by_cases hlong : maxNameBytes < part.utf8ByteSize
        · simp only [hlong, if_true]
          exact .inl ⟨trivial, by simp⟩
        · simp only [hlong, if_false]
          by_cases hplace : place = here ++ [part]
          · rw [← hplace]
            exact .inr ⟨leadsTo_of_notFolder h.notFolder parts,
              leadsTo_of_notFolder h.notFolder' parts⟩
          · have hnext : ¬ place <+: here ++ [part] := by
              rw [List.prefix_concat_iff]
              exact not_or.mpr ⟨hplace, hhere⟩
            rw [h.entries _ hnext]
            cases (d.entryAt? (here ++ [part])).isNone with
            | true => exact .inl ⟨rfl, by simp⟩
            | false => exact ih hnext

theorem SameElsewhere.start_eq (h : SameElsewhere place d e) (p : Path) :
    e.start p = d.start p := by
  rw [start, start, h.workingFolder]

theorem SameElsewhere.not_prefix_start (h : SameElsewhere place d e) (p : Path) :
    ¬ place <+: d.start p := by
  unfold start
  split
  · rw [List.prefix_nil]
    exact ne_nil_of_notFolder h.notFolder
  · exact h.outside

theorem SameElsewhere.locate (h : SameElsewhere place d e) (task : DiskTask) (p : Path) :
    (e.locate task p = d.locate task p ∧
      ∀ location, d.locate task p = .ok location → ¬ place <+: location) ∨
    (LeadsTo place (d.locate task p) ∧ LeadsTo place (e.locate task p)) := by
  unfold Disk.locate
  rw [h.start_eq]
  cases checkPath task p with
  | error cause => exact .inl ⟨rfl, nofun⟩
  | ok u => exact h.follow (h.not_prefix_start p)

/-- What stands at a path of another name is the same on both disks. -/
theorem SameElsewhere.look {name : String} (h : SameElsewhere place d e)
    (hlast : p.parts.getLast? = some name) (hup : name ≠ "..")
    (hname : place.getLast? ≠ some name) : e.look p = d.look p := by
  have hother : ∀ {d : Disk}, d.locate .lookUp p ≠ .ok place := by
    intro d hlocate
    obtain ⟨-, hfollow⟩ := locate_eq_ok_iff.mp hlocate
    rw [← List.dropLast_append_getLast? name hlast, follow_concat] at hfollow
    obtain ⟨folder, -, -, hfolder⟩ := hfollow
    rw [if_neg hup] at hfolder
    exact hname (by simp [hfolder.2.1])
  have hnone : ∀ {d : Disk}, LeadsTo place (d.locate .lookUp p) → d.look p = .ok none := by
    rintro d (hplace | hmissing | hfolder)
    · exact absurd hplace hother
    · simp [Disk.look, hmissing]
    · simp [Disk.look, hfolder]
  rcases h.locate .lookUp p with ⟨hsame, houtside⟩ | ⟨hd, he⟩
  · unfold Disk.look
    rw [hsame]
    cases hlocate : d.locate .lookUp p with
    | error cause => cases cause <;> rfl
    | ok location => simp only [h.entries location (houtside location hlocate)]
  · rw [hnone hd, hnone he]

/-- A file that a path shows is read. -/
theorem read_of_look {bytes : ByteArray} (h : d.look p = .ok (some (.file bytes))) :
    d.read p = .ok bytes := by
  obtain ⟨location, hlocate, hentry⟩ := look_eq_some_iff.mp h
  exact read_eq_ok_iff.mpr ⟨location, locate_task .openFile hlocate, hentry⟩

/-- A closed file that a path shows is not. -/
theorem read_of_look_closedFile (h : d.look p = .ok (some .closedFile)) :
    d.read p = .error ⟨.denied, p⟩ := by
  obtain ⟨location, hlocate, hentry⟩ := look_eq_some_iff.mp h
  simp only [read, locate_task .openFile hlocate, hentry]

theorem SameElsewhere.hasFolder (h : SameElsewhere place d e) (hfolder : d.HasFolder p) :
    e.HasFolder p := by
  refine hfolder.imp_right fun hfolder => ?_
  obtain ⟨location, hlocate, hat⟩ := isFolder_iff.mp hfolder
  rcases h.locate .lookUp p with ⟨hsame, houtside⟩ | ⟨hplace | hmissing | hnotFolder, -⟩
  · refine isFolder_iff.mpr ⟨location, hsame.trans hlocate, ?_⟩
    rw [h.isFolderAt (houtside location hlocate), hat]
  · obtain rfl : place = location := Except.ok.inj (hplace.symm.trans hlocate)
    rw [h.notFolder] at hat
    cases hat
  · rw [hmissing] at hlocate
    cases hlocate
  · rw [hnotFolder] at hlocate
    cases hlocate

/-! ## A file at its place -/

variable {name : String}

/-- A file in another folder than the place itself has its place on both disks. -/
theorem SameElsewhere.place_eq_ok (h : SameElsewhere place d e) (hne : folder ≠ place)
    (hplace : d.place task p = .ok (folder, name)) : e.place task p = .ok (folder, name) := by
  obtain ⟨hfits, hfollow, hfolder, hlast⟩ := place_eq_ok_iff.mp hplace
  rcases h.follow (h.not_prefix_start p) with ⟨hsame, houtside⟩ | ⟨hthere | hmissing | hnot, -⟩
  · refine place_eq_ok_iff.mpr ⟨hfits, ?_, ?_, hlast⟩
    · rw [h.start_eq, hsame, hfollow]
    · rw [h.isFolderAt (houtside folder hfollow), hfolder]
  · exact absurd (Except.ok.inj (hfollow.symm.trans hthere)) hne
  · rw [hfollow] at hmissing
    cases hmissing
  · rw [hfollow] at hnot
    cases hnot

/-- A path is located at its place once something stands there. -/
theorem locate_eq_of_place (task' : DiskTask) (hplace : d.place task p = .ok (folder, name)) :
    d.locate task' p =
      if (d.entryAt? (folder ++ [name])).isSome then .ok (folder ++ [name])
      else .error .missing := by
  by_cases hentry : (d.entryAt? (folder ++ [name])).isSome = true
  · rw [if_pos hentry, locate_of_place task' hplace (Keeps.refl d).within hentry]
  · obtain ⟨hfits, hfollow, hfolder, hlast, hup, hshort⟩ := place_eq_ok_iff.mp hplace
    have hnone : (d.entryAt? (folder ++ [name])).isNone = true := by simpa using hentry
    rw [if_neg hentry, Disk.locate, checkPath_eq_ok_iff.mpr hfits, Except.ok_bind,
      ← List.dropLast_append_getLast? name hlast, follow_append, hfollow, Except.ok_bind]
    simp only [Disk.follow, hfolder, hup, hnone, Nat.not_lt.mpr hshort, Bool.not_true,
      Bool.false_eq_true, if_false, if_true]

/-- A name in a folder that is there has its place, if the disk can be asked about it. -/
theorem exists_place_child {entry : Option Entry} (hworking : d.isFolderAt d.workingFolder = true)
    (hfolder : d.HasFolder p) (hnul : '\x00' ∉ name.toList) (hup : name ≠ "..")
    (hshort : name.utf8ByteSize ≤ maxNameBytes) (hlook : d.look (p.child name) = .ok entry) :
    ∃ folder, d.place task (p.child name) = .ok (folder, name) := by
  obtain ⟨folder, hfollow, hat⟩ : ∃ folder, d.follow (d.start p) p.parts = .ok folder ∧
      d.isFolderAt folder = true := by
    rcases hfolder with hnil | hfolder
    · refine ⟨d.start p, by rw [hnil]; rfl, ?_⟩
      unfold start
      split
      · rfl
      · exact hworking
    · obtain ⟨folder, hlocate, hat⟩ := isFolder_iff.mp hfolder
      exact ⟨folder, (locate_eq_ok_iff.mp hlocate).2, hat⟩
  have hnoNul : p.holdsNul = false := by
    rcases hfolder with hnil | hfolder
    · rw [Path.holdsNul, hnil, List.any_nil]
    · obtain ⟨folder, hlocate, -⟩ := isFolder_iff.mp hfolder
      exact (locate_eq_ok_iff.mp hlocate).1.noNul
  have hchild : (p.child name).holdsNul = false := by
    rw [Path.holdsNul] at hnoNul ⊢
    rw [Path.child, List.any_append, hnoNul]
    simpa using hnul
  have hfits : (p.child name).Fits := by
    refine ⟨hchild, Nat.not_lt.mp fun hlong => ?_⟩
    simp [Disk.look, Disk.locate, checkPath, hchild, hlong, bind, Except.bind] at hlook
  have hdrop : (p.child name).parts.dropLast = p.parts := List.dropLast_concat
  exact ⟨folder, place_eq_ok_iff.mpr
    ⟨hfits, hdrop ▸ hfollow, hat, List.getLast?_concat, hup, hshort⟩⟩

theorem look_of_place (hplace : d.place task p = .ok (folder, name)) :
    d.look p = .ok (d.entryAt? (folder ++ [name])) := by
  rw [Disk.look, locate_eq_of_place .lookUp hplace]
  cases hentry : d.entryAt? (folder ++ [name]) with
  | none => rfl
  | some entry => simp only [Option.isSome_some, if_true, hentry]

/-- A file is opened at its place, if it can be opened there. -/
theorem target_of_place (hplace : d.place .openFile p = .ok (folder, name))
    (hopen : d.OpensAt (folder ++ [name])) : d.target p = .ok (folder ++ [name]) := by
  have hlocate := locate_eq_of_place .openFile hplace
  by_cases hentry : (d.entryAt? (folder ++ [name])).isSome = true
  · rw [if_pos hentry] at hlocate
    exact target_of_locate hlocate hopen
  · rw [if_neg hentry] at hlocate
    simp only [target, hlocate, hplace]

/-- Writing a file changes its place alone, whether the disk takes all of it or not. -/
theorem sameElsewhere_write {bytes : ByteArray} {fault : Option DiskFault}
    (hplace : d.place .openFile p = .ok (folder, name))
    (hfile : d.isFolderAt (folder ++ [name]) = false)
    (houtside : ¬ folder ++ [name] <+: d.workingFolder) (h : d.write p bytes = (e, fault)) :
    SameElsewhere (folder ++ [name]) d e := by
  by_cases hclosed : d.entryAt? (folder ++ [name]) = some .closedFile
  · have htarget : d.target p = .error ⟨.denied, p⟩ := by
      simp [target, locate_eq_of_place .openFile hplace, hclosed]
    rw [write_of_target_error htarget] at h
    cases h
    exact .refl hfile houtside
  · rw [write_of_target (target_of_place hplace ⟨hfile, hclosed⟩), fill] at h
    cases h
    exact sameElsewhere_put _ hfile houtside

/-- A file is removed from its place, and nothing else is. -/
theorem unlink_of_place (hplace : d.place .openFile p = .ok (folder, name))
    (hfile : d.isFolderAt (folder ++ [name]) = false)
    (houtside : ¬ folder ++ [name] <+: d.workingFolder) (h : d.unlink p = .ok e) :
    SameElsewhere (folder ++ [name]) d e ∧ e.entryAt? (folder ++ [name]) = none := by
  rw [Disk.unlink, locate_eq_of_place .openFile hplace] at h
  cases hentry : d.entryAt? (folder ++ [name]) with
  | none =>
    rw [hentry] at h
    cases h
    exact ⟨.refl hfile houtside, hentry⟩
  | some entry =>
    simp only [hentry, Option.isSome_some, if_true, hfile, Bool.false_eq_true, if_false,
      Except.ok.injEq] at h
    subst h
    refine ⟨sameElsewhere_erase hfile houtside, ?_⟩
    rw [entryAt?_erase (ne_nil_of_notFolder hfile), if_pos List.prefix_rfl]

end ImportAtlas.Disk
