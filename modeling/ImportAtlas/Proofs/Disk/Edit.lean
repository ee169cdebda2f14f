import ImportAtlas.Disk.Edit
import ImportAtlas.Proofs.Disk.Below

set_option autoImplicit false

/-!
# What writing and making folders leave

Making folders keeps every entry there is, and writing a file keeps every folder
and replaces at most one file.  So a place that is found stays where it is
(`Within`), folders that are made need not be made again, and a file is written
again at the place it was written to.
-/

namespace ImportAtlas

namespace Assoc

variable {α β : Type} [DecidableEq α]

/-- Of two values written for a key the second counts. -/
@[simp] theorem put_put (key : α) (first second : β) (pairs : List (α × β)) :
    put key second (put key first pairs) = put key second pairs := by
  induction pairs with
  | nil => simp [put]
  | cons pair rest ih =>
    obtain ⟨k, v⟩ := pair
    by_cases hk : k = key
    · simp [put, hk]
    · simp [put, hk, ih]

end Assoc

/-- A disk can be asked about the path. -/
structure Path.Fits (p : Path) : Prop where
  noNul : p.holdsNul = false
  short : p.text.utf8ByteSize ≤ maxPathBytes

theorem Path.text_of_parts {p : Path} (h : p.parts ≠ []) :
    p.text = p.anchor.text ++ "/".intercalate p.parts := by
  unfold Path.text
  split
  · rename_i hanchor
    simp [Path.partsText, h, hanchor, Anchor.text]
  · rfl

theorem Path.Fits.parent {p : Path} (h : p.Fits) (hne : p.parent.parts ≠ []) : p.parent.Fits := by
  obtain ⟨front, last, hparts⟩ : ∃ front last, p.parts = front ++ [last] := by
    have hparts : p.parts ≠ [] := fun hnil => hne (by simp [Path.parent, hnil])
    exact ⟨_, _, (List.dropLast_append_getLast hparts).symm⟩
  have hfront : p.parent.parts = front := by simp [Path.parent, hparts]
  rw [hfront] at hne
  constructor
  · have hnul := h.noNul
    simp only [Path.holdsNul, hparts, hfront, List.any_append, Bool.or_eq_false_iff] at hnul ⊢
    exact hnul.1
  · have hshort := h.short
    rw [Path.text_of_parts (by simp [hparts]), hparts,
      String.intercalate_append_of_ne_nil hne (List.cons_ne_nil _ _)] at hshort
    rw [Path.text_of_parts (hfront ▸ hne), hfront]
    have hanchor : p.parent.anchor = p.anchor := rfl
    simp only [hanchor, String.utf8ByteSize_append] at hshort ⊢
    omega

namespace Disk

variable {d e : Disk} {p : Path} {task : DiskTask} {here there location : Location}

/-! ## Entries after a change -/

theorem entryAt?_put (d : Disk) (location other : Location) (entry : Entry) :
    (d.put location entry).entryAt? other =
      if other = [] then some .folder
      else if other = location then some entry else d.entryAt? other := by
  unfold entryAt? put
  by_cases hroot : other = []
  · simp [hroot]
  · simp [hroot, Assoc.get?_put]

theorem entryAt?_put_of_ne {other : Location} (h : other ≠ location) (entry : Entry) :
    (d.put location entry).entryAt? other = d.entryAt? other := by
  rw [entryAt?_put, if_neg h]
  split
  · rename_i hroot
    simp [entryAt?, hroot]
  · rfl

/-- Where something stands on the one disk something stands on the other, and its folders are
folders there. -/
structure Within (d e : Disk) : Prop where
  workingFolder : e.workingFolder = d.workingFolder
  folders : ∀ location, d.isFolderAt location = true → e.isFolderAt location = true
  entries : ∀ location, (d.entryAt? location).isSome = true → (e.entryAt? location).isSome = true

/-- What stands on the one disk stands on the other. -/
structure Keeps (d e : Disk) : Prop where
  workingFolder : e.workingFolder = d.workingFolder
  entries : ∀ location entry, d.entryAt? location = some entry → e.entryAt? location = some entry

theorem Keeps.refl (d : Disk) : d.Keeps d :=
  ⟨rfl, fun _ _ h => h⟩

theorem Keeps.trans {f : Disk} (h : d.Keeps e) (h' : e.Keeps f) : d.Keeps f :=
  ⟨h'.workingFolder.trans h.workingFolder,
    fun location entry hentry => h'.entries location entry (h.entries location entry hentry)⟩

theorem Keeps.within (h : d.Keeps e) : d.Within e where
  workingFolder := h.workingFolder
  folders location hfolder := by
    have hentry : d.entryAt? location = some .folder := by simpa [isFolderAt] using hfolder
    simp [isFolderAt, h.entries location .folder hentry]
  entries location hsome := by
    obtain ⟨entry, hentry⟩ := Option.isSome_iff_exists.mp hsome
    simp [h.entries location entry hentry]

/-- A new entry leaves all others. -/
theorem keeps_put {entry : Entry} (h : d.entryAt? location = none) :
    d.Keeps (d.put location entry) := by
  refine ⟨rfl, fun other old hold => ?_⟩
  have hne : other ≠ location := by
    rintro rfl
    rw [h] at hold
    cases hold
  rw [entryAt?_put_of_ne hne, hold]

/-- A file takes the place of no folder. -/
theorem within_put {bytes : ByteArray} (h : d.isFolderAt location = false) :
    d.Within (d.put location (.file bytes)) where
  workingFolder := rfl
  folders other hfolder := by
    have hne : other ≠ location := by
      rintro rfl
      rw [h] at hfolder
      cases hfolder
    unfold isFolderAt at hfolder ⊢
    rw [entryAt?_put, if_neg hne]
    split
    · rfl
    · exact hfolder
  entries other hsome := by
    rw [entryAt?_put]
    split
    · rfl
    · split
      · rfl
      · exact hsome

/-! ## Following a path on the grown disk -/

theorem Within.follow (h : d.Within e) {parts : List String}
    (hfollow : d.follow here parts = .ok there) : e.follow here parts = .ok there := by
  induction parts generalizing here with
  | nil => exact hfollow
  | cons part parts ih =>
    simp only [Disk.follow] at hfollow ⊢
    by_cases hfolder : d.isFolderAt here = true
    · rw [h.folders here hfolder]
      simp only [hfolder, Bool.not_true, Bool.false_eq_true, if_false] at hfollow ⊢
      by_cases hup : part = ".."
      · rw [if_pos hup] at hfollow ⊢
        exact ih hfollow
      · rw [if_neg hup] at hfollow ⊢
        by_cases hlong : maxNameBytes < part.utf8ByteSize
        · rw [if_pos hlong] at hfollow
          cases hfollow
        · rw [if_neg hlong] at hfollow ⊢
          cases hentry : (d.entryAt? (here ++ [part])).isNone with
          | true => simp [hentry] at hfollow
          | false =>
            have hsome := h.entries (here ++ [part]) (by simpa using hentry)
            simp only [hentry, Bool.false_eq_true, if_false] at hfollow
            have hnone : (e.entryAt? (here ++ [part])).isNone = false := by simpa using hsome
            simpa only [hnone, Bool.false_eq_true, if_false] using ih hfollow
    · simp [hfolder] at hfollow

theorem checkPath_eq_ok_iff : checkPath task p = .ok () ↔ p.Fits := by
  have hfits : p.Fits ↔ p.holdsNul = false ∧ p.text.utf8ByteSize ≤ maxPathBytes :=
    ⟨fun h => ⟨h.noNul, h.short⟩, fun h => ⟨h.1, h.2⟩⟩
  rw [hfits, checkPath]
  cases p.holdsNul with
  | true => simp
  | false =>
    by_cases hlong : maxPathBytes < p.text.utf8ByteSize
    · simp [hlong]
    · simpa [hlong] using Nat.le_of_not_lt hlong

/-- A path is located by its parts if the disk can be asked about it. -/
theorem locate_eq_ok_iff : d.locate task p = .ok location ↔
    p.Fits ∧ d.follow (d.start p) p.parts = .ok location := by
  unfold locate
  rw [← @checkPath_eq_ok_iff p task]
  cases checkPath task p with
  | error cause => simp [bind, Except.bind]
  | ok u => simp

theorem locate_task (task' : DiskTask) (h : d.locate task p = .ok location) :
    d.locate task' p = .ok location :=
  locate_eq_ok_iff.mpr (locate_eq_ok_iff.mp h)

theorem Within.locate (h : d.Within e) (hlocate : d.locate task p = .ok location) :
    e.locate task p = .ok location := by
  rw [locate_eq_ok_iff] at hlocate ⊢
  have hstart : e.start p = d.start p := by rw [start, start, h.workingFolder]
  exact ⟨hlocate.1, hstart ▸ h.follow hlocate.2⟩

theorem look_eq_some_iff {entry : Entry} : d.look p = .ok (some entry) ↔
    ∃ location, d.locate .lookUp p = .ok location ∧ d.entryAt? location = some entry := by
  unfold look
  cases d.locate .lookUp p with
  | error cause => cases cause <;> simp
  | ok location => simp

theorem isFolder_iff : d.isFolder p = .ok true ↔
    ∃ location, d.locate .lookUp p = .ok location ∧ d.isFolderAt location = true := by
  have hfolder : ∀ location, d.isFolderAt location = true ↔ d.entryAt? location = some .folder := by
    simp [isFolderAt]
  simp only [hfolder]
  rw [← look_eq_some_iff, isFolder]
  rcases d.look p with fault | _ | _ | bytes <;> simp [Except.map]

theorem read_eq_ok_iff {bytes : ByteArray} : d.read p = .ok bytes ↔
    ∃ location, d.locate .openFile p = .ok location ∧
      d.entryAt? location = some (.file bytes) := by
  unfold read
  cases d.locate .openFile p with
  | error cause => simp
  | ok location =>
    rcases hentry : d.entryAt? location with _ | _ | other <;> simp [hentry]

/-- A file that is there is read on the grown disk. -/
theorem Keeps.read {bytes : ByteArray} (h : d.Keeps e) (hread : d.read p = .ok bytes) :
    e.read p = .ok bytes := by
  obtain ⟨location, hlocate, hentry⟩ := read_eq_ok_iff.mp hread
  exact read_eq_ok_iff.mpr
    ⟨location, h.within.locate hlocate, h.entries location _ hentry⟩

theorem Within.isFolder (h : d.Within e) (hfolder : d.isFolder p = .ok true) :
    e.isFolder p = .ok true := by
  obtain ⟨location, hlocate, hat⟩ := isFolder_iff.mp hfolder
  exact isFolder_iff.mpr ⟨location, h.locate hlocate, h.folders location hat⟩

/-! ## The folder above -/

theorem follow_concat {parts : List String} {part : String} :
    d.follow here (parts ++ [part]) = .ok location ↔
      ∃ folder, d.follow here parts = .ok folder ∧ d.isFolderAt folder = true ∧
        if part = ".." then location = folder.dropLast
        else part.utf8ByteSize ≤ maxNameBytes ∧ location = folder ++ [part] ∧
          (d.entryAt? location).isSome = true := by
  rw [follow_append]
  cases d.follow here parts with
  | error cause => simp [bind, Except.bind]
  | ok folder =>
    simp only [Except.ok_bind, Disk.follow, Except.ok.injEq, exists_eq_left']
    cases hfolder : d.isFolderAt folder with
    | false => simp
    | true =>
      simp only [Bool.not_true, Bool.false_eq_true, if_false, true_and]
      by_cases hup : part = ".."
      · simp [hup, eq_comm]
      · simp only [hup, if_false]
        by_cases hlong : maxNameBytes < part.utf8ByteSize
        · have hshort : ¬ part.utf8ByteSize ≤ maxNameBytes := Nat.not_le.mpr hlong
          simp [hlong, hshort]
        · simp only [hlong, if_false]
          cases hentry : d.entryAt? (folder ++ [part]) with
          | none =>
            simp only [Option.isNone_none, if_true, reduceCtorEq, false_iff, not_and]
            rintro - rfl
            simp [hentry]
          | some entry =>
            simp only [Option.isNone_some, Bool.false_eq_true, if_false, Except.ok.injEq]
            constructor
            · rintro rfl
              exact ⟨by omega, rfl, by simp [hentry]⟩
            · rintro ⟨-, rfl, -⟩
              rfl

/-- The folder is there, or the path has no parts, so that nothing has to be made. -/
def HasFolder (d : Disk) (p : Path) : Prop :=
  p.parts = [] ∨ d.isFolder p = .ok true

theorem Within.hasFolder (h : d.Within e) (hfolder : d.HasFolder p) : e.HasFolder p :=
  hfolder.imp_right h.isFolder

/-- What is located lies in a folder. -/
theorem hasFolder_parent (h : d.locate task p = .ok location) : d.HasFolder p.parent := by
  by_cases hne : p.parent.parts = []
  · exact .inl hne
  · obtain ⟨hfits, hfollow⟩ := locate_eq_ok_iff.mp h
    have hparts : p.parts ≠ [] := by
      intro hnil
      simp [Path.parent, hnil] at hne
    rw [← List.dropLast_append_getLast hparts, follow_concat] at hfollow
    obtain ⟨folder, hfollow, hfolder, -⟩ := hfollow
    exact .inr (isFolder_iff.mpr
      ⟨folder, locate_eq_ok_iff.mpr ⟨hfits.parent hne, hfollow⟩, hfolder⟩)

/-! ## Making folders -/

theorem place_eq_ok_iff {folder : Location} {name : String} :
    d.place task p = .ok (folder, name) ↔
      p.Fits ∧ d.follow (d.start p) p.parts.dropLast = .ok folder ∧
        d.isFolderAt folder = true ∧ p.parts.getLast? = some name ∧ name ≠ ".." ∧
        name.utf8ByteSize ≤ maxNameBytes := by
  unfold place
  rw [← @checkPath_eq_ok_iff p task]
  cases checkPath task p with
  | error cause => simp [bind, Except.bind]
  | ok u =>
    cases d.follow (d.start p) p.parts.dropLast with
    | error cause => simp [bind, Except.bind]
    | ok found =>
      simp only [Except.ok_bind]
      cases hfolder : d.isFolderAt found with
      | false =>
        simp only [Bool.not_false, if_true, throw, throwThe, MonadExceptOf.throw, bind, Except.bind,
          reduceCtorEq, true_and, Except.ok.injEq, false_iff, not_and]
        rintro rfl hat
        rw [hfolder] at hat
        cases hat
      | true =>
        simp only [Bool.not_true, Bool.false_eq_true, if_false, pure, Except.pure, true_and,
          Except.ok.injEq]
        split
        · rename_i hlast
          simp [throw, throwThe, MonadExceptOf.throw, hlast]
        · rename_i hlast
          simp only [throw, throwThe, MonadExceptOf.throw, reduceCtorEq, hlast, Option.some.injEq,
            false_iff, not_and]
          rintro - - rfl hup
          exact absurd rfl hup
        · rename_i last hup hlast
          simp only [hlast, Option.some.injEq]
          by_cases hlong : maxNameBytes < last.utf8ByteSize
          · simp only [hlong, if_true, throw, throwThe, MonadExceptOf.throw, reduceCtorEq,
              false_iff, not_and]
            rintro - - rfl -
            omega
          · simp only [hlong, if_false, Except.ok.injEq, Prod.mk.injEq]
            constructor
            · rintro ⟨rfl, rfl⟩
              exact ⟨rfl, hfolder, rfl, fun h => hup h, by omega⟩
            · rintro ⟨rfl, -, rfl, -⟩
              exact ⟨rfl, rfl⟩

/-- What is put at its place on the disk is located there. -/
theorem locate_of_place {folder : Location} {name : String} (task' : DiskTask)
    (hplace : d.place task p = .ok (folder, name)) (h : d.Within e)
    (hentry : (e.entryAt? (folder ++ [name])).isSome = true) :
    e.locate task' p = .ok (folder ++ [name]) := by
  obtain ⟨hfits, hfollow, hfolder, hlast, hup, hshort⟩ := place_eq_ok_iff.mp hplace
  have hstart : e.start p = d.start p := by rw [start, start, h.workingFolder]
  refine locate_eq_ok_iff.mpr ⟨hfits, ?_⟩
  rw [← List.dropLast_append_getLast? name hlast, follow_concat, hstart]
  refine ⟨folder, h.follow hfollow, h.folders folder hfolder, ?_⟩
  rw [if_neg hup]
  exact ⟨hshort, rfl, hentry⟩

/-- A folder is made where nothing stands. -/
theorem makeFolder_eq_put (h : d.makeFolder p = .ok e) : ∃ folder name,
    d.place .makeFolder p = .ok (folder, name) ∧ d.entryAt? (folder ++ [name]) = none ∧
      e = d.put (folder ++ [name]) .folder := by
  obtain ⟨⟨folder, name⟩, hplace, hrest⟩ := Except.bind_eq_ok h
  refine ⟨folder, name, hplace, ?_⟩
  cases hentry : d.entryAt? (folder ++ [name]) with
  | none =>
    simp only [hentry] at hrest
    cases hrest
    exact ⟨rfl, rfl⟩
  | some entry =>
    simp only [hentry] at hrest
    cases hrest

/-- A folder that was made is there, and all else is as before. -/
theorem makeFolder_ok (h : d.makeFolder p = .ok e) : d.Keeps e ∧ e.isFolder p = .ok true := by
  obtain ⟨folder, name, hplace, hnone, rfl⟩ := makeFolder_eq_put h
  have hkeeps : d.Keeps (d.put (folder ++ [name]) .folder) := keeps_put hnone
  have hentry : (d.put (folder ++ [name]) .folder).entryAt? (folder ++ [name]) = some .folder := by
    simp [entryAt?_put]
  refine ⟨hkeeps, isFolder_iff.mpr ⟨folder ++ [name], ?_, by simp [isFolderAt, hentry]⟩⟩
  exact locate_of_place .lookUp hplace hkeeps.within (by simp [hentry])

/-- Where the folder above is found, nothing above the path is missing. -/
theorem place_ne_missing {folder : Location}
    (h : d.follow (d.start p) p.parts.dropLast = .ok folder) :
    d.place task p ≠ .error .missing := by
  unfold place
  cases hcheck : checkPath task p with
  | error cause =>
    have hcause : cause ≠ .missing := by
      rintro rfl
      unfold checkPath at hcheck
      split at hcheck
      · cases hcheck
      · split at hcheck <;> cases hcheck
    simpa [bind, Except.bind] using hcause
  | ok u =>
    rw [h]
    simp only [Except.ok_bind, throw, throwThe, MonadExceptOf.throw, pure, Except.pure]
    cases d.isFolderAt folder with
    | false => simp [bind, Except.bind]
    | true =>
      simp only [Bool.not_true, Bool.false_eq_true, if_false]
      split
      · simp
      · simp
      · split <;> simp

/-- A folder that is there is not made again, nor does anything above it miss. -/
theorem makeFolder_of_isFolder (hfolder : d.isFolder p = .ok true) :
    ∃ cause, d.makeFolder p = .error cause ∧ cause ≠ .missing := by
  obtain ⟨location, hlocate, hat⟩ := isFolder_iff.mp hfolder
  obtain ⟨-, hfollow⟩ := locate_eq_ok_iff.mp hlocate
  cases hplace : d.place .makeFolder p with
  | ok found =>
    obtain ⟨folder, name⟩ := found
    obtain ⟨-, hdrop, -, hlast, hup, -⟩ := place_eq_ok_iff.mp hplace
    rw [← List.dropLast_append_getLast? name hlast, follow_concat] at hfollow
    obtain ⟨folder', hdrop', -, hname⟩ := hfollow
    obtain rfl : folder = folder' := Except.ok.inj (hdrop.symm.trans hdrop')
    rw [if_neg hup] at hname
    obtain ⟨-, rfl, hentry⟩ := hname
    refine ⟨.exists, ?_, nofun⟩
    rw [makeFolder, hplace]
    simp [hentry, throw, throwThe, MonadExceptOf.throw]
  | error cause =>
    refine ⟨cause, by rw [makeFolder, hplace]; rfl, ?_⟩
    rintro rfl
    obtain ⟨folder, hdrop⟩ : ∃ folder, d.follow (d.start p) p.parts.dropLast = .ok folder := by
      by_cases hparts : p.parts = []
      · exact ⟨d.start p, by rw [hparts]; rfl⟩
      · rw [← List.dropLast_append_getLast hparts, follow_concat] at hfollow
        exact ⟨_, hfollow.choose_spec.1⟩
    exact place_ne_missing hdrop hplace

theorem ensureFolder_cases (h : d.ensureFolder p = .ok e) :
    d.makeFolder p = .ok e ∨ (e = d ∧ d.isFolder p = .ok true) := by
  unfold ensureFolder at h
  cases hmake : d.makeFolder p with
  | ok made =>
    simp only [hmake, Except.ok.injEq] at h
    exact .inl (congrArg Except.ok h)
  | error cause =>
    simp only [hmake] at h
    split at h
    · rename_i hfolder
      exact .inr ⟨(Except.ok.inj h).symm, hfolder⟩
    · cases h
    · cases h

theorem isFolder_of_ensureFolder (h : d.ensureFolder p = .ok e) : e.isFolder p = .ok true := by
  rcases ensureFolder_cases h with hmake | ⟨rfl, hfolder⟩
  · exact (makeFolder_ok hmake).2
  · exact hfolder

theorem ensureFolder_of_isFolder (h : d.isFolder p = .ok true) : d.ensureFolder p = .ok d := by
  obtain ⟨cause, hmake, -⟩ := makeFolder_of_isFolder h
  simp only [ensureFolder, hmake, h]

/-- The path of the first parts. -/
def upTo (p : Path) (n : Nat) : Path :=
  { p with parts := p.parts.take n }

theorem upTo_length (p : Path) : upTo p p.parts.length = p := by
  simp [upTo]

theorem upTo_succ_parent {n : Nat} (h : n < p.parts.length) :
    (upTo p (n + 1)).parent = upTo p n := by
  simp only [upTo, Path.parent, Path.mk.injEq, true_and]
  rw [List.dropLast_eq_take, List.length_take, List.take_take]
  congr 1
  omega

theorem makeFoldersTo_of_missing {n : Nat}
    (h : d.makeFolder (upTo p (n + 1)) = .error .missing) :
    d.makeFoldersTo p (n + 1) =
      match d.makeFoldersTo p n with
      | (made, none) =>
        match made.ensureFolder (upTo p (n + 1)) with
        | .ok all => (all, none)
        | .error fault => (made, some fault)
      | failed => failed := by
  rw [makeFoldersTo]
  unfold upTo at h
  rw [h]
  rfl

theorem makeFoldersTo_of_ne_missing {n : Nat}
    (h : d.makeFolder (upTo p (n + 1)) ≠ .error .missing) :
    d.makeFoldersTo p (n + 1) =
      match d.ensureFolder (upTo p (n + 1)) with
      | .ok all => (all, none)
      | .error fault => (d, some fault) := by
  rw [makeFoldersTo]
  split
  · rename_i hmissing
    exact absurd hmissing h
  · rfl

/-- What holds of a disk holds with the folders of a path made, if making one folder keeps it. -/
theorem makeFoldersTo_induction {R : Disk → Prop}
    (hput : ∀ d location, d.entryAt? location = none → R d → R (d.put location .folder))
    (h : R d) (p : Path) (n : Nat) : R (d.makeFoldersTo p n).1 := by
  have hensure : ∀ {d e : Disk} {n : Nat}, R d → d.ensureFolder (upTo p n) = .ok e → R e := by
    intro d e n h hensure
    rcases ensureFolder_cases hensure with hmake | ⟨rfl, -⟩
    · obtain ⟨folder, name, -, hnone, rfl⟩ := makeFolder_eq_put hmake
      exact hput d _ hnone h
    · exact h
  induction n with
  | zero => exact h
  | succ n ih =>
    by_cases hmissing : d.makeFolder (upTo p (n + 1)) = .error .missing
    · rw [makeFoldersTo_of_missing hmissing]
      rcases hmade : d.makeFoldersTo p n with ⟨made, _ | fault⟩
      · rw [hmade] at ih
        dsimp only at ih ⊢
        cases hall : made.ensureFolder (upTo p (n + 1)) with
        | ok all => exact hensure ih hall
        | error fault => exact ih
      · rwa [hmade] at ih
    · rw [makeFoldersTo_of_ne_missing hmissing]
      cases hall : d.ensureFolder (upTo p (n + 1)) with
      | ok all => exact hensure h hall
      | error fault => exact h

/-- Making the folders of a path keeps what there is. -/
theorem keeps_makeFoldersTo (d : Disk) (p : Path) (n : Nat) : d.Keeps (d.makeFoldersTo p n).1 :=
  makeFoldersTo_induction (fun _ _ hnone hkeeps => hkeeps.trans (keeps_put hnone)) (.refl d) p n

theorem makeFoldersTo_of_isFolder {n : Nat} (h : d.isFolder (upTo p (n + 1)) = .ok true) :
    d.makeFoldersTo p (n + 1) = (d, none) := by
  obtain ⟨cause, hmake, hcause⟩ := makeFolder_of_isFolder h
  have hne : d.makeFolder (upTo p (n + 1)) ≠ .error .missing := by
    rw [hmake]
    exact fun heq => hcause (Except.error.inj heq)
  rw [makeFoldersTo_of_ne_missing hne, ensureFolder_of_isFolder h]

/-- Folders that are there are not made again. -/
theorem makeFoldersTo_of_hasFolder {n : Nat} (hn : n ≤ p.parts.length)
    (h : d.HasFolder (upTo p n)) : d.makeFoldersTo p n = (d, none) := by
  cases n with
  | zero => rfl
  | succ n =>
    rcases h with hnil | hfolder
    · have hlength := congrArg List.length hnil
      simp only [upTo, List.length_take, List.length_nil] at hlength
      omega
    · exact makeFoldersTo_of_isFolder hfolder

/-- Folders that were made are there. -/
theorem hasFolder_of_makeFoldersTo {n : Nat} (h : d.makeFoldersTo p n = (e, none)) :
    e.HasFolder (upTo p n) := by
  cases n with
  | zero => exact .inl rfl
  | succ n =>
    refine .inr ?_
    by_cases hmissing : d.makeFolder (upTo p (n + 1)) = .error .missing
    · rw [makeFoldersTo_of_missing hmissing] at h
      rcases hmade : d.makeFoldersTo p n with ⟨made, _ | fault⟩
      · rw [hmade] at h
        cases hensure : made.ensureFolder (upTo p (n + 1)) with
        | ok all =>
          simp only [hensure, Prod.mk.injEq, and_true] at h
          exact h ▸ isFolder_of_ensureFolder hensure
        | error fault => simp [hensure] at h
      · simp [hmade] at h
    · rw [makeFoldersTo_of_ne_missing hmissing] at h
      cases hensure : d.ensureFolder (upTo p (n + 1)) with
      | ok all =>
        simp only [hensure, Prod.mk.injEq, and_true] at h
        exact h ▸ isFolder_of_ensureFolder hensure
      | error fault => simp [hensure] at h

/-- A folder lies in a folder. -/
theorem hasFolder_upTo {n : Nat} (hn : n < p.parts.length)
    (h : d.ensureFolder (upTo p (n + 1)) = .ok e) : d.HasFolder (upTo p n) := by
  rw [← upTo_succ_parent hn]
  rcases ensureFolder_cases h with hmake | ⟨-, hthere⟩
  · obtain ⟨folder, name, hplace, -⟩ := makeFolder_eq_put hmake
    obtain ⟨hfits, hfollow, hfolder, -⟩ := place_eq_ok_iff.mp hplace
    by_cases hne : (upTo p (n + 1)).parent.parts = []
    · exact .inl hne
    · exact .inr (isFolder_iff.mpr
        ⟨folder, locate_eq_ok_iff.mpr ⟨hfits.parent hne, hfollow⟩, hfolder⟩)
  · obtain ⟨location, hlocate, -⟩ := isFolder_iff.mp hthere
    exact hasFolder_parent hlocate

/-- Where making folders failed it fails again and makes nothing more. -/
theorem makeFoldersTo_again {n : Nat} {fault : DiskFault} (hn : n ≤ p.parts.length)
    (h : d.makeFoldersTo p n = (e, some fault)) :
    ∃ fault', e.makeFoldersTo p n = (e, some fault') := by
  induction n generalizing e fault with
  | zero => simp [makeFoldersTo] at h
  | succ n ih =>
    -- what cannot be ensured on the disk that is left cannot be made there
    have hstays : ∀ fault, e.makeFoldersTo p n = (e, none) →
        e.ensureFolder (upTo p (n + 1)) = .error fault →
        ∃ fault', e.makeFoldersTo p (n + 1) = (e, some fault') := by
      intro fault hmade hensure
      by_cases hmissing : e.makeFolder (upTo p (n + 1)) = .error .missing
      · exact ⟨fault, by simp only [makeFoldersTo_of_missing hmissing, hmade, hensure]⟩
      · exact ⟨fault, by rw [makeFoldersTo_of_ne_missing hmissing, hensure]⟩
    by_cases hmissing : d.makeFolder (upTo p (n + 1)) = .error .missing
    · have hstep := makeFoldersTo_of_missing hmissing
      rw [h] at hstep
      rcases hmade : d.makeFoldersTo p n with ⟨made, _ | fault'⟩
      · rw [hmade] at hstep
        cases hensure : made.ensureFolder (upTo p (n + 1)) with
        | ok all => simp [hensure] at hstep
        | error fault' =>
          simp only [hensure, Prod.mk.injEq] at hstep
          obtain ⟨rfl, -⟩ := hstep
          have hfolder := hasFolder_of_makeFoldersTo hmade
          exact hstays fault' (makeFoldersTo_of_hasFolder (by omega) hfolder) hensure
      · rw [hmade] at hstep
        simp only [Prod.mk.injEq] at hstep
        obtain ⟨rfl, -⟩ := hstep
        obtain ⟨fault', hagain⟩ := ih (by omega) hmade
        by_cases hmissing' : e.makeFolder (upTo p (n + 1)) = .error .missing
        · exact ⟨fault', by rw [makeFoldersTo_of_missing hmissing', hagain]⟩
        · rw [makeFoldersTo_of_ne_missing hmissing']
          cases hensure : e.ensureFolder (upTo p (n + 1)) with
          | error fault => exact ⟨fault, rfl⟩
          | ok all =>
            -- then the folder above would be there
            have hfolder := hasFolder_upTo (by omega) hensure
            rw [makeFoldersTo_of_hasFolder (by omega) hfolder] at hagain
            simp at hagain
    · have hstep := makeFoldersTo_of_ne_missing hmissing
      rw [h] at hstep
      cases hensure : d.ensureFolder (upTo p (n + 1)) with
      | ok all => simp [hensure] at hstep
      | error fault' =>
        simp only [hensure, Prod.mk.injEq] at hstep
        obtain ⟨rfl, -⟩ := hstep
        exact ⟨fault, h⟩

theorem makeFolders_of_hasFolder (h : d.HasFolder p) : d.makeFolders p = (d, none) := by
  rw [makeFolders]
  exact makeFoldersTo_of_hasFolder (Nat.le_refl _) (by rwa [upTo_length])

theorem hasFolder_of_makeFolders (h : d.makeFolders p = (e, none)) : e.HasFolder p := by
  have hfolder := hasFolder_of_makeFoldersTo h
  rwa [upTo_length] at hfolder

theorem keeps_makeFolders (d : Disk) (p : Path) : d.Keeps (d.makeFolders p).1 :=
  keeps_makeFoldersTo d p p.parts.length

theorem makeFolders_again {fault : DiskFault} (h : d.makeFolders p = (e, some fault)) :
    ∃ fault', e.makeFolders p = (e, some fault') :=
  makeFoldersTo_again (Nat.le_refl _) h

/-! ## Writing a file -/

/-- A file at a location can be opened for writing: neither a folder nor a closed file stands
there. -/
structure OpensAt (d : Disk) (location : Location) : Prop where
  noFolder : d.isFolderAt location = false
  notClosed : d.entryAt? location ≠ some .closedFile

theorem OpensAt.ne_nil (h : d.OpensAt location) : location ≠ [] := by
  rintro rfl
  simpa [isFolderAt, entryAt?] using h.noFolder

theorem opensAt_of_none (h : d.entryAt? location = none) : d.OpensAt location :=
  ⟨by simp [isFolderAt, h], by simp [h]⟩

theorem opensAt_of_file {bytes : ByteArray} (h : d.entryAt? location = some (.file bytes)) :
    d.OpensAt location :=
  ⟨by simp [isFolderAt, h], by simp [h]⟩

theorem OpensAt.entryAt?_put (h : d.OpensAt location) (entry : Entry) :
    (d.put location entry).entryAt? location = some entry := by
  rw [Disk.entryAt?_put, if_neg h.ne_nil, if_pos rfl]

/-- A file that was written can be written again. -/
theorem OpensAt.put (h : d.OpensAt location) (bytes : ByteArray) :
    (d.put location (.file bytes)).OpensAt location :=
  opensAt_of_file (h.entryAt?_put _)

theorem put_put (d : Disk) (location : Location) (first second : Entry) :
    (d.put location first).put location second = d.put location second := by
  simp [put]

@[simp] theorem takesAll_put (d : Disk) (other : Location) (entry : Entry) (location : Location)
    (bytes : ByteArray) : (d.put other entry).takesAll location bytes = d.takesAll location bytes :=
  rfl

@[simp] theorem taken_put (d : Disk) (other : Location) (entry : Entry) (location : Location)
    (bytes : ByteArray) : (d.put other entry).taken location bytes = d.taken location bytes :=
  rfl

/-- Bytes for which there is room are taken as they are. -/
theorem taken_of_takesAll {bytes : ByteArray} (h : d.takesAll location bytes = true) :
    d.taken location bytes = bytes := by
  unfold takesAll at h
  unfold taken
  cases hlimit : Assoc.get? location d.limits with
  | none => rfl
  | some limit =>
    rw [hlimit] at h
    simp only [of_decide_eq_true h, if_true]

/-- A file that is there is opened in its place. -/
theorem target_of_locate (hlocate : d.locate .openFile p = .ok location)
    (hopen : d.OpensAt location) : d.target p = .ok location := by
  have hfolder : d.entryAt? location ≠ some .folder := by
    simpa [isFolderAt] using hopen.noFolder
  rw [target, hlocate]
  dsimp only
  split
  · rename_i hentry
    exact absurd hentry hfolder
  · rename_i hentry
    exact absurd hentry hopen.notClosed
  · rfl

/-- Where a file is opened it is located once something is written. -/
theorem target_ok (h : d.target p = .ok location) :
    d.OpensAt location ∧
      ∀ bytes, (d.put location (.file bytes)).locate .openFile p = .ok location := by
  unfold target at h
  cases hlocate : d.locate .openFile p with
  | ok found =>
    have hopen : d.OpensAt found ∧ found = location := by
      rcases hentry : d.entryAt? found with _ | _ | bytes | _
      · exact ⟨opensAt_of_none hentry, by simpa [hlocate, hentry] using h⟩
      · simp [hlocate, hentry] at h
      · exact ⟨opensAt_of_file hentry, by simpa [hlocate, hentry] using h⟩
      · simp [hlocate, hentry] at h
    obtain ⟨hopen, rfl⟩ := hopen
    exact ⟨hopen, fun bytes => (within_put hopen.noFolder).locate hlocate⟩
  | error cause =>
    by_cases hmissing : cause = .missing
    · subst hmissing
      simp only [hlocate] at h
      cases hplace : d.place .openFile p with
      | error cause => simp [hplace] at h
      | ok found =>
        obtain ⟨folder, name⟩ := found
        simp only [hplace, Except.ok.injEq] at h
        subst h
        have hnone : d.entryAt? (folder ++ [name]) = none := by
          -- else the file would have been located
          by_contra hentry
          have hsome := Option.isSome_iff_ne_none.mpr hentry
          have hfound := locate_of_place .openFile hplace (Keeps.refl d).within hsome
          rw [hlocate] at hfound
          cases hfound
        have hopen := opensAt_of_none hnone
        refine ⟨hopen, fun bytes => ?_⟩
        exact locate_of_place .openFile hplace (within_put hopen.noFolder)
          (by simp [hopen.entryAt?_put])
    · cases cause <;> simp_all

/-- What was put where a file is opened is read. -/
theorem read_put (h : d.target p = .ok location) (bytes : ByteArray) :
    (d.put location (.file bytes)).read p = .ok bytes := by
  obtain ⟨hopen, hlocate⟩ := target_ok h
  exact read_eq_ok_iff.mpr ⟨location, hlocate bytes, hopen.entryAt?_put _⟩

/-- A file that can be opened holds afterwards what the disk has taken. -/
theorem write_of_target (h : d.target p = .ok location) (bytes : ByteArray) :
    d.write p bytes = d.fill p location bytes := by
  simp only [write, openEmpty, h, Except.map, fill, put_put]
  rfl

theorem write_of_target_error {fault : DiskFault} (h : d.target p = .error fault)
    (bytes : ByteArray) : d.write p bytes = (d, some fault) := by
  simp only [write, openEmpty, h, Except.map]

theorem fill_of_takesAll {bytes : ByteArray} (h : d.takesAll location bytes = true) :
    d.fill p location bytes = (d.put location (.file bytes), none) := by
  rw [fill, taken_of_takesAll h, if_pos h]

/-- A file that was written holds the bytes. -/
theorem write_ok {bytes : ByteArray} (h : d.write p bytes = (e, none)) :
    ∃ location, d.target p = .ok location ∧ d.takesAll location bytes = true ∧
      e = d.put location (.file bytes) := by
  cases htarget : d.target p with
  | error fault =>
    rw [write_of_target_error htarget] at h
    cases h
  | ok location =>
    rw [write_of_target htarget] at h
    cases htakes : d.takesAll location bytes with
    | true =>
      rw [fill_of_takesAll htakes] at h
      cases h
      exact ⟨location, rfl, htakes, rfl⟩
    | false => simp [fill, htakes] at h

/-- What was written is read. -/
theorem read_of_write {bytes : ByteArray} (h : d.write p bytes = (e, none)) :
    e.read p = .ok bytes := by
  obtain ⟨location, htarget, -, rfl⟩ := write_ok h
  exact read_put htarget bytes

end Disk

end ImportAtlas
