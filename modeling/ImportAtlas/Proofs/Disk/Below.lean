import ImportAtlas.Proofs.Disk.Look

set_option autoImplicit false

/-!
# Below a shared folder

Two disks that hold the same folders and files beneath a folder answer every
probe beneath it alike, also with the same faults, whatever else they hold: a
normalized path leads through the folders above to the shared one and goes on
beneath it.  A probe beside the shared folder fails on both disks or on none.
-/

namespace ImportAtlas

/-- Whether an entry is a file, closed or not. -/
def Entry.isFile : Entry → Bool
  | .folder => false
  | .file _ | .closedFile => true

namespace Disk

/-- Both disks have a folder at the path, and beneath it the same folders and files, whatever the
files hold. -/
structure AlikeBelow (d e : Disk) (root : Path) : Prop where
  left : d.isFolder root = .ok true
  right : e.isFolder root = .ok true
  same : ∀ below, (d.entryAt? (root.parts ++ below)).map Entry.isFile =
    (e.entryAt? (root.parts ++ below)).map Entry.isFile

/-! ## Probes by kind -/

/-- Whether there is a file at a path, or a folder. -/
def isKind (d : Disk) (file : Bool) (p : Path) : Except DiskFault Bool :=
  if file then d.isFile p else d.isFolder p

/-- A probe depends on the kind of the entry only. -/
theorem isKind_eq_map (d : Disk) (file : Bool) (p : Path) :
    d.isKind file p = ((d.look p).map (Option.map Entry.isFile)).map (· == some file) := by
  unfold isKind isFile isFolder
  cases file <;> rcases d.look p with fault | _ | _ | bytes | _ <;> rfl

theorem isFolderAt_eq_map (d : Disk) (here : Location) :
    d.isFolderAt here = ((d.entryAt? here).map Entry.isFile == some false) := by
  unfold isFolderAt
  rcases d.entryAt? here with _ | _ | bytes | _ <;> rfl

theorem isNone_entryAt?_eq_map (d : Disk) (here : Location) :
    (d.entryAt? here).isNone = ((d.entryAt? here).map Entry.isFile).isNone := by
  cases d.entryAt? here <;> rfl

/-! ## Following a path through a folder -/

theorem follow_append (d : Disk) (here : Location) (front rest : List String) :
    d.follow here (front ++ rest) = d.follow here front >>= fun there => d.follow there rest := by
  induction front generalizing here with
  | nil => rfl
  | cons part front ih =>
    simp only [List.cons_append, follow]
    split
    · rfl
    · split
      · exact ih _
      · split
        · rfl
        · split
          · rfl
          · exact ih _

variable {d e : Disk} {root p : Path} {below : List String}

/-- Beneath the shared folder both disks are followed alike. -/
theorem AlikeBelow.follow (h : d.AlikeBelow e root) {names : List String}
    (hnames : ∀ name ∈ names, IsName name) (below : List String) :
    d.follow (root.parts ++ below) names = e.follow (root.parts ++ below) names := by
  induction names generalizing below with
  | nil => rfl
  | cons name names ih =>
    have hup := (hnames name List.mem_cons_self).ne_up
    have hnext := ih (fun n hn => hnames n (List.mem_cons_of_mem _ hn)) (below ++ [name])
    simp only [Disk.follow, hup, if_false, isFolderAt_eq_map, isNone_entryAt?_eq_map,
      List.append_assoc, h.same] at hnext ⊢
    rw [hnext]

theorem AlikeBelow.locate (h : d.AlikeBelow e root) (hroot : root.IsNormal) (hp : p.IsNormal)
    (hbelow : p.parts = root.parts ++ below) (task : DiskTask) :
    d.locate task p = e.locate task p := by
  have hnames : ∀ name ∈ below, IsName name := fun name hname =>
    hp.names name (hbelow ▸ List.mem_append_right _ hname)
  have hfollow := h.follow hnames []
  rw [List.append_nil] at hfollow
  simp only [Disk.locate, start, hp.absolute, if_true, hbelow, follow_append,
    (entryAt?_of_isFolder hroot h.left).1, (entryAt?_of_isFolder hroot h.right).1, Except.ok_bind,
    hfollow]

/-- Beneath the shared folder both disks show entries of the same kind. -/
theorem AlikeBelow.look (h : d.AlikeBelow e root) (hroot : root.IsNormal) (hp : p.IsNormal)
    (hbelow : p.parts = root.parts ++ below) :
    (d.look p).map (Option.map Entry.isFile) = (e.look p).map (Option.map Entry.isFile) := by
  unfold Disk.look
  rw [h.locate hroot hp hbelow .lookUp]
  cases hlocate : e.locate .lookUp p with
  | error cause => cases cause <;> rfl
  | ok location =>
    obtain ⟨rfl, -⟩ := follow_of_locate hp hlocate
    simp only [Except.map, hbelow, h.same]

theorem AlikeBelow.isKind (h : d.AlikeBelow e root) (hroot : root.IsNormal) (hp : p.IsNormal)
    (hbelow : p.parts = root.parts ++ below) (file : Bool) :
    d.isKind file p = e.isKind file p := by
  rw [isKind_eq_map, isKind_eq_map, h.look hroot hp hbelow]

/-- A file that holds the same on both disks is read alike. -/
theorem AlikeBelow.read (h : d.AlikeBelow e root) (hroot : root.IsNormal) (hp : p.IsNormal)
    (hbelow : p.parts = root.parts ++ below) (hsame : d.entryAt? p.parts = e.entryAt? p.parts) :
    d.read p = e.read p := by
  unfold Disk.read
  rw [h.locate hroot hp hbelow .openFile]
  cases hlocate : e.locate .openFile p with
  | error cause => rfl
  | ok location =>
    obtain ⟨rfl, -⟩ := follow_of_locate hp hlocate
    simp only [hsame]

/-! ## Beside the shared folder -/

/-- On the way to a folder the folder above is passed. -/
theorem follow_parent (hroot : root.IsNormal) (hne : root.parts ≠ [])
    (h : d.isFolder root = .ok true) :
    d.follow [] root.parent.parts = .ok root.parent.parts ∧
      d.isFolderAt root.parent.parts = true := by
  have hfollow := (entryAt?_of_isFolder hroot h).1
  rw [← List.dropLast_append_getLast hne, follow_append] at hfollow
  obtain ⟨there, hthere, hlast⟩ := Except.bind_eq_ok hfollow
  obtain rfl : there = root.parent.parts := by
    simpa using follow_of_names hroot.parent.names hthere
  refine ⟨hthere, ?_⟩
  by_contra hno
  rw [Bool.not_eq_true] at hno
  simp [Disk.follow, hno] at hlast

/-- A name beside a folder is looked up in the folder above, so only a length can be a fault. -/
theorem look_beside (hroot : root.IsNormal) (hne : root.parts ≠ [])
    (h : d.isFolder root = .ok true) {name : String} (hname : IsName name) :
    d.look (root.parent.child name) =
      match checkPath .lookUp (root.parent.child name) with
      | .ok () =>
        if maxNameBytes < name.utf8ByteSize then .error ⟨.nameTooLong, root.parent.child name⟩
        else .ok (d.entryAt? (root.parent.child name).parts)
      | .error .nameTooLong => .error ⟨.nameTooLong, root.parent.child name⟩
      | .error _ => .ok none := by
  obtain ⟨hfollow, hfolder⟩ := follow_parent hroot hne h
  have hup := hname.ne_up
  have hstart : d.start (root.parent.child name) = [] := by
    simp [start, (hroot.parent.child hname).absolute]
  have hparts : (root.parent.child name).parts = root.parent.parts ++ [name] := rfl
  unfold Disk.look Disk.locate
  rw [hstart, hparts, follow_append, hfollow]
  cases checkPath .lookUp (root.parent.child name) with
  | error cause => cases cause <;> rfl
  | ok u =>
    simp only [Except.ok_bind, Disk.follow, hfolder, hup, if_false, Bool.not_true,
      Bool.false_eq_true]
    by_cases hlong : maxNameBytes < name.utf8ByteSize
    · simp [hlong]
    · cases hentry : d.entryAt? (root.parent.parts ++ [name]) with
      | none => simp [hlong]
      | some entry => simp [hlong, hentry]

/-- A name beside the shared folder that is a file on neither disk is probed alike. -/
theorem isFile_beside (hroot : root.IsNormal) (hne : root.parts ≠ [])
    (hd : d.isFolder root = .ok true) (he : e.isFolder root = .ok true) {name : String}
    (hname : IsName name) (hdfile : d.isFile (root.parent.child name) ≠ .ok true)
    (hefile : e.isFile (root.parent.child name) ≠ .ok true) :
    d.isFile (root.parent.child name) = e.isFile (root.parent.child name) := by
  have hkind : ∀ (d : Disk) p, d.isFile p =
      ((d.look p).map (Option.map Entry.isFile)).map (· == some true) := fun d =>
    isKind_eq_map d true
  rw [hkind, look_beside hroot hne hd hname] at hdfile ⊢
  rw [hkind, look_beside hroot hne he hname] at hefile ⊢
  cases hcheck : checkPath .lookUp (root.parent.child name) with
  | error cause => cases cause <;> rfl
  | ok u =>
    simp only [hcheck] at hdfile hefile ⊢
    split
    · rfl
    · rename_i hshort
      rw [if_neg hshort] at hdfile hefile
      simp only [Except.map, ne_eq, Except.ok.injEq] at hdfile hefile ⊢
      rw [Bool.not_eq_true] at hdfile hefile
      rw [hdfile, hefile]

end Disk

end ImportAtlas
