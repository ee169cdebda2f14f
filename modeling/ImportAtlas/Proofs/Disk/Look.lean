import ImportAtlas.Disk.Basic
import ImportAtlas.Proofs.Path.Normal

set_option autoImplicit false

/-!
# Looking at a disk

A normalized path is followed straight down, so the file it shows is the entry
at its own parts.
-/

namespace ImportAtlas

/-- A result behind another one is there only if both are. -/
theorem Except.bind_eq_ok {ε α β : Type} {x : Except ε α} {f : α → Except ε β} {b : β}
    (h : (x >>= f) = .ok b) : ∃ a, x = .ok a ∧ f a = .ok b := by
  cases x with
  | error e => cases h
  | ok a => exact ⟨a, rfl, h⟩

theorem Except.mapError_eq_ok_iff {ε ε' α : Type} {f : ε → ε'} {x : Except ε α} {a : α} :
    x.mapError f = .ok a ↔ x = .ok a := by
  cases x <;> simp [Except.mapError]

theorem Except.exists_of_isOk {ε α : Type} {r : Except ε α} (h : r.isOk = true) :
    ∃ a, r = .ok a := by
  cases r with
  | error e => cases h
  | ok a => exact ⟨a, rfl⟩

@[simp] theorem Except.ok_bind {ε α β : Type} (a : α) (f : α → Except ε β) :
    (Except.ok a >>= f) = f a := rfl

namespace Disk

theorem follow_of_names {d : Disk} {parts : List String} {here there : Location}
    (h : ∀ part ∈ parts, IsName part) (hfollow : d.follow here parts = .ok there) :
    there = here ++ parts := by
  induction parts generalizing here with
  | nil => simpa [follow, eq_comm] using hfollow
  | cons next parts ih =>
    have hup := (h next List.mem_cons_self).ne_up
    simp only [follow, hup, if_false] at hfollow
    split at hfollow
    · cases hfollow
    · split at hfollow
      · cases hfollow
      · split at hfollow
        · cases hfollow
        · rw [ih (fun part hpart => h part (List.mem_cons_of_mem _ hpart)) hfollow]
          simp

/-- A normalized path is located at its own parts. -/
theorem follow_of_locate {d : Disk} {p : Path} {task : DiskTask} {location : Location}
    (hp : p.IsNormal) (h : d.locate task p = .ok location) :
    location = p.parts ∧ d.follow [] p.parts = .ok p.parts := by
  have hstart : d.start p = [] := by simp [start, hp.absolute]
  obtain ⟨-, -, hfollow⟩ := Except.bind_eq_ok h
  rw [hstart] at hfollow
  obtain rfl : location = p.parts := by simpa using follow_of_names hp.names hfollow
  exact ⟨rfl, hfollow⟩

/-- What a normalized path shows is the entry at the path's parts. -/
theorem entryAt?_of_look {d : Disk} {p : Path} {entry : Entry} (hp : p.IsNormal)
    (h : d.look p = .ok (some entry)) :
    d.follow [] p.parts = .ok p.parts ∧ d.entryAt? p.parts = some entry := by
  unfold look at h
  cases hlocate : d.locate .lookUp p with
  | error cause => cases cause <;> simp [hlocate] at h
  | ok location =>
    obtain ⟨rfl, hfollow⟩ := follow_of_locate hp hlocate
    exact ⟨hfollow, by simpa [hlocate] using h⟩

/-- The file at a normalized path, closed or not, is the entry at the path's parts. -/
theorem entryAt?_of_isFile {d : Disk} {p : Path} (hp : p.IsNormal) (h : d.isFile p = .ok true) :
    ∃ entry, d.entryAt? p.parts = some entry ∧ entry ≠ .folder := by
  unfold isFile at h
  rcases hlook : d.look p with fault | _ | entry
  · simp [hlook, Except.map] at h
  · simp [hlook, Except.map] at h
  · refine ⟨entry, (entryAt?_of_look hp hlook).2, ?_⟩
    rintro rfl
    simp [hlook, Except.map] at h

/-- The folder at a normalized path is reached by the path's parts. -/
theorem entryAt?_of_isFolder {d : Disk} {p : Path} (hp : p.IsNormal)
    (h : d.isFolder p = .ok true) :
    d.follow [] p.parts = .ok p.parts ∧ d.entryAt? p.parts = some .folder := by
  unfold isFolder at h
  rcases hlook : d.look p with fault | _ | entry
  · simp [hlook, Except.map] at h
  · simp [hlook, Except.map] at h
  · obtain rfl : entry = .folder := by simpa [hlook, Except.map] using h
    exact entryAt?_of_look hp hlook

end Disk

end ImportAtlas
