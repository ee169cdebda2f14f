import ImportAtlas.Assoc
import Mathlib.Data.List.Induction
import Mathlib.Data.List.Nodup
import Mathlib.Data.List.Perm.Subperm

set_option autoImplicit false

/-!
# Associations written from lists

An association that is written pair by pair has the keys of the list, each once.
It is the list itself exactly when no key comes twice (`length_ofList_iff`);
otherwise a later pair has taken the place of an earlier one.
-/

namespace ImportAtlas.Assoc

variable {α β : Type} [DecidableEq α] {key : α} {value : β} {pairs : List (α × β)}

omit [DecidableEq α] in
theorem keys_append (more : List (α × β)) : keys (pairs ++ more) = keys pairs ++ keys more :=
  List.map_append

omit [DecidableEq α] in
theorem length_keys : (keys pairs).length = pairs.length :=
  List.length_map _

omit [DecidableEq α] in
/-- Keys that are each written with a value are the keys. -/
@[simp] theorem keys_map (f : α → β) (items : List α) :
    keys (items.map fun item => (item, f item)) = items := by
  simp [keys, Function.comp_def]

theorem mem_keys_put {other : α} :
    other ∈ keys (put key value pairs) ↔ other = key ∨ other ∈ keys pairs := by
  rw [keys_put]
  split
  · rename_i hkey
    exact ⟨.inr, fun h => h.elim (fun heq => heq ▸ hkey) id⟩
  · simp [or_comm]

theorem nodup_keys_put (h : (keys pairs).Nodup) : (keys (put key value pairs)).Nodup := by
  rw [keys_put]
  split
  · exact h
  · rename_i hkey
    exact List.nodup_append_comm.mp (List.nodup_cons.mpr ⟨hkey, h⟩)

/-- A new key is written at the end. -/
theorem put_of_not_mem (h : key ∉ keys pairs) : put key value pairs = pairs ++ [(key, value)] := by
  induction pairs with
  | nil => rfl
  | cons first rest ih =>
    obtain ⟨k, v⟩ := first
    simp only [keys, List.map_cons, List.mem_cons, not_or] at h
    rw [put, if_neg (Ne.symm h.1), ih h.2, List.cons_append]

/-- A key that has a value may be written with it again. -/
theorem put_of_get? (h : get? key pairs = some value) : put key value pairs = pairs := by
  induction pairs with
  | nil => cases h
  | cons first rest ih =>
    obtain ⟨k, v⟩ := first
    by_cases hk : k = key
    · rw [get?, if_pos hk] at h
      cases h
      rw [put, if_pos hk, hk]
    · rw [get?, if_neg hk] at h
      rw [put, if_neg hk, ih h]

theorem get?_of_mem (hnodup : (keys pairs).Nodup) (h : (key, value) ∈ pairs) :
    get? key pairs = some value := by
  induction pairs with
  | nil => cases h
  | cons first rest ih =>
    obtain ⟨k, v⟩ := first
    obtain ⟨hfresh, hrest⟩ := List.nodup_cons.mp hnodup
    rcases List.mem_cons.mp h with heq | hmem
    · cases heq
      rw [get?, if_pos rfl]
    · have hne : k ≠ key := by
        rintro rfl
        exact hfresh (List.mem_map.mpr ⟨(k, value), hmem, rfl⟩)
      rw [get?, if_neg hne, ih hrest hmem]

/-- Keys that are each written with a value have it. -/
theorem get?_map_of_mem (f : α → β) {keys : List α} (h : key ∈ keys) :
    get? key (keys.map fun k => (k, f k)) = some (f key) := by
  induction keys with
  | nil => cases h
  | cons first rest ih =>
    rw [List.map_cons, get?]
    by_cases hfirst : first = key
    · rw [if_pos hfirst, hfirst]
    · rw [if_neg hfirst]
      exact ih ((List.mem_cons.mp h).resolve_left (Ne.symm hfirst))

/-- An association with different keys is the list of its keys, each with its value. -/
theorem eq_map_of_get? {f : α → β} (hnodup : (keys pairs).Nodup)
    (h : ∀ key ∈ keys pairs, get? key pairs = some (f key)) :
    pairs = (keys pairs).map fun key => (key, f key) := by
  rw [keys, List.map_map]
  refine (List.map_id pairs).symm.trans (List.map_congr_left fun pair hpair => ?_)
  have hvalue := (get?_of_mem hnodup hpair).symm.trans (h pair.1 (List.mem_map_of_mem hpair))
  exact Prod.ext rfl (Option.some.inj hvalue)

/-! ## Writing a list of pairs -/

theorem foldl_put_keys (start : List (α × β)) (h : (keys start).Nodup) :
    (keys (pairs.foldl (fun acc p => put p.1 p.2 acc) start)).Nodup ∧
      ∀ other, other ∈ keys (pairs.foldl (fun acc p => put p.1 p.2 acc) start) ↔
        other ∈ keys start ∨ other ∈ keys pairs := by
  induction pairs generalizing start with
  | nil => exact ⟨h, fun other => by simp [keys]⟩
  | cons first rest ih =>
    obtain ⟨hnodup, hmem⟩ := ih (put first.1 first.2 start) (nodup_keys_put h)
    refine ⟨hnodup, fun other => ?_⟩
    rw [List.foldl_cons, hmem other, mem_keys_put]
    simp only [keys, List.map_cons, List.mem_cons]
    tauto

theorem nodup_keys_ofList : (keys (ofList pairs)).Nodup :=
  (foldl_put_keys [] List.nodup_nil).1

@[simp] theorem mem_keys_ofList {other : α} : other ∈ keys (ofList pairs) ↔ other ∈ keys pairs := by
  rw [ofList, (foldl_put_keys [] List.nodup_nil).2 other]
  simp [keys]

/-- No pair is made up. -/
theorem mem_of_mem_ofList {pair : α × β} (h : pair ∈ ofList pairs) : pair ∈ pairs := by
  induction pairs using List.reverseRecOn with
  | nil => exact h
  | append_singleton pairs last ih =>
    rw [ofList, List.foldl_append, ← ofList] at h
    rcases mem_of_mem_put h with rfl | h
    · simp
    · exact List.mem_append_left _ (ih h)

/-- Pairs with different keys are written as they stand. -/
theorem ofList_of_nodup (h : (keys pairs).Nodup) : ofList pairs = pairs := by
  induction pairs using List.reverseRecOn with
  | nil => rfl
  | append_singleton pairs pair ih =>
    simp only [keys, List.map_append, List.map_cons, List.map_nil, List.nodup_append,
      List.mem_singleton] at h
    obtain ⟨hpairs, -, hfresh⟩ := h
    have hnew : pair.1 ∉ keys pairs := fun hmem => hfresh _ hmem _ rfl rfl
    rw [ofList, List.foldl_append, List.foldl_cons, List.foldl_nil, ← ofList, ih hpairs,
      put_of_not_mem hnew]

/-- No pair is lost exactly when no key comes twice. -/
theorem length_ofList_iff : (ofList pairs).length = pairs.length ↔ (keys pairs).Nodup := by
  constructor
  · intro h
    have hsub : (keys (ofList pairs)).Subperm (keys pairs) :=
      List.subperm_of_subset nodup_keys_ofList fun _ hkey => mem_keys_ofList.mp hkey
    have hperm := hsub.perm_of_length_le (by simp [keys, h])
    exact hperm.nodup_iff.mp nodup_keys_ofList
  · intro h
    rw [ofList_of_nodup h]

end ImportAtlas.Assoc
