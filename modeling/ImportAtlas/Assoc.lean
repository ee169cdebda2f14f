set_option autoImplicit false

/-!
# Ordered associations

A list of pairs that is read by its keys: dependency graphs, counts by file type
and saved settings keep the order in which their keys first appeared, because
reports show it.  `put` writes a key in its place, or at the end when it is new.
-/

namespace ImportAtlas.Assoc

variable {α β : Type} [DecidableEq α]

/-- The value of a key. -/
def get? (key : α) : List (α × β) → Option β
  | [] => none
  | (k, v) :: rest => if k = key then some v else get? key rest

/-- The pairs with the value of a key set, in the place of the key if it has one. -/
def put (key : α) (value : β) : List (α × β) → List (α × β)
  | [] => [(key, value)]
  | (k, v) :: rest => if k = key then (key, value) :: rest else (k, v) :: put key value rest

/-- The association that a list of pairs writes one after the other. -/
def ofList (pairs : List (α × β)) : List (α × β) :=
  pairs.foldl (fun acc p => put p.1 p.2 acc) []

/-- The keys in their order. -/
def keys (pairs : List (α × β)) : List α :=
  pairs.map Prod.fst

@[simp] theorem get?_put_self (key : α) (value : β) (pairs : List (α × β)) :
    get? key (put key value pairs) = some value := by
  induction pairs with
  | nil => simp [put, get?]
  | cons p rest ih =>
    obtain ⟨k, v⟩ := p
    by_cases h : k = key <;> simp [put, get?, h, ih]

theorem get?_put_of_ne {key other : α} (h : other ≠ key) (value : β) (pairs : List (α × β)) :
    get? other (put key value pairs) = get? other pairs := by
  induction pairs with
  | nil => simp [put, get?, h.symm]
  | cons p rest ih =>
    obtain ⟨k, v⟩ := p
    by_cases hk : k = key
    · subst hk; simp [put, get?, h.symm]
    · simp only [put, hk, if_false, get?, ih]

theorem get?_put (key other : α) (value : β) (pairs : List (α × β)) :
    get? other (put key value pairs) = if other = key then some value else get? other pairs := by
  split
  · rename_i h
    rw [h, get?_put_self]
  · rename_i h
    rw [get?_put_of_ne h]

/-- A key has a value exactly when it is one of the keys. -/
theorem get?_eq_none_iff {key : α} {pairs : List (α × β)} :
    get? key pairs = none ↔ key ∉ keys pairs := by
  induction pairs with
  | nil => simp [get?, keys]
  | cons p rest ih =>
    obtain ⟨k, v⟩ := p
    by_cases hk : k = key
    · simp [get?, keys, hk]
    · have hk' : key ≠ k := Ne.symm hk
      simp only [get?, hk, if_false, keys, List.map_cons, List.mem_cons, hk', false_or]
      simpa only [keys] using ih

theorem mem_keys_of_get? {key : α} {value : β} {pairs : List (α × β)}
    (h : get? key pairs = some value) : key ∈ keys pairs := by
  by_cases hkey : key ∈ keys pairs
  · exact hkey
  · rw [get?_eq_none_iff.mpr hkey] at h
    cases h

/-- A pair that is there after writing a key is the written one or was there before. -/
theorem mem_of_mem_put {key : α} {value : β} {pairs : List (α × β)} {pair : α × β}
    (h : pair ∈ put key value pairs) : pair = (key, value) ∨ pair ∈ pairs := by
  induction pairs with
  | nil => simpa [put] using h
  | cons first rest ih =>
    obtain ⟨k, v⟩ := first
    by_cases hk : k = key
    · rw [put, if_pos hk] at h
      rcases List.mem_cons.mp h with h | h
      · exact .inl h
      · exact .inr (List.mem_cons_of_mem _ h)
    · rw [put, if_neg hk] at h
      rcases List.mem_cons.mp h with h | h
      · exact .inr (h ▸ List.mem_cons_self)
      · exact (ih h).imp_right (List.mem_cons_of_mem _)

theorem mem_of_get? {key : α} {value : β} {pairs : List (α × β)}
    (h : get? key pairs = some value) : (key, value) ∈ pairs := by
  induction pairs with
  | nil => cases h
  | cons first rest ih =>
    obtain ⟨k, v⟩ := first
    by_cases hk : k = key
    · rw [get?, if_pos hk] at h
      cases h
      exact hk ▸ List.mem_cons_self
    · rw [get?, if_neg hk] at h
      exact List.mem_cons_of_mem _ (ih h)

/-- Writing a key keeps the keys there are and adds only a new one, at the end. -/
theorem keys_put (key : α) (value : β) (pairs : List (α × β)) :
    keys (put key value pairs) = if key ∈ keys pairs then keys pairs else keys pairs ++ [key] := by
  induction pairs with
  | nil => simp [put, keys]
  | cons p rest ih =>
    obtain ⟨k, v⟩ := p
    by_cases hk : k = key
    · subst hk; simp [put, keys]
    · have hk' : key ≠ k := Ne.symm hk
      simp only [put, hk, if_false, keys, List.map_cons, List.mem_cons, hk', false_or]
      simp only [keys] at ih
      rw [ih]
      by_cases hm : key ∈ List.map Prod.fst rest <;> simp [hm]

end ImportAtlas.Assoc
