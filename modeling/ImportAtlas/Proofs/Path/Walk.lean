import ImportAtlas.Proofs.Path.Normal
import Mathlib.Data.List.TakeWhile

set_option autoImplicit false

/-!
# Walking along segments

A text is spelled by slashes and segments (`exists_spelled`).  Normalizing what
it spells behind a normalized path is walking from that path segment by segment:
an empty segment and `.` stay, `..` goes up, and any other goes down
(`IsNormal.normalize_segments`).
-/

namespace ImportAtlas.Path

/-- The path one segment further: an empty one and `.` stay, `..` goes up. -/
def step (p : Path) (segment : String) : Path :=
  if segment = "" ∨ segment = "." then p
  else if segment = ".." then p.parent
  else p.child segment

/-- The path at the end of several segments. -/
def walk (p : Path) (segments : List String) : Path :=
  segments.foldl step p

variable {segments : List String} {segment : String} {p base : Path}

theorem partsOf_cons (h : ¬ (segment = "" ∨ segment = ".")) :
    partsOf (segment :: segments) = segment :: partsOf segments := by
  have hpart : isPart segment.toList = true := isPart_iff.mpr h
  simp only [partsOf, List.filter_cons, hpart, if_true]

theorem partsOf_cons_of_not (h : segment = "" ∨ segment = ".") :
    partsOf (segment :: segments) = partsOf segments := by
  have hpart : isPart segment.toList = false := Bool.eq_false_iff.mpr fun hp => isPart_iff.mp hp h
  simp only [partsOf, List.filter_cons, hpart, Bool.false_eq_true, if_false]

theorem walk_cons (segment : String) (segments : List String) :
    p.walk (segment :: segments) = (p.step segment).walk segments := rfl

theorem step_anchor : (p.step segment).anchor = p.anchor := by
  unfold step
  split
  · rfl
  · split <;> rfl

theorem walk_anchor : (p.walk segments).anchor = p.anchor := by
  induction segments generalizing p with
  | nil => rfl
  | cons segment rest ih => rw [walk_cons, ih, step_anchor]

theorem ne_up_of_mem_step (hp : ∀ part ∈ p.parts, part ≠ "..") :
    ∀ part ∈ (p.step segment).parts, part ≠ ".." := by
  intro part hpart
  unfold step at hpart
  split at hpart
  · exact hp part hpart
  · split at hpart
    · exact hp part (List.dropLast_subset _ hpart)
    · rename_i hup
      rcases List.mem_append.mp hpart with hpart | hpart
      · exact hp part hpart
      · rwa [List.mem_singleton.mp hpart]

/-- Folding a part onto the parts of a path is a step. -/
theorem foldPart_eq_step (hp : ∀ part ∈ p.parts, part ≠ "..")
    (hpart : ¬ (segment = "" ∨ segment = ".")) :
    foldPart true p.parts.reverse segment = (p.step segment).parts.reverse := by
  rw [step, if_neg hpart, foldPart.eq_def]
  by_cases hup : segment = ".."
  · rw [if_pos hup, if_pos hup]
    rcases List.eq_nil_or_concat p.parts with hnil | ⟨front, last, hlast⟩
    · simp [parent, hnil]
    · have hne : last ≠ ".." := hp last (by simp [hlast])
      simp [parent, hlast, hne]
  · rw [if_neg hup, if_neg hup]
    simp [child]

/-- Folding the parts of segments is walking along the segments. -/
theorem foldl_foldPart_eq_walk (hp : ∀ part ∈ p.parts, part ≠ "..") :
    (partsOf segments).foldl (foldPart true) p.parts.reverse = (p.walk segments).parts.reverse := by
  induction segments generalizing p with
  | nil => rfl
  | cons segment rest ih =>
    have hstep : ∀ part ∈ (p.step segment).parts, part ≠ ".." := ne_up_of_mem_step hp
    rw [walk_cons, ← ih hstep]
    by_cases hpart : segment = "" ∨ segment = "."
    · rw [partsOf_cons_of_not hpart, step, if_pos hpart]
    · rw [partsOf_cons hpart, List.foldl_cons, foldPart_eq_step hp hpart]

/-- Segments behind a normalized path are walked from it. -/
theorem IsNormal.normalize_parts (h : p.IsNormal) :
    normalize ⟨p.anchor, p.parts ++ partsOf segments⟩ = p.walk segments := by
  have hup : ∀ part ∈ p.parts, part ≠ ".." := fun part hmem => (h.names part hmem).ne_up
  have habs : isAbsolute ⟨p.anchor, p.parts ++ partsOf segments⟩ = true := h.absolute
  have hparts : ((p.parts ++ partsOf segments).foldl (foldPart true) []).reverse =
      (p.walk segments).parts := by
    rw [List.foldl_append, foldl_foldPart_of_ne_up [] hup, List.append_nil,
      foldl_foldPart_eq_walk hup, List.reverse_reverse]
  have hanchor : (p.walk segments).anchor = p.anchor := walk_anchor
  rw [normalize, habs, hparts, ← hanchor]

/-- Segments that are seen from a normalized path are walked from where they start. -/
theorem IsNormal.normalize_segments (h : base.IsNormal) (anchor : Anchor) :
    (base ++ ⟨anchor, partsOf segments⟩ : Path).normalize =
      (base ++ ⟨anchor, []⟩ : Path).walk segments := by
  have hfrom : ∀ a : Anchor, isAbsolute ⟨a, []⟩ = true →
      normalize ⟨a, partsOf segments⟩ = walk ⟨a, []⟩ segments := fun a ha =>
    normalize_parts ⟨ha, List.forall_mem_nil _⟩
  cases anchor with
  | relative =>
    rw [append_of_relative rfl, append_of_relative rfl, List.append_nil]
    exact h.normalize_parts
  | root =>
    rw [append_of_absolute rfl, append_of_absolute rfl]
    exact hfrom .root rfl
  | doubleRoot =>
    rw [append_of_absolute rfl, append_of_absolute rfl]
    exact hfrom .doubleRoot rfl

/-! ## Every text has its segments -/

/-- Slashes at the front of a text and what follows them. -/
theorem exists_slashes (text : List Char) :
    ∃ slashes rest, rest.head? ≠ some '/' ∧ text = List.replicate slashes '/' ++ rest := by
  refine ⟨(text.takeWhile (· == '/')).length, text.dropWhile (· == '/'), ?_, ?_⟩
  · intro hhead
    have hslash := List.head?_dropWhile_not (· == '/') text
    simp [hhead] at hslash
  · have hsame : text.takeWhile (· == '/') =
        List.replicate (text.takeWhile (· == '/')).length '/' := by
      refine List.eq_replicate_iff.mpr ⟨rfl, fun c hc => ?_⟩
      simpa using List.mem_takeWhile_imp hc
    rw [← hsame, List.takeWhile_append_dropWhile]

/-- Every text is spelled by slashes and segments. -/
theorem exists_spelled (text : String) :
    ∃ slashes segments, AreSegments segments ∧ text = spelled slashes segments := by
  obtain ⟨slashes, rest, hrest, htext⟩ := exists_slashes text.toList
  cases rest with
  | nil =>
    refine ⟨slashes, [], ⟨List.forall_mem_nil _, by simp⟩, ?_⟩
    rw [← String.toList_inj, htext]
    simp [spelled]
  | cons c cs =>
    have hc : (c == '/') = false := by simpa using hrest
    have hsplit : (c :: cs).splitOn '/' = (cs.splitOn '/').modifyHead (c :: ·) := by
      rw [List.splitOn_cons_eq_if_modifyHead, hc]
      rfl
    refine ⟨slashes, ((c :: cs).splitOn '/').map String.ofList, ⟨?_, ?_⟩, ?_⟩
    · intro segment hsegment
      obtain ⟨piece, hpiece, rfl⟩ := List.mem_map.mp hsegment
      simpa using not_mem_of_mem_splitOn hpiece
    · rw [hsplit, List.head?_map, List.head?_modifyHead]
      cases (cs.splitOn '/').head? with
      | none => simp
      | some piece => simp [← String.toList_inj]
    · have hjoined : ("/".intercalate (((c :: cs).splitOn '/').map String.ofList)).toList =
          c :: cs := by
        rw [String.toList_intercalate, List.map_map]
        simp only [Function.comp_def, String.toList_ofList, List.map_id_fun', id]
        exact List.intercalate_splitOn '/'
      rw [← String.toList_inj, htext, spelled, String.toList_append, hjoined, String.toList_ofList]

end ImportAtlas.Path
