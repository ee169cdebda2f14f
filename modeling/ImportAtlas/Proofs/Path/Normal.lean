import ImportAtlas.Path.Basic
import Mathlib.Data.List.Basic

set_option autoImplicit false

/-!
# Normalized paths

A path is normalized when it is absolute and each of its parts is a name: not
empty, neither `.` nor `..`, and free of slashes.  A path that is read from a
text has names and `..` for its parts; `normalize` makes a normalized path of it
when it is absolute, and leaves a normalized path as it is.  A normalized path
is read back from its own text.
-/

namespace ImportAtlas

/-- A part that stands for one step down from a folder. -/
structure IsName (part : String) : Prop where
  ne_empty : part ≠ ""
  ne_here : part ≠ "."
  ne_up : part ≠ ".."
  no_slash : '/' ∉ part.toList

instance (part : String) : Decidable (IsName part) :=
  decidable_of_iff (part ≠ "" ∧ part ≠ "." ∧ part ≠ ".." ∧ '/' ∉ part.toList)
    ⟨fun ⟨h1, h2, h3, h4⟩ => ⟨h1, h2, h3, h4⟩, fun ⟨h1, h2, h3, h4⟩ => ⟨h1, h2, h3, h4⟩⟩

/-- A text behind a name's stem: it has no slash, and a character other than a dot. -/
def IsSuffix (suffix : String) : Prop :=
  '/' ∉ suffix.toList ∧ ∃ c ∈ suffix.toList, c ≠ '.'

instance (suffix : String) : Decidable (IsSuffix suffix) :=
  decidable_of_iff (!suffix.toList.contains '/' && suffix.toList.any (· != '.'))
    (by simp [IsSuffix])

/-- A stem without a slash and a suffix make a name. -/
theorem IsSuffix.isName {stem suffix : String} (hsuffix : IsSuffix suffix)
    (hstem : '/' ∉ stem.toList) : IsName (stem ++ suffix) := by
  obtain ⟨hslash, c, hc, hdot⟩ := hsuffix
  have hmem : c ∈ (stem ++ suffix).toList := by simp [hc]
  constructor
  · intro h; rw [h] at hmem; simp at hmem
  · intro h; rw [h] at hmem; exact hdot (by simpa using hmem)
  · intro h; rw [h] at hmem; exact hdot (by simpa using hmem)
  · simp [hstem, hslash]

namespace Path

/-- An absolute path all of whose parts are names. -/
structure IsNormal (p : Path) : Prop where
  absolute : p.isAbsolute = true
  names : ∀ part ∈ p.parts, IsName part

instance (p : Path) : Decidable p.IsNormal :=
  decidable_of_iff (p.isAbsolute = true ∧ ∀ part ∈ p.parts, IsName part)
    ⟨fun ⟨h1, h2⟩ => ⟨h1, h2⟩, fun ⟨h1, h2⟩ => ⟨h1, h2⟩⟩

/-- Every part is a name or `..`. -/
def IsSpelled (p : Path) : Prop :=
  ∀ part ∈ p.parts, part ≠ ".." → IsName part

theorem IsNormal.isSpelled {p : Path} (h : p.IsNormal) : p.IsSpelled :=
  fun part hpart _ => h.names part hpart

/-! ## Reading a text -/

/-- What lies between two separators holds no separator. -/
theorem not_mem_of_mem_splitOn {c : Char} {text piece : List Char}
    (h : piece ∈ text.splitOn c) : c ∉ piece := by
  induction text generalizing piece with
  | nil => simp_all
  | cons d text ih =>
    rw [List.splitOn_cons_eq_if_modifyHead] at h
    split at h
    · rcases List.mem_cons.mp h with rfl | h
      · simp
      · exact ih h
    · rename_i hd
      cases hs : text.splitOn c with
      | nil => exact absurd hs (List.splitOn_ne_nil c text)
      | cons first rest =>
        rw [hs] at h ih
        simp only [List.modifyHead_cons, List.mem_cons] at h
        rcases h with rfl | h
        · have hfirst := ih List.mem_cons_self
          simp only [List.mem_cons, not_or]
          exact ⟨fun hcd => hd (by simp [hcd]), hfirst⟩
        · exact ih (List.mem_cons_of_mem _ h)

/-- What lies between two separators is of the text. -/
theorem mem_of_mem_splitOn {c d : Char} {text piece : List Char}
    (h : piece ∈ text.splitOn c) (hd : d ∈ piece) : d ∈ text := by
  have hflat : ∀ pieces : List (List Char), piece ∈ pieces → d ∈ [c].intercalate pieces := by
    intro pieces hmem
    induction pieces with
    | nil => cases hmem
    | cons first rest ih =>
      cases rest with
      | nil => simpa [List.mem_singleton.mp hmem] using hd
      | cons next rest =>
        rw [List.intercalate_cons_cons]
        rcases List.mem_cons.mp hmem with rfl | hmem
        · exact List.mem_append_left _ (List.mem_append_left _ hd)
        · exact List.mem_append_right _ (ih hmem)
  have hmem := hflat (text.splitOn c) h
  rwa [List.intercalate_splitOn] at hmem

theorem isSpelled_ofString (text : String) : (ofString text).IsSpelled := by
  intro part hpart hup
  simp only [ofString, List.mem_map, List.mem_filter] at hpart
  obtain ⟨piece, ⟨hmem, hpiece⟩, rfl⟩ := hpart
  have hslash := not_mem_of_mem_splitOn hmem
  simp only [isPart, Bool.and_eq_true, bne_iff_ne, ne_eq] at hpiece
  refine ⟨?_, ?_, hup, by simpa using hslash⟩
  · intro h; exact hpiece.1 (by simpa using congrArg String.toList h)
  · intro h; exact hpiece.2 (by simpa using congrArg String.toList h)

/-! ## Normalizing -/

/-- What each part but `..` has, and `..` has not, the parts have that are left of an absolute
path. -/
theorem foldl_foldPart_forall {P : String → Prop} (hup : ¬ P "..") {parts stack : List String}
    (hparts : ∀ part ∈ parts, part ≠ ".." → P part) (hstack : ∀ part ∈ stack, P part) :
    ∀ part ∈ parts.foldl (foldPart true) stack, P part := by
  induction parts generalizing stack with
  | nil => exact hstack
  | cons next parts ih =>
    refine ih (fun part hpart => hparts part (List.mem_cons_of_mem _ hpart)) ?_
    -- a `..` takes a part off the stack or meets an empty one
    by_cases hnext : next = ".."
    · cases stack with
      | nil => simp [foldPart, hnext]
      | cons top below =>
        have htop : top ≠ ".." := fun heq => hup (heq ▸ hstack top List.mem_cons_self)
        simpa [foldPart, hnext, htop] using fun part hpart =>
          hstack part (List.mem_cons_of_mem _ hpart)
    · have hkept := hparts next List.mem_cons_self hnext
      simpa [foldPart, hnext] using ⟨hkept, hstack⟩

/-- Normalizing an absolute path leaves names only. -/
theorem IsSpelled.isNormal_normalize {p : Path} (hp : p.IsSpelled) (habs : p.isAbsolute = true) :
    p.normalize.IsNormal := by
  refine ⟨habs, fun part hpart => ?_⟩
  simp only [normalize, List.mem_reverse, habs] at hpart
  exact foldl_foldPart_forall (fun hup => hup.ne_up rfl) hp (by simp) part hpart

theorem foldl_foldPart_of_ne_up {absolute : Bool} {parts : List String} (stack : List String)
    (h : ∀ part ∈ parts, part ≠ "..") :
    parts.foldl (foldPart absolute) stack = parts.reverse ++ stack := by
  induction parts generalizing stack with
  | nil => rfl
  | cons next parts ih =>
    have hnext := h next List.mem_cons_self
    simp [foldPart, hnext, ih (next :: stack) (fun part hp => h part (List.mem_cons_of_mem _ hp))]

/-- A path without `..` is normalized already. -/
theorem normalize_of_ne_up {p : Path} (h : ∀ part ∈ p.parts, part ≠ "..") : p.normalize = p := by
  rw [normalize, foldl_foldPart_of_ne_up [] h]
  simp

theorem IsNormal.normalize_eq {p : Path} (h : p.IsNormal) : p.normalize = p :=
  normalize_of_ne_up fun part hpart => (h.names part hpart).ne_up

/-- From the root no `..` leads anywhere. -/
theorem ne_up_of_mem_normalize {p : Path} (h : p.isAbsolute = true) :
    ∀ part ∈ p.normalize.parts, part ≠ ".." := by
  intro part hpart
  rw [normalize, h] at hpart
  exact foldl_foldPart_forall (P := (· ≠ "..")) (fun hup => hup rfl) (fun _ _ hup => hup) (by simp)
    part (List.mem_reverse.mp hpart)

/-- Normalizing an absolute path once is enough. -/
theorem normalize_normalize {p : Path} (h : p.isAbsolute = true) :
    p.normalize.normalize = p.normalize :=
  normalize_of_ne_up (ne_up_of_mem_normalize h)

/-- Seen from any path a normalized absolute path is the same. -/
theorem append_normalize_of_absolute {p : Path} (h : p.isAbsolute = true) (base : Path) :
    (base ++ p.normalize).normalize = p.normalize := by
  have hnormalized : p.normalize.isAbsolute = true := h
  rw [append_of_absolute hnormalized]
  exact normalize_normalize h

/-- A path seen from an absolute one is absolute. -/
theorem isAbsolute_append {base other : Path} (h : base.isAbsolute = true) :
    (base ++ other).isAbsolute = true := by
  cases hother : other.isAbsolute with
  | true => rw [append_of_absolute hother, hother]
  | false => rw [append_of_relative hother]; exact h

theorem IsSpelled.append {base other : Path} (hbase : base.IsSpelled) (hother : other.IsSpelled) :
    (base ++ other).IsSpelled := by
  cases habs : other.isAbsolute with
  | true => rwa [append_of_absolute habs]
  | false =>
    rw [append_of_relative habs]
    intro part hpart hup
    rcases List.mem_append.mp hpart with hpart | hpart
    · exact hbase part hpart hup
    · exact hother part hpart hup

/-- A path read from a text and seen from a normalized one normalizes. -/
theorem IsNormal.normalize_append {base other : Path} (hbase : base.IsNormal)
    (hother : other.IsSpelled) : (base ++ other).normalize.IsNormal :=
  (hbase.isSpelled.append hother).isNormal_normalize (isAbsolute_append hbase.absolute)

/-- Seen from anywhere, a normalized path is itself. -/
theorem IsNormal.append_normalize {p : Path} (h : p.IsNormal) (base : Path) :
    (base ++ p).normalize = p := by
  rw [append_of_absolute h.absolute, h.normalize_eq]

/-! ## Neighbours of a normalized path -/

theorem IsNormal.child {p : Path} (h : p.IsNormal) {name : String} (hname : IsName name) :
    (p.child name).IsNormal := by
  refine ⟨h.absolute, fun part hpart => ?_⟩
  rcases List.mem_append.mp hpart with hpart | hpart
  · exact h.names part hpart
  · rwa [List.mem_singleton.mp hpart]

theorem IsNormal.parent {p : Path} (h : p.IsNormal) : p.parent.IsNormal :=
  ⟨h.absolute, fun part hpart => h.names part (List.dropLast_subset _ hpart)⟩

theorem IsNormal.no_slash_name {p : Path} (h : p.IsNormal) : '/' ∉ p.name.toList := by
  unfold name
  cases hlast : p.parts.getLast? with
  | none => simp
  | some last => exact (h.names last (List.mem_of_getLast? hlast)).no_slash

theorem IsNormal.withSuffix {p : Path} (h : p.IsNormal) {suffix : String}
    (hsuffix : IsSuffix suffix) : (p.withSuffix suffix).IsNormal := by
  refine h.parent.child (hsuffix.isName ?_)
  rw [String.toList_ofList]
  exact fun hmem => h.no_slash_name (List.mem_of_mem_take hmem)

/-- Different suffixes lead to different companions. -/
theorem withSuffix_injective {p : Path} {a b : String} (h : p.withSuffix a = p.withSuffix b) :
    a = b := by
  simp only [Path.withSuffix, child, Path.mk.injEq, List.append_cancel_left_eq, List.cons.injEq,
    and_true, true_and] at h
  exact (String.append_right_inj _).mp h

/-! ## The text of a normalized path -/

theorem text_of_absolute {p : Path} (h : p.isAbsolute = true) :
    p.text = p.anchor.text ++ "/".intercalate p.parts := by
  rcases p with ⟨_ | _ | _, parts⟩
  · cases h
  · rfl
  · rfl

/-- A suffix behind the text of a path is a suffix of its last part. -/
theorem text_append {p : Path} (h : p.isAbsolute = true) (suffix : String) :
    p.text ++ suffix = (p.parent.child (p.name ++ suffix)).text := by
  have hchild : (p.parent.child (p.name ++ suffix)).isAbsolute = true := h
  rw [text_of_absolute h, text_of_absolute hchild, String.append_assoc]
  congr 1
  rcases p with ⟨anchor, parts⟩
  rcases List.eq_nil_or_concat parts with rfl | ⟨front, last, rfl⟩
  · simp [Path.child, Path.parent, Path.name]
  · simp only [Path.child, Path.parent, Path.name, List.concat_eq_append, List.dropLast_concat,
      List.getLast?_append, List.getLast?_singleton, Option.some_or, Option.getD_some]
    cases front with
    | nil => simp
    | cons first front =>
      rw [String.intercalate_append_of_ne_nil (by simp) (by simp),
        String.intercalate_append_of_ne_nil (by simp) (by simp)]
      simp [String.append_assoc]

/-! ## Texts by their segments -/

/-- A text by the number of slashes before it and the segments between slashes. -/
def spelled (slashes : Nat) (segments : List String) : String :=
  String.ofList (List.replicate slashes '/') ++ "/".intercalate segments

/-- The segments that are parts of a path. -/
def partsOf (segments : List String) : List String :=
  segments.filter fun segment => isPart segment.toList

/-- No segment holds a slash, and the first one is not empty. -/
structure AreSegments (segments : List String) : Prop where
  no_slash : ∀ segment ∈ segments, '/' ∉ segment.toList
  head_ne : segments.head? ≠ some ""

section Segments

variable {segments parts : List String} {segment : String}

theorem isPart_iff : isPart segment.toList = true ↔ ¬ (segment = "" ∨ segment = ".") := by
  have hempty : segment.toList = [] ↔ segment = "" := String.toList_eq_nil_iff
  have hhere : segment.toList = ['.'] ↔ segment = "." := by
    rw [← String.toList_inj]
    rfl
  rw [isPart, Bool.and_eq_true, bne_iff_ne, bne_iff_ne, ne_eq, ne_eq, hempty, hhere, not_or]

theorem areSegments_of_names (h : ∀ part ∈ parts, IsName part) : AreSegments parts where
  no_slash part hpart := (h part hpart).no_slash
  head_ne hhead := (h "" (List.mem_of_head? hhead)).ne_empty rfl

theorem partsOf_names (h : ∀ part ∈ parts, IsName part) : partsOf parts = parts := by
  refine List.filter_eq_self.mpr fun part hpart => isPart_iff.mpr ?_
  exact not_or.mpr ⟨(h part hpart).ne_empty, (h part hpart).ne_here⟩

/-- Slashes before a text that does not start with one are counted by `takeWhile`. -/
theorem takeWhile_slashes (n : Nat) {text : List Char} (h : ∀ c ∈ text.head?, c ≠ '/') :
    (List.replicate n '/' ++ text).takeWhile (· == '/') = List.replicate n '/' := by
  induction n with
  | zero =>
    cases text with
    | nil => rfl
    | cons c cs => simp [h c rfl]
  | succ n ih => simp [List.replicate_succ, ih]

/-- Slashes before a text leave empty pieces only. -/
theorem filter_isPart_splitOn_slashes (n : Nat) (text : List Char) :
    ((List.replicate n '/' ++ text).splitOn '/').filter isPart =
      (text.splitOn '/').filter isPart := by
  induction n with
  | zero => rfl
  | succ n ih =>
    rw [List.replicate_succ, List.cons_append, List.splitOn_cons_eq_if_modifyHead]
    simpa [isPart] using ih

theorem AreSegments.head_intercalate (h : AreSegments segments) :
    ∀ c ∈ ("/".intercalate segments).toList.head?, c ≠ '/' := by
  intro c hc
  cases segments with
  | nil => simp at hc
  | cons first rest =>
    have hslash := h.no_slash first List.mem_cons_self
    cases hcs : first.toList with
    | nil => exact absurd (congrArg some (String.toList_eq_nil_iff.mp hcs)) h.head_ne
    | cons d ds =>
      have hd : d ≠ '/' := fun heq => hslash (by simp [hcs, heq])
      rw [String.toList_intercalate] at hc
      cases rest <;> simp [hcs] at hc <;> exact hc ▸ hd

theorem AreSegments.pieces_intercalate (h : AreSegments segments) :
    ((("/".intercalate segments).toList.splitOn '/').filter isPart).map String.ofList =
      partsOf segments := by
  cases segments with
  | nil => simp [isPart, partsOf]
  | cons first rest =>
    have hsplit : ("/".intercalate (first :: rest)).toList.splitOn '/' =
        (first :: rest).map String.toList := by
      rw [String.toList_intercalate]
      change (['/'].intercalate _).splitOn '/' = _
      refine List.splitOn_intercalate '/' ?_ (by simp)
      intro piece hpiece
      obtain ⟨segment, hsegment, rfl⟩ := List.mem_map.mp hpiece
      exact h.no_slash segment hsegment
    rw [hsplit, List.filter_map, List.map_map]
    simp only [Function.comp_def, String.ofList_toList, List.map_id_fun', id]
    rfl

/-- A text is read by its segments. -/
theorem AreSegments.ofString_spelled (h : AreSegments segments) (slashes : Nat) :
    ofString (spelled slashes segments) = ⟨anchorOfSlashes slashes, partsOf segments⟩ := by
  simp only [ofString, spelled, String.toList_append, String.toList_ofList]
  rw [takeWhile_slashes slashes h.head_intercalate, filter_isPart_splitOn_slashes,
    h.pieces_intercalate, List.length_replicate]

end Segments

/-- The slashes of an anchor before names are read back as the anchor. -/
theorem ofString_spelled (anchor : Anchor) {parts : List String} (h : ∀ part ∈ parts, IsName part) :
    ofString (anchor.text ++ "/".intercalate parts) = ⟨anchor, parts⟩ := by
  have hread : ∀ slashes : Nat, ofString (spelled slashes parts) =
      ⟨anchorOfSlashes slashes, parts⟩ := by
    intro slashes
    rw [(areSegments_of_names h).ofString_spelled, partsOf_names h]
  cases anchor with
  | relative => exact hread 0
  | root => exact hread 1
  | doubleRoot => exact hread 2

/-- A normalized path is read back from its text. -/
theorem IsNormal.ofString_text {p : Path} (h : p.IsNormal) : ofString p.text = p := by
  rw [text_of_absolute h.absolute, ofString_spelled p.anchor h.names]

/-- The text of a normalized path with a suffix behind it spells a normalized path. -/
theorem IsNormal.ofString_text_append {p : Path} (h : p.IsNormal) {suffix : String}
    (hsuffix : IsSuffix suffix) :
    ofString (p.text ++ suffix) = p.parent.child (p.name ++ suffix) := by
  rw [text_append h.absolute]
  exact (h.parent.child (hsuffix.isName h.no_slash_name)).ofString_text

/-- A name spells the relative path of that name. -/
theorem ofString_name {name : String} (h : IsName name) : ofString name = ⟨.relative, [name]⟩ := by
  have hnames : ∀ part ∈ [name], IsName part := by simpa using h
  simpa [Anchor.text] using ofString_spelled .relative hnames

/-! ## Below a base -/

theorem relativeTo?_eq_some {p base : Path} {below : List String} :
    p.relativeTo? base = some below ↔ p.anchor = base.anchor ∧ p.parts = base.parts ++ below := by
  unfold relativeTo?
  split
  · rename_i h
    rw [List.isPrefixOf?_eq_some_iff_append_eq]
    simp [h, eq_comm]
  · rename_i h
    simp [h]

/-- Paths that lie at the same place under a base are equal. -/
theorem eq_of_relativeTo? {p q base : Path} {below : List String}
    (hp : p.relativeTo? base = some below) (hq : q.relativeTo? base = some below) : p = q := by
  obtain ⟨hpanchor, hpparts⟩ := relativeTo?_eq_some.mp hp
  obtain ⟨hqanchor, hqparts⟩ := relativeTo?_eq_some.mp hq
  cases p
  cases q
  simp_all

/-- A path one name below another that lies under a base lies right at the base, or the other path
lies under the base. -/
theorem relativeTo?_child {p base : Path} {name : String} {below : List String}
    (h : (p.child name).relativeTo? base = some below) :
    p.child name = base ∨ ∃ parts, p.relativeTo? base = some parts := by
  obtain ⟨hanchor, hparts⟩ := relativeTo?_eq_some.mp h
  rcases List.eq_nil_or_concat below with rfl | ⟨front, last, rfl⟩
  · exact .inl (eq_of_relativeTo? h (relativeTo?_self base))
  · rw [List.concat_eq_append, ← List.append_assoc] at hparts
    exact .inr ⟨front, relativeTo?_eq_some.mpr ⟨hanchor, (List.append_inj' hparts rfl).1⟩⟩

/-- A path whose parent lies under a base lies under it. -/
theorem relativeTo?_of_parent {p base : Path} {parts : List String}
    (h : p.parent.relativeTo? base = some parts) : ∃ below, p.relativeTo? base = some below := by
  obtain ⟨hanchor, hparts⟩ := relativeTo?_eq_some.mp h
  rcases List.eq_nil_or_concat p.parts with hnil | ⟨front, last, hlast⟩
  · exact ⟨parts, relativeTo?_eq_some.mpr ⟨hanchor, by rw [← hparts]; simp [parent, hnil]⟩⟩
  · refine ⟨parts ++ [last], relativeTo?_eq_some.mpr ⟨hanchor, ?_⟩⟩
    rw [← List.append_assoc, ← hparts]
    simp [parent, hlast]

end Path

end ImportAtlas
