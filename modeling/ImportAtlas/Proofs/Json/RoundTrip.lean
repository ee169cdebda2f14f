import ImportAtlas.Proofs.Assoc
import ImportAtlas.Proofs.Json.Number
import ImportAtlas.Proofs.Json.Strings

set_option autoImplicit false

/-!
# Documents are read back

What is written for a value, in either charset and layout, is read as the value
(`parse?_write`), if its integers have not too many digits, its floats read back,
no object names a member twice and no string has a pair of surrogates side by
side.  Each reader is given a bound above the length of its piece of text and
stops where the piece ends.
-/

namespace ImportAtlas.Json

open Text (Point)

/-- A value of integers with not too many digits, of floats with a property, of strings without a
pair of surrogates, and of objects that name each member once. -/
inductive WellFormed (isFloat : Float → Prop) : Json → Prop where
  | null : WellFormed isFloat .null
  | bool (value : Bool) : WellFormed isFloat (.bool value)
  | int {value : Int} (h : value.natAbs < 10 ^ maxDigits) : WellFormed isFloat (.int value)
  | float {value : Float} (h : isFloat value) : WellFormed isFloat (.float value)
  | string {value : List Point} (h : Sealed value) : WellFormed isFloat (.string value)
  | array {items : List Json} (h : ∀ v ∈ items, WellFormed isFloat v) :
      WellFormed isFloat (.array items)
  | object {members : List (List Point × Json)} (names : (Assoc.keys members).Nodup)
      (sealed : ∀ member ∈ members, Sealed member.1)
      (h : ∀ member ∈ members, WellFormed isFloat member.2) : WellFormed isFloat (.object members)

/-- A value that its text can hold. -/
abbrev IsWritable (v : Json) : Prop :=
  WellFormed ReadsBack v

/-- A float that stands somewhere in a value. -/
inductive HasFloat (x : Float) : Json → Prop where
  | float : HasFloat x (.float x)
  | item {items : List Json} {v : Json} (hitem : v ∈ items) (h : HasFloat x v) :
      HasFloat x (.array items)
  | member {members : List (List Point × Json)} {member : List Point × Json}
      (hmember : member ∈ members) (h : HasFloat x member.2) : HasFloat x (.object members)

/-- Only its floats keep a well-formed value from being written. -/
theorem WellFormed.isWritable {isFloat : Float → Prop} {v : Json} (h : WellFormed isFloat v)
    (hfloats : ∀ x, HasFloat x v → ReadsBack x) : IsWritable v := by
  induction h with
  | null => exact .null
  | bool value => exact .bool value
  | int h => exact .int h
  | float => exact .float (hfloats _ .float)
  | string h => exact .string h
  | array _ ih => exact .array fun v hv => ih v hv fun x hx => hfloats x (.item hv hx)
  | object names sealed _ ih =>
    exact .object names sealed fun member hmember =>
      ih member hmember fun x hx => hfloats x (.member hmember hx)

/-! ## The text of a value -/

/-- The characters of a value's text at a level. -/
def textAt (charset : Charset) (layout : Layout) (level : Nat) (v : Json) : List Char :=
  (writeAt charset layout level v).toList

/-- The characters of a string's text. -/
def stringText (charset : Charset) (s : List Point) : List Char :=
  '"' :: (s.flatMap (escapePoint charset) ++ ['"'])

/-- The characters of a member's text at a level. -/
def memberText (charset : Charset) (layout : Layout) (level : Nat) (member : List Point × Json) :
    List Char :=
  stringText charset member.1 ++ ':' :: ' ' :: textAt charset layout level member.2

/-- Pieces of text at a level with the separators between them. -/
def joined (layout : Layout) (level : Nat) (pieces : List (List Char)) : List Char :=
  (itemBreak layout level).toList.intercalate pieces

/-- Pieces of text between brackets, with the breaks around them. -/
def bracketed (layout : Layout) (level : Nat) (pieces : List (List Char)) (rest : List Char) :
    List Char :=
  (lineBreak layout (level + 1)).toList ++
    (joined layout (level + 1) pieces ++ ((lineBreak layout level).toList ++ rest))

variable {charset : Charset} {layout : Layout} {level : Nat}

theorem writeItems_eq (items : List Json) :
    writeItems charset layout level items = items.map (writeAt charset layout level) := by
  induction items with
  | nil => rw [writeItems]; rfl
  | cons v items ih => rw [writeItems, ih, List.map_cons]

theorem writeMembers_eq (members : List (List Point × Json)) :
    writeMembers charset layout level members = members.map fun member =>
      writeString charset member.1 ++ ": " ++ writeAt charset layout level member.2 := by
  induction members with
  | nil => rw [writeMembers]; rfl
  | cons member members ih => rw [writeMembers, ih, List.map_cons]

theorem bracket_toList {opening closing : String} {items : List String} (h : items ≠ []) :
    (bracket layout level opening closing items).toList =
      opening.toList ++ bracketed layout level (items.map String.toList) closing.toList := by
  simp only [bracket, if_neg h, String.toList_append, String.toList_intercalate, bracketed, joined,
    List.append_assoc]

theorem textAt_array {items : List Json} (h : items ≠ []) :
    textAt charset layout level (.array items) =
      '[' :: bracketed layout level (items.map (textAt charset layout (level + 1))) [']'] := by
  rw [textAt, writeAt, writeItems_eq, bracket_toList (by simpa using h), List.map_map]
  rfl

theorem textAt_object {members : List (List Point × Json)} (h : members ≠ []) :
    textAt charset layout level (.object members) =
      '\x7b' :: bracketed layout level (members.map (memberText charset layout (level + 1)))
        ['\x7d'] := by
  have hmember : String.toList ∘ (fun member : List Point × Json =>
      writeString charset member.1 ++ ": " ++ writeAt charset layout (level + 1) member.2) =
        memberText charset layout (level + 1) := by
    funext member
    simp only [Function.comp_apply, String.toList_append, writeString, String.toList_ofList,
      memberText, stringText, textAt, List.append_assoc]
    rfl
  rw [textAt, writeAt, writeMembers_eq, bracket_toList (by simpa using h), List.map_map, hmember]
  rfl

/-! ## Breaks -/

theorem lineBreak_lines (level : Nat) :
    (lineBreak .lines level).toList = '\n' :: List.replicate (2 * level) ' ' :=
  String.toList_ofList

theorem skipSpace_lineBreak (layout : Layout) (level : Nat) (s : List Char) :
    skipSpace ((lineBreak layout level).toList ++ s) = skipSpace s := by
  cases layout with
  | oneLine => rfl
  | lines =>
    have hblank : ∀ n, skipSpace (List.replicate n ' ' ++ s) = skipSpace s := by
      intro n
      induction n with
      | zero => rfl
      | succ n ih =>
        rwa [List.replicate_succ, List.cons_append, skipSpace, List.dropWhile_cons_of_pos rfl]
    rw [lineBreak_lines, List.cons_append, skipSpace, List.dropWhile_cons_of_pos rfl]
    exact hblank (2 * level)

theorem skipSpace_of_ne {c : Char} {s : List Char}
    (h : c ≠ ' ' ∧ c ≠ '\t' ∧ c ≠ '\n' ∧ c ≠ '\r') : skipSpace (c :: s) = c :: s := by
  refine List.dropWhile_cons_of_neg ?_
  simp [h]

/-- Pieces are separated by a comma and space. -/
theorem exists_itemBreak (layout : Layout) (level : Nat) :
    ∃ gap, (itemBreak layout level).toList = ',' :: gap ∧
      ∀ s, skipSpace (gap ++ s) = skipSpace s := by
  cases layout with
  | lines =>
    refine ⟨(lineBreak .lines level).toList, ?_, skipSpace_lineBreak .lines level⟩
    simp [itemBreak]
  | oneLine => exact ⟨[' '], by simp [itemBreak], fun s => rfl⟩

theorem stops_lineBreak {c : Char} {s : List Char} (h : isNumberChar c = false) :
    Stops ((lineBreak layout level).toList ++ c :: s) := by
  cases layout with
  | lines =>
    rw [lineBreak_lines, List.cons_append, stops_cons]
    decide
  | oneLine => exact stops_cons.mpr h

/-! ## Reading the text of a value -/

/-- The text of a value is read as the value, whatever follows. -/
def IsRead (charset : Charset) (layout : Layout) (v : Json) : Prop :=
  ∀ level bound rest, Stops rest → (textAt charset layout level v).length < bound →
    value? bound (textAt charset layout level v ++ rest) = some (v, rest)

/-- A value that is read begins with neither space nor a closing bracket. -/
theorem head_of_value? {bound : Nat} {c : Char} {s : List Char} {read : Json × List Char}
    (h : value? bound (c :: s) = some read) :
    (c ≠ ' ' ∧ c ≠ '\t' ∧ c ≠ '\n' ∧ c ≠ '\r') ∧ c ≠ ']' := by
  have hnone : ∀ c, c = ' ' ∨ c = '\t' ∨ c = '\n' ∨ c = '\r' ∨ c = ']' →
      value? bound (c :: s) = none := by
    intro c hc
    cases bound with
    | zero => rfl
    | succ bound =>
      have hword : word? (c :: s) = none := by
        rcases hc with rfl | rfl | rfl | rfl | rfl <;> rfl
      have hnumber : unsigned? false (c :: s) = none := by
        have hwhole : whole? (c :: s) = none := by
          rcases hc with rfl | rfl | rfl | rfl | rfl <;> rfl
        rw [unsigned?_eq, hwhole]
        rfl
      rw [value?, if_neg (by rintro rfl; simp at hc), if_neg (by rintro rfl; simp at hc),
        if_neg (by rintro rfl; simp at hc), hword]
      simp only
      rw [if_neg (by rintro rfl; simp at hc), hnumber]
  refine ⟨⟨?_, ?_, ?_, ?_⟩, ?_⟩ <;> (rintro rfl; rw [hnone _ (by simp)] at h; cases h)

theorem IsRead.head {v : Json} (h : IsRead charset layout v) (level : Nat) :
    ∃ c s, textAt charset layout level v = c :: s ∧
      (c ≠ ' ' ∧ c ≠ '\t' ∧ c ≠ '\n' ∧ c ≠ '\r') ∧ c ≠ ']' := by
  have hread := h level ((textAt charset layout level v).length + 1) [] stops_nil (by omega)
  rw [List.append_nil] at hread
  cases htext : textAt charset layout level v with
  | nil =>
    rw [htext] at hread
    cases hread
  | cons c s =>
    rw [htext] at hread
    exact ⟨c, s, rfl, head_of_value? hread⟩

theorem joined_singleton (piece : List Char) : joined layout level [piece] = piece :=
  List.intercalate_singleton

theorem joined_cons_cons (piece next : List Char) (pieces : List (List Char)) :
    joined layout level (piece :: next :: pieces) =
      piece ++ ((itemBreak layout level).toList ++ joined layout level (next :: pieces)) := by
  rw [joined, List.intercalate_cons_cons, List.append_assoc]
  rfl

/-- Joined pieces begin as the first of them. -/
theorem exists_joined_cons (layout : Layout) (level : Nat) (c : Char) (piece : List Char)
    (pieces : List (List Char)) : ∃ s, joined layout level ((c :: piece) :: pieces) = c :: s := by
  cases pieces with
  | nil => exact ⟨piece, joined_singleton _⟩
  | cons next pieces => exact ⟨_, joined_cons_cons _ _ _⟩

theorem items?_last {bound : Nat} {s after rest : List Char} {v : Json}
    (hv : value? bound s = some (v, after)) (hafter : skipSpace after = ']' :: rest) :
    items? (bound + 1) s = some ([v], rest) := by
  rw [items?, hv]
  simp only [Option.bind_eq_bind, Option.bind_some, hafter]
  rfl

theorem items?_cons {bound : Nat} {s after rest : List Char} {v : Json} {items : List Json}
    (hv : value? bound s = some (v, ',' :: after))
    (hitems : items? bound (skipSpace after) = some (items, rest)) :
    items? (bound + 1) s = some (v :: items, rest) := by
  rw [items?, hv]
  simp only [Option.bind_eq_bind, Option.bind_some, skipSpace_of_ne (c := ',') (by decide), hitems]
  rfl

/-- The items of an array are read up to the closing bracket. -/
theorem items?_joined {items : List Json} (hne : items ≠ [])
    (hitems : ∀ v ∈ items, IsRead charset layout v) {bound : Nat} (rest : List Char)
    (h : (joined layout (level + 1) (items.map (textAt charset layout (level + 1)))).length + 1 <
      bound) :
    items? bound (joined layout (level + 1) (items.map (textAt charset layout (level + 1))) ++
      ((lineBreak layout level).toList ++ ']' :: rest)) = some (items, rest) := by
  obtain ⟨gap, hsep, hgap⟩ := exists_itemBreak layout (level + 1)
  induction items generalizing bound with
  | nil => exact absurd rfl hne
  | cons v items ih =>
    obtain _ | bound := bound
    · cases h
    have hv := hitems v List.mem_cons_self (level + 1) bound
    cases items with
    | nil =>
      rw [List.map_singleton, joined_singleton] at h ⊢
      refine items?_last (hv _ (stops_lineBreak (by decide)) (by omega)) ?_
      rw [skipSpace_lineBreak, skipSpace_of_ne (by decide)]
    | cons next items =>
      obtain ⟨c, s, htext, hspace, -⟩ := (hitems next (by simp)).head (level + 1)
      obtain ⟨more, hmore⟩ := exists_joined_cons layout (level + 1) c s
        (items.map (textAt charset layout (level + 1)))
      have hnext := @ih (by simp) (fun v hv => hitems v (List.mem_cons_of_mem _ hv)) bound
      simp only [List.map_cons, htext, joined_cons_cons, hmore, hsep, List.length_append,
        List.length_cons, List.append_assoc, List.cons_append] at h hnext ⊢
      refine items?_cons (hv _ (stops_cons.mpr (by decide)) (by omega)) ?_
      rw [hgap, skipSpace_of_ne hspace]
      exact hnext (by omega)

theorem memberText_eq (member : List Point × Json) (rest : List Char) :
    memberText charset layout level member ++ rest =
      '"' :: (member.1.flatMap (escapePoint charset) ++
        '"' :: ':' :: ' ' :: (textAt charset layout level member.2 ++ rest)) := by
  simp only [memberText, stringText, List.cons_append, List.append_assoc, List.nil_append]

theorem length_memberText (member : List Point × Json) :
    (memberText charset layout level member).length =
      (member.1.flatMap (escapePoint charset)).length +
        (textAt charset layout level member.2).length + 4 := by
  simp only [memberText, stringText, List.length_append, List.length_cons, List.length_nil]
  omega

/-- The name and the value of a member are read from its text. -/
theorem member_read {bound : Nat} {member : List Point × Json} {rest : List Char}
    (hname : Sealed member.1) (hvalue : IsRead charset layout member.2) (hrest : Stops rest)
    (h : (memberText charset layout level member).length ≤ bound) :
    stringBody? (bound + 1) (member.1.flatMap (escapePoint charset) ++
        '"' :: ':' :: ' ' :: (textAt charset layout level member.2 ++ rest)) =
      some (member.1, ':' :: ' ' :: (textAt charset layout level member.2 ++ rest)) ∧
    value? bound (skipSpace (' ' :: (textAt charset layout level member.2 ++ rest))) =
      some (member.2, rest) := by
  obtain ⟨c, s, htext, hspace, -⟩ := hvalue.head level
  rw [length_memberText] at h
  have hlength : member.1.length ≤ (member.1.flatMap (escapePoint charset)).length :=
    length_le_flatMap_escapePoint _
  have hskip : skipSpace (' ' :: (textAt charset layout level member.2 ++ rest)) =
      textAt charset layout level member.2 ++ rest := by
    rw [skipSpace, List.dropWhile_cons_of_pos rfl, ← skipSpace, htext, List.cons_append,
      skipSpace_of_ne hspace]
  refine ⟨stringBody?_flatMap hname (by omega), ?_⟩
  rw [hskip]
  exact hvalue level bound rest hrest (by omega)

/-- A member before a comma is read with the members behind it. -/
theorem members?_cons {bound : Nat} {member : List Point × Json} {rest after : List Char}
    (hname : Sealed member.1) (hvalue : IsRead charset layout member.2) (hrest : Stops rest)
    (h : (memberText charset layout level member).length ≤ bound)
    (hafter : skipSpace rest = ',' :: after) :
    members? (bound + 1) (memberText charset layout level member ++ rest) =
      (members? bound (skipSpace after)).map fun read => (member :: read.1, read.2) := by
  obtain ⟨hbody, hread⟩ := member_read hname hvalue hrest h
  rw [memberText_eq, members?]
  simp only [Option.bind_eq_bind, Option.bind_some, hbody, skipSpace_of_ne (c := ':') (by decide),
    hread, hafter, Option.pure_def]
  cases members? bound (skipSpace after) <;> rfl

/-- A member before the closing brace is the last one. -/
theorem members?_last {bound : Nat} {member : List Point × Json} {rest after : List Char}
    (hname : Sealed member.1) (hvalue : IsRead charset layout member.2) (hrest : Stops rest)
    (h : (memberText charset layout level member).length ≤ bound)
    (hafter : skipSpace rest = '\x7d' :: after) :
    members? (bound + 1) (memberText charset layout level member ++ rest) =
      some ([member], after) := by
  obtain ⟨hbody, hread⟩ := member_read hname hvalue hrest h
  rw [memberText_eq, members?]
  simp only [Option.bind_eq_bind, Option.bind_some, hbody, skipSpace_of_ne (c := ':') (by decide),
    hread, hafter, Option.pure_def]

/-- The members of an object are read up to the closing brace. -/
theorem members?_joined {members : List (List Point × Json)} (hne : members ≠ [])
    (hmembers : ∀ member ∈ members, Sealed member.1 ∧ IsRead charset layout member.2) {bound : Nat}
    (rest : List Char)
    (h : (joined layout (level + 1)
      (members.map (memberText charset layout (level + 1)))).length + 1 < bound) :
    members? bound (joined layout (level + 1)
      (members.map (memberText charset layout (level + 1))) ++
        ((lineBreak layout level).toList ++ '\x7d' :: rest)) = some (members, rest) := by
  obtain ⟨gap, hsep, hgap⟩ := exists_itemBreak layout (level + 1)
  induction members generalizing bound with
  | nil => exact absurd rfl hne
  | cons member members ih =>
    obtain _ | bound := bound
    · cases h
    obtain ⟨hname, hmember⟩ := hmembers member List.mem_cons_self
    cases members with
    | nil =>
      rw [List.map_singleton, joined_singleton] at h ⊢
      have hafter : skipSpace ((lineBreak layout level).toList ++ '\x7d' :: rest) =
          '\x7d' :: rest := by
        rw [skipSpace_lineBreak, skipSpace_of_ne (by decide)]
      exact members?_last hname hmember (stops_lineBreak (by decide)) (by omega) hafter
    | cons next members =>
      have hnext := @ih (by simp) (fun v hv => hmembers v (List.mem_cons_of_mem _ hv)) bound
      have hquote : memberText charset layout (level + 1) next =
          '"' :: (memberText charset layout (level + 1) next).tail := rfl
      obtain ⟨more, hmore⟩ := exists_joined_cons layout (level + 1) '"'
        (memberText charset layout (level + 1) next).tail
        (members.map (memberText charset layout (level + 1)))
      rw [← hquote] at hmore
      simp only [List.map_cons, joined_cons_cons, hmore, hsep, List.length_append,
        List.length_cons, List.append_assoc, List.cons_append] at h hnext ⊢
      rw [members?_cons hname hmember (stops_cons.mpr (by decide)) (by omega)
        (skipSpace_of_ne (by decide)), hgap, skipSpace_of_ne (by decide), hnext (by omega)]
      rfl

/-! ## Reading documents -/

theorem bracketed_append (pieces : List (List Char)) (closing rest : List Char) :
    bracketed layout level pieces closing ++ rest =
      bracketed layout level pieces (closing ++ rest) := by
  simp only [bracketed, List.append_assoc]

theorem length_joined_le (layout : Layout) (level : Nat) (pieces : List (List Char))
    (closing : List Char) :
    (joined layout (level + 1) pieces).length + closing.length ≤
      (bracketed layout level pieces closing).length := by
  simp only [bracketed, List.length_append]
  omega

theorem value?_array {bound : Nat} {c : Char} {s after rest : List Char} {items : List Json}
    (hskip : skipSpace s = c :: after) (hc : c ≠ ']')
    (hitems : items? bound (c :: after) = some (items, rest)) :
    value? (bound + 1) ('[' :: s) = some (.array items, rest) := by
  rw [value?, if_neg (by decide), if_pos rfl, hskip]
  split
  · rename_i heq
    exact absurd (List.cons.inj heq).1 hc
  · rw [hitems]
    rfl

theorem value?_object {bound : Nat} {c : Char} {s after rest : List Char}
    {members : List (List Point × Json)} (hskip : skipSpace s = c :: after) (hc : c ≠ '\x7d')
    (hmembers : members? bound (c :: after) = some (members, rest)) :
    value? (bound + 1) ('\x7b' :: s) = some (.object (Assoc.ofList members), rest) := by
  rw [value?, if_neg (by decide), if_neg (by decide), if_pos rfl, hskip]
  split
  · rename_i heq
    exact absurd (List.cons.inj heq).1 hc
  · rw [hmembers]
    rfl

theorem isRead_array {items : List Json} (h : ∀ v ∈ items, IsRead charset layout v) :
    IsRead charset layout (.array items) := by
  intro level bound rest hrest hbound
  obtain _ | bound := bound
  · cases hbound
  cases items with
  | nil =>
    have htext : textAt charset layout level (.array []) = ['[', ']'] := by
      simp [textAt, writeAt, writeItems, bracket]
    rw [htext]
    rfl
  | cons v items =>
    have hne : v :: items ≠ [] := List.cons_ne_nil v items
    have hlength := length_joined_le layout level
      ((v :: items).map (textAt charset layout (level + 1))) [']']
    rw [textAt_array hne, List.length_cons] at hbound
    rw [List.length_singleton] at hlength
    have hitems := @items?_joined charset layout level _ hne h bound rest (by omega)
    obtain ⟨c, s, htext, hspace, hclose⟩ := (h v List.mem_cons_self).head (level + 1)
    obtain ⟨more, hmore⟩ := exists_joined_cons layout (level + 1) c s
      (items.map (textAt charset layout (level + 1)))
    rw [textAt_array hne, List.cons_append, bracketed_append]
    simp only [List.map_cons, htext, hmore, List.cons_append] at hitems ⊢
    refine value?_array ?_ hclose hitems
    rw [bracketed, skipSpace_lineBreak, hmore, List.cons_append, skipSpace_of_ne hspace]
    rfl

theorem isRead_object {members : List (List Point × Json)} (hnames : (Assoc.keys members).Nodup)
    (h : ∀ member ∈ members, Sealed member.1 ∧ IsRead charset layout member.2) :
    IsRead charset layout (.object members) := by
  intro level bound rest hrest hbound
  obtain _ | bound := bound
  · cases hbound
  cases members with
  | nil =>
    have htext : textAt charset layout level (.object []) = ['\x7b', '\x7d'] := by
      simp [textAt, writeAt, writeMembers, bracket]
    rw [htext]
    rfl
  | cons member members =>
    have hne : member :: members ≠ [] := List.cons_ne_nil member members
    have hlength := length_joined_le layout level
      ((member :: members).map (memberText charset layout (level + 1))) ['\x7d']
    rw [textAt_object hne, List.length_cons] at hbound
    rw [List.length_singleton] at hlength
    have hmembers := @members?_joined charset layout level _ hne h bound rest (by omega)
    have hquote : memberText charset layout (level + 1) member =
        '"' :: (memberText charset layout (level + 1) member).tail := rfl
    obtain ⟨more, hmore⟩ := exists_joined_cons layout (level + 1) '"'
      (memberText charset layout (level + 1) member).tail
      (members.map (memberText charset layout (level + 1)))
    rw [← hquote] at hmore
    rw [textAt_object hne, List.cons_append, bracketed_append]
    simp only [List.map_cons, hmore, List.cons_append] at hmembers ⊢
    have hskip : skipSpace (bracketed layout level
        (memberText charset layout (level + 1) member ::
          members.map (memberText charset layout (level + 1))) (['\x7d'] ++ rest)) =
        '"' :: (more ++ ((lineBreak layout level).toList ++ '\x7d' :: rest)) := by
      rw [bracketed, skipSpace_lineBreak, hmore, List.cons_append, skipSpace_of_ne (by decide)]
      rfl
    have hread := value?_object hskip (by decide) hmembers
    rwa [Assoc.ofList_of_nodup hnames] at hread

theorem isRead_string {s : List Point} (hsealed : Sealed s) :
    IsRead charset layout (.string s) := by
  intro level bound rest hrest hbound
  obtain _ | bound := bound
  · cases hbound
  have htext : textAt charset layout level (.string s) = stringText charset s := by
    rw [textAt, writeAt, writeString, String.toList_ofList, stringText]
  have hlength : s.length ≤ (s.flatMap (escapePoint charset)).length :=
    length_le_flatMap_escapePoint _
  rw [htext, stringText] at hbound ⊢
  simp only [List.length_cons, List.length_append, List.length_nil] at hbound
  have hbody : stringBody? (bound + 1) (s.flatMap (escapePoint charset) ++ '"' :: rest) =
      some (s, rest) := stringBody?_flatMap hsealed (by omega)
  rw [List.cons_append, List.append_assoc, value?, if_pos rfl, List.singleton_append, hbody]
  rfl

/-- A word of the grammar is read whatever follows. -/
theorem isRead_word {v : Json} {word : List Char}
    (htext : ∀ level, textAt charset layout level v = word)
    (hchars : word.all isNumberChar = true) (hword : value? 1 word = some (v, [])) :
    IsRead charset layout v := by
  intro level bound rest hrest hbound
  obtain _ | bound := bound
  · cases hbound
  have hne : word ≠ [] := by
    rintro rfl
    cases hword
  rw [htext, value?_append (List.all_eq_true.mp hchars) hne hrest bound 0, hword]
  rfl

/-- What is written for a value is read as the value, whatever follows. -/
theorem WellFormed.isRead {v : Json} (h : IsWritable v) : IsRead charset layout v := by
  induction h with
  | null =>
    exact isRead_word (fun level => congrArg String.toList (writeAt.eq_1 ..)) (by decide) rfl
  | bool b =>
    have htext : ∀ level, textAt charset layout level (.bool b) =
        (if b then "true" else "false").toList := fun level => by rw [textAt, writeAt]
    cases b with
    | false => exact isRead_word htext (by decide) rfl
    | true => exact isRead_word htext (by decide) rfl
  | int h =>
    intro level bound rest hrest hbound
    obtain _ | bound := bound
    · cases hbound
    rw [textAt, writeAt]
    exact value?_int h hrest bound
  | float h =>
    intro level bound rest hrest hbound
    obtain _ | bound := bound
    · cases hbound
    rw [textAt, writeAt]
    exact h.value? hrest bound
  | string h => exact isRead_string h
  | array h ih => exact isRead_array ih
  | object names sealed h ih =>
    exact isRead_object names fun member hmember => ⟨sealed member hmember, ih member hmember⟩

/-- **Documents round-trip.**  What is written for a value, in either charset and layout, is read
as the value. -/
theorem parse?_write {v : Json} (h : IsWritable v) (charset : Charset) (layout : Layout) :
    parse? (write charset layout v) = some v := by
  have hread : IsRead charset layout v := h.isRead
  obtain ⟨c, s, htext, hspace, -⟩ := hread.head 0
  have hvalue := hread 0 ((textAt charset layout 0 v).length + 1) [] stops_nil (by omega)
  have hskip : skipSpace (write charset layout v).toList = textAt charset layout 0 v := by
    change skipSpace (textAt charset layout 0 v) = _
    rw [htext, skipSpace_of_ne hspace]
  rw [List.append_nil] at hvalue
  unfold parse?
  simp only [hskip, hvalue, Option.bind_eq_bind, Option.bind_some]
  rfl

/-! ## What is read can be written -/

theorem natOfDigits_lt {ds : List Char} (h : ∀ d ∈ ds, d.isDigit = true) :
    Decimal.natOfDigits ds < 10 ^ ds.length := by
  induction ds using List.reverseRecOn with
  | nil => exact Nat.one_pos
  | append_singleton ds d ih =>
    have hds := ih fun e he => h e (List.mem_append_left _ he)
    have hd : d.toNat - 48 < 10 := by
      have hdigit := h d (by simp)
      simp only [Char.isDigit, Bool.and_eq_true, decide_eq_true_eq,
        UInt32.le_iff_toNat_le] at hdigit
      have hnine : d.toNat ≤ 57 := hdigit.2
      omega
    have hlast : Decimal.natOfDigits (ds ++ [d]) =
        Decimal.natOfDigits ds * 10 + (d.toNat - 48) := by
      simp [Decimal.natOfDigits]
    rw [hlast, List.length_append, List.length_singleton, Nat.pow_succ]
    omega

theorem isDigit_of_whole? {s : List Char} {read : List Char × List Char}
    (h : whole? s = some read) : ∀ d ∈ read.1, d.isDigit = true := by
  unfold whole? at h
  split at h
  · cases h
    exact List.forall_mem_singleton.mpr rfl
  · split at h
    · cases h
    · cases h
      exact fun d hd => List.mem_takeWhile_imp hd

theorem wellFormed_of_unsigned? {negative : Bool} {s rest : List Char} {v : Json}
    (h : unsigned? negative s = some (v, rest)) : WellFormed (fun _ => True) v := by
  rw [unsigned?_eq] at h
  obtain ⟨read, hread, hfrom⟩ := Option.bind_eq_some_iff.mp h
  unfold numberFrom? at hfrom
  simp only at hfrom
  split at hfrom
  · split at hfrom
    · cases hfrom
    · rename_i hlength
      cases hfrom
      have hlt := natOfDigits_lt (isDigit_of_whole? hread)
      have hpow : 10 ^ read.1.length ≤ 10 ^ maxDigits :=
        Nat.pow_le_pow_right (by omega) (Nat.not_lt.mp hlength)
      refine .int ?_
      split <;> omega
  · cases hfrom
    exact .float trivial

theorem wellFormed_of_word? {s rest : List Char} {v : Json} (h : word? s = some (v, rest)) :
    WellFormed (fun _ => True) v := by
  have hwords : ∀ word ∈ words, WellFormed (fun _ => True) word.2 := by
    simp only [words, List.forall_mem_cons]
    exact ⟨.null, .bool true, .bool false, .float trivial, .float trivial, .float trivial,
      List.forall_mem_nil _⟩
  obtain ⟨word, hword, hfound⟩ := List.exists_of_findSome?_eq_some h
  obtain ⟨after, -, heq⟩ := Option.map_eq_some_iff.mp hfound
  cases heq
  exact hwords word hword

/-- The readers of a bound give well-formed values. -/
structure ReadsWellFormed (bound : Nat) : Prop where
  value : ∀ s v rest, value? bound s = some (v, rest) → WellFormed (fun _ => True) v
  items : ∀ s items rest, items? bound s = some (items, rest) →
    ∀ v ∈ items, WellFormed (fun _ => True) v
  members : ∀ s members rest, members? bound s = some (members, rest) →
    ∀ member ∈ members, Sealed member.1 ∧ WellFormed (fun _ => True) member.2

theorem ReadsWellFormed.value_succ {bound : Nat} (hreads : ReadsWellFormed bound)
    {s rest : List Char}
    {v : Json} (h : value? (bound + 1) s = some (v, rest)) : WellFormed (fun _ => True) v := by
  cases s with
  | nil => cases h
  | cons c s =>
    rw [value?] at h
    split at h
    · obtain ⟨read, hbody, h⟩ := Option.bind_eq_some_iff.mp h
      cases h
      exact .string (sealed_of_stringBody? hbody).1
    split at h
    · split at h
      · cases h
        exact .array (List.forall_mem_nil _)
      · obtain ⟨read, hread, h⟩ := Option.bind_eq_some_iff.mp h
        cases h
        exact .array (hreads.items _ _ _ hread)
    split at h
    · split at h
      · cases h
        exact .object List.nodup_nil (List.forall_mem_nil _) (List.forall_mem_nil _)
      · obtain ⟨read, hread, h⟩ := Option.bind_eq_some_iff.mp h
        cases h
        -- of members with one name the last stands for all
        have hall := fun member hmember =>
          hreads.members _ _ _ hread member (Assoc.mem_of_mem_ofList hmember)
        exact .object Assoc.nodup_keys_ofList (fun member hmember => (hall member hmember).1)
          fun member hmember => (hall member hmember).2
    · split at h
      · rename_i found hfound
        cases h
        exact wellFormed_of_word? hfound
      · split at h <;> exact wellFormed_of_unsigned? h

theorem ReadsWellFormed.items_succ {bound : Nat} (hreads : ReadsWellFormed bound)
    {s rest : List Char}
    {items : List Json} (h : items? (bound + 1) s = some (items, rest)) :
    ∀ v ∈ items, WellFormed (fun _ => True) v := by
  rw [items?] at h
  obtain ⟨⟨v, after⟩, hread, h⟩ := Option.bind_eq_some_iff.mp h
  have hv := hreads.value _ _ _ hread
  simp only at h
  split at h
  · obtain ⟨more, hmore, h⟩ := Option.bind_eq_some_iff.mp h
    cases h
    exact List.forall_mem_cons.mpr ⟨hv, hreads.items _ _ _ hmore⟩
  · cases h
    exact List.forall_mem_cons.mpr ⟨hv, nofun⟩
  · cases h

theorem ReadsWellFormed.members_succ {bound : Nat} (hreads : ReadsWellFormed bound)
    {s rest : List Char} {members : List (List Point × Json)}
    (h : members? (bound + 1) s = some (members, rest)) :
    ∀ member ∈ members, Sealed member.1 ∧ WellFormed (fun _ => True) member.2 := by
  unfold members? at h
  simp only [Option.bind_eq_bind, Option.bind_some, Option.bind_none] at h
  split at h
  swap
  · cases h
  obtain ⟨name, hname, h⟩ := Option.bind_eq_some_iff.mp h
  have hsealed := (sealed_of_stringBody? hname).1
  split at h
  swap
  · cases h
  obtain ⟨⟨v, after⟩, hread, h⟩ := Option.bind_eq_some_iff.mp h
  have hv := hreads.value _ _ _ hread
  simp only at h
  split at h
  · obtain ⟨more, hmore, h⟩ := Option.bind_eq_some_iff.mp h
    cases h
    exact List.forall_mem_cons.mpr ⟨⟨hsealed, hv⟩, hreads.members _ _ _ hmore⟩
  · cases h
    exact List.forall_mem_cons.mpr ⟨⟨hsealed, hv⟩, nofun⟩
  · cases h

theorem readsWellFormed (bound : Nat) : ReadsWellFormed bound := by
  induction bound with
  | zero => exact ⟨nofun, nofun, nofun⟩
  | succ bound ih =>
    exact ⟨fun _ _ _ => ih.value_succ, fun _ _ _ => ih.items_succ, fun _ _ _ => ih.members_succ⟩

/-- What a document holds has integers of not too many digits, and names each member once. -/
theorem wellFormed_of_parse? {text : String} {v : Json} (h : parse? text = some v) :
    WellFormed (fun _ => True) v := by
  obtain ⟨read, hread, h⟩ := Option.bind_eq_some_iff.mp h
  simp only at h
  split at h
  · cases h
    exact (readsWellFormed _).value _ _ _ hread
  · cases h

/-! ## Line ends of a document -/

theorem line_end_not_mem_stringText {b : Char} (hb : b = '\n' ∨ b = '\r') (s : List Point) :
    b ∉ stringText charset s := by
  have hquote : b ≠ '"' := by rcases hb with rfl | rfl <;> decide
  have hbody : b ∉ s.flatMap (escapePoint charset) := by
    intro hmem
    obtain ⟨point, -, hpoint⟩ := List.mem_flatMap.mp hmem
    exact (isWritten_escapePoint charset point).line_end_not_mem hb hpoint
  simpa [stringText, hquote] using hbody

section Induction

variable {P : List Char → Prop}

theorem joined_induction (hplain : ∀ s, '\n' ∉ s → '\r' ∉ s → P s)
    (happend : ∀ s t, P s → P t → P (s ++ t))
    (hbreak : ∀ level, P (lineBreak layout (level + 1)).toList) {pieces : List (List Char)}
    (h : ∀ piece ∈ pieces, P piece) : P (joined layout (level + 1) pieces) := by
  have hsep : P (itemBreak layout (level + 1)).toList := by
    cases layout with
    | lines =>
      rw [itemBreak, String.toList_append]
      exact happend _ _ (hplain _ (by decide) (by decide)) (hbreak level)
    | oneLine => exact hplain _ (by simp [itemBreak]) (by simp [itemBreak])
  induction pieces with
  | nil => exact hplain _ List.not_mem_nil List.not_mem_nil
  | cons piece pieces ih =>
    have hpiece := h piece List.mem_cons_self
    have ih := ih fun piece hpiece => h piece (List.mem_cons_of_mem _ hpiece)
    cases pieces with
    | nil => rwa [joined_singleton]
    | cons next pieces =>
      rw [joined_cons_cons]
      exact happend _ _ hpiece (happend _ _ hsep ih)

/-- What holds of every text without line ends, of the breaks, and of two such texts together, holds
of a document. -/
theorem textAt_induction (hplain : ∀ s, '\n' ∉ s → '\r' ∉ s → P s)
    (happend : ∀ s t, P s → P t → P (s ++ t))
    (hbreak : ∀ level, P (lineBreak layout (level + 1)).toList)
    (hclosing : ∀ level closing, closing = ']' ∨ closing = '\x7d' →
      P ((lineBreak layout level).toList ++ [closing]))
    {v : Json} (h : IsWritable v) (level : Nat) : P (textAt charset layout level v) := by
  have hnumber : ∀ s : List Char, (∀ c ∈ s, isNumberChar c = true) → P s := fun s hs =>
    hplain s (fun hmem => absurd (hs _ hmem) (by decide))
      (fun hmem => absurd (hs _ hmem) (by decide))
  have hstring : ∀ s, P (stringText charset s) := fun s =>
    hplain _ (line_end_not_mem_stringText (.inl rfl) s) (line_end_not_mem_stringText (.inr rfl) s)
  have hbracketed : ∀ level pieces opening closing, closing = ']' ∨ closing = '\x7d' →
      (∀ piece ∈ pieces, P piece) → '\n' ∉ [opening] → '\r' ∉ [opening] →
      P (opening :: bracketed layout level pieces [closing]) := by
    intro level pieces opening closing hc hpieces hopening hopening'
    refine happend [opening] _ (hplain _ hopening hopening') ?_
    exact happend _ _ (hbreak level)
      (happend _ _ (joined_induction hplain happend hbreak hpieces) (hclosing level closing hc))
  induction h generalizing level with
  | null => exact hplain _ (by simp [textAt, writeAt]) (by simp [textAt, writeAt])
  | bool b =>
    exact hplain _ (by cases b <;> simp [textAt, writeAt]) (by cases b <;> simp [textAt, writeAt])
  | @int n h =>
    rw [textAt, writeAt]
    exact hnumber _ (isNumberChar_of_mem_toString n)
  | @float x h =>
    rw [textAt, writeAt]
    exact hnumber _ (isNumberChar_of_mem_writeFloat x)
  | @string s h =>
    rw [textAt, writeAt, writeString, String.toList_ofList]
    exact hstring s
  | @array items h ih =>
    by_cases hne : items = []
    · simpa [hne, textAt, writeAt, writeItems, bracket] using hplain ['[', ']'] (by decide)
        (by decide)
    · rw [textAt_array hne]
      refine hbracketed level _ _ _ (.inl rfl) ?_ (by decide) (by decide)
      intro piece hpiece
      obtain ⟨v, hv, rfl⟩ := List.mem_map.mp hpiece
      exact ih v hv (level + 1)
  | @object members names sealed h ih =>
    by_cases hne : members = []
    · simpa [hne, textAt, writeAt, writeMembers, bracket] using
        hplain ['\x7b', '\x7d'] (by decide) (by decide)
    · rw [textAt_object hne]
      refine hbracketed level _ _ _ (.inr rfl) ?_ (by decide) (by decide)
      intro piece hpiece
      obtain ⟨member, hmember, rfl⟩ := List.mem_map.mp hpiece
      exact happend _ _ (hstring member.1)
        (happend [':', ' '] _ (hplain _ (by decide) (by decide)) (ih member hmember (level + 1)))

end Induction

/-- A document holds no carriage return. -/
theorem return_not_mem_textAt {v : Json} (h : IsWritable v) (level : Nat) :
    '\r' ∉ textAt charset layout level v := by
  have hbreak : ∀ level, '\r' ∉ (lineBreak layout level).toList := by
    intro level
    cases layout with
    | lines => simp [lineBreak_lines]
    | oneLine => exact List.not_mem_nil
  refine textAt_induction (fun s _ hs => hs) ?_ (fun level => hbreak (level + 1)) ?_ h level
  · intro s t hs ht
    simp [hs, ht]
  · rintro level closing (rfl | rfl) <;> simp [hbreak]

end ImportAtlas.Json
