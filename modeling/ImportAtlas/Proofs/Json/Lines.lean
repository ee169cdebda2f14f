import ImportAtlas.Proofs.Json.RoundTrip
import Mathlib.Data.List.Chain

set_option autoImplicit false

/-!
# The lines of a document

In a document that is spread over lines, every line but the first begins with a
space or a closing bracket: the strings hold no line end, and a break is followed
by the spaces of its level or, at the level zero, by the bracket that closes the
document (`indented_textAt`).
-/

namespace ImportAtlas.Json

/-- What may follow a character: behind a line end stands a space or a closing bracket. -/
def Follows (a b : Char) : Prop :=
  a = '\n' → b = ' ' ∨ b = ']' ∨ b = '\x7d'

/-- Every line behind the first begins with a space or a closing bracket. -/
structure Indented (s : List Char) : Prop where
  lines : s.IsChain Follows
  ends : s.getLast? ≠ some '\n'

namespace Indented

variable {s t : List Char}

theorem append (hs : Indented s) (ht : Indented t) : Indented (s ++ t) where
  lines := hs.lines.append ht.lines fun _ ha _ _ hline => absurd (hline ▸ ha) hs.ends
  ends := by
    rw [List.getLast?_append]
    cases hlast : t.getLast? with
    | none => exact hs.ends
    | some c => exact fun hend => ht.ends (hlast.trans hend)

/-- A text without line ends is one line. -/
theorem of_not_mem (h : '\n' ∉ s) : Indented s where
  lines := by
    rw [List.isChain_iff_forall_rel_of_append_cons_cons]
    rintro a b before after rfl rfl
    simp at h
  ends hlast := h (List.mem_of_getLast? hlast)

/-- A line end is followed by what begins the next line. -/
theorem cons {c : Char} (h : Indented (c :: s)) (hc : c = ' ' ∨ c = ']' ∨ c = '\x7d') :
    Indented ('\n' :: c :: s) :=
  ⟨.cons_cons (fun _ => hc) h.lines, h.ends⟩

end Indented

variable {charset : Charset} {closing : Char}

theorem head_textAt_object (layout : Layout) (level : Nat)
    (members : List (List Text.Point × Json)) :
    (textAt charset layout level (.object members)).head? = some '\x7b' := by
  by_cases hne : members = []
  · simp [hne, textAt, writeAt, writeMembers, bracket]
  · rw [textAt_object hne, List.head?_cons]

theorem indented_lineBreak (level : Nat) : Indented (lineBreak .lines (level + 1)).toList := by
  have hspaces : '\n' ∉ List.replicate (2 * (level + 1)) ' ' := fun hmem => by
    simpa using List.eq_of_mem_replicate hmem
  rw [lineBreak_lines]
  exact (Indented.of_not_mem hspaces).cons (.inl rfl)

/-- The break before a closing bracket has no spaces at the level zero. -/
theorem indented_closing (level : Nat) (h : closing = ']' ∨ closing = '\x7d') :
    Indented ((lineBreak .lines level).toList ++ [closing]) := by
  have hline : '\n' ∉ [closing] := by rcases h with rfl | rfl <;> decide
  cases level with
  | zero =>
    rw [lineBreak_lines]
    exact (Indented.of_not_mem hline).cons (.inr h)
  | succ level => exact (indented_lineBreak level).append (.of_not_mem hline)

/-- A document is indented. -/
theorem indented_textAt {v : Json} (h : IsWritable v) (level : Nat) :
    Indented (textAt charset .lines level v) :=
  textAt_induction (fun _ hline _ => .of_not_mem hline) (fun _ _ => .append) indented_lineBreak
    (fun level _ => indented_closing level) h level

end ImportAtlas.Json
