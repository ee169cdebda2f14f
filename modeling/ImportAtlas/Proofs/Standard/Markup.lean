import ImportAtlas.Standard.Console
import Mathlib.Data.List.Chain

set_option autoImplicit false

/-!
# Texts without markup

A text in which no bracket begins a tag or stands behind a backslash is one piece,
and the installed library leaves it as it is (`plain_of_unmarked`).
-/

namespace ImportAtlas.Standard.Markup

variable {s : List Char}

/-- What may follow a character: a bracket begins no tag and stands behind no backslash. -/
def Apart (a b : Char) : Prop :=
  (a = '[' → beginsTag b = false) ∧ (a = '\\' → b ≠ '[')

instance (a b : Char) : Decidable (Apart a b) :=
  inferInstanceAs (Decidable (_ ∧ _))

/-- No bracket of a text begins a tag or stands behind a backslash. -/
def Unmarked (s : List Char) : Prop :=
  s.IsChain Apart

instance (s : List Char) : Decidable (Unmarked s) :=
  inferInstanceAs (Decidable (s.IsChain Apart))

theorem unmarked_of_not_mem (h : '[' ∉ s) : Unmarked s := by
  rw [Unmarked, List.isChain_iff_forall_rel_of_append_cons_cons]
  intro a b before after hs
  subst hs
  constructor
  · intro ha
    simp [ha] at h
  · intro _ hb
    simp [hb] at h

/-- Behind backslashes stands no bracket. -/
theorem Unmarked.head_dropWhile (h : Unmarked ('\\' :: s)) :
    (s.dropWhile (· == '\\')).head? ≠ some '[' := by
  induction s with
  | nil => simp
  | cons c rest ih =>
    obtain ⟨hc, hrest⟩ := List.isChain_cons_cons.mp h
    by_cases hslash : c = '\\'
    · subst hslash
      simpa using ih hrest
    · simpa [hslash] using hc.2 rfl

theorem Unmarked.front?_eq_none (h : Unmarked s) : front? s = none := by
  have hdrop : s.drop (s.takeWhile (· == '\\')).length = s.dropWhile (· == '\\') := by
    have hleft : (s.takeWhile (· == '\\') ++ s.dropWhile (· == '\\')).drop
        (s.takeWhile (· == '\\')).length = s.dropWhile (· == '\\') := List.drop_left
    rwa [List.takeWhile_append_dropWhile] at hleft
  simp only [front?, hdrop]
  split
  · rename_i rest hrest
    cases s with
    | nil => cases hrest
    | cons c t =>
      by_cases hslash : c = '\\'
      · subst hslash
        have hhead := h.head_dropWhile
        rw [List.dropWhile_cons_of_pos (by simp)] at hrest
        rw [hrest] at hhead
        exact absurd rfl hhead
      · rw [List.dropWhile_cons_of_neg (by simpa using hslash)] at hrest
        cases hrest
        cases rest with
        | nil => rfl
        | cons d rest =>
          have hd := (List.isChain_cons_cons.mp h).1.1 rfl
          simp [tagBody?, hd]
  · rfl

theorem Unmarked.piecesFrom_eq (h : Unmarked s) (position : Nat) (before : List Char) :
    piecesFrom position before s = [.text (before.reverse ++ s)] := by
  induction s generalizing position before with
  | nil => simp [piecesFrom]
  | cons c rest ih =>
    rw [piecesFrom]
    split
    · rename_i hfront
      rw [h.front?_eq_none] at hfront
      cases hfront
    · rw [ih (List.IsChain.tail h), List.reverse_cons, List.append_assoc, List.singleton_append]

theorem Unmarked.dropEscapes_eq (h : Unmarked s) : dropEscapes s = s := by
  fun_induction dropEscapes s with
  | case1 => rfl
  | case2 rest ih => exact absurd rfl ((List.isChain_cons_cons.mp h).1.2 rfl)
  | case3 c rest _ ih => rw [ih (List.IsChain.tail h)]

/-- A text in which nothing is markup is shown as it is. -/
theorem plain_of_unmarked {text : String} (h : Unmarked text.toList) :
    Console.plain text = .ok text := by
  have htext : textOf [] (pieces text) = .ok text.toList := by
    rw [pieces, h.piecesFrom_eq, List.reverse_nil, List.nil_append, textOf, h.dropEscapes_eq,
      textOf]
    exact congrArg Except.ok (List.append_nil _)
  have hplain : plain text = .ok text := by
    rw [plain, htext, Except.map, String.ofList_toList]
  exact congrArg (Except.mapError fun fault : Fault => MarkupFault.mk fault.message) hplain

end ImportAtlas.Standard.Markup
