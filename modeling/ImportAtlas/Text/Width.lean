import ImportAtlas.Text.WidthTable
import ImportAtlas.Text.Word

set_option autoImplicit false

/-!
# The width of text

How many columns a text takes on a screen: two for a wide character, none for a
combining mark or a control character, one for any other.
-/

namespace ImportAtlas.Text

/-- The columns of a character. -/
def charWidth (c : Char) : Nat :=
  if 32 ≤ c.toNat ∧ c.toNat < 127 then 1
  else if inRanges zeroWidthRanges c.toNat then 0
  else if inRanges doubleWidthRanges c.toNat then 2
  else 1

/-- The columns of a text. -/
def width (s : List Char) : Nat :=
  s.foldr (fun c columns => charWidth c + columns) 0

@[simp] theorem width_nil : width [] = 0 := rfl

@[simp] theorem width_append (s t : List Char) : width (s ++ t) = width s + width t := by
  induction s with
  | nil => exact (Nat.zero_add _).symm
  | cons c s ih =>
    show charWidth c + width (s ++ t) = charWidth c + width s + width t
    rw [ih, Nat.add_assoc]

example : width "né".toList = 2 ∧ width "中".toList = 2 ∧ width "\t".toList = 0 := by
  decide +kernel

end ImportAtlas.Text
