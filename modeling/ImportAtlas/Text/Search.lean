set_option autoImplicit false

/-!
# Looking for a text in a text

Prefixes and occurrences of plain texts, and the order of texts by code point.
-/

namespace ImportAtlas.Text

/-- Whether a string begins with another. -/
def startsWith (beginning s : String) : Bool :=
  beginning.toList.isPrefixOf s.toList

/-- What follows a beginning of a string, if the string has it. -/
def afterPrefix? (beginning s : String) : Option String :=
  (beginning.toList.isPrefixOf? s.toList).map String.ofList

/-- Whether `needle` occurs somewhere in `text`. -/
def occursIn (needle : List Char) : List Char → Bool
  | [] => needle.isPrefixOf []
  | c :: cs => needle.isPrefixOf (c :: cs) || occursIn needle cs

/-- The strings of a list in ascending order of their code points, equal ones kept. -/
def sort (strings : List String) : List String :=
  strings.mergeSort fun a b => decide (a ≤ b)

/-- Sorting keeps every string with its count. -/
theorem sort_perm (strings : List String) : (sort strings).Perm strings :=
  List.mergeSort_perm _ _

/-- Sorted strings ascend. -/
theorem sort_pairwise (strings : List String) : (sort strings).Pairwise (· ≤ ·) := by
  have h : (sort strings).Pairwise fun a b => decide (a ≤ b) = true :=
    List.pairwise_mergeSort
      (fun a b c hab hbc => by
        simp only [decide_eq_true_eq] at *; exact String.le_trans hab hbc)
      (fun a b => by simpa using String.le_total a b) strings
  exact h.imp (by simp)

end ImportAtlas.Text
