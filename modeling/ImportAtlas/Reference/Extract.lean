import ImportAtlas.Reference.Form

set_option autoImplicit false

/-!
# Extracting references

Each form runs over the whole text in turn, so the references come out grouped
by form and, within a form, in source order.  A scan tries the form at every
position; where it can be read, the scan goes on behind it, so matches of one
form never overlap.  A reference that two forms match is listed twice.
-/

namespace ImportAtlas.Reference

/-- The specifiers that a reader finds in a text, after `skip` characters that belong to a match
already found. -/
def scanFrom (read? : List Char → Option (List Char × List Char)) :
    (skip : Nat) → List Char → List String
  | _, [] => []
  | skip + 1, _ :: cs => scanFrom read? skip cs
  | 0, c :: cs =>
    match read? (c :: cs) with
    | some (body, rest) =>
      String.ofList body :: scanFrom read? (cs.length - rest.length) cs
    | none => scanFrom read? 0 cs

/-- The specifiers that a form finds in a text, in source order. -/
def Form.scan (form : Form) (text : List Char) : List String :=
  scanFrom form.read? 0 text

/-- The references of a text, form by form. -/
def extract (kind : SourceKind) (content : String) : List String :=
  (forms kind).flatMap fun form => form.scan content.toList

/-! ## How a scan moves -/

theorem scanFrom_eq_drop (read? : List Char → Option (List Char × List Char)) (skip : Nat)
    (text : List Char) : scanFrom read? skip text = scanFrom read? 0 (text.drop skip) := by
  induction text generalizing skip with
  | nil => cases skip <;> simp [scanFrom]
  | cons c cs ih =>
    cases skip with
    | zero => rfl
    | succ n => simpa [scanFrom] using ih n

/-- Where the form cannot be read, the scan moves on by one character. -/
theorem Form.scan_cons_of_none {form : Form} {c : Char} {cs : List Char}
    (h : form.read? (c :: cs) = none) : form.scan (c :: cs) = form.scan cs := by
  simp [Form.scan, scanFrom, h]

/-- Where the form is read, the scan lists the specifier and goes on behind the match. -/
theorem Form.scan_of_some {form : Form} {piece body rest : List Char} (hne : piece ≠ [])
    (h : form.read? (piece ++ rest) = some (body, rest)) :
    form.scan (piece ++ rest) = String.ofList body :: form.scan rest := by
  cases piece with
  | nil => exact absurd rfl hne
  | cons c cs =>
    simp only [Form.scan, List.cons_append, scanFrom] at *
    rw [h]
    simp only [List.cons.injEq, true_and]
    rw [scanFrom_eq_drop]
    simp

end ImportAtlas.Reference
