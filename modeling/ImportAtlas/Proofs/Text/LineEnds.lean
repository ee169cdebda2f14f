import ImportAtlas.Text.Utf8

set_option autoImplicit false

/-!
# Reading back what was written

A text that is written and read again is the same but for its line ends: each
carriage return has become a line feed.  A text without carriage returns is read
as it was written.
-/

namespace ImportAtlas.Text

/-- Text without carriage returns is left alone, whatever follows it. -/
theorem unifyLineEnds_append {a : List Char} (h : '\r' ∉ a) (b : List Char) :
    unifyLineEnds (a ++ b) = a ++ unifyLineEnds b := by
  induction a with
  | nil => rfl
  | cons c a ih =>
    obtain ⟨hc, ha⟩ := not_or.mp (mt List.mem_cons.mpr h)
    have hstep : ∀ rest, unifyLineEnds (c :: rest) = c :: unifyLineEnds rest := by
      intro rest
      rw [unifyLineEnds]
      · simp [Ne.symm hc]
      · rintro tail rfl -
        exact hc rfl
    rw [List.cons_append, hstep, ih ha, List.cons_append]

theorem unifyLineEnds_of_not_mem {s : List Char} (h : '\r' ∉ s) : unifyLineEnds s = s := by
  have happend := unifyLineEnds_append h []
  rwa [List.append_nil, unifyLineEnds, List.append_nil] at happend

theorem decodeStrict_toUTF8 (s : String) : decodeStrict s.toUTF8 = .ok s := by
  have hdecode : String.fromUTF8? s.toUTF8 = some s := dif_pos s.isValidUTF8
  rw [decodeStrict, hdecode]

/-- A text is read as it was written, but for its line ends. -/
theorem readStrict_toUTF8 (s : String) :
    readStrict s.toUTF8 = .ok (String.ofList (unifyLineEnds s.toList)) := by
  rw [readStrict, decodeStrict_toUTF8]
  rfl

/-- No carriage return is read. -/
theorem not_mem_of_readStrict {bytes : ByteArray} {text : String}
    (h : readStrict bytes = .ok text) : '\r' ∉ text.toList := by
  unfold readStrict at h
  cases hdecode : decodeStrict bytes with
  | error fault => simp [hdecode, Except.map] at h
  | ok s =>
    simp only [hdecode, Except.map, Except.ok.injEq] at h
    rw [← h, String.toList_ofList]
    exact unifyLineEnds_no_return s.toList

end ImportAtlas.Text
