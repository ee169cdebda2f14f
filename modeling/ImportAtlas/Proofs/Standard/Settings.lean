import ImportAtlas.Proofs.Disk.Elsewhere
import ImportAtlas.Proofs.Json.RoundTrip
import ImportAtlas.Standard.Settings

set_option autoImplicit false

/-!
# The installed library behaves as documented

The library that reads settings as it is installed is one on which the program
can rely (`LawfulSettingsLibrary`): values of the types of the settings are taken
as they are, and settings are found or refused key by key (`ofValues_cases`).
-/

namespace ImportAtlas.Standard

/-! ## Conversions -/

theorem bounded_eq_ok_iff {α : Type} {least : Nat} {passes : α → Bool} {x y : α} :
    bounded least passes x = .ok y ↔ passes x = true ∧ x = y := by
  unfold bounded
  by_cases h : passes x = true <;> simp [h]

theorem textOf_points (s : String) : textOf s = .ok s := by
  rw [textOf, Text.text?_points]

theorem textsValue_strings (items : List String) :
    textsValue (.strings items) = .ok items := by
  have hitem : ∀ item : String, textValue (.string (Text.points item)) = .ok item := textOf_points
  have hnone : (items.map fun item : String => Json.string (Text.points item)).zipIdx.filterMap
      itemComplaint? = [] := by
    rw [List.filterMap_eq_nil_iff]
    intro item hmem
    obtain ⟨s, -, hs⟩ := List.mem_map.mp (List.fst_mem_of_mem_zipIdx hmem)
    rw [itemComplaint?, ← hs, hitem]
  have hall : (items.map fun item : String => Json.string (Text.points item)).filterMap
      (fun item => (textValue item).toOption) = items := by
    rw [List.filterMap_map]
    refine Eq.trans (List.filterMap_congr fun item _ => ?_) List.filterMap_some
    rw [Function.comp_apply, hitem]
    rfl
  simp only [Json.strings, textsValue, hnone, hall]

/-- A value of the type of a shape that keeps its bound is taken as it is. -/
theorem convert_json {shape : SettingShape} {x : shape.Value} (h : shape.Admits x) :
    convert shape (shape.json x) = .ok x := by
  cases shape with
  | count least =>
    have hleast : (least : Int) ≤ x := h
    have hkept : bounded least (fun n : Int => decide ((least : Int) ≤ n)) x = .ok x :=
      bounded_eq_ok_iff.mpr ⟨decide_eq_true hleast, rfl⟩
    exact Except.mapError_eq_ok_iff.mpr hkept
  | flag => rfl
  | seconds =>
    have hleast : Decimal.ofInt 0 ≤ x := h
    have hkept : bounded 0 (fun x => decide (Decimal.ofInt 0 ≤ x)) x = .ok x :=
      bounded_eq_ok_iff.mpr ⟨decide_eq_true hleast, rfl⟩
    exact Except.mapError_eq_ok_iff.mpr hkept
  | text => exact Except.mapError_eq_ok_iff.mpr (textOf_points x)
  | texts => exact textsValue_strings x

/-- A converted value keeps the bound of its shape. -/
theorem admits_of_convert {shape : SettingShape} {v : Json} {x : shape.Value}
    (h : convert shape v = .ok x) : shape.Admits x := by
  cases shape with
  | count least =>
    obtain ⟨n, -, hn⟩ := Except.bind_eq_ok (Except.mapError_eq_ok_iff.mp h)
    obtain ⟨hpasses, rfl⟩ := bounded_eq_ok_iff.mp hn
    have hleast : (least : Int) ≤ n := of_decide_eq_true hpasses
    exact hleast
  | flag => trivial
  | seconds =>
    obtain ⟨y, -, hy⟩ := Except.bind_eq_ok (Except.mapError_eq_ok_iff.mp h)
    obtain ⟨hpasses, rfl⟩ := bounded_eq_ok_iff.mp hy
    have hleast : Decimal.ofInt 0 ≤ y := of_decide_eq_true hpasses
    exact hleast
  | text => trivial
  | texts => trivial

/-- A value that does not convert is complained about. -/
theorem complaints_ne_nil {shape : SettingShape} {v : Json} {found : List Complaint}
    (h : convert shape v = .error found) : found ≠ [] := by
  have hwhole : ∀ {α : Type} {r : Except Problem α},
      r.mapError complaints = .error found → found ≠ [] := by
    intro α r hr
    cases r with
    | ok x => cases hr
    | error problem =>
      cases hr
      exact List.cons_ne_nil _ _
  cases shape with
  | count least => exact hwhole h
  | flag => exact hwhole h
  | seconds => exact hwhole h
  | text => exact hwhole h
  | texts =>
    cases v
    case array items =>
      simp only [convert, textsValue] at h
      split at h
      · cases h
      · rename_i hne
        cases h
        exact hne
    all_goals
      cases h
      exact List.cons_ne_nil _ _

/-! ## The digits of integers -/

theorem isDigit_of_groupedDigits? {s ds : List Char} (h : Decimal.groupedDigits? s = some ds) :
    ∀ d ∈ ds, d.isDigit = true := by
  unfold Decimal.groupedDigits? at h
  simp only at h
  split at h
  · rename_i hall
    cases h
    intro d hd
    obtain ⟨group, hgroup, hd⟩ := List.mem_flatten.mp hd
    have hgroup := List.all_eq_true.mp hall group hgroup
    simp only [Bool.and_eq_true] at hgroup
    exact List.all_eq_true.mp hgroup.2 d hd
  · cases h

theorem isDigit_of_integerDigits? {s ds : List Char} (h : integerDigits? s = some ds) :
    ∀ d ∈ ds, d.isDigit = true := by
  unfold integerDigits? at h
  simp only at h
  split at h
  · exact isDigit_of_groupedDigits? h
  · cases h

theorem natAbs_integerOfText_lt {s : String} {n : Int} (h : integerOfText s = .ok n) :
    n.natAbs < 10 ^ Json.maxDigits := by
  unfold integerOfText at h
  simp only at h
  split at h
  · cases h
  · rename_i ds hds
    split at h
    · cases h
    · rename_i hlength
      cases h
      have hlt := Json.natOfDigits_lt (isDigit_of_integerDigits? hds)
      have hpow : 10 ^ ds.length ≤ 10 ^ Json.maxDigits :=
        Nat.pow_le_pow_right (by omega) (Nat.not_lt.mp hlength)
      split <;> omega

theorem natAbs_integerOfFloat_lt {x : Float} {n : Int} (h : integerOfFloat x = .ok n) :
    n.natAbs < 10 ^ Json.maxDigits := by
  unfold integerOfFloat at h
  split at h
  · cases h
  · split at h
    · cases h
    · split at h
      · rename_i hbounds
        cases h
        have hpow : 10 ^ 19 ≤ 10 ^ Json.maxDigits :=
          Nat.pow_le_pow_right (by omega) (by decide)
        unfold wordBound at hbounds
        omega
      · cases h

/-- An integer that is read from something other than an integer has not too many digits. -/
theorem natAbs_of_convert {least : Nat} {v : Json} {n : Int}
    (h : convert (.count least) v = .ok n) : v = .int n ∨ n.natAbs < 10 ^ Json.maxDigits := by
  obtain ⟨m, hinteger, hbounded⟩ := Except.bind_eq_ok (Except.mapError_eq_ok_iff.mp h)
  obtain ⟨-, rfl⟩ := bounded_eq_ok_iff.mp hbounded
  cases v with
  | int k =>
    cases hinteger
    exact .inl rfl
  | bool b =>
    have hone : 1 < 10 ^ Json.maxDigits := Nat.one_lt_pow (by decide) (by omega)
    cases hinteger
    refine .inr ?_
    split <;> omega
  | float x => exact .inr (natAbs_integerOfFloat_lt hinteger)
  | string s =>
    obtain ⟨text, -, htext⟩ := Except.bind_eq_ok hinteger
    exact .inr (natAbs_integerOfText_lt htext)
  | null => cases hinteger
  | array items => cases hinteger
  | object members => cases hinteger

/-! ## Variables -/

theorem readVariablesFile_eq {d e : Disk} (h : Settings.SameFile d e)
    (environment : List (String × String)) :
    readVariablesFile e environment = readVariablesFile d environment := by
  unfold readVariablesFile Disk.isFile
  simp only [h.workingPath, h.look]
  rcases hshown : d.look (d.workingPath.child Settings.variablesFile) with
    fault | _ | _ | bytes | _
  · rfl
  · rfl
  · rfl
  · rw [Disk.read_of_look hshown, Disk.read_of_look (h.look.trans hshown)]
  · rw [Disk.read_of_look_closedFile hshown, Disk.read_of_look_closedFile (h.look.trans hshown)]

theorem variableLookup_eq {d e : Disk} (h : Settings.SameFile d e)
    (environment : List (String × String)) :
    variableLookup e environment = variableLookup d environment := by
  rw [variableLookup, variableLookup, readVariablesFile_eq h]

/-! ## Settings -/

section

variable {values : SettingKey → Option Json} {settings : Settings}

theorem issuesOf_ne_nil_iff {key : SettingKey} : issuesOf values key ≠ [] ↔
    ∃ v found, values key = some v ∧ convert key.shape v = .error found := by
  unfold issuesOf
  cases values key with
  | none => simp
  | some v =>
    cases hconvert : convert key.shape v with
    | ok x => simp [hconvert]
    | error found => simp [hconvert, complaints_ne_nil hconvert]

theorem key_of_mem_issuesOf {key : SettingKey} {issue : SettingIssue}
    (h : issue ∈ issuesOf values key) : issue.key = key := by
  unfold issuesOf at h
  split at h
  · cases h
  · split at h
    · cases h
    · obtain ⟨complaint, -, rfl⟩ := List.mem_map.mp h
      rfl

theorem key_mem_issues_iff {key : SettingKey} :
    key ∈ (SettingKey.all.flatMap (issuesOf values)).map SettingIssue.key ↔
      ∃ v found, values key = some v ∧ convert key.shape v = .error found := by
  rw [← issuesOf_ne_nil_iff, List.mem_map]
  constructor
  · intro hmem
    obtain ⟨issue, hissue, rfl⟩ := hmem
    obtain ⟨key, -, hissue⟩ := List.mem_flatMap.mp hissue
    rw [key_of_mem_issuesOf hissue]
    exact List.ne_nil_of_mem hissue
  · intro hne
    obtain ⟨issue, hissue⟩ := List.exists_mem_of_ne_nil _ hne
    exact ⟨issue, List.mem_flatMap.mpr ⟨key, key.mem_all, hissue⟩, key_of_mem_issuesOf hissue⟩

theorem not_rejects_of_isOf (h : settings.IsOf values) (key : SettingKey) :
    ¬ ∃ v found, values key = some v ∧ convert key.shape v = .error found := by
  rintro ⟨v, found, hv, herror⟩
  have hkey := h key
  rw [hv] at hkey
  cases herror.symm.trans hkey

theorem eq_settingOf_of_isOf (h : settings.IsOf values) : settings = settingOf values := by
  funext key
  have hkey := h key
  unfold settingOf
  cases hvalue : values key with
  | none =>
    rw [hvalue] at hkey
    exact hkey
  | some v =>
    rw [hvalue] at hkey
    have hconvert : convert key.shape v = .ok (settings key) := hkey
    simp only [hconvert]

theorem isOf_settingOf (h : SettingKey.all.flatMap (issuesOf values) = []) :
    Settings.IsOf (settingOf values) values := by
  intro key
  have hkey : key ∉ (SettingKey.all.flatMap (issuesOf values)).map SettingIssue.key := by
    rw [h]
    exact List.not_mem_nil
  rw [key_mem_issues_iff] at hkey
  cases hvalue : values key with
  | none => simp [settingOf, hvalue]
  | some v =>
    cases hconvert : convert key.shape v with
    | ok x =>
      simp only [settingOf, hvalue, hconvert]
      exact hconvert
    | error found => exact absurd ⟨v, found, hvalue, hconvert⟩ hkey

/-- Values give settings, or issues about exactly the keys whose values do not convert. -/
theorem ofValues_cases (values : SettingKey → Option Json) :
    (ofValues values = .ok (settingOf values) ∧ Settings.IsOf (settingOf values) values) ∨
    ∃ issues, ofValues values = .error (.invalid issues) ∧ issues ≠ [] ∧
      ∀ key, key ∈ issues.map SettingIssue.key ↔
        ∃ v found, values key = some v ∧ convert key.shape v = .error found := by
  unfold ofValues
  cases hissues : SettingKey.all.flatMap (issuesOf values) with
  | nil => exact .inl ⟨rfl, isOf_settingOf hissues⟩
  | cons first rest =>
    refine .inr ⟨first :: rest, rfl, List.cons_ne_nil _ _, fun key => ?_⟩
    rw [← hissues]
    exact key_mem_issues_iff

theorem ofValues_eq_ok_iff : ofValues values = .ok settings ↔ settings.IsOf values := by
  rcases ofValues_cases values with ⟨hok, hisOf⟩ | ⟨issues, hinvalid, hne, hkeys⟩
  · rw [hok]
    constructor
    · intro h
      cases h
      exact hisOf
    · intro h
      rw [eq_settingOf_of_isOf h]
  · rw [hinvalid]
    constructor
    · intro h
      cases h
    · intro h
      obtain ⟨issue, hissue⟩ := List.exists_mem_of_ne_nil _ hne
      have hrejects := (hkeys issue.key).mp (List.mem_map_of_mem hissue)
      exact absurd hrejects (not_rejects_of_isOf h issue.key)

end

/-- The installed library behaves as documented. -/
instance : LawfulSettingsLibrary where
  convert_json := convert_json
  admits_of_convert := admits_of_convert
  natAbs_of_convert h := by
    rw [Json.ten_pow]
    exact natAbs_of_convert h
  variableLookup_eq h surroundings := variableLookup_eq h surroundings.environment
  build_eq h surroundings saved := by
    change (variableLookup _ _).bind _ = (variableLookup _ _).bind _
    rw [variableLookup_eq h]
  build_of_error h saved := by
    change (variableLookup _ _).bind _ = _
    rw [show variableLookup _ _ = _ from h]
    rfl
  build_eq_ok_iff h := by
    change (variableLookup _ _).bind _ = _ ↔ _
    rw [show variableLookup _ _ = _ from h]
    exact ofValues_eq_ok_iff
  issues_of_build {d surroundings around saved fault} h hbuild := by
    change (variableLookup _ _).bind _ = _ at hbuild
    rw [show variableLookup _ _ = _ from h] at hbuild
    rcases ofValues_cases (Settings.told around saved) with
      ⟨hok, -⟩ | ⟨issues, hinvalid, -, hkeys⟩
    · cases hok.symm.trans hbuild
    · exact ⟨issues, Except.error.inj (hbuild.symm.trans hinvalid), hkeys⟩

end ImportAtlas.Standard
