import ImportAtlas.Proofs.Disk.Look
import ImportAtlas.Proofs.Json.RoundTrip
import ImportAtlas.Proofs.Text.LineEnds
import ImportAtlas.Settings.Store

set_option autoImplicit false

/-!
# Saved values

Saved values that convert give the settings of their keys whatever the variables
around them say (`convertsTo_of_build`, `convertsTo_of_settingsFor`), and the value
that is saved for a setting gives the setting back (`build_put_json`).  The file
of such values is read as the values (`readDocument?_of_read`).
-/

namespace ImportAtlas

open Json (WellFormed IsWritable ReadsBack)

section

variable [SettingsLibrary] [LawfulSettingsLibrary]

/-- A converted value converts to itself. -/
theorem SettingShape.convert_json {shape : SettingShape} {v : Json} {x : shape.Value}
    (h : shape.convert v = .ok x) : shape.convert (shape.json x) = .ok x :=
  LawfulSettingsLibrary.convert_json (LawfulSettingsLibrary.admits_of_convert h)

/-- A converted value is well-formed. -/
theorem SettingShape.wellFormed_json {shape : SettingShape} {v : Json} {x : shape.Value}
    (hv : WellFormed (fun _ => True) v) (h : shape.convert v = .ok x) :
    WellFormed (fun _ => True) (shape.json x) := by
  cases shape with
  | count least =>
    rcases LawfulSettingsLibrary.natAbs_of_convert h with rfl | hdigits
    · exact hv
    · rw [Json.ten_pow] at hdigits
      exact .int hdigits
  | flag => exact .bool x
  | seconds => exact .float trivial
  | text => exact .string (Json.sealed_points x)
  | texts =>
    refine .array fun item hitem => ?_
    obtain ⟨s, -, rfl⟩ := List.mem_map.mp hitem
    exact .string (Json.sealed_points s)

namespace Settings

variable {disk : Disk} {surroundings : Surroundings} {saved : List (SettingKey × Json)}
  {settings : Settings}

/-- Settings can be built only where the variables can be read. -/
theorem build_eq_ok_iff : build disk surroundings saved = .ok settings ↔
    ∃ around, variableLookup disk surroundings = .ok around ∧
      settings.IsOf (told around saved) := by
  constructor
  · intro h
    cases haround : variableLookup disk surroundings with
    | error fault => cases h.symm.trans (LawfulSettingsLibrary.build_of_error haround saved)
    | ok around => exact ⟨around, rfl, (LawfulSettingsLibrary.build_eq_ok_iff haround).mp h⟩
  · rintro ⟨around, haround, hsettings⟩
    exact (LawfulSettingsLibrary.build_eq_ok_iff haround).mpr hsettings

/-- Each saved value converts to the setting of its key. -/
def ConvertsTo (saved : List (SettingKey × Json)) (settings : Settings) : Prop :=
  ∀ key v, Assoc.get? key saved = some v → key.shape.convert v = .ok (settings key)

/-- The settings of a key with a saved value come from it, not from the variables. -/
theorem convertsTo_of_build (h : build disk surroundings saved = .ok settings) :
    ConvertsTo saved settings := by
  obtain ⟨around, -, hsettings⟩ := build_eq_ok_iff.mp h
  intro key v hv
  have hkey := hsettings key
  rwa [told, hv, Option.some_or] at hkey

/-- Saving what a value converted to gives the same settings as the value. -/
theorem build_put_json {key : SettingKey} {v : Json}
    (h : build disk surroundings (Assoc.put key v saved) = .ok settings) :
    build disk surroundings (Assoc.put key (key.shape.json (settings key)) saved) =
      .ok settings := by
  have hkey := convertsTo_of_build h key v (Assoc.get?_put_self key _ _)
  obtain ⟨around, haround, hsettings⟩ := build_eq_ok_iff.mp h
  refine build_eq_ok_iff.mpr ⟨around, haround, fun other => ?_⟩
  have hother := hsettings other
  by_cases heq : other = key
  · subst heq
    rw [told, Assoc.get?_put_self, Option.some_or]
    exact SettingShape.convert_json hkey
  · rw [told, Assoc.get?_put_of_ne heq] at hother ⊢
    exact hother

end Settings

/-- Saved values that convert are never set aside: the settings that are found without them are
those that are found with them at every other key. -/
theorem SettingsStore.convertsTo_of_settingsFor {disk : Disk} {surroundings : Surroundings}
    {saved : List (SettingKey × Json)} {settings live : Settings}
    (h : Settings.ConvertsTo saved live)
    (hsettings : settingsFor disk surroundings saved = .ok settings) :
    Settings.ConvertsTo saved settings := by
  unfold SettingsStore.settingsFor at hsettings
  split at hsettings
  · rename_i issues hinvalid
    obtain ⟨around, haround, hvalues⟩ := Settings.build_eq_ok_iff.mp hsettings
    let joined : Settings := fun key =>
      if (Assoc.get? key saved).isSome then live key else settings key
    have hbuild : Settings.build disk surroundings saved = .ok joined := by
      refine Settings.build_eq_ok_iff.mpr ⟨around, haround, fun key => ?_⟩
      cases hkey : Assoc.get? key saved with
      | none => simpa [joined, hkey, Settings.told, Assoc.get?] using hvalues key
      | some v => simpa [joined, hkey, Settings.told] using h key v hkey
    rw [hbuild] at hinvalid
    cases hinvalid
  · exact Settings.convertsTo_of_build hsettings

end

namespace SettingsStore

variable {disk : Disk} {surroundings : Surroundings} {saved : List (SettingKey × Json)}

/-! ## The document of saved values -/

theorem name_of_ofName? {name : String} {key : SettingKey}
    (h : SettingKey.ofName? name = some key) : key.name = name := by
  simpa using List.find?_some h

/-- The code points of a name that is a key's. -/
theorem points_of_ofName? {name : List Text.Point} {key : SettingKey}
    (h : (Text.text? name).bind SettingKey.ofName? = some key) : name = Text.points key.name := by
  obtain ⟨text, htext, hkey⟩ := Option.bind_eq_some_iff.mp h
  rw [name_of_ofName? hkey, Text.points_of_text? htext]

theorem savedOf_document (saved : List (SettingKey × Json)) : savedOf (document saved) = saved := by
  simp only [savedOf, document, List.filterMap_map]
  refine Eq.trans (List.filterMap_congr fun pair _ => ?_) List.filterMap_some
  simp only [Function.comp_apply, Text.text?_points, Option.bind_some, SettingKey.ofName?_name,
    Option.map_some]

theorem keys_document (saved : List (SettingKey × Json)) :
    Assoc.keys (saved.map fun (key, v) => (Text.points key.name, v)) =
      (Assoc.keys saved).map fun key => Text.points key.name := by
  simp only [Assoc.keys, List.map_map]
  rfl

/-- Saved values that a file can hold: each key once, and no integer too long. -/
structure Storable (saved : List (SettingKey × Json)) : Prop where
  keys : (Assoc.keys saved).Nodup
  values : ∀ pair ∈ saved, WellFormed (fun _ => True) pair.2

theorem storable_nil : Storable [] :=
  ⟨List.nodup_nil, nofun⟩

theorem storable_savedOf {v : Json} (h : WellFormed (fun _ => True) v) : Storable (savedOf v) := by
  cases h with
  | @object members hnames _ hvalues =>
    have hkeys : Assoc.keys (savedOf (.object members)) =
        (Assoc.keys members).filterMap fun name => (Text.text? name).bind SettingKey.ofName? := by
      simp only [Assoc.keys, savedOf, List.map_filterMap, List.filterMap_map]
      refine List.filterMap_congr fun member _ => ?_
      rw [Function.comp_apply]
      cases (Text.text? member.1).bind SettingKey.ofName? <;> rfl
    constructor
    · rw [hkeys]
      refine hnames.filterMap fun first second key hfirst hsecond => ?_
      rw [points_of_ofName? hfirst, points_of_ofName? hsecond]
    · intro pair hpair
      obtain ⟨member, hmember, hkey⟩ := List.mem_filterMap.mp hpair
      obtain ⟨key, -, rfl⟩ := Option.map_eq_some_iff.mp hkey
      exact hvalues member hmember
  | null => exact storable_nil
  | bool => exact storable_nil
  | int => exact storable_nil
  | float => exact storable_nil
  | string => exact storable_nil
  | array => exact storable_nil

theorem Storable.put (key : SettingKey) {v : Json} (h : Storable saved)
    (hv : WellFormed (fun _ => True) v) : Storable (Assoc.put key v saved) := by
  refine ⟨Assoc.nodup_keys_put h.keys, fun pair hpair => ?_⟩
  rcases Assoc.mem_of_mem_put hpair with rfl | hpair
  · exact hv
  · exact h.values pair hpair

theorem storable_of_readSaved (h : readSaved disk surroundings = .ok saved) : Storable saved := by
  obtain ⟨found, -, hfound⟩ := Except.bind_eq_ok h
  cases found with
  | false =>
    cases hfound
    exact storable_nil
  | true =>
    cases hfound
    refine storable_savedOf ?_
    cases hdocument : readDocument? disk surroundings.configFile with
    | none => exact .null
    | some v =>
      unfold readDocument? at hdocument
      split at hdocument
      · cases hdocument
      · split at hdocument
        · cases hdocument
        · exact Json.wellFormed_of_parse? hdocument

/-- A value given by the user can be written, but for its floats. -/
theorem wellFormed_givenValue (text : String) : WellFormed (fun _ => True) (givenValue text) := by
  unfold givenValue
  cases hparse : Json.parse? text with
  | none => exact .string (Json.sealed_points text)
  | some v => exact Json.wellFormed_of_parse? hparse

/-! ## The file of saved values -/

/-- The floats that stand in saved values are read as they are written. -/
def FloatsReadBack (saved : List (SettingKey × Json)) : Prop :=
  ∀ pair ∈ saved, ∀ x, Json.HasFloat x pair.2 → ReadsBack x

theorem isWritable_document (hstorable : Storable saved) (hfloats : FloatsReadBack saved) :
    IsWritable (document saved) := by
  refine .object ?_ (fun member hmember => ?_) fun member hmember => ?_
  · rw [keys_document]
    refine hstorable.keys.map fun first second hname => ?_
    have hfound := SettingKey.ofName?_name first
    rw [Text.points_injective hname, SettingKey.ofName?_name] at hfound
    exact (Option.some.inj hfound).symm
  · obtain ⟨pair, -, rfl⟩ := List.mem_map.mp hmember
    exact Json.sealed_points _
  · obtain ⟨pair, hpair, rfl⟩ := List.mem_map.mp hmember
    exact (hstorable.values pair hpair).isWritable (hfloats pair hpair)

/-- The file of saved values is read as the document of the values. -/
theorem readDocument?_of_read {path : Path} (hwritable : IsWritable (document saved))
    (h : disk.read path = .ok (fileText saved).toUTF8) :
    readDocument? disk path = some (document saved) := by
  have hreturn : '\r' ∉ (fileText saved).toList := Json.return_not_mem_textAt hwritable 0
  have htext : Text.readStrict (fileText saved).toUTF8 = .ok (fileText saved) := by
    rw [Text.readStrict_toUTF8, Text.unifyLineEnds_of_not_mem hreturn, String.ofList_toList]
  simp only [readDocument?, h, htext]
  exact Json.parse?_write hwritable .ascii .lines

end SettingsStore

end ImportAtlas
