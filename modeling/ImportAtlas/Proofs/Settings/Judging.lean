import ImportAtlas.Proofs.Settings.Reset

set_option autoImplicit false

/-!
# Which texts are refused

All values are converted together when one is saved.  So a text for a known key
is refused exactly when its value does not convert, as long as the values told for
the other keys do; otherwise every text is refused (`set_refused_iff`).  Values of
the file that do not convert are kept, and block every key but their own.
-/

namespace ImportAtlas

section

variable [SettingsLibrary]

/-- A value is acceptable for the type and the bound of a key. -/
def SettingKey.Accepts (key : SettingKey) (v : Json) : Prop :=
  ∃ x, key.shape.convert v = .ok x

theorem SettingKey.not_accepts_iff {key : SettingKey} {v : Json} :
    ¬ key.Accepts v ↔ ∃ complaints, key.shape.convert v = .error complaints := by
  rw [SettingKey.Accepts]
  cases key.shape.convert v with
  | ok x => simp
  | error complaints => simp

namespace Settings

variable {values around : SettingKey → Option Json} {disk : Disk} {surroundings : Surroundings}
  {saved : List (SettingKey × Json)}

/-- Every key accepts its value. -/
def Converts (values : SettingKey → Option Json) : Prop :=
  ∀ key v, values key = some v → key.Accepts v

/-- A key has a value that it does not accept. -/
def Rejects (values : SettingKey → Option Json) (key : SettingKey) : Prop :=
  ∃ v, values key = some v ∧ ¬ key.Accepts v

theorem IsOf.converts {settings : Settings} (h : settings.IsOf values) : Converts values := by
  intro key v hv
  have hkey := h key
  rw [hv] at hkey
  exact ⟨settings key, hkey⟩

/-- Values that all convert give settings. -/
theorem Converts.exists_isOf (h : Converts values) :
    ∃ settings : Settings, settings.IsOf values := by
  have hkey : ∀ key : SettingKey, ∃ x : key.Value, (values key = none → x = key.defaultValue) ∧
      ∀ v, values key = some v → key.shape.convert v = .ok x := by
    intro key
    cases hvalue : values key with
    | none => exact ⟨_, fun _ => rfl, nofun⟩
    | some v =>
      obtain ⟨x, hx⟩ := h key v hvalue
      exact ⟨x, nofun, fun w hw => Option.some.inj hw ▸ hx⟩
  choose settings hdefault hconverted using hkey
  refine ⟨settings, fun key => ?_⟩
  cases hvalue : values key with
  | none => exact hdefault key hvalue
  | some v => exact hconverted key v hvalue

theorem converts_of_build [LawfulSettingsLibrary]
    (h : variableLookup disk surroundings = .ok around) {settings : Settings}
    (hbuild : build disk surroundings saved = .ok settings) : Converts (told around saved) :=
  ((LawfulSettingsLibrary.build_eq_ok_iff h).mp hbuild).converts

/-- Settings that cannot be built fail by the values that do not convert, and say which. -/
theorem issues_of_build [LawfulSettingsLibrary]
    (h : variableLookup disk surroundings = .ok around) {fault : SettingsFault}
    (hbuild : build disk surroundings saved = .error fault) :
    ¬ Converts (told around saved) ∧ ∃ issues, fault = .invalid issues ∧
      ∀ key, key ∈ issues.map SettingIssue.key ↔ Rejects (told around saved) key := by
  constructor
  · intro hconverts
    obtain ⟨settings, hsettings⟩ := hconverts.exists_isOf
    cases ((LawfulSettingsLibrary.build_eq_ok_iff h).mpr hsettings).symm.trans hbuild
  · obtain ⟨issues, hinvalid, hkeys⟩ := LawfulSettingsLibrary.issues_of_build h hbuild
    refine ⟨issues, hinvalid, fun key => (hkeys key).trans ?_⟩
    simp only [Rejects, SettingKey.not_accepts_iff, exists_and_left]

/-- The keys but one accept the values told for them. -/
def OthersConvert (around : SettingKey → Option Json) (saved : List (SettingKey × Json))
    (key : SettingKey) : Prop :=
  ∀ other, other ≠ key → ∀ v, told around saved other = some v → other.Accepts v

theorem converts_put_iff {key : SettingKey} {v : Json} :
    Converts (told around (Assoc.put key v saved)) ↔
      key.Accepts v ∧ OthersConvert around saved key := by
  have hself : told around (Assoc.put key v saved) key = some v := by
    rw [told, Assoc.get?_put_self, Option.some_or]
  have hother : ∀ other, other ≠ key →
      told around (Assoc.put key v saved) other = told around saved other := by
    intro other hne
    rw [told, told, Assoc.get?_put_of_ne hne]
  -- Saving a value changes what is told for its own key, and for no other.
  constructor
  · intro h
    refine ⟨h key v hself, fun other hne value hvalue => h other value ?_⟩
    rw [hother other hne, hvalue]
  · intro h other value hvalue
    by_cases hkey : other = key
    · subst hkey
      rw [hself] at hvalue
      cases hvalue
      exact h.1
    · rw [hother other hkey] at hvalue
      exact h.2 other hkey value hvalue

end Settings

end

namespace SettingsStore

open Settings (Converts Rejects OthersConvert told variableLookup)

section

variable [SettingsLibrary]

variable {d : Disk} {surroundings : Surroundings} {start before after : State}
  {outcome : Except SettingsFault ((key : SettingKey) × key.Value)}

/-- A text was refused because of values that do not convert. -/
def IsRefused (outcome : Except SettingsFault ((key : SettingKey) × key.Value)) : Prop :=
  ∃ issues, outcome = .error (.invalid issues)

/-- Whether a text was refused because of values that do not convert. -/
def refuses : Except SettingsFault ((key : SettingKey) × key.Value) → Bool
  | .error (.invalid _) => true
  | .error (.disk _) | .error (.notText _) | .error (.notJson _) | .error (.unknownKey _)
  | .ok _ => false

omit [SettingsLibrary] in
theorem isRefused_of_refuses (h : refuses outcome = true) : IsRefused outcome := by
  unfold refuses at h
  split at h
  · exact ⟨_, rfl⟩
  all_goals cases h

/-- What a text comes to that is saved in a newly opened store. -/
def attempt (d : Disk) (surroundings : Surroundings) (key : SettingKey) (text : String) :
    Except SettingsFault ((key : SettingKey) × key.Value) :=
  (load d surroundings).2.bind fun store =>
    (set (load d surroundings).1 surroundings store key.name text).2.2

theorem exists_attempt (hload : load d surroundings = (start.disk, .ok start.store))
    (key : SettingKey) (text : String) :
    ∃ after : State, set start.disk surroundings start.store key.name text =
      (after.disk, after.store, attempt d surroundings key text) := by
  rw [attempt, hload]
  exact ⟨⟨_, _⟩, rfl⟩

variable [LawfulSettingsLibrary]

/-- The variables around an opened store can be read. -/
theorem exists_variableLookup (h : IsCurrent surroundings start) :
    ∃ around, variableLookup start.disk surroundings = .ok around := by
  have hbuild : ∃ saved settings, Settings.build start.disk surroundings saved = .ok settings := by
    rw [IsCurrent, settingsFor] at h
    split at h
    · exact ⟨_, _, h⟩
    · exact ⟨_, _, h⟩
  obtain ⟨saved, settings, hbuild⟩ := hbuild
  obtain ⟨around, haround, -⟩ := Settings.build_eq_ok_iff.mp hbuild
  exact ⟨around, haround⟩

/-- Where the settings in force are those of the saved values, the setting of a key that is not
saved comes from the variables, or it is the default. -/
theorem IsCurrent.unsaved {around : SettingKey → Option Json} (h : IsCurrent surroundings before)
    (haround : variableLookup before.disk surroundings = .ok around) {key : SettingKey}
    (hsaved : Assoc.get? key before.store.saved = none) :
    match around key with
    | none => before.store.settings key = key.defaultValue
    | some v => key.shape.convert v = .ok (before.store.settings key) := by
  have hbuild : ∀ saved, Settings.build before.disk surroundings saved = .ok before.store.settings →
      Assoc.get? key saved = none →
      match around key with
      | none => before.store.settings key = key.defaultValue
      | some v => key.shape.convert v = .ok (before.store.settings key) := by
    intro saved hbuild hnone
    have hkey := (LawfulSettingsLibrary.build_eq_ok_iff haround).mp hbuild key
    rwa [told, hnone, Option.none_or] at hkey
  rw [IsCurrent, settingsFor] at h
  split at h
  · exact hbuild [] h rfl
  · exact hbuild _ h hsaved

/-- Where the settings in force are those of the saved values, a key that accepts its saved value
accepts what is told for it. -/
theorem IsCurrent.accepts_told {around : SettingKey → Option Json}
    (h : IsCurrent surroundings before)
    (haround : variableLookup before.disk surroundings = .ok around) {key : SettingKey}
    (hsaved : ∀ v, Assoc.get? key before.store.saved = some v → key.Accepts v) {v : Json}
    (hv : told around before.store.saved key = some v) : key.Accepts v := by
  cases hget : Assoc.get? key before.store.saved with
  | none =>
    -- What the variables say has been converted already, with or without the saved values.
    have hkey := h.unsaved haround hget
    rw [told, hget, Option.none_or] at hv
    rw [hv] at hkey
    exact ⟨_, hkey⟩
  | some value =>
    rw [told, hget, Option.some_or] at hv
    exact hsaved v (hget.trans hv)

/-- The settings in force come from the saved values, or a saved value does not convert and they
come from the variables alone. -/
theorem IsCurrent.cases (h : IsCurrent surroundings before) :
    Settings.ConvertsTo before.store.saved before.store.settings ∨
      Settings.build before.disk surroundings [] = .ok before.store.settings ∧
        ∃ key v, Assoc.get? key before.store.saved = some v ∧ ¬ key.Accepts v := by
  obtain ⟨around, haround⟩ := exists_variableLookup h
  have hcurrent := h
  rw [IsCurrent, settingsFor] at h
  cases hbuild : Settings.build before.disk surroundings before.store.saved with
  | ok settings =>
    rw [hbuild] at h
    cases h
    exact .inl (Settings.convertsTo_of_build hbuild)
  | error fault =>
    obtain ⟨hnot, issues, rfl, -⟩ := Settings.issues_of_build haround hbuild
    rw [hbuild] at h
    refine .inr ⟨h, ?_⟩
    by_contra hall
    push Not at hall
    exact hnot fun key v hv => hcurrent.accepts_told haround (hall key) hv

theorem IsCurrent.othersConvert_iff {around : SettingKey → Option Json} {key : SettingKey}
    (h : IsCurrent surroundings before)
    (haround : variableLookup before.disk surroundings = .ok around) :
    OthersConvert around before.store.saved key ↔
      ∀ other, other ≠ key → ∀ v, Assoc.get? other before.store.saved = some v →
        other.Accepts v := by
  constructor
  · intro hothers other hne v hv
    apply hothers other hne v
    rw [told, hv, Option.some_or]
  · intro hsaved other hne v hv
    exact h.accepts_told haround (hsaved other hne) hv

/-- A value is saved if every key accepts what is told for it then; else nothing changes, and the
issues are about the keys that do not. -/
theorem Usable.set_cases {d e : Disk} {store after : SettingsStore}
    {around : SettingKey → Option Json} {key : SettingKey} {text : String}
    (husable : Usable surroundings d) (haround : variableLookup d surroundings = .ok around)
    (hset : set d surroundings store key.name text = (e, after, outcome)) :
    (Converts (told around (Assoc.put key (givenValue text) store.saved)) ∧
      ¬ IsRefused outcome ∧
      ∃ value, key.shape.convert (givenValue text) = .ok value ∧
        after.saved = Assoc.put key (key.shape.json value) store.saved ∧
        (outcome = .ok ⟨key, value⟩ ∨ ∃ cause, outcome = .error (.disk cause) ∧
          d.write surroundings.configFile (fileText after.saved).toUTF8 = (e, some cause))) ∨
    (¬ Converts (told around (Assoc.put key (givenValue text) store.saved)) ∧
      e = d ∧ after = store ∧
      ∃ issues, outcome = .error (.invalid issues) ∧
        ∀ other, other ∈ issues.map SettingIssue.key ↔
          Rejects (told around (Assoc.put key (givenValue text) store.saved)) other) := by
  have hgiven : ∀ settings, Settings.build d surroundings
      (Assoc.put key (givenValue text) store.saved) = .ok settings →
      key.shape.convert (givenValue text) = .ok (settings key) := by
    intro settings hbuild
    exact Settings.convertsTo_of_build hbuild key _ (Assoc.get?_put_self key _ _)
  cases husable.saves hset with
  | unknown hname =>
    rw [SettingKey.ofName?_name] at hname
    cases hname
  | refused hname hbuild =>
    obtain rfl := Option.some.inj (hname.symm.trans (SettingKey.ofName?_name key))
    obtain ⟨hnot, issues, rfl, hkeys⟩ := Settings.issues_of_build haround hbuild
    exact .inr ⟨hnot, rfl, rfl, issues, rfl, hkeys⟩
  | unwritten hname hbuild _ hwrite =>
    obtain rfl := Option.some.inj (hname.symm.trans (SettingKey.ofName?_name key))
    exact .inl ⟨Settings.converts_of_build haround hbuild, by simp [IsRefused], _,
      hgiven _ hbuild, rfl, .inr ⟨_, rfl, hwrite⟩⟩
  | written hname hbuild =>
    obtain rfl := Option.some.inj (hname.symm.trans (SettingKey.ofName?_name key))
    exact .inl ⟨Settings.converts_of_build haround hbuild, by simp [IsRefused], _,
      hgiven _ hbuild, rfl, .inl rfl⟩

/-- A text for a known key is refused exactly when its value does not convert, provided that the
values told for the other keys do; otherwise it is refused whatever it says.  A refusal changes
nothing, and its issues are about the keys with values that do not convert. -/
theorem set_refused_iff (hworking : d.workingPath.IsNormal)
    (hfolder : d.isFolder d.workingPath = .ok true)
    (hload : load d surroundings = (start.disk, .ok start.store))
    (hrun : Relation.ReflTransGen (Call surroundings) start before) {key : SettingKey}
    {text : String}
    (hset : set before.disk surroundings before.store key.name text =
      (after.disk, after.store, outcome)) :
    ∃ around, variableLookup before.disk surroundings = .ok around ∧
      (OthersConvert around before.store.saved key →
        (IsRefused outcome ↔ ¬ key.Accepts (givenValue text))) ∧
      (¬ OthersConvert around before.store.saved key → IsRefused outcome) ∧
      (∀ issues, outcome = .error (.invalid issues) → after = before ∧
        ∀ other, other ∈ issues.map SettingIssue.key ↔
          Rejects (told around (Assoc.put key (givenValue text) before.store.saved)) other) ∧
      (¬ IsRefused outcome → ∃ value, key.shape.convert (givenValue text) = .ok value ∧
        after.store.saved = Assoc.put key (key.shape.json value) before.store.saved ∧
        (outcome = .ok ⟨key, value⟩ ∨ ∃ cause, outcome = .error (.disk cause) ∧
          before.disk.write surroundings.configFile (fileText after.store.saved).toUTF8 =
            (after.disk, some cause))) ∧
      (IsCurrent surroundings before →
        (OthersConvert around before.store.saved key ↔
          ∀ other, other ≠ key → ∀ v, Assoc.get? other before.store.saved = some v →
            other.Accepts v)) := by
  have hstart : Usable surroundings start.disk := usable_of_load hworking hfolder hload
  have hsame := sameVariables_run hstart hrun
  obtain ⟨around, haround⟩ := exists_variableLookup (isCurrent_of_load hload)
  have haround : variableLookup before.disk surroundings = .ok around :=
    (LawfulSettingsLibrary.variableLookup_eq hsame.file surroundings).trans haround
  refine ⟨around, haround, ?_⟩
  rcases hsame.usable.set_cases haround hset with
    ⟨hconverts, hnot, value, hvalue⟩ | ⟨hnot, hdisk, hstore, issues, hissues, hkeys⟩
  · obtain ⟨haccepts, hothers⟩ := Settings.converts_put_iff.mp hconverts
    refine ⟨fun _ => ?_, fun hblocked => absurd hothers hblocked, fun issues hinvalid => ?_,
      fun _ => ⟨value, hvalue⟩, fun hcurrent => hcurrent.othersConvert_iff haround⟩
    · exact iff_of_false hnot (not_not_intro haccepts)
    · exact absurd ⟨issues, hinvalid⟩ hnot
  · have hrefused : IsRefused outcome := ⟨issues, hissues⟩
    refine ⟨fun hothers => ?_, fun _ => hrefused, fun found hinvalid => ?_,
      fun hnone => absurd hrefused hnone, fun hcurrent => hcurrent.othersConvert_iff haround⟩
    · refine iff_of_true hrefused fun haccepts => ?_
      exact hnot (Settings.converts_put_iff.mpr ⟨haccepts, hothers⟩)
    · cases hissues.symm.trans hinvalid
      refine ⟨?_, hkeys⟩
      obtain ⟨disk, store⟩ := after
      cases hdisk
      cases hstore
      rfl

end

/-- A depth is saved beside another that converts. -/
theorem set_refused_iff_depth : ∃ start after : State, ∃ outcome, ∃ value : Int,
    load (diskWith [(.maxDepth, .int 5)]) (homeWithDepth "9") = (start.disk, .ok start.store) ∧
    set start.disk (homeWithDepth "9") start.store SettingKey.treeDepth.name "3" =
      (after.disk, after.store, outcome) ∧
    SettingKey.treeDepth.shape.convert (givenValue "3") = .ok value ∧
    after.store.saved = Assoc.put .treeDepth (.int value) start.store.saved := by
  have hopens : (load (diskWith [(.maxDepth, .int 5)]) (homeWithDepth "9")).2.isOk = true := by
    decide +kernel
  have hworking : (diskWith [(.maxDepth, .int 5)]).workingPath.IsNormal := by decide +kernel
  have hfolder : (diskWith [(.maxDepth, .int 5)]).isFolder
      (diskWith [(.maxDepth, .int 5)]).workingPath = .ok true := by decide +kernel
  have hsaves : (attempt (diskWith [(.maxDepth, .int 5)]) (homeWithDepth "9")
      .treeDepth "3").isOk = true := by decide +kernel
  obtain ⟨start, hload⟩ := exists_opened hopens
  obtain ⟨after, hset⟩ := exists_attempt hload .treeDepth "3"
  obtain ⟨-, -, -, -, -, hsaved, -⟩ := set_refused_iff hworking hfolder hload .refl hset
  obtain ⟨found, hok⟩ := Except.exists_of_isOk hsaves
  obtain ⟨value, hvalue, hput, -⟩ := hsaved (by simp [IsRefused, hok])
  exact ⟨start, after, _, value, hload, hset, hvalue, hput⟩

/-- A depth is refused because of another one that does not convert. -/
theorem set_refused_because_of_other : ∃ start after : State, ∃ outcome,
    load (diskWith [(.maxDepth, .int (-1))]) (homeWithDepth "9") = (start.disk, .ok start.store) ∧
    set start.disk (homeWithDepth "9") start.store SettingKey.treeDepth.name "3" =
      (after.disk, after.store, outcome) ∧
    IsRefused outcome ∧ SettingKey.treeDepth.Accepts (givenValue "3") := by
  have hopens : (load (diskWith [(.maxDepth, .int (-1))]) (homeWithDepth "9")).2.isOk = true := by
    decide +kernel
  have hfails : refuses (attempt (diskWith [(.maxDepth, .int (-1))]) (homeWithDepth "9")
      .treeDepth "3") = true := by decide +kernel
  obtain ⟨start, hload⟩ := exists_opened hopens
  obtain ⟨after, hset⟩ := exists_attempt hload .treeDepth "3"
  exact ⟨start, after, _, hload, hset, isRefused_of_refuses hfails, (3 : Int), rfl⟩

end SettingsStore

end ImportAtlas
