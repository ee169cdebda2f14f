import ImportAtlas.Proofs.Settings.Reload

set_option autoImplicit false

/-!
# When a reset is all or nothing

A reset forgets the saved values before it asks whether the variables alone give
settings, and removes the file last.  So it completes or changes nothing exactly
when the variables alone give settings and the file can be removed
(`reset_allOrNothing_iff`); a variable that a saved value has hidden so far, and
that does not convert, makes it break off half-way.
-/

namespace ImportAtlas.SettingsStore

section

variable [SettingsLibrary]

variable {d : Disk} {surroundings : Surroundings} {before start after : State}
  {outcome : Except SettingsFault Unit}

/-- The file is gone, nothing is saved, and the settings are those of the variables alone. -/
structure IsCleared (surroundings : Surroundings) (s : State) : Prop where
  gone : s.disk.contains surroundings.configFile = .ok false
  saved : s.store.saved = []
  settings : Settings.build s.disk surroundings [] = .ok s.store.settings

/-- A reset completes, or it fails and changes nothing; and a store that is opened afterwards is the
one in use. -/
structure AllOrNothing (surroundings : Surroundings) (before after : State)
    (outcome : Except SettingsFault Unit) : Prop where
  done : (outcome = .ok () ∧ IsCleared surroundings after) ∨
    ((∃ fault, outcome = .error fault) ∧ after = before)
  reload : load after.disk surroundings = (after.disk, .ok after.store)

/-- A reset that fails is all or nothing when it changes nothing. -/
theorem allOrNothing_error_iff {fault : SettingsFault} :
    AllOrNothing surroundings before after (.error fault) ↔
      after = before ∧ load after.disk surroundings = (after.disk, .ok after.store) := by
  constructor
  · intro h
    rcases h.done with ⟨hok, -⟩ | ⟨-, hsame⟩
    · cases hok
    · exact ⟨hsame, h.reload⟩
  · intro h
    exact ⟨.inr ⟨⟨fault, rfl⟩, h.1⟩, h.2⟩

/-- To forget the saved values changes nothing if there are none. -/
theorem IsCurrent.forgotten_eq_iff {settings : Settings} (h : IsCurrent surroundings before)
    (hbuild : Settings.build before.disk surroundings [] = .ok settings) :
    (⟨before.disk, ⟨[], settings⟩⟩ : State) = before ↔ before.store.saved = [] := by
  constructor
  · intro hsame
    exact (congrArg (fun s => s.store.saved) hsame).symm
  · intro hnil
    have hsettings : before.store.settings = settings :=
      Except.ok.inj ((h.build_eq hnil).symm.trans hbuild)
    obtain ⟨disk, saved, inForce⟩ := before
    cases hnil
    cases hsettings
    rfl

/-- A reset is all or nothing exactly when the variables alone give settings, and no folder stands
in the place of the file unless nothing is saved anyway.  Otherwise it fails, and the saved values
are forgotten while the disk keeps them. -/
theorem reset_allOrNothing_iff [LawfulSettingsLibrary] (hworking : d.workingPath.IsNormal)
    (hfolder : d.isFolder d.workingPath = .ok true)
    (hload : load d surroundings = (start.disk, .ok start.store))
    (hrun : Relation.ReflTransGen (Saving surroundings) start before)
    (hreset : reset before.disk surroundings before.store = (after.disk, after.store, outcome)) :
    (AllOrNothing surroundings before after outcome ↔
      (∃ settings, Settings.build before.disk surroundings [] = .ok settings) ∧
        (before.disk.isFolder surroundings.configFile = .ok false ∨ before.store.saved = [])) ∧
    (¬ AllOrNothing surroundings before after outcome →
      (∃ fault, outcome = .error fault) ∧ after.disk = before.disk ∧ after.store.saved = [] ∧
        before.store.saved ≠ []) := by
  have hstart : Usable surroundings start.disk := usable_of_load hworking hfolder hload
  have hcurrent : IsCurrent surroundings before := (isCurrent_of_load hload).run hstart hrun
  have hcalls := Relation.ReflTransGen.mono (fun _ _ => Call.saving) _ _ hrun
  have husable : Usable surroundings before.disk := (sameVariables_run hstart hcalls).1
  obtain ⟨disk, store⟩ := after
  cases husable.resets hreset with
  | refused hbuild =>
    rename_i fault
    -- Settings in force without saved values would be the ones that could not be built.
    have hsaved : before.store.saved ≠ [] := by
      intro hnil
      rw [hcurrent.build_eq hnil] at hbuild
      cases hbuild
    have hnot : ¬ AllOrNothing surroundings before ⟨before.disk, ⟨[], before.store.settings⟩⟩
        (.error fault) := by
      intro hdone
      obtain ⟨hsame, -⟩ := allOrNothing_error_iff.mp hdone
      exact hsaved (congrArg (fun s => s.store.saved) hsame).symm
    refine ⟨iff_of_false hnot ?_, fun _ => ⟨⟨_, rfl⟩, rfl, rfl, hsaved⟩⟩
    intro hcondition
    obtain ⟨settings, hsettings⟩ := hcondition.1
    cases hsettings.symm.trans hbuild
  | unremoved hbuild hfile hloaded =>
    rw [allOrNothing_error_iff, hcurrent.forgotten_eq_iff hbuild, hfile]
    refine ⟨by simp [hbuild, hloaded], fun hnot => ⟨⟨_, rfl⟩, rfl, rfl, fun hnil => ?_⟩⟩
    exact hnot ⟨hnil, hloaded⟩
  | removed hbuild hfile hsame hgone hloaded =>
    have hdone : AllOrNothing surroundings before ⟨disk, ⟨[], _⟩⟩ (.ok ()) :=
      ⟨.inl ⟨rfl, hgone, rfl, (hsame.build_eq []).trans hbuild⟩, hloaded⟩
    exact ⟨iff_of_true hdone ⟨⟨_, hbuild⟩, .inl hfile⟩, fun hnot => absurd hdone hnot⟩

end

/-- A home folder with a file of saved values, and a working folder. -/
def diskWith (saved : List (SettingKey × Json)) : Disk where
  entries := homeDisk.entries ++
    [(["home", ".config"], .folder), (["home", ".config", "deptrace"], .folder),
      (["home", ".config", "deptrace", "config.json"], .file (fileText saved).toUTF8)]
  workingFolder := homeDisk.workingFolder

/-- A user whose variable for the depth has a text. -/
def homeWithDepth (text : String) : Surroundings :=
  .ofEnvironment [("HOME", "/home"), ("DEPTRACE_MAX_DEPTH", text)]

/-- A reset goes through where the variable behind a saved depth converts. -/
theorem reset_allOrNothing_iff_shown : ∃ start after : State, ∃ outcome,
    load (diskWith [(.maxDepth, .int 5)]) (homeWithDepth "9") = (start.disk, .ok start.store) ∧
    reset start.disk (homeWithDepth "9") start.store = (after.disk, after.store, outcome) ∧
    AllOrNothing (homeWithDepth "9") start after outcome := by
  have hbuilds : (Settings.build (load (diskWith [(.maxDepth, .int 5)]) (homeWithDepth "9")).1
      (homeWithDepth "9") []).isOk = true := by decide +kernel
  have hfile : (load (diskWith [(.maxDepth, .int 5)]) (homeWithDepth "9")).1.isFolder
      (homeWithDepth "9").configFile = .ok false := by decide +kernel
  have hworking : (diskWith [(.maxDepth, .int 5)]).workingPath.IsNormal := by decide +kernel
  have hfolder : (diskWith [(.maxDepth, .int 5)]).isFolder
      (diskWith [(.maxDepth, .int 5)]).workingPath = .ok true := by decide +kernel
  have hopens : (load (diskWith [(.maxDepth, .int 5)]) (homeWithDepth "9")).2.isOk = true := by
    decide +kernel
  obtain ⟨start, hload⟩ := exists_opened hopens
  rw [hload] at hbuilds hfile
  obtain ⟨after, outcome, hreset⟩ : ∃ after : State, ∃ outcome,
      reset start.disk (homeWithDepth "9") start.store = (after.disk, after.store, outcome) :=
    ⟨⟨_, _⟩, _, rfl⟩
  exact ⟨start, after, outcome, hload, hreset,
    (reset_allOrNothing_iff hworking hfolder hload .refl hreset).1.mpr
      ⟨Except.exists_of_isOk hbuilds, .inl hfile⟩⟩

/-- A reset breaks off half-way where the variable behind a saved depth does not convert. -/
theorem reset_breaks_off : ∃ start after : State, ∃ fault,
    load (diskWith [(.maxDepth, .int 5)]) (homeWithDepth "-1") = (start.disk, .ok start.store) ∧
    reset start.disk (homeWithDepth "-1") start.store =
      (after.disk, after.store, .error fault) ∧
    after.disk = start.disk ∧ start.store.saved ≠ [] ∧ after.store.saved = [] ∧
    ¬ AllOrNothing (homeWithDepth "-1") start after (.error fault) := by
  have hopens : (load (diskWith [(.maxDepth, .int 5)]) (homeWithDepth "-1")).2.isOk = true := by
    decide +kernel
  have hkept : (load (diskWith [(.maxDepth, .int 5)]) (homeWithDepth "-1")).2.toOption.any
      (fun opened => !opened.saved.isEmpty) = true := by decide +kernel
  have hfails : (Settings.build (load (diskWith [(.maxDepth, .int 5)]) (homeWithDepth "-1")).1
      (homeWithDepth "-1") []).isOk = false := by decide +kernel
  obtain ⟨start, hload⟩ := exists_opened hopens
  rw [hload] at hkept hfails
  have hsaved : start.store.saved ≠ [] := by simpa [Except.toOption] using hkept
  cases hbuild : Settings.build start.disk (homeWithDepth "-1") [] with
  | ok settings =>
    rw [hbuild] at hfails
    cases hfails
  | error fault =>
    have hreset : reset start.disk (homeWithDepth "-1") start.store =
        (start.disk, ⟨[], start.store.settings⟩, .error fault) := by
      rw [reset, hbuild]
    refine ⟨start, ⟨start.disk, ⟨[], start.store.settings⟩⟩, fault, hload, hreset, rfl, hsaved,
      rfl, fun hdone => ?_⟩
    obtain ⟨hsame, -⟩ := allOrNothing_error_iff.mp hdone
    exact hsaved (congrArg (fun s => s.store.saved) hsame).symm

end ImportAtlas.SettingsStore
