import ImportAtlas.Command.Configure
import ImportAtlas.Proofs.Console.Printing
import ImportAtlas.Proofs.Settings.Judging

set_option autoImplicit false

/-!
# How far the command `config` comes

The command opens a store, forgets its values if asked to, and saves new ones
until one is refused.  As long as it goes on it keeps a store that agrees with the
disk (`Live`), and a change leaves saved values that convert (`live_configured`).
A run that breaks off never looks as if it had finished (`BreaksOff`).
-/

namespace ImportAtlas

open Printing

/-! ## Stores that a run has kept -/

namespace SettingsStore

open Settings (ConvertsTo)

variable {d e : Disk} {surroundings : Surroundings} {start before after : State}
  {saved : List (SettingKey × Json)}

/-- The settings file holds saved values: they are read from it, or it is their text.  A text of
which the floats read back is read as the values. -/
structure Holds (d : Disk) (surroundings : Surroundings) (saved : List (SettingKey × Json)) :
    Prop where
  file : readSaved d surroundings = .ok saved ∨
    d.read surroundings.configFile = .ok (fileText saved).toUTF8
  read : FloatsReadBack saved → readSaved d surroundings = .ok saved

variable [SettingsLibrary]

/-- The settings in force are those of the saved values, which the settings file holds. -/
structure Live (surroundings : Surroundings) (s : State) : Prop where
  usable : Usable surroundings s.disk
  current : IsCurrent surroundings s
  storable : Storable s.store.saved
  holds : Holds s.disk surroundings s.store.saved

theorem live_of_load (hworking : d.workingPath.IsNormal)
    (hfolder : d.isFolder d.workingPath = .ok true)
    (hload : load d surroundings = (start.disk, .ok start.store)) : Live surroundings start := by
  obtain ⟨-, -, -, hread⟩ := load_eq_ok hload
  have hsaved := (read_eq_ok hread).1
  exact ⟨usable_of_load hworking hfolder hload, isCurrent_of_load hload,
    storable_of_readSaved hsaved, ⟨.inl hsaved, fun _ => hsaved⟩⟩

variable [LawfulSettingsLibrary]

/-- A value that is saved leaves saved values that convert. -/
theorem Live.set {name text : String} {value : (key : SettingKey) × key.Value}
    (h : Live surroundings before)
    (hset : SettingsStore.set before.disk surroundings before.store name text =
      (after.disk, after.store, .ok value)) :
    Live surroundings after ∧ ConvertsTo after.store.saved after.store.settings := by
  obtain ⟨disk, store⟩ := after
  cases h.usable.saves hset with
  | written hname hbuild hsame hread =>
    rename_i key settings
    have hvalue := Settings.convertsTo_of_build hbuild key (givenValue text)
      (Assoc.get?_put_self key _ _)
    have hstorable := h.storable.put key
      (SettingShape.wellFormed_json (wellFormed_givenValue text) hvalue)
    have hconverts := Settings.convertsTo_of_build (Settings.build_put_json hbuild)
    refine ⟨⟨hsame.1, h.current.saving h.usable ⟨name, text, _, hset⟩, hstorable, .inr hread,
      fun hfloats => ?_⟩, hconverts⟩
    exact readSaved_of_read (isWritable_document hstorable hfloats) hread

theorem Live.reset {u : Unit} (h : Live surroundings before)
    (hreset : SettingsStore.reset before.disk surroundings before.store =
      (after.disk, after.store, .ok u)) :
    Live surroundings after ∧ ConvertsTo after.store.saved after.store.settings := by
  obtain ⟨disk, store⟩ := after
  cases h.usable.resets hreset with
  | removed _ _ hsame _ hload =>
    obtain ⟨-, -, -, hread⟩ := load_eq_ok hload
    have hsaved := (read_eq_ok hread).1
    exact ⟨⟨hsame.1, isCurrent_of_load hload, storable_nil, .inl hsaved, fun _ => hsaved⟩, nofun⟩

end SettingsStore

namespace Command

/-- A run that only has to print finishes if the printing does. -/
theorem printing_finished {disk : Disk} {before : String} {p : Printing Unit} (hp : NeverFinishes p)
    (h : (CommandRun.printing disk before p).ending = .finished) :
    ∃ output, p.runFrom before = (.ok (), output) ∧
      CommandRun.printing disk before p = ⟨disk, output, .finished⟩ := by
  unfold CommandRun.printing at h ⊢
  rcases hrun : p.runFrom before with ⟨ending | u, output⟩
  · rw [hrun] at h
    exact absurd (h ▸ hrun) (hp before output)
  · exact ⟨output, rfl, rfl⟩

namespace ConfigProgress

open SettingsStore (Live)

variable {surroundings : Surroundings} {s : ConfigProgress} {words : List String}

/-- The store and the disk that the command has come to. -/
def state (s : ConfigProgress) : SettingsStore.State :=
  ⟨s.disk, s.store⟩

/-- A run that broke off does not count as finished. -/
def BreaksOff (s : ConfigProgress) : Prop :=
  s.ended ≠ some .finished

theorem BreaksOff.tell {p : Printing Unit} (h : s.BreaksOff) (hp : NeverFinishes p) :
    (s.tell p).BreaksOff := by
  unfold ConfigProgress.tell
  cases hrun : p.runFrom s.output with
  | mk result output =>
    cases result with
    | ok u => exact h
    | error ending =>
      intro hended
      cases Option.some.inj hended
      exact hp _ _ hrun

theorem state_tell (s : ConfigProgress) (p : Printing Unit) : (s.tell p).state = s.state := by
  unfold ConfigProgress.tell
  split
  · rfl
  · rfl

section

variable [Console]

theorem BreaksOff.refuse (h : s.BreaksOff) (message : String) : (s.refuse message).BreaksOff :=
  h.tell ((NeverFinishes.of_say _).bind fun _ => .of_throw nofun)

/-- A refusal ends the command. -/
theorem ended_refuse (s : ConfigProgress) (message : String) : (s.refuse message).ended ≠ none := by
  unfold ConfigProgress.refuse ConfigProgress.tell
  split
  · rename_i hrun
    obtain ⟨u, printed, -, hthrow⟩ := bind_eq_ok hrun
    cases hthrow
  · exact Option.some_ne_none _

variable [SettingsLibrary]

theorem BreaksOff.save {name value : String} (h : s.BreaksOff) :
    (s.save surroundings name value).BreaksOff := by
  have hkept : ∀ disk store, BreaksOff ({ s with disk, store } : ConfigProgress) :=
    fun _ _ => h
  unfold ConfigProgress.save
  dsimp only
  split
  · exact hkept _ _
  · exact (hkept _ _).refuse _
  · exact (hkept _ _).refuse _
  · exact nofun

/-- A value after which the command goes on is saved. -/
theorem save_eq_ok {name value : String} (h : (s.save surroundings name value).ended = none) :
    ∃ saved, s.store.set s.disk surroundings name value =
      ((s.save surroundings name value).disk, (s.save surroundings name value).store,
        .ok saved) := by
  rcases hset : s.store.set s.disk surroundings name value with ⟨disk, store, fault | saved⟩
  · simp only [ConfigProgress.save, hset] at h
    cases fault with
    | unknownKey name => exact absurd h (ended_refuse _ _)
    | invalid issues => exact absurd h (ended_refuse _ _)
    | disk fault => cases h
    | notText fault => cases h
    | notJson message => cases h
  · refine ⟨saved, ?_⟩
    simp only [ConfigProgress.save, hset]

/-- An assignment after which the command goes on is a value that is saved. -/
theorem assign_eq_ok {word : String} (h : (s.assign surroundings word).ended = none) :
    s.ended = none ∧ ∃ name value saved, s.store.set s.disk surroundings name value =
      ((s.assign surroundings word).disk, (s.assign surroundings word).store, .ok saved) := by
  have hended : s.ended = none := by
    cases hs : s.ended with
    | none => rfl
    | some ending =>
      rw [ConfigProgress.assign, hs, Option.isSome_some, if_pos rfl, hs] at h
      cases h
  refine ⟨hended, ?_⟩
  rw [ConfigProgress.assign, hended, Option.isSome_none, if_neg Bool.false_ne_true] at h ⊢
  split at h
  · exact absurd h (ended_refuse _ _)
  · exact ⟨_, _, save_eq_ok h⟩

theorem BreaksOff.assign (h : s.BreaksOff) (word : String) :
    (s.assign surroundings word).BreaksOff := by
  unfold ConfigProgress.assign
  split
  · exact h
  · split
    · exact h.refuse _
    · exact h.save

/-- Assignments after which the command goes on keep the store, and leave saved values that
convert. -/
theorem live_foldl_assign [LawfulSettingsLibrary]
    (hended : (words.foldl (assign surroundings) s).ended = none) :
    s.ended = none ∧ (Live surroundings s.state →
      Live surroundings (words.foldl (assign surroundings) s).state ∧
        (words ≠ [] → Settings.ConvertsTo (words.foldl (assign surroundings) s).store.saved
          (words.foldl (assign surroundings) s).store.settings)) := by
  -- From the end: that the command goes on after all words says that it does after fewer.
  induction words using List.reverseRecOn with
  | nil => exact ⟨hended, fun h => ⟨h, fun hne => absurd rfl hne⟩⟩
  | append_singleton words word ih =>
    rw [List.foldl_append, List.foldl_cons, List.foldl_nil] at hended ⊢
    obtain ⟨hbefore, name, value, saved, hset⟩ := assign_eq_ok hended
    obtain ⟨hstart, hkeeps⟩ := ih hbefore
    refine ⟨hstart, fun hlive => ?_⟩
    have hafter : Live surroundings
        (assign surroundings (words.foldl (assign surroundings) s) word).state ∧ _ :=
      (hkeeps hlive).1.set hset
    exact ⟨hafter.1, fun _ => hafter.2⟩

theorem BreaksOff.foldl_assign (h : s.BreaksOff) (words : List String) :
    (words.foldl (ConfigProgress.assign surroundings) s).BreaksOff := by
  induction words generalizing s with
  | nil => exact h
  | cons word words ih => exact ih (h.assign word)

theorem BreaksOff.reset (h : s.BreaksOff) : (s.reset surroundings).BreaksOff := by
  unfold ConfigProgress.reset
  split
  · exact tell h (NeverFinishes.of_say _)
  · exact nofun

/-- A reset after which the command goes on keeps the store, and leaves saved values that
convert. -/
theorem live_reset [LawfulSettingsLibrary] (hended : (s.reset surroundings).ended = none)
    (hlive : Live surroundings s.state) :
    Live surroundings (s.reset surroundings).state ∧
      Settings.ConvertsTo (s.reset surroundings).store.saved
        (s.reset surroundings).store.settings := by
  rcases hreset : s.store.reset s.disk surroundings with ⟨disk, store, fault | u⟩
  · simp only [ConfigProgress.reset, hreset] at hended
    cases hended
  · have hstate : (s.reset surroundings).state = ⟨disk, store⟩ := by
      simp only [ConfigProgress.reset, hreset]
      exact state_tell _ _
    have hafter : Live surroundings ⟨disk, store⟩ ∧ _ := hlive.reset hreset
    have hstore : (s.reset surroundings).store = store := congrArg (fun s => s.store) hstate
    rw [hstate, hstore]
    exact hafter

end

end ConfigProgress

/-! ## The run before it prints -/

open SettingsStore (State Live load)
open Settings (ConvertsTo)

variable [SettingsLibrary] [Console] {surroundings : Surroundings} {d : Disk}
  {assignments : List String} {resets : Bool}

/-- How far the command comes on an opened store before it prints. -/
def configured (surroundings : Surroundings) (opened : State) (assignments : List String)
    (resets : Bool) : ConfigProgress :=
  let start : ConfigProgress := ⟨opened.disk, opened.store, "", none⟩
  assignments.foldl (ConfigProgress.assign surroundings)
    (if resets then start.reset surroundings else start)

theorem runConfig_of_load {opened : State}
    (hload : load d surroundings = (opened.disk, .ok opened.store)) (assignments : List String)
    (resets : Bool) :
    runConfig d surroundings assignments resets =
      match (configured surroundings opened assignments resets).ended with
      | some ending =>
        ⟨(configured surroundings opened assignments resets).disk,
          (configured surroundings opened assignments resets).output, ending⟩
      | none =>
        .printing (configured surroundings opened assignments resets).disk
          (configured surroundings opened assignments resets).output
          (printSettings surroundings
            (configured surroundings opened assignments resets).store) := by
  have hopen : openSettings d surroundings = .ok (opened.disk, opened.store) := by
    rw [openSettings, hload]
  unfold runConfig
  rw [hopen, Except.ok_bind]
  cases hended : (configured surroundings opened assignments resets).ended with
  | some ending =>
    dsimp only [configured] at hended ⊢
    simp only [hended]
    rfl
  | none =>
    dsimp only [configured] at hended ⊢
    simp only [hended]
    rfl

theorem breaksOff_configured (opened : State) (assignments : List String) (resets : Bool) :
    (configured surroundings opened assignments resets).BreaksOff := by
  have hstart : ConfigProgress.BreaksOff ⟨opened.disk, opened.store, "", none⟩ := nofun
  apply ConfigProgress.BreaksOff.foldl_assign
  cases resets with
  | false => exact hstart
  | true => exact hstart.reset

theorem live_configured [LawfulSettingsLibrary] {opened : State} (hlive : Live surroundings opened)
    (hended : (configured surroundings opened assignments resets).ended = none) :
    Live surroundings (configured surroundings opened assignments resets).state ∧
      (resets = true ∨ assignments ≠ [] →
        ConvertsTo (configured surroundings opened assignments resets).store.saved
          (configured surroundings opened assignments resets).store.settings) := by
  obtain ⟨hcleared, hkeeps⟩ := ConfigProgress.live_foldl_assign hended
  cases resets with
  | false =>
    obtain ⟨hafter, hconverts⟩ := hkeeps hlive
    refine ⟨hafter, fun hchanged => hconverts ?_⟩
    exact hchanged.resolve_left Bool.false_ne_true
  | true =>
    obtain ⟨hreset, hempty⟩ := ConfigProgress.live_reset hcleared hlive
    obtain ⟨hafter, hconverts⟩ := hkeeps hreset
    refine ⟨hafter, fun _ => ?_⟩
    cases assignments with
    | nil => exact hempty
    | cons word words => exact hconverts (List.cons_ne_nil _ _)

end Command

end ImportAtlas
