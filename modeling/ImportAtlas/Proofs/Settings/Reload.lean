import ImportAtlas.Proofs.Settings.Calls
import ImportAtlas.Proofs.Standard.Settings

set_option autoImplicit false

/-!
# Opening a store again

A store that is opened again on the disk that the calls on it have left is the
same: it has the same saved values in the same order, and the same settings.
One call keeps this (`Agrees.step`), so a run of calls does (`reload_eq_live`),
as long as the disk takes every file that is written.  A value is in force before
its file is written, so a write that fails leaves a store that no other store
agrees with (`set_fails_half_way`).
-/

namespace ImportAtlas.SettingsStore

open Settings (ConvertsTo)

section

variable [SettingsLibrary]

variable {surroundings : Surroundings} {d : Disk} {before after start : State}
  {saved : List (SettingKey × Json)} {settings : Settings}

/-- A value that converts with the others is in force, but the disk has not taken its file. -/
def FailsToSave (surroundings : Surroundings) (before after : State) (name text : String)
    (fault : SettingsFault) : Prop :=
  ∃ key settings cause, SettingKey.ofName? name = some key ∧
    Settings.build before.disk surroundings (Assoc.put key (givenValue text) before.store.saved) =
      .ok settings ∧
    after.store = ⟨Assoc.put key (key.shape.json (settings key)) before.store.saved, settings⟩ ∧
    before.disk.write surroundings.configFile (fileText after.store.saved).toUTF8 =
      (after.disk, some cause) ∧
    fault = .disk cause

/-- One call on a store: a value is saved, or a text is not, for another reason than that the disk
fails, or all values are forgotten. -/
inductive Step (surroundings : Surroundings) (before after : State) : Prop where
  | saved {name text : String} {value : (key : SettingKey) × key.Value}
      (hset : set before.disk surroundings before.store name text =
        (after.disk, after.store, .ok value))
      (hfloats : FloatsReadBack after.store.saved)
  | refused {name text : String} {fault : SettingsFault}
      (hset : set before.disk surroundings before.store name text =
        (after.disk, after.store, .error fault))
      (hfault : ¬ FailsToSave surroundings before after name text fault)
  | forgotten
      (hreset : reset before.disk surroundings before.store = (after.disk, after.store, .ok ()))

/-- Every store that is opened on the settings file has the value, whatever the variables say. -/
def InForce (d : Disk) (surroundings : Surroundings) (key : SettingKey) (value : key.Value) :
    Prop :=
  ∀ (other opened : Disk) (environment : List (String × String)) (store : SettingsStore),
    other.read surroundings.configFile = d.read surroundings.configFile →
    load other { surroundings with environment := environment } = (opened, .ok store) →
    store.settings key = value

/-- A store that is opened again as it is, and of which the values can be written. -/
structure Agrees (surroundings : Surroundings) (s : State) : Prop where
  usable : Usable surroundings s.disk
  storable : Storable s.store.saved
  load : SettingsStore.load s.disk surroundings = (s.disk, .ok s.store)

theorem agrees_of_load (hworking : d.workingPath.IsNormal)
    (hfolder : d.isFolder d.workingPath = .ok true)
    (hload : load d surroundings = (start.disk, .ok start.store)) : Agrees surroundings start := by
  obtain ⟨-, hconfig, hstate, hread⟩ := load_eq_ok hload
  refine ⟨usable_of_load hworking hfolder hload, storable_of_readSaved (read_eq_ok hread).1, ?_⟩
  rw [load_of_hasFolder hconfig hstate, hread]

/-- A text that is not saved leaves all as it was, unless the disk does not take the file. -/
theorem Agrees.error_cases {name text : String} {fault : SettingsFault}
    (h : Agrees surroundings before)
    (hset : set before.disk surroundings before.store name text =
      (after.disk, after.store, .error fault)) :
    after = before ∨ FailsToSave surroundings before after name text fault := by
  obtain ⟨disk, store⟩ := after
  cases h.usable.saves hset with
  | unknown => exact .inl rfl
  | refused => exact .inl rfl
  | unwritten hname hbuild _ hwrite => exact .inr ⟨_, _, _, hname, hbuild, rfl, hwrite, rfl⟩

section

variable [LawfulSettingsLibrary]

/-- Saved values that convert are in force. -/
theorem inForce_of_read (hwritable : Json.IsWritable (document saved))
    (hconverts : ConvertsTo saved settings) {key : SettingKey} {v : Json}
    (hkey : Assoc.get? key saved = some v)
    (hread : d.read surroundings.configFile = .ok (fileText saved).toUTF8) :
    InForce d surroundings key (settings key) := by
  intro other opened environment store hother hload
  obtain ⟨hkeeps, -, -, hopened⟩ := load_eq_ok hload
  obtain ⟨hsaved, hsettings⟩ := read_eq_ok hopened
  have hfile : opened.read surroundings.configFile = .ok (fileText saved).toUTF8 :=
    hkeeps.read (hother.trans hread)
  obtain rfl : store.saved = saved :=
    Except.ok.inj (hsaved.symm.trans (readSaved_of_read hwritable hfile))
  have hvalue := convertsTo_of_settingsFor hconverts hsettings key v hkey
  exact Except.ok.inj (hvalue.symm.trans (hconverts key v hkey))

/-- A value that is saved leaves a store that is opened again, with the value in force. -/
theorem Agrees.saving {name text : String} {key : SettingKey} {value : key.Value}
    (h : Agrees surroundings before)
    (hset : set before.disk surroundings before.store name text =
      (after.disk, after.store, .ok ⟨key, value⟩)) :
    SettingKey.ofName? name = some key ∧ after.store.settings key = value ∧
      (FloatsReadBack after.store.saved →
        Agrees surroundings after ∧ InForce after.disk surroundings key value) := by
  obtain ⟨disk, store⟩ := after
  cases h.usable.saves hset with
  | @written key settings _ hname hbuild hsame hread =>
    refine ⟨hname, rfl, fun hfloats => ?_⟩
    have hvalue := Settings.convertsTo_of_build hbuild key (givenValue text)
      (Assoc.get?_put_self key _ _)
    have hstorable := h.storable.put key
      (SettingShape.wellFormed_json (wellFormed_givenValue text) hvalue)
    have hwritable := isWritable_document hstorable hfloats
    have hagain := Settings.build_put_json hbuild
    obtain ⟨hconfig, hstate⟩ := hsame.usable.hasFolders
    refine ⟨⟨hsame.usable, hstorable, ?_⟩, ?_⟩
    · rw [load_of_hasFolder hconfig hstate]
      rw [read_of_readSaved (readSaved_of_read hwritable hread) ((hsame.build_eq _).trans hagain)]
    · exact inForce_of_read hwritable (Settings.convertsTo_of_build hagain)
        (Assoc.get?_put_self key _ _) hread

theorem Agrees.forgotten (h : Agrees surroundings before)
    (hreset : reset before.disk surroundings before.store = (after.disk, after.store, .ok ())) :
    Agrees surroundings after := by
  obtain ⟨disk, store⟩ := after
  cases h.usable.resets hreset with
  | removed _ _ hsame _ hload => exact ⟨hsame.usable, storable_nil, hload⟩

theorem Agrees.step (h : Agrees surroundings before) (hstep : Step surroundings before after) :
    Agrees surroundings after := by
  cases hstep with
  | saved hset hfloats => exact ((h.saving hset).2.2 hfloats).1
  | refused hset hfault =>
    rcases h.error_cases hset with rfl | hfails
    · exact h
    · exact absurd hfails hfault
  | forgotten hreset => exact h.forgotten hreset

theorem Agrees.run (h : Agrees surroundings start)
    (hrun : Relation.ReflTransGen (Step surroundings) start after) :
    Agrees surroundings after := by
  induction hrun with
  | refl => exact h
  | tail _ hstep ih => exact ih.step hstep

/-- A store that is opened again after any run of calls is the one in use.  A text that is not saved
changes nothing, unless it is the disk that fails; a saved value is the setting in use and, whatever
the variables say, that of every store opened on the file. -/
theorem reload_eq_live (hworking : d.workingPath.IsNormal)
    (hfolder : d.isFolder d.workingPath = .ok true)
    (hload : load d surroundings = (start.disk, .ok start.store))
    (hrun : Relation.ReflTransGen (Step surroundings) start after) :
    load after.disk surroundings = (after.disk, .ok after.store) ∧
    (∀ (name text : String) (fault : SettingsFault) (next : State),
      set after.disk surroundings after.store name text =
        (next.disk, next.store, .error fault) →
      next = after ∨ FailsToSave surroundings after next name text fault) ∧
    ∀ (name text : String) (key : SettingKey) (value : key.Value) (next : State),
      set after.disk surroundings after.store name text =
        (next.disk, next.store, .ok ⟨key, value⟩) →
      SettingKey.ofName? name = some key ∧ next.store.settings key = value ∧
        (FloatsReadBack next.store.saved →
          load next.disk surroundings = (next.disk, .ok next.store) ∧
            InForce next.disk surroundings key value) := by
  have hagrees := (agrees_of_load hworking hfolder hload).run hrun
  refine ⟨hagrees.load, fun name text fault next hset => hagrees.error_cases hset,
    fun name text key value next hset => ?_⟩
  obtain ⟨hname, hvalue, hafter⟩ := hagrees.saving hset
  refine ⟨hname, hvalue, fun hfloats => ?_⟩
  obtain ⟨hopens, hforce⟩ := hafter hfloats
  exact ⟨hopens.load, hforce⟩

end

end

/-- A home folder and a working folder, with nothing in them. -/
def homeDisk : Disk where
  entries := [(["home"], .folder), (["work"], .folder)]
  workingFolder := ["work"]

/-- A user whose variables set a depth. -/
def home : Surroundings :=
  .ofEnvironment [("HOME", "/home"), ("DEPTRACE_MAX_DEPTH", "9")]

theorem exists_opened {d : Disk} {surroundings : Surroundings}
    (h : (load d surroundings).2.isOk = true) :
    ∃ start : State, load d surroundings = (start.disk, .ok start.store) := by
  obtain ⟨store, hstore⟩ := Except.exists_of_isOk h
  exact ⟨⟨(load d surroundings).1, store⟩, Prod.ext rfl hstore⟩

/-- A depth that is saved is in force although a variable tells another. -/
theorem reload_eq_live_home : ∃ start after : State,
    load homeDisk home = (start.disk, .ok start.store) ∧
    set start.disk home start.store "max_depth" "5" =
      (after.disk, after.store, .ok ⟨.maxDepth, (5 : Int)⟩) ∧
    load after.disk home = (after.disk, .ok after.store) ∧
    InForce after.disk home .maxDepth (5 : Int) := by
  obtain ⟨store, hstore⟩ := Except.exists_of_isOk (r := (load homeDisk home).2) (by decide +kernel)
  have hload : load homeDisk home = ((load homeDisk home).1, .ok store) := Prod.ext rfl hstore
  have hsaved : store.saved = [] := by
    obtain ⟨-, -, -, hread⟩ := load_eq_ok hload
    exact (Except.ok.inj (rfl.symm.trans (read_eq_ok hread).1)).symm
  obtain ⟨settings, hbuild⟩ := Except.exists_of_isOk (r := Settings.build (load homeDisk home).1
    home [(.maxDepth, .int 5)]) (by decide +kernel)
  have hvalue : settings .maxDepth = (5 : Int) := by
    have hconvert := Settings.convertsTo_of_build hbuild .maxDepth (.int 5) rfl
    exact (Except.ok.inj (rfl.symm.trans hconvert)).symm
  have hwritten : ((load homeDisk home).1.write home.configFile
    (fileText [(.maxDepth, .int 5)]).toUTF8).2 = none := by decide +kernel
  let start : State := ⟨(load homeDisk home).1, store⟩
  let after : State := ⟨((load homeDisk home).1.write home.configFile
    (fileText [(.maxDepth, .int 5)]).toUTF8).1, ⟨[(.maxDepth, .int 5)], settings⟩⟩
  have hset : set start.disk home start.store "max_depth" "5" =
      (after.disk, after.store, .ok ⟨.maxDepth, (5 : Int)⟩) := by
    have hname : SettingKey.ofName? "max_depth" = some .maxDepth := rfl
    have hgiven : givenValue "5" = .int 5 := rfl
    have hwrite : (load homeDisk home).1.write home.configFile
        (fileText [(.maxDepth, .int 5)]).toUTF8 = (after.disk, none) := Prod.ext rfl hwritten
    simp only [set, hname, hgiven, start, hsaved, Assoc.put, hbuild, hvalue, SettingShape.json,
      hwrite]
    rfl
  have hfloats : FloatsReadBack after.store.saved := by
    intro pair hmem x hx
    obtain rfl := List.mem_singleton.mp hmem
    cases hx
  have hreload : ∀ next, Relation.ReflTransGen (Step home) start next → _ := fun next =>
    reload_eq_live (by decide +kernel) (by decide +kernel) hload
  obtain ⟨-, -, hsaves⟩ := hreload start .refl
  obtain ⟨-, -, hinForce⟩ := hsaves _ _ _ _ after hset
  exact ⟨start, after, hload, hset, (hreload after (.single (.saved hset hfloats))).1,
    (hinForce hfloats).2⟩

/-- A home folder with a file of saved values that can hold three bytes, and a working folder. -/
def fullDisk : Disk where
  entries := homeDisk.entries ++
    [(["home", ".config"], .folder), (["home", ".config", "deptrace"], .folder),
      (["home", ".config", "deptrace", "config.json"], .file "\x7b\x7d".toUTF8)]
  workingFolder := homeDisk.workingFolder
  limits := [(["home", ".config", "deptrace", "config.json"], 3)]

/-- Whether a text is in force though it was not saved: the store holds another number of values
than before, and than the store that is opened afterwards, and the file has another size. -/
def driftsApart (d : Disk) (surroundings : Surroundings) (name text : String) : Bool :=
  match load d surroundings with
  | (opened, .ok store) =>
    match set opened surroundings store name text with
    | (disk, after, .error (.disk _)) =>
      match load disk surroundings with
      | (_, .ok again) =>
        decide (after.saved.length ≠ store.saved.length) &&
          decide (again.saved.length ≠ after.saved.length) &&
          decide ((disk.read surroundings.configFile).toOption.map ByteArray.size ≠
            (opened.read surroundings.configFile).toOption.map ByteArray.size)
      | _ => false
    | _ => false
  | _ => false

/-- A value that the disk has no room for is in force all the same, and its file is cut off. -/
theorem set_fails_half_way : ∃ start after again : State, ∃ cause,
    load fullDisk home = (start.disk, .ok start.store) ∧
    set start.disk home start.store "max_depth" "7" =
      (after.disk, after.store, .error (.disk cause)) ∧
    load after.disk home = (again.disk, .ok again.store) ∧
    after.store.saved ≠ start.store.saved ∧ again.store.saved ≠ after.store.saved ∧
    after.disk.read home.configFile ≠ start.disk.read home.configFile := by
  have hdrifts : driftsApart fullDisk home "max_depth" "7" = true := by decide +kernel
  unfold driftsApart at hdrifts
  split at hdrifts
  · rename_i opened store hload
    split at hdrifts
    · rename_i disk after cause hset
      split at hdrifts
      · rename_i last again hagain
        simp only [Bool.and_eq_true, decide_eq_true_eq] at hdrifts
        obtain ⟨⟨hsaved, hreload⟩, hfile⟩ := hdrifts
        refine ⟨⟨opened, store⟩, ⟨disk, after⟩, ⟨last, again⟩, cause, hload, hset, hagain,
          ?_, ?_, ?_⟩
        · exact fun h => hsaved (congrArg List.length h)
        · exact fun h => hreload (congrArg List.length h)
        · exact fun h => hfile (congrArg (fun bytes => bytes.toOption.map ByteArray.size) h)
      · cases hdrifts
    · cases hdrifts
  · cases hdrifts

end ImportAtlas.SettingsStore
