import ImportAtlas.Command.Analyze
import ImportAtlas.Proofs.Analysis.Outcomes
import ImportAtlas.Proofs.Console.Printing
import ImportAtlas.Proofs.Disk.Files
import ImportAtlas.Standard.Console
import ImportAtlas.Standard.Settings

set_option autoImplicit false

/-!
# What the command `analyze` touches

A run opens the user's folders and the log, reads the disk, and only then writes
the report.  Each way in which it may end before that leaves every file but the
log as it was, and none of them looks as if the run had finished
(`runAnalyze_cases`); so a run touches the report alone, and one that ends with
0 has updated it (`runAnalyze_touches_report`).
-/

namespace ImportAtlas

open Printing Disk

namespace Request

variable [Console] {disk : Disk} {settings : Settings} {root : Path}

theorem neverFinishes_printHint : NeverFinishes (printHint disk root) := by
  refine (NeverFinishes.of_attempt _ _).bind fun lines => ?_
  split
  · exact .of_pure ()
  · refine (NeverFinishes.of_say _).bind fun _ => ?_
    refine (NeverFinishes.forM fun line => .of_echo _).bind fun _ => ?_
    split
    · exact .of_echo _
    · exact .of_pure ()

theorem neverFinishes_folder (given : Option Path) : NeverFinishes (folder disk given) := by
  refine (NeverFinishes.of_attempt _ _).bind fun found => ?_
  cases found with
  | false => exact (NeverFinishes.of_say _).bind fun _ => .of_throw nofun
  | true => exact .of_pure _

theorem neverFinishes_entriesOf (given : List String) :
    NeverFinishes (entriesOf disk settings root given) := by
  unfold entriesOf
  dsimp only
  split
  · exact .of_pure _
  · refine (NeverFinishes.of_attempt _ _).bind fun found => ?_
    cases found with
    | some found => exact (NeverFinishes.of_say _).bind fun _ => .of_pure _
    | none =>
      exact (NeverFinishes.of_say _).bind fun _ =>
        neverFinishes_printHint.bind fun _ => .of_throw nofun

theorem neverFinishes_create (arguments : AnalysisArguments) :
    NeverFinishes (create disk settings arguments) :=
  (neverFinishes_folder _).bind fun _ => (neverFinishes_entriesOf _).bind fun _ => .of_pure _

end Request

namespace Command

variable {disk : Disk}

/-! ## Opening the settings and the log -/

theorem sameFiles_openLog {opened : Disk} {surroundings : Surroundings}
    (h : openLog disk surroundings = .ok opened) :
    SameFiles [surroundings.logFile] disk opened := by
  unfold openLog openBehind at h
  cases htarget : disk.target surroundings.logFile with
  | error fault =>
    rw [htarget] at h
    cases h
  | ok location =>
    rw [htarget, Except.map, Except.ok.injEq] at h
    split at h
    · subst h
      exact (SameFiles.refl disk).mono (List.nil_subset _)
    · subst h
      exact sameFiles_put htarget _

section

variable [SettingsLibrary]

theorem sameFiles_load (disk : Disk) (surroundings : Surroundings) :
    SameFiles [] disk (SettingsStore.load disk surroundings).1 := by
  have hconfig := sameFiles_makeFolders disk surroundings.configFolder
  unfold SettingsStore.load
  rcases hmade : disk.makeFolders surroundings.configFolder with ⟨made, _ | fault⟩
  · rw [hmade] at hconfig
    have hstate := sameFiles_makeFolders made surroundings.stateFolder
    refine hconfig.trans ?_
    rcases hall : made.makeFolders surroundings.stateFolder with ⟨all, _ | fault⟩ <;>
      simpa only [hall] using hstate
  · rwa [hmade] at hconfig

/-- The settings and the log are opened, or the run breaks off; no file but the log changes. -/
theorem openSettingsAndLog_cases (disk : Disk) (surroundings : Surroundings) :
    (∃ opened settings, openSettingsAndLog disk surroundings = .ok (opened, settings) ∧
      SameFiles [surroundings.logFile] disk opened) ∨
    ∃ run, openSettingsAndLog disk surroundings = .error run ∧ run.ending ≠ .finished ∧
      SameFiles [surroundings.logFile] disk run.disk := by
  have hload := sameFiles_load disk surroundings
  unfold openSettingsAndLog openSettings
  rcases hloaded : SettingsStore.load disk surroundings with ⟨loaded, fault | store⟩
  · rw [hloaded] at hload
    exact .inr ⟨_, rfl, nofun, hload.mono (List.nil_subset _)⟩
  · rw [hloaded] at hload
    simp only [Except.ok_bind]
    cases hlog : openLog loaded surroundings with
    | error fault => exact .inr ⟨_, rfl, nofun, hload.mono (List.nil_subset _)⟩
    | ok opened => exact .inl ⟨opened, store.settings, rfl, hload.trans (sameFiles_openLog hlog)⟩

end

theorem disk_printing (disk : Disk) (before : String) (p : Printing Unit) :
    (CommandRun.printing disk before p).disk = disk := by
  unfold CommandRun.printing
  split <;> rfl

section

/-! ## What is found -/

variable [Console] {settings : Settings} {request : Request} {batch : Batch} {data : Merged}
  {before output : String}

theorem analyse_eq_ok (h : (analyse disk request).runFrom before = (.ok batch, output)) :
    Batch.ofEntries disk request.options request.entries = .ok batch := by
  unfold analyse at h
  split at h
  · rename_i found hfound
    simp only [runFrom_pure, Prod.mk.injEq, Except.ok.injEq] at h
    rw [hfound, h.1]
  · cases h
  · obtain ⟨u, printed, -, hthrow⟩ := bind_eq_ok h
    cases hthrow

theorem neverFinishes_analyse : NeverFinishes (analyse disk request) := by
  unfold analyse
  split
  · exact .of_pure _
  · exact .of_fail _
  · exact (NeverFinishes.of_say _).bind fun _ => .of_throw nofun

omit [Console] in
theorem neverFinishes_printJson : NeverFinishes (printJson batch) := by
  refine (NeverFinishes.of_echo _).bind fun _ => ?_
  split
  · exact .of_throw nofun
  · exact .of_pure _

theorem neverFinishes_printSkipped (b : Batch) : NeverFinishes b.printSkipped :=
  (NeverFinishes.forM fun _ => .of_say _).bind fun _ => .forM fun _ => .of_say _

theorem printBatch_eq_ok
    (h : (printBatch disk request batch).runFrom before = (.ok data, output)) :
    batch.data? = some data := by
  obtain ⟨u, printed, -, hrest⟩ := bind_eq_ok h
  split at hrest
  · rename_i found hfound
    obtain ⟨u, printed, -, hreturn⟩ := bind_eq_ok hrest
    simp only [runFrom_pure, Prod.mk.injEq, Except.ok.injEq] at hreturn
    rw [hfound, hreturn.1]
  · obtain ⟨u, printed, -, hrest⟩ := bind_eq_ok hrest
    obtain ⟨u, printed, -, hthrow⟩ := bind_eq_ok hrest
    cases hthrow

theorem neverFinishes_printBatch : NeverFinishes (printBatch disk request batch) := by
  refine (neverFinishes_printSkipped batch).bind fun _ => ?_
  split
  · exact (NeverFinishes.forM fun _ => .of_echo _).bind fun _ => .of_pure _
  · exact (NeverFinishes.of_say _).bind fun _ =>
      Request.neverFinishes_printHint.bind fun _ => .of_throw nofun

/-- The entries of a request on a disk have these results, in order. -/
def HasResults (disk : Disk) (request : Request) (results : List Analysis) : Prop :=
  ∃ outcomes, List.Forall₂ (Batch.HasOutcome disk request.options)
    (trimmedEntries request.entries) outcomes ∧
      outcomes.filterMap EntryOutcome.analysed? = results

/-- What is found for a reader is the merged result of the entries of which there is one; nothing is
left to be written when the result was printed as JSON. -/
theorem findings_eq_ok {arguments : AnalysisArguments} {found : Option (Request × Merged)}
    (h : (findings disk settings arguments).runFrom before = (.ok found, output)) :
    ∃ request printed results,
      (Request.create disk settings arguments).runFrom before = (.ok request, printed) ∧
        HasResults disk request results ∧
        ((arguments.asJson = true ∧ found = none) ∨
          (arguments.asJson = false ∧ ∃ data, Merged.ofResults? results = some data ∧
            found = some (request, data))) := by
  obtain ⟨request, printed, hcreate, hrest⟩ := bind_eq_ok h
  obtain ⟨batch, printed', hanalyse, hrest⟩ := bind_eq_ok hrest
  obtain ⟨outcomes, houtcomes, hshows⟩ :=
    Batch.exists_outcomes_of_ofEntries (analyse_eq_ok hanalyse)
  refine ⟨request, printed, _, hcreate, ⟨outcomes, houtcomes, rfl⟩, ?_⟩
  split at hrest
  · rename_i hjson
    obtain ⟨u, printed'', -, hreturn⟩ := bind_eq_ok hrest
    simp only [runFrom_pure, Prod.mk.injEq, Except.ok.injEq] at hreturn
    exact .inl ⟨hjson, hreturn.1.symm⟩
  · rename_i hjson
    obtain ⟨data, printed'', hprint, hreturn⟩ := bind_eq_ok hrest
    simp only [runFrom_pure, Prod.mk.injEq, Except.ok.injEq] at hreturn
    refine .inr ⟨Bool.eq_false_iff.mpr hjson, data, ?_, hreturn.1.symm⟩
    rw [← hshows.analysed, ← hshows.merged, printBatch_eq_ok hprint]

theorem neverFinishes_findings (arguments : AnalysisArguments) :
    NeverFinishes (findings disk settings arguments) := by
  refine (Request.neverFinishes_create arguments).bind fun request => ?_
  refine neverFinishes_analyse.bind fun batch => ?_
  split
  · exact neverFinishes_printJson.bind fun _ => .of_pure _
  · exact neverFinishes_printBatch.bind fun _ => .of_pure _

/-! ## Writing the report -/

/-- A message that ends the command is no way to finish. -/
theorem not_finished_unsaved (disk : Disk) (before : String) (path : Path) :
    (CommandRun.printing disk before (unsavedMessage path)).ending ≠ .finished := by
  have hfails : NeverFinishes (unsavedMessage path) :=
    (NeverFinishes.of_say _).bind fun _ => .of_throw nofun
  unfold CommandRun.printing
  rcases hrun : (unsavedMessage path).runFrom before with ⟨ending | u, printed⟩
  · exact fun hfinished => hfails before printed (hfinished ▸ hrun)
  · obtain ⟨u, printed, -, hthrow⟩ := bind_eq_ok hrun
    cases hthrow

/-- A report is written as an update, and a run whose report was not written does not finish. -/
theorem writeReport_spec (disk : Disk) (output : String) (request : Request) (data : Merged) :
    (writeReport disk output request data).disk =
        (Section.update disk request.report (data.report request.title).text).1 ∧
      ((writeReport disk output request data).ending = .finished →
        (Section.update disk request.report (data.report request.title).text).2 = .written) := by
  unfold writeReport
  rcases Section.update disk request.report (data.report request.title).text with
    ⟨updated, _ | fault | fault | fault | fault⟩
  · exact ⟨disk_printing .., fun _ => rfl⟩
  · exact ⟨disk_printing .., fun h => absurd h (not_finished_unsaved updated output _)⟩
  · exact ⟨rfl, nofun⟩
  · exact ⟨rfl, nofun⟩
  · exact ⟨rfl, nofun⟩

/-! ## The whole run -/

variable [SettingsLibrary]

/-- The run comes to a request, on a disk with the user's folders and the log. -/
def Requests (disk : Disk) (surroundings : Surroundings) (arguments : AnalysisArguments)
    (opened : Disk) (request : Request) : Prop :=
  ∃ settings printed, openSettingsAndLog disk surroundings = .ok (opened, settings) ∧
    (Request.create opened settings arguments).output = (.ok request, printed)

/-- Once the settings and the log are open, what is found says how the run goes on. -/
theorem runAnalyze_of_open {surroundings : Surroundings} {opened : Disk}
    (h : openSettingsAndLog disk surroundings = .ok (opened, settings))
    (arguments : AnalysisArguments) :
    runAnalyze disk surroundings arguments =
      match (findings opened settings arguments).runFrom "" with
      | (.error ending, output) => ⟨opened, output, ending⟩
      | (.ok none, output) => ⟨opened, output, .finished⟩
      | (.ok (some (request, data)), output) => writeReport opened output request data := by
  unfold runAnalyze CommandRun.print
  rw [h, Except.ok_bind]
  dsimp only
  rcases (findings opened settings arguments).runFrom "" with ⟨ending | _ | ⟨request, data⟩, output⟩
  · rfl
  · rfl
  · rfl

/-- A run writes no file but the log, or it updates the report with the merged result of the
entries, of which one was analysed. -/
theorem runAnalyze_cases (disk : Disk) (surroundings : Surroundings)
    (arguments : AnalysisArguments) :
    let run := runAnalyze disk surroundings arguments
    (SameFiles [surroundings.logFile] disk run.disk ∧
      (run.ending = .finished → arguments.asJson = true)) ∨
    arguments.asJson = false ∧ ∃ opened request results data,
      Requests disk surroundings arguments opened request ∧ HasResults opened request results ∧
      Merged.ofResults? results = some data ∧
      SameFiles [surroundings.logFile] disk opened ∧
      run.disk = (Section.update opened request.report (data.report request.title).text).1 ∧
      (run.ending = .finished →
        (Section.update opened request.report (data.report request.title).text).2 = .written) := by
  intro run
  rcases openSettingsAndLog_cases disk surroundings with
    ⟨opened, settings, hopen, hsame⟩ | ⟨broken, hopen, hending, hsame⟩
  · have hstart := runAnalyze_of_open hopen arguments
    rcases hfindings : (findings opened settings arguments).runFrom "" with ⟨ending | found, output⟩
    · have hrun : run = ⟨opened, output, ending⟩ := by rw [hfindings] at hstart; exact hstart
      have hends : run.ending = ending := by rw [hrun]
      refine .inl ⟨by rwa [hrun], fun hfinished => ?_⟩
      rw [← hends, hfinished] at hfindings
      exact absurd hfindings (neverFinishes_findings arguments _ _)
    · obtain ⟨request, printed, results, hcreate, hresults, hfound⟩ := findings_eq_ok hfindings
      rcases hfound with ⟨hjson, rfl⟩ | ⟨hjson, data, hdata, rfl⟩
      · have hrun : run = ⟨opened, output, .finished⟩ := by rw [hfindings] at hstart; exact hstart
        exact .inl ⟨by rwa [hrun], fun _ => hjson⟩
      · have hrun : run = writeReport opened output request data := by
          rw [hfindings] at hstart
          exact hstart
        obtain ⟨hdisk, hwritten⟩ := writeReport_spec opened output request data
        rw [← hrun] at hdisk hwritten
        exact .inr ⟨hjson, opened, request, results, data, ⟨settings, printed, hopen, hcreate⟩,
          hresults, hdata, hsame, hdisk, hwritten⟩
  · have hrun : run = broken := by
      simp only [run, runAnalyze, hopen]
      rfl
    rw [hrun]
    exact .inl ⟨hsame, fun hfinished => absurd hfinished hending⟩

/-- **The command `analyze` touches the report alone.**  Apart from the log, a run changes, makes or
removes no file but the one at the path of the report; and none at all when the result is printed
as JSON, or when no entry has a result.  When a run that writes a report ends with 0, the report is
what the update makes of the file that was there and the merged result of the entries. -/
theorem runAnalyze_touches_report (disk : Disk) (surroundings : Surroundings)
    (arguments : AnalysisArguments) :
    let run := runAnalyze disk surroundings arguments
    let comesTo := fun opened request results =>
      Requests disk surroundings arguments opened request ∧ HasResults opened request results
    (∀ location, run.disk.locate .openFile surroundings.logFile ≠ .ok location →
      run.disk.fileAt? location = disk.fileAt? location ∨
        arguments.asJson = false ∧ ∃ opened request results, comesTo opened request results ∧
          results ≠ [] ∧ run.disk.locate .openFile request.report = .ok location) ∧
    ((arguments.asJson = true ∨ ∀ opened request results, comesTo opened request results →
        results = []) →
      ∀ location, run.disk.locate .openFile surroundings.logFile ≠ .ok location →
        run.disk.fileAt? location = disk.fileAt? location) ∧
    (arguments.asJson = false → run.ending.exitCode = 0 →
      ∃ opened request results data, ∃ text : String, comesTo opened request results ∧
        Merged.ofResults? results = some data ∧
        (∀ location, opened.locate .openFile surroundings.logFile ≠ .ok location →
          opened.fileAt? location = disk.fileAt? location) ∧
        Section.update opened request.report (data.report request.title).text =
          (run.disk, .written) ∧
        Section.newText opened request.report (data.report request.title).text = .ok text ∧
        run.disk.read request.report = .ok text.toUTF8) := by
  intro run comesTo
  rcases runAnalyze_cases disk surroundings arguments with
    ⟨hsame, hfinished⟩ | ⟨hjson, opened, request, results, data, hrequest, hresults, hdata, hsame,
      hdisk, hwritten⟩
  · have hfiles : ∀ location, run.disk.locate .openFile surroundings.logFile ≠ .ok location →
        run.disk.fileAt? location = disk.fileAt? location := by
      simpa using hsame.files
    refine ⟨fun location hlog => .inl (hfiles location hlog), fun _ => hfiles, ?_⟩
    intro hjson hexit
    exact absurd (hfinished (exitCode_eq_zero hexit)) (by simp [hjson])
  · have hne : results ≠ [] := by
      rintro rfl
      cases hdata
    have hupdated : SameFiles [request.report] opened run.disk :=
      hdisk ▸ Section.sameFiles_update opened request.report _
    refine ⟨fun location hlog => ?_, ?_, ?_⟩
    · by_cases hreport : run.disk.locate .openFile request.report = .ok location
      · exact .inr ⟨hjson, opened, request, results, ⟨hrequest, hresults⟩, hne, hreport⟩
      · exact .inl ((hsame.trans hupdated).files location (by simp [hlog, hreport]))
    · rintro (hprints | hnone)
      · simp [hjson] at hprints
      · exact absurd (hnone opened request results ⟨hrequest, hresults⟩) hne
    · intro _ hexit
      have hupdate : Section.update opened request.report (data.report request.title).text =
          (run.disk, .written) := Prod.ext hdisk.symm (hwritten (exitCode_eq_zero hexit))
      obtain ⟨text, hnew, hread⟩ := Section.read_of_update hupdate
      exact ⟨opened, request, results, data, text, ⟨hrequest, hresults⟩, hdata,
        by simpa using hsame.files, hupdate, hnew, hread⟩

/-- A run finishes that comes to a report for which there is room, and can say so. -/
theorem finished_of_findings {surroundings : Surroundings} {arguments : AnalysisArguments}
    {opened : Disk} {said : String}
    (hopen : openSettingsAndLog disk surroundings = .ok (opened, settings))
    (hfindings : (findings opened settings arguments).runFrom "" =
      (.ok (some (request, data)), output))
    (hreport : Section.HasFreePlace opened request.report)
    (hsaid : Console.plain ("[green]✓ Report saved to[/green] " ++ request.report.text) =
      .ok said) :
    (runAnalyze disk surroundings arguments).ending = .finished := by
  have hwritten := hreport.update_eq (data.report request.title).text
  rw [runAnalyze_of_open hopen, hfindings]
  dsimp only
  unfold writeReport
  rcases hupdate : Section.update opened request.report (data.report request.title).text with
    ⟨updated, outcome⟩
  rw [hupdate] at hwritten
  obtain rfl : outcome = .written := hwritten
  simp only [CommandRun.printing, savedMessage, runFrom_say hsaid]

end

/-- A user of the pair. -/
def pairUser : Surroundings :=
  Surroundings.ofEnvironment [("HOME", "/home")]

/-- The arguments that ask for one file of the pair. -/
def pairArguments (asJson : Bool) : AnalysisArguments where
  entries := ["a.js"]
  projectRoot := none
  output := none
  title := none
  maxDepth := none
  treeDepth := none
  showDeps := none
  exclude := []
  asJson := asJson

/-- A run that finds something for a report that has a free place, and can say so. -/
def comesToReport (opened : Disk) (settings : Settings) (arguments : AnalysisArguments) : Bool :=
  match (findings opened settings arguments).runFrom "" with
  | (.ok (some (request, _)), _) =>
    decide (Section.HasFreePlace opened request.report) &&
      (Console.plain ("[green]✓ Report saved to[/green] " ++ request.report.text)).isOk
  | _ => false

theorem pair_finishes :
    (runAnalyze Walk.pairDisk pairUser (pairArguments false)).ending = .finished := by
  -- The report's text is not computed: that a text can be written is known of every text.
  have hopens : (openSettingsAndLog Walk.pairDisk pairUser).toOption.any
      (fun opened => comesToReport opened.1 opened.2 (pairArguments false)) = true := by
    decide +kernel
  cases hopen : openSettingsAndLog Walk.pairDisk pairUser with
  | error run =>
    rw [hopen] at hopens
    cases hopens
  | ok opened =>
    rw [hopen] at hopens
    change comesToReport opened.1 opened.2 (pairArguments false) = true at hopens
    unfold comesToReport at hopens
    split at hopens
    · rename_i request data output hfindings
      obtain ⟨hplace, hsaid⟩ := Bool.and_eq_true_iff.mp hopens
      obtain ⟨said, hsaid⟩ := Except.exists_of_isOk hsaid
      exact finished_of_findings hopen hfindings (of_decide_eq_true hplace) hsaid
    · cases hopens

/-- The pair gets its report, and as JSON none. -/
theorem runAnalyze_touches_report_pair :
    let written := runAnalyze Walk.pairDisk pairUser (pairArguments false)
    let printed := runAnalyze Walk.pairDisk pairUser (pairArguments true)
    written.ending.exitCode = 0 ∧
      (∃ opened request, Requests Walk.pairDisk pairUser (pairArguments false) opened request ∧
        ∃ text : String, written.disk.read request.report = .ok text.toUTF8) ∧
      ∀ location, printed.disk.locate .openFile pairUser.logFile ≠ .ok location →
        printed.disk.fileAt? location = Walk.pairDisk.fileAt? location := by
  intro written printed
  have hexit : written.ending.exitCode = 0 := by
    rw [show written.ending = .finished from pair_finishes]
    rfl
  obtain ⟨opened, request, results, data, text, ⟨hrequest, -⟩, -, -, -, -, hread⟩ :=
    (runAnalyze_touches_report Walk.pairDisk pairUser (pairArguments false)).2.2 rfl hexit
  exact ⟨hexit, ⟨opened, request, hrequest, text, hread⟩,
    (runAnalyze_touches_report Walk.pairDisk pairUser (pairArguments true)).2.1 (.inl rfl)⟩

end Command

end ImportAtlas
