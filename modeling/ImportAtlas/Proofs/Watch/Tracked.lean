import ImportAtlas.Proofs.Graph.Faithful
import ImportAtlas.Proofs.Watch.Interleaving

set_option autoImplicit false

/-!
# What is watched and what is tracked

A filter and a context that are made of the same root and patterns leave the same
paths alone.  Every path in a walk is inside the project, so of what a walk holds
the filter lets through all but the report and the files without an inferred
suffix (`watched_iff_tracked`).  An event that is hidden from the filter, because
each of its paths is ignored or is the report, leaves a watcher as it was.
-/

namespace ImportAtlas

open Project

namespace Watch

/-- The text spells the path: it is not empty, and seen from the working folder it denotes the
path. -/
def Spells (workingFolder : Path) (text : String) (path : Path) : Prop :=
  text ≠ "" ∧ Path.absolute workingFolder (Path.ofString text) = path

namespace FileEvent

/-- An event that happens to one file. -/
def ofFile (kind : EventKind) (text : String) : FileEvent :=
  ⟨kind, text, "", false⟩

/-- The texts of an event that spell a path. -/
def texts (event : FileEvent) : List String :=
  [event.source, event.target].filter (· != "")

end FileEvent

namespace EventFilter

variable {f : EventFilter} {event : FileEvent} {path : Path}

/-- No path of the event is one that the filter tracks: each is ignored, or it is the report. -/
def Hides (f : EventFilter) (event : FileEvent) : Prop :=
  ∀ text ∈ event.texts, ∀ path, Spells f.workingFolder text path →
    isIgnored path f.projectRoot f.exclude = true ∨ f.report = some path

theorem tracksPath_iff : f.tracksPath path = true ↔
    f.report ≠ some path ∧ path.suffix ∈ inferredSuffixes ∧
      isIgnored path f.projectRoot f.exclude = false := by
  simp [tracksPath, and_assoc]

theorem tracks_of_spells {text : String} (h : Spells f.workingFolder text path) :
    f.tracks text = f.tracksPath path := by
  obtain ⟨hne, rfl⟩ := h
  simp [tracks, hne]

@[simp] theorem tracks_empty : f.tracks "" = false := rfl

/-- An event of one file is accepted when the filter tracks the file. -/
theorem triggers_ofFile {kind : EventKind} {text : String} (hkind : kind.isChange = true)
    (h : Spells f.workingFolder text path) :
    f.triggers (.ofFile kind text) = f.tracksPath path := by
  simp [triggers, accepts, FileEvent.ofFile, hkind, tracks_of_spells h]

/-- A hidden event is accepted by no filter. -/
theorem Hides.triggers_eq_false (h : f.Hides event) : f.triggers event = false := by
  have htext : ∀ text ∈ [event.source, event.target], f.tracks text = false := by
    intro text hmem
    by_cases hne : text = ""
    · rw [hne, tracks_empty]
    · have hspells : Spells f.workingFolder text _ := ⟨hne, rfl⟩
      have hhidden := h text (List.mem_filter.mpr ⟨hmem, by simpa using hne⟩) _ hspells
      rw [tracks_of_spells hspells, ← Bool.not_eq_true, tracksPath_iff]
      rintro ⟨hreport, -, hignored⟩
      rcases hhidden with hhidden | hhidden
      · simp [hhidden] at hignored
      · exact hreport hhidden
  have hsource := htext event.source (by simp)
  have htarget := htext event.target (by simp)
  simp [triggers, accepts, hsource, htarget]

end EventFilter

/-! ## Filters and contexts -/

/-- The filter that goes with the contexts of a root: all paths are seen from the working folder of
the disk, and without a root it is the root itself. -/
def EventFilter.ofProject (disk : Disk) (root report : Option String) (exclude : List String) :
    EventFilter :=
  .create disk.workingPath ((root.map Path.ofString).getD disk.workingPath)
    (report.map Path.ofString) exclude

/-- The filter of a project ignores what its contexts ignore. -/
theorem isIgnored_ofProject {disk : Disk} {root : Option String} {maxDepth : Int}
    {exclude : List String} {context : Context}
    (h : Context.create disk (root.map Path.ofString) maxDepth exclude = .ok context)
    (report : Option String) (path : Path) :
    let f := EventFilter.ofProject disk root report exclude
    isIgnored path f.projectRoot f.exclude = context.ignores path := by
  obtain ⟨sourceRoot, -, h⟩ := Except.bind_eq_ok h
  cases h
  rfl

/-! ## Hidden events -/

variable {τ : Type}

/-- A hidden event leaves the watcher as it was. -/
theorem Watcher.deliver_of_hides {w : Watcher τ} {event : FileEvent} (h : w.filter.Hides event)
    (now : τ) : w.deliver now event = w := by
  rw [deliver, h.triggers_eq_false]
  rfl

/-- Hidden events leave nothing in a history that was accepted. -/
theorem accepted_of_hides {f : EventFilter} {history : List (Move τ)}
    (h : ∀ now event, .event now event ∈ history → f.Hides event) : accepted f history = [] := by
  refine List.filterMap_eq_nil_iff.mpr fun m hm => ?_
  cases m with
  | event now event => simp [Move.accepted?, (h now event hm).triggers_eq_false]
  | _ => rfl

/-- After hidden events nothing is pending. -/
theorem pending_of_hides [Sub τ] [LT τ] [DecidableLT τ] {f : EventFilter} {delay created : τ}
    {history : List (Move τ)} {l : Loop τ}
    (hrun : (Loop.start f delay created).run history = some l)
    (h : ∀ now event, .event now event ∈ history → f.Hides event) :
    l.watcher.debounce.pending = false := by
  have hnone : accepted f (sinceStart history) = [] :=
    accepted_of_hides fun now event hmem => h now event ((sinceStart_suffix history).subset hmem)
  rw [← Bool.not_eq_true, (Remembers.run hrun).pending]
  exact not_not_intro hnone

/-! ## Agreement -/

/-- **The watcher and the walk agree on what is tracked.**  Take the filter and a context of one
project, and any walk that the context makes.  An event of a file that the walk holds, whether as a
file or as a dependency, is accepted in every spelling exactly when the file has an inferred suffix
and is not the report.  And an event all of whose paths the context ignores, or are the report,
leaves every watcher with that filter as it was; so a loop that sees only such events never has an
update pending. -/
theorem watched_iff_tracked [Sub τ] [LT τ] [DecidableLT τ] (disk : Disk)
    (root report : Option String) (maxDepth : Int) (exclude : List String) (context : Context)
    (extractor : Walk.Extractor) (actions : List Walk.Action) (hdisk : disk.workingPath.IsNormal)
    (hcontext : Context.create disk (root.map Path.ofString) maxDepth exclude = .ok context) :
    let filter := EventFilter.ofProject disk root report exclude
    let reportPath := report.map fun text => disk.absolute (Path.ofString text)
    let quiet : FileEvent → Prop := fun event =>
      ∀ text ∈ event.texts, ∀ path, Spells disk.workingPath text path →
        context.ignores path = true ∨ reportPath = some path
    (∀ file ∈ (Walk.Session.run context extractor ⟨disk, Walk.empty⟩ actions).walk.vertices,
      ∀ text, Spells disk.workingPath text file →
      ∀ kind, kind.isChange = true →
        (filter.triggers (.ofFile kind text) = true ↔
          file.suffix ∈ inferredSuffixes ∧ reportPath ≠ some file)) ∧
    (∀ event, quiet event → ∀ (w : Watcher τ) (now : τ), w.filter = filter →
      w.deliver now event = w) ∧
    (∀ (delay created : τ) (history : List (Move τ)) (l : Loop τ),
      (Loop.start filter delay created).run history = some l →
      (∀ now event, .event now event ∈ history → quiet event) →
      l.watcher.debounce.pending = false) := by
  intro filter reportPath quiet
  have hreport : filter.report = reportPath := Option.map_map ..
  have hignores : ∀ path, isIgnored path filter.projectRoot filter.exclude = context.ignores path :=
    isIgnored_ofProject hcontext report
  have hquiet : ∀ event, quiet event → filter.Hides event := by
    intro event h text htext path hspells
    rw [hignores, hreport]
    exact h text htext path hspells
  refine ⟨?_, ?_, ?_⟩
  · intro file hfile text hspells kind hkind
    have hsound : Walk.Sound context
        (Walk.Session.run context extractor ⟨disk, Walk.empty⟩ actions).walk :=
      Walk.Sound.run (isNormal_of_create hdisk hcontext) .empty actions
    have htracked : context.ignores file = false :=
      (inside_iff.mp (hsound.inside_of_vertex hfile)).2
    have hseen : Spells filter.workingFolder text file := hspells
    rw [EventFilter.triggers_ofFile hkind hseen, EventFilter.tracksPath_iff, hreport, hignores]
    simp only [htracked, and_true]
    exact and_comm
  · intro event h w now hw
    have hhides : w.filter.Hides event := hw ▸ hquiet event h
    exact Watcher.deliver_of_hides hhides now
  · intro delay created history l hrun h
    exact pending_of_hides hrun fun now event hmem => hquiet event (h now event hmem)

/-- The context of the pair with a folder excluded. -/
def excludingContext : Context :=
  { Walk.pairContext 3 with exclude := ["old"] }

/-- A file of the pair is accepted in a spelling that climbs out of a folder, the report is not, and
moving an excluded file onto the report leaves a watcher as it was. -/
theorem watched_iff_tracked_pair :
    let filter := EventFilter.ofProject Walk.pairDisk none (some "./b.js") ["./old/"]
    filter.triggers (.ofFile .modified "x/../a.css") = true ∧
      filter.triggers (.ofFile .deleted "/p//b.js") = false ∧
      ∀ w : Watcher Int, w.filter = filter →
        w.deliver 5 ⟨.moved, "old/a.js", "/p/b.js", false⟩ = w := by
  intro filter
  have h := watched_iff_tracked (τ := Int) Walk.pairDisk none (some "./b.js") 3 ["./old/"]
    excludingContext Walk.pairExtractor [.track "a" 0] (by decide) (by decide +kernel)
  refine ⟨?_, ?_, fun w hw => h.2.1 _ ?_ w 5 hw⟩
  · exact (h.1 (Walk.pairFile "a.css") (by decide +kernel) "x/../a.css"
      ⟨by decide, by decide +kernel⟩ .modified rfl).mpr (by decide +kernel)
  · have hiff := h.1 (Walk.pairFile "b.js") (by decide +kernel) "/p//b.js"
      ⟨by decide, by decide +kernel⟩ .deleted rfl
    exact Bool.eq_false_iff.mpr fun htriggers => (hiff.mp htriggers).2 (by decide +kernel)
  · rintro text htext path ⟨-, rfl⟩
    obtain rfl | rfl : text = "old/a.js" ∨ text = "/p/b.js" := by
      simpa [FileEvent.texts] using htext
    · exact .inl (by decide +kernel)
    · exact .inr (by decide +kernel)

end Watch

end ImportAtlas
