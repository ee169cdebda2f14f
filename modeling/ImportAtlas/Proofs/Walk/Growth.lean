import ImportAtlas.Proofs.Disk.Look
import ImportAtlas.Walk.Basic
import Mathlib.Data.List.Induction

set_option autoImplicit false

/-!
# How a walk grows

While the list of a file is in progress, the files behind its edges are entered
and write lists of their own.  `Expanding` says what holds in between: the list
holds the edges taken so far, no list of a file visited before has changed, and
every other new list is complete.  So a call adds files with their complete
lists (`Grows`), whatever the walk held before, however deep the call was, and
in whatever way its inner calls ended.
-/

namespace ImportAtlas

/-- Going through a list keeps what each item, known with the items before it, keeps. -/
theorem foldl_prefix_induction {α β : Type} {f : β → α → β} {start : β} {items : List α}
    {R : List α → β → Prop} (hstart : R [] start)
    (hstep : ∀ before item after, items = before ++ item :: after →
      R before (before.foldl f start) → R (before ++ [item]) (f (before.foldl f start) item)) :
    ∀ before after, items = before ++ after → R before (before.foldl f start) := by
  intro before
  induction before using List.reverseRecOn with
  | nil => exact fun _ _ => hstart
  | append_singleton before item ih =>
    intro after hitems
    rw [List.append_assoc] at hitems
    rw [List.foldl_append]
    exact hstep before item after hitems (ih _ hitems)

theorem filterMap_concat {α β : Type} (f : α → Option β) (items : List α) (item : α) :
    (items ++ [item]).filterMap f = items.filterMap f ++ (f item).toList := by
  rw [List.filterMap_append]
  cases h : f item <;> simp [h]

namespace Walk

open Project

variable {context : Context} {view : FileView} {extractor : Extractor}

/-! ## The list of a file -/

/-- The files that the references of a file add to its list. -/
def referenceTargets (context : Context) (view : FileView) (extractor : Extractor) (file : Path) :
    List Path :=
  (referenceSteps context view extractor file).filterMap Step.target?

/-- The target of a step that may be none. -/
def edge? (step : Option Step) : Option Path :=
  step.bind Step.target?

theorem edge?_eq_some {step : Option Step} {target : Path} (h : edge? step = some target) :
    step = some (.edge target) := by
  obtain ⟨s, rfl, hs⟩ := Option.bind_eq_some_iff.mp h
  cases s with
  | edge t => cases hs; rfl
  | problem p => cases hs

theorem referenceTargets_of_error {file : Path} {problem : Problem}
    (h : references view extractor file = .error problem) :
    referenceTargets context view extractor file = [] := by
  simp [referenceTargets, referenceSteps, h, Step.target?]

theorem referenceTargets_of_ok {file : Path} {found : List String}
    (h : references view extractor file = .ok found) :
    referenceTargets context view extractor file =
      found.filterMap fun reference => edge? (referenceStep context view file reference) := by
  simp [referenceTargets, referenceSteps, h, List.filterMap_filterMap, edge?]

theorem adjacency_of_style {file : Path} (h : file.kind = .style) :
    adjacency context view extractor file = referenceTargets context view extractor file := by
  simp [adjacency, outline, companionSteps, h, referenceTargets]

theorem adjacency_of_code {file : Path} (h : file.kind = .code) :
    adjacency context view extractor file =
      referenceTargets context view extractor file ++ styleSuffixes.filterMap fun suffix =>
        edge? (companionStep context view file
          (referenceTargets context view extractor file) suffix) := by
  simp [adjacency, outline, companionSteps, h, referenceTargets, List.filterMap_append,
    List.filterMap_filterMap, edge?]

/-- The lists of a project do not depend on how deep its walks go. -/
theorem adjacency_maxDepth (context : Context) (view : FileView) (extractor : Extractor)
    (maxDepth : Int) :
    adjacency { context with maxDepth := maxDepth } view extractor =
      adjacency context view extractor := rfl

theorem companionStep_eq_edge {file : Path} {edges : List Path} {suffix : String} {target : Path}
    (h : companionStep context view file edges suffix = some (.edge target)) :
    target = file.withSuffix suffix ∧ view.isFile target = .ok true ∧ target ∉ edges ∧
      context.ignores target = false := by
  unfold companionStep at h
  cases hfile : view.isFile (file.withSuffix suffix) with
  | error fault => simp [hfile] at h
  | ok there =>
    simp only [hfile] at h
    split at h
    · rename_i hthere
      cases h
      simp only [Bool.and_eq_true, Bool.not_eq_true', List.contains_eq_mem,
        decide_eq_false_iff_not] at hthere
      exact ⟨rfl, hthere.1.1 ▸ hfile, hthere.1.2, hthere.2⟩
    · cases h

/-- Edges to other files than the companion do not matter to the companion's step. -/
theorem companionStep_append {file : Path} {edges more : List Path} {suffix : String}
    (h : file.withSuffix suffix ∉ more) :
    companionStep context view file (edges ++ more) suffix =
      companionStep context view file edges suffix := by
  unfold companionStep
  simp [h]

/-- The companion with one suffix is not the edge to the companion with another. -/
theorem withSuffix_not_mem_companion {file : Path} {edges : List Path} {suffix other : String}
    (hne : suffix ≠ other) :
    file.withSuffix suffix ∉ (edge? (companionStep context view file edges other)).toList := by
  intro hmem
  have hstep := edge?_eq_some (Option.mem_toList.mp hmem)
  exact hne (Path.withSuffix_injective (companionStep_eq_edge hstep).1)

/-! ## Taking a step -/

/-- What a step leads to: nothing, a diagnostic, or an edge that was followed or led to a fault. -/
theorem take_cases {P : Walk → Prop} {onward : Onward} {file : Path} {blame : DiskFault → Problem}
    {u : Walk} {step : Option Step}
    (hnone : step = none → P u)
    (hproblem : ∀ problem, step = some (.problem problem) → P (u.record context file problem))
    (hedge : ∀ target v, step = some (.edge target) → onward target (u.link file target) = .ok v →
      P v)
    (hfault : ∀ target fault, step = some (.edge target) →
      onward target (u.link file target) = .error fault →
      P ((u.link file target).record context file (blame fault))) :
    P (take context onward file blame u step) := by
  match step with
  | none => exact hnone rfl
  | some (.problem problem) => exact hproblem problem rfl
  | some (.edge target) =>
    simp only [take]
    cases honward : onward target (u.link file target) with
    | ok v => exact hedge target v rfl honward
    | error fault => exact hfault target fault rfl honward

/-! ## Growth -/

/-- What a call leaves of the walk it was made on, and what it adds. -/
structure Grows (context : Context) (view : FileView) (extractor : Extractor) (w w' : Walk) :
    Prop where
  visited : w.visited <:+ w'.visited
  kept : ∀ f ∈ w.visited, Assoc.get? f w'.graph = Assoc.get? f w.graph
  added : ∀ f, Assoc.get? f w.graph = none →
    Assoc.get? f w'.graph = none ∨
      f ∈ w'.visited ∧ Assoc.get? f w'.graph = some (adjacency context view extractor f)

theorem Grows.refl (w : Walk) : Grows context view extractor w w :=
  ⟨List.suffix_rfl, fun _ _ => rfl, fun _ h => .inl h⟩

/-- What holds while a file is expanded that the walk `w` had not visited: `edges` are in its list,
and the lists of the other files are untouched or complete. -/
structure Expanding (context : Context) (view : FileView) (extractor : Extractor) (w : Walk)
    (file : Path) (edges : List Path) (u : Walk) : Prop where
  fresh : file ∉ w.visited
  visited : file :: w.visited <:+ u.visited
  kept : ∀ f ∈ w.visited, Assoc.get? f u.graph = Assoc.get? f w.graph
  added : ∀ f, f ≠ file → Assoc.get? f w.graph = none →
    Assoc.get? f u.graph = none ∨
      f ∈ u.visited ∧ Assoc.get? f u.graph = some (adjacency context view extractor f)
  listed : Assoc.get? file u.graph = some (w.listed file ++ edges)

namespace Expanding

variable {w u v : Walk} {file target : Path} {edges : List Path}

theorem enter (hfresh : file ∉ w.visited) :
    Expanding context view extractor w file [] (w.enter file) where
  fresh := hfresh
  visited := List.suffix_rfl
  kept f hf := by rw [get?_enter, if_neg (by rintro rfl; exact hfresh hf)]
  added f hne hf := by rw [get?_enter, if_neg hne]; exact .inl hf
  listed := by rw [get?_enter, if_pos rfl, List.append_nil]

theorem mem_visited (h : Expanding context view extractor w file edges u) : file ∈ u.visited :=
  h.visited.subset List.mem_cons_self

theorem record (h : Expanding context view extractor w file edges u) (problem : Problem) :
    Expanding context view extractor w file edges (u.record context file problem) :=
  ⟨h.fresh, h.visited, h.kept, h.added, h.listed⟩

theorem listed_eq (h : Expanding context view extractor w file edges u) :
    u.listed file = w.listed file ++ edges := by
  rw [Walk.listed, h.listed, Option.getD_some]

theorem link (h : Expanding context view extractor w file edges u) (target : Path) :
    Expanding context view extractor w file (edges ++ [target]) (u.link file target) where
  fresh := h.fresh
  visited := h.visited
  kept f hf := by
    rw [get?_link, if_neg (by rintro rfl; exact h.fresh hf), h.kept f hf]
  added f hne hf := by
    rw [get?_link, if_neg hne, visited_link]
    exact h.added f hne hf
  listed := by rw [get?_link, if_pos rfl, h.listed_eq, List.append_assoc]

/-- An inner call leaves the list in progress alone. -/
theorem grows (h : Expanding context view extractor w file edges u)
    (hgrows : Grows context view extractor u v) :
    Expanding context view extractor w file edges v where
  fresh := h.fresh
  visited := h.visited.trans hgrows.visited
  kept f hf := by
    rw [hgrows.kept f (h.visited.subset (List.mem_cons_of_mem _ hf)), h.kept f hf]
  added f hne hf := by
    rcases h.added f hne hf with hnone | ⟨hvisited, hlist⟩
    · exact hgrows.added f hnone
    · exact .inr ⟨hgrows.visited.subset hvisited, by rw [hgrows.kept f hvisited, hlist]⟩
  listed := by rw [hgrows.kept file h.mem_visited, h.listed]

/-- A step adds its target, if it has one, to the list in progress. -/
theorem take {onward : Onward} {blame : DiskFault → Problem} {step : Option Step}
    (honward : ∀ t v v', onward t v = .ok v' → Grows context view extractor v v')
    (h : Expanding context view extractor w file edges u) :
    Expanding context view extractor w file (edges ++ (edge? step).toList)
      (Walk.take context onward file blame u step) := by
  refine take_cases ?_ ?_ ?_ ?_
  · rintro rfl
    simpa [edge?] using h
  · rintro problem rfl
    simpa [edge?, Step.target?] using h.record problem
  · rintro target v rfl hv
    exact (h.link target).grows (honward _ _ _ hv)
  · rintro target fault rfl -
    exact (h.link target).record _

theorem takeReference {onward : Onward}
    (honward : ∀ t v v', onward t v = .ok v' → Grows context view extractor v v')
    (h : Expanding context view extractor w file edges u) (reference : String) :
    Expanding context view extractor w file
      (edges ++ (edge? (referenceStep context view file reference)).toList)
      (Walk.takeReference context view onward file u reference) :=
  h.take honward

theorem takeCompanion {onward : Onward}
    (honward : ∀ t v v', onward t v = .ok v' → Grows context view extractor v v')
    (h : Expanding context view extractor w file edges u) (suffix : String) :
    Expanding context view extractor w file
      (edges ++ (edge? (companionStep context view file (w.listed file ++ edges) suffix)).toList)
      (Walk.takeCompanion context view onward file u suffix) := by
  rw [← h.listed_eq]
  exact h.take honward

/-- The references of a file add their targets, in order. -/
theorem references {onward : Onward}
    (honward : ∀ t v v', onward t v = .ok v' → Grows context view extractor v v')
    (h : Expanding context view extractor w file [] u) :
    Expanding context view extractor w file (referenceTargets context view extractor file)
      (expandReferences context view extractor onward file u) := by
  unfold expandReferences
  cases hfound : Walk.references view extractor file with
  | error problem =>
    rw [referenceTargets_of_error hfound]
    exact h.record problem
  | ok found =>
    rw [referenceTargets_of_ok hfound]
    have hall : ∀ before after, found = before ++ after →
        Expanding context view extractor w file
          (before.filterMap fun reference => edge? (referenceStep context view file reference))
          (before.foldl (Walk.takeReference context view onward file) u) := by
      refine foldl_prefix_induction h fun before reference _ _ hv => ?_
      rw [filterMap_concat]
      exact hv.takeReference honward reference
    exact hall found [] (List.append_nil found).symm

/-- The companions of a code file that had no list are compared with the targets of its
references: the two companions differ, so the first does not stand in the way of the second. -/
theorem companions {onward : Onward}
    (honward : ∀ t v v', onward t v = .ok v' → Grows context view extractor v v')
    (h : Expanding context view extractor w file (referenceTargets context view extractor file) u) :
    ∃ edges, Expanding context view extractor w file edges
        (expandCompanions context view onward file u) ∧
      (w.listed file = [] → edges = adjacency context view extractor file) := by
  unfold expandCompanions
  cases hkind : file.kind with
  | style => exact ⟨_, h, fun _ => (adjacency_of_style hkind).symm⟩
  | code =>
    have hless := h.takeCompanion honward ".less"
    have hcss := hless.takeCompanion honward ".css"
    refine ⟨_, hcss, fun hlist => ?_⟩
    have hother : file.withSuffix ".css" ∉ (edge? (companionStep context view file
        (referenceTargets context view extractor file) ".less")).toList :=
      withSuffix_not_mem_companion (by decide)
    have hboth : styleSuffixes = [] ++ [".less"] ++ [".css"] := rfl
    rw [hlist, List.nil_append, List.nil_append, companionStep_append hother,
      adjacency_of_code hkind, hboth, filterMap_concat, filterMap_concat, List.append_assoc]
    rfl

end Expanding

/-! ## Calls -/

/-- Expanding a file that was not visited leaves it with its list, complete if it is new. -/
theorem expanding_expand {onward : Onward} {file : Path} {w : Walk}
    (honward : ∀ t v v', onward t v = .ok v' → Grows context view extractor v v')
    (hfresh : file ∉ w.visited) :
    ∃ edges, Expanding context view extractor w file edges
        (expand context view extractor onward file w) ∧
      (w.listed file = [] → edges = adjacency context view extractor file) :=
  ((Expanding.enter hfresh).references honward).companions honward

theorem grows_expand {onward : Onward} {file : Path} {w : Walk}
    (honward : ∀ t v v', onward t v = .ok v' → Grows context view extractor v v')
    (hfresh : file ∉ w.visited) :
    Grows context view extractor w (expand context view extractor onward file w) := by
  obtain ⟨edges, h, hedges⟩ := expanding_expand honward hfresh
  refine ⟨(List.suffix_cons file w.visited).trans h.visited, h.kept, fun f hf => ?_⟩
  by_cases hfile : f = file
  · subst hfile
    have hlist : w.listed f = [] := by rw [Walk.listed, hf, Option.getD_none]
    refine .inr ⟨h.mem_visited, ?_⟩
    rw [h.listed, hlist, hedges hlist, List.nil_append]
  · exact h.added f hfile hf

/-- What a call that may enter files does: nothing, or it expands the file it locates. -/
theorem follow_succ_cases {levels : Nat} {path : Path} {w w' : Walk}
    (h : follow context view extractor (levels + 1) path w = .ok w') :
    w' = w ∨ ∃ file, context.ignores (context.projectRoot ++ path).normalize = false ∧
      Reference.locate view inferredSuffixes (context.projectRoot ++ path).normalize =
        .ok (some file) ∧
      file ∉ w.visited ∧ context.ignores file = false ∧
      w' = expand context view extractor (follow context view extractor levels) file w := by
  simp only [follow] at h
  split at h
  · exact .inl (Except.ok.inj h).symm
  · rename_i hignored
    obtain ⟨located, hlocate, h⟩ := Except.bind_eq_ok h
    cases located with
    | none => exact .inl (Except.ok.inj h).symm
    | some file =>
      simp only at h
      split at h
      · exact .inl (Except.ok.inj h).symm
      · rename_i hfile
        simp only [Bool.or_eq_true, List.contains_eq_mem, decide_eq_true_eq, not_or,
          Bool.not_eq_true] at hfile
        exact .inr ⟨file, by simpa using hignored, hlocate, hfile.1, hfile.2,
          (Except.ok.inj h).symm⟩

/-- Every call only adds, and what it adds is complete. -/
theorem grows_follow {levels : Nat} {path : Path} {w w' : Walk}
    (h : follow context view extractor levels path w = .ok w') :
    Grows context view extractor w w' := by
  induction levels generalizing path w w' with
  | zero => cases h; exact .refl w
  | succ levels ih =>
    rcases follow_succ_cases h with rfl | ⟨file, -, -, hfresh, -, rfl⟩
    · exact .refl _
    · exact grows_expand (fun _ _ _ => ih) hfresh

end Walk

end ImportAtlas
