import ImportAtlas.Proofs.Reference.Located
import ImportAtlas.Proofs.Walk.Growth

set_option autoImplicit false

/-!
# Expanding a file

Expanding a file takes its edges one after the other, each on the walk that the
edges before it have left.  `Takes` relates an edge to that walk.  What holds
when the file is entered and is kept by every edge and every problem holds on
each of these walks and at the end (`expand_induction`).
-/

namespace ImportAtlas.Walk

open Project

variable {context : Context} {view : FileView} {extractor : Extractor}

/-- Expanding `file` from the walk `w` takes the edge to `target` when the walk is `u`. -/
inductive Takes (context : Context) (view : FileView) (extractor : Extractor) (onward : Onward)
    (file : Path) (w : Walk) : Path → Walk → Prop where
  | reference {before after : List String} {reference : String} {target : Path}
      (hfound : references view extractor file = .ok (before ++ reference :: after))
      (hstep : referenceStep context view file reference = some (.edge target)) :
      Takes context view extractor onward file w target
        (before.foldl (takeReference context view onward file) (w.enter file))
  | companion {before after : List String} {suffix : String} {target : Path} {u : Walk}
      (hkind : file.kind = .code) (hsuffixes : styleSuffixes = before ++ suffix :: after)
      (hwalk : u = before.foldl (takeCompanion context view onward file)
        (expandReferences context view extractor onward file (w.enter file)))
      (hstep : companionStep context view file (u.listed file) suffix = some (.edge target)) :
      Takes context view extractor onward file w target u

/-! ## Edges lead to tracked files -/

theorem referenceStep_eq_edge {file target : Path} {reference : String}
    (h : referenceStep context view file reference = some (.edge target)) :
    ∃ candidate, Reference.resolve context.sourceRoot reference file = some candidate ∧
      Reference.locate view inferredSuffixes candidate = .ok (some target) ∧
      context.ignores target = false := by
  unfold referenceStep at h
  split at h
  · cases h
  · rename_i candidate hresolve
    split at h
    · cases h
    · cases h
    · rename_i found hlocate
      split at h
      · cases h
      · rename_i hignored
        cases h
        exact ⟨candidate, hresolve, hlocate, by simpa using hignored⟩

/-- An edge of a file comes from a reference or from a companion. -/
theorem mem_adjacency {file target : Path}
    (h : target ∈ adjacency context view extractor file) :
    (∃ reference, referenceStep context view file reference = some (.edge target)) ∨
      ∃ suffix ∈ styleSuffixes, ∃ edges,
        companionStep context view file edges suffix = some (.edge target) := by
  have of_reference : target ∈ referenceTargets context view extractor file →
      ∃ reference, referenceStep context view file reference = some (.edge target) := by
    intro hmem
    cases hfound : references view extractor file with
    | error problem => simp [referenceTargets_of_error hfound] at hmem
    | ok found =>
      rw [referenceTargets_of_ok hfound] at hmem
      obtain ⟨reference, -, hstep⟩ := List.mem_filterMap.mp hmem
      exact ⟨reference, edge?_eq_some hstep⟩
  cases hkind : file.kind with
  | style => exact .inl (of_reference (adjacency_of_style hkind ▸ h))
  | code =>
    rw [adjacency_of_code hkind] at h
    rcases List.mem_append.mp h with hmem | hmem
    · exact .inl (of_reference hmem)
    · obtain ⟨suffix, hsuffix, hstep⟩ := List.mem_filterMap.mp hmem
      exact .inr ⟨suffix, hsuffix, _, edge?_eq_some hstep⟩

theorem isFile_of_mem_adjacency {file target : Path}
    (h : target ∈ adjacency context view extractor file) : view.isFile target = .ok true := by
  rcases mem_adjacency h with ⟨reference, hstep⟩ | ⟨suffix, -, edges, hstep⟩
  · obtain ⟨_, -, hlocate, -⟩ := referenceStep_eq_edge hstep
    exact (Reference.mem_of_locate hlocate).1
  · exact (companionStep_eq_edge hstep).2.1

theorem ignores_of_mem_adjacency {file target : Path}
    (h : target ∈ adjacency context view extractor file) : context.ignores target = false := by
  rcases mem_adjacency h with ⟨reference, hstep⟩ | ⟨suffix, -, edges, hstep⟩
  · obtain ⟨_, -, -, hignored⟩ := referenceStep_eq_edge hstep
    exact hignored
  · exact (companionStep_eq_edge hstep).2.2.2

theorem isNormal_of_mem_adjacency {file target : Path} (hroot : context.sourceRoot.IsNormal)
    (hfile : file.IsNormal) (h : target ∈ adjacency context view extractor file) :
    target.IsNormal := by
  rcases mem_adjacency h with ⟨reference, hstep⟩ | ⟨suffix, hsuffix, edges, hstep⟩
  · obtain ⟨candidate, hresolve, hlocate, -⟩ := referenceStep_eq_edge hstep
    exact Reference.isNormal_of_locate isSuffix_of_inferred
      (Reference.isNormal_of_resolve hroot hfile hresolve) hlocate
  · rw [(companionStep_eq_edge hstep).1]
    exact hfile.withSuffix (isSuffix_of_style suffix hsuffix)

/-- The edges that an expansion takes are in the file's adjacency. -/
theorem Takes.mem_adjacency {onward : Onward} {file target : Path} {w u : Walk}
    (h : Takes context view extractor onward file w target u) :
    target ∈ adjacency context view extractor file := by
  have of_reference : target ∈ referenceTargets context view extractor file →
      target ∈ adjacency context view extractor file := by
    intro hmem
    cases hkind : file.kind with
    | style => rwa [adjacency_of_style hkind]
    | code => rw [adjacency_of_code hkind]; exact List.mem_append_left _ hmem
  cases h with
  | @reference _ _ reference _ hfound hstep =>
    refine of_reference ?_
    rw [referenceTargets_of_ok hfound]
    exact List.mem_filterMap.mpr ⟨reference, by simp, by simp [hstep, edge?, Step.target?]⟩
  | @companion _ _ suffix _ _ hkind hsuffixes hwalk hstep =>
    -- the companion may be a target of the references as well
    by_cases hmem : target ∈ referenceTargets context view extractor file
    · exact of_reference hmem
    · obtain ⟨htarget, hfile, -, hignored⟩ := companionStep_eq_edge hstep
      rw [adjacency_of_code hkind]
      refine List.mem_append_right _ (List.mem_filterMap.mpr ⟨suffix, by simp [hsuffixes], ?_⟩)
      simp [companionStep, ← htarget, hfile, hmem, hignored, edge?, Step.target?]

/-! ## Induction over an expansion -/

/-- What holds when the file is entered, and is kept by each edge and each problem, holds whenever
an edge is taken and at the end. -/
theorem expand_induction {onward : Onward} {file : Path} {w : Walk} {R : Walk → Prop}
    (henter : R (w.enter file))
    (hrecord : ∀ u problem, R u → R (u.record context file problem))
    (hedge : ∀ target u v, Takes context view extractor onward file w target u → R u →
      onward target (u.link file target) = .ok v → R v)
    (hfault : ∀ target u fault problem, Takes context view extractor onward file w target u → R u →
      onward target (u.link file target) = .error fault →
      R ((u.link file target).record context file problem)) :
    (∀ target u, Takes context view extractor onward file w target u → R u) ∧
      R (expand context view extractor onward file w) := by
  have htake : ∀ {u blame step}, R u →
      (∀ target, step = some (.edge target) → Takes context view extractor onward file w target u) →
      R (take context onward file blame u step) := by
    intro u blame step hu htakes
    refine take_cases (fun _ => hu) (fun problem _ => hrecord u problem hu) ?_ ?_
    · exact fun target v hstep hv => hedge target u v (htakes target hstep) hu hv
    · exact fun target fault hstep hf => hfault target u fault _ (htakes target hstep) hu hf
  have hreference : ∀ found, references view extractor file = .ok found →
      ∀ before after, found = before ++ after →
        R (before.foldl (takeReference context view onward file) (w.enter file)) := by
    intro found hfound
    refine foldl_prefix_induction (R := fun _ u => R u) henter
      fun before reference after hsplit hu => ?_
    exact htake hu fun target hstep => .reference (hsplit ▸ hfound) hstep
  have hreferences : R (expandReferences context view extractor onward file (w.enter file)) := by
    unfold expandReferences
    cases hfound : references view extractor file with
    | error problem => exact hrecord _ problem henter
    | ok found => exact hreference found hfound found [] (List.append_nil found).symm
  have hcompanion : file.kind = .code → ∀ before after, styleSuffixes = before ++ after →
      R (before.foldl (takeCompanion context view onward file)
        (expandReferences context view extractor onward file (w.enter file))) := by
    intro hkind
    refine foldl_prefix_induction (R := fun _ u => R u) hreferences
      fun before suffix after hsplit hu => ?_
    exact htake hu fun target hstep => .companion hkind hsplit rfl hstep
  constructor
  · intro target u htakes
    cases htakes with
    | reference hfound hstep => exact hreference _ hfound _ _ rfl
    | companion hkind hsuffixes hwalk hstep => exact hwalk ▸ hcompanion hkind _ _ hsuffixes
  · unfold expand expandCompanions
    cases hkind : file.kind with
    | style => exact hreferences
    | code => exact hcompanion hkind styleSuffixes [] (List.append_nil _).symm

/-- When an edge is taken, the file has been entered and nothing visited before is lost. -/
theorem Takes.visited {onward : Onward} {file target : Path} {w u : Walk}
    (honward : ∀ t v v', onward t v = .ok v' → Grows context view extractor v v')
    (h : Takes context view extractor onward file w target u) :
    file :: w.visited <:+ u.visited := by
  refine (expand_induction (R := fun u => file :: w.visited <:+ u.visited) List.suffix_rfl
    (fun _ _ hu => hu) (fun t u v _ hu hv => ?_) (fun _ _ _ _ _ hu _ => hu)).1 target u h
  exact hu.trans (honward t _ v hv).visited

end ImportAtlas.Walk
