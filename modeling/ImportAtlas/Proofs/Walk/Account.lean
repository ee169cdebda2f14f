import ImportAtlas.Proofs.Walk.Call

set_option autoImplicit false

/-!
# Accounting for references

Each reference of a file has one fate: it names an external package, the file
behind it is ignored, it is an edge, or it is missed and leaves a problem.  A
call enters some files, and an `Account` says what each of them contributes: the
targets that go to its list, and its problems.  `Ledger` ties the accounts of a
call to the walks before and after it.

An edge is followed inside the same step that may fail, so a fault deep below
would be blamed on the reference after its edge was listed.  That never happens:
an edge leads to a settled file, and tracking one never fails.
-/

namespace ImportAtlas.Walk

open Project

variable {context : Context} {view : FileView} {extractor : Extractor}

/-! ## The fate of a reference -/

/-- What becomes of a reference. -/
inductive Fate where
  /-- it names an external package -/
  | external
  /-- the file behind it is ignored -/
  | ignored (target : Path)
  | edge (target : Path)
  /-- it leaves a problem -/
  | missed (problem : Problem)
  deriving DecidableEq, Repr

/-- The edge of a fate, if it is one. -/
def Fate.edges : Fate → List Path
  | .edge target => [target]
  | _ => []

/-- The problem of a fate, if it is one. -/
def Fate.problems : Fate → List Problem
  | .missed problem => [problem]
  | _ => []

/-- The rules by which a reference of a file gets its fate. -/
inductive HasFate (context : Context) (view : FileView) (file : Path) (reference : String) :
    Fate → Prop where
  | external (hresolve : Reference.resolve context.sourceRoot reference file = none) :
      HasFate context view file reference .external
  | ignored {candidate target : Path}
      (hresolve : Reference.resolve context.sourceRoot reference file = some candidate)
      (hlocate : Reference.locate view inferredSuffixes candidate = .ok (some target))
      (hignored : context.ignores target = true) :
      HasFate context view file reference (.ignored target)
  | edge {candidate target : Path}
      (hresolve : Reference.resolve context.sourceRoot reference file = some candidate)
      (hlocate : Reference.locate view inferredSuffixes candidate = .ok (some target))
      (hignored : context.ignores target = false) :
      HasFate context view file reference (.edge target)
  | notFound {candidate : Path}
      (hresolve : Reference.resolve context.sourceRoot reference file = some candidate)
      (hlocate : Reference.locate view inferredSuffixes candidate = .ok none) :
      HasFate context view file reference (.missed (.notFound reference))
  | unresolved {candidate : Path} {fault : DiskFault}
      (hresolve : Reference.resolve context.sourceRoot reference file = some candidate)
      (hlocate : Reference.locate view inferredSuffixes candidate = .error fault) :
      HasFate context view file reference (.missed (.unresolved reference fault))

/-- The step that a fate leaves. -/
def Fate.step? : Fate → Option Step
  | .edge target => some (.edge target)
  | .missed problem => some (.problem problem)
  | _ => none

theorem exists_fate (context : Context) (view : FileView) (file : Path) (reference : String) :
    ∃ x, HasFate context view file reference x := by
  cases hresolve : Reference.resolve context.sourceRoot reference file with
  | none => exact ⟨_, .external hresolve⟩
  | some candidate =>
    rcases hlocate : Reference.locate view inferredSuffixes candidate with fault | _ | target
    · exact ⟨_, .unresolved hresolve hlocate⟩
    · exact ⟨_, .notFound hresolve hlocate⟩
    · cases hignored : context.ignores target with
      | true => exact ⟨_, .ignored hresolve hlocate hignored⟩
      | false => exact ⟨_, .edge hresolve hlocate hignored⟩

/-- A reference has one fate only. -/
theorem HasFate.unique {file : Path} {reference : String} {x y : Fate}
    (hx : HasFate context view file reference x) (hy : HasFate context view file reference y) :
    x = y := by
  cases hx <;> cases hy <;> simp_all

/-- The step of a reference is that of its fate. -/
theorem HasFate.step_eq {file : Path} {reference : String} {x : Fate}
    (h : HasFate context view file reference x) :
    referenceStep context view file reference = x.step? := by
  unfold referenceStep
  cases h with
  | external hresolve => simp only [hresolve, Fate.step?]
  | ignored hresolve hlocate hignored | edge hresolve hlocate hignored =>
    simp [hresolve, hlocate, hignored, Fate.step?]
  | notFound hresolve hlocate | unresolved hresolve hlocate =>
    simp only [hresolve, hlocate, Fate.step?]

/-! ## Accounts -/

/-- What a file that was entered contributes: the targets at the end of its list, and its problems.
-/
structure Account where
  file : Path
  targets : List Path
  problems : List Problem
  deriving DecidableEq, Repr

/-- A problem of a file as it is reported. -/
def diagnostic (context : Context) (file : Path) (problem : Problem) : Diagnostic :=
  ⟨context.identifier file, problem.stage, problem.message⟩

theorem diagnostics_record (w : Walk) (file : Path) (problem : Problem) :
    (w.record context file problem).diagnostics =
      w.diagnostics ++ [diagnostic context file problem] := rfl

/-- The problems of an account as they are reported. -/
def Account.diagnostics (context : Context) (a : Account) : List Diagnostic :=
  a.problems.map (diagnostic context a.file)

/-- What the references of a file contribute: nothing and a problem when they are not known, else
the edges and the problems of their fates. -/
inductive ReferenceShare (context : Context) (view : FileView) (extractor : Extractor)
    (file : Path) : List Path → List Problem → Prop where
  | unreadable {fault : DiskFault} (hread : view.read file = .error fault) :
      ReferenceShare context view extractor file [] [.unreadable fault]
  | unextractable {bytes : ByteArray} {message : String} (hread : view.read file = .ok bytes)
      (hextract : extractor file.kind (Text.readSource bytes) = .error message) :
      ReferenceShare context view extractor file [] [.unextractable message]
  | read {bytes : ByteArray} {found : List String} {fates : List Fate}
      (hread : view.read file = .ok bytes)
      (hextract : extractor file.kind (Text.readSource bytes) = .ok found)
      (hfates : List.Forall₂ (HasFate context view file) found fates) :
      ReferenceShare context view extractor file (fates.flatMap Fate.edges)
        (fates.flatMap Fate.problems)

theorem ReferenceShare.of_error {file : Path} {problem : Problem}
    (h : references view extractor file = .error problem) :
    ReferenceShare context view extractor file [] [problem] := by
  unfold references at h
  cases hread : view.read file with
  | error fault =>
    rw [hread] at h
    cases h
    exact .unreadable hread
  | ok bytes =>
    cases hextract : extractor file.kind (Text.readSource bytes) with
    | error message =>
      simp only [hread, hextract, Except.mapError] at h
      cases h
      exact .unextractable hread hextract
    | ok found => simp [hread, hextract, Except.mapError] at h

theorem ReferenceShare.of_ok {file : Path} {found : List String} {fates : List Fate}
    (h : references view extractor file = .ok found)
    (hfates : List.Forall₂ (HasFate context view file) found fates) :
    ReferenceShare context view extractor file (fates.flatMap Fate.edges)
      (fates.flatMap Fate.problems) := by
  unfold references at h
  cases hread : view.read file with
  | error fault => simp [hread] at h
  | ok bytes =>
    cases hextract : extractor file.kind (Text.readSource bytes) with
    | error message => simp [hread, hextract, Except.mapError] at h
    | ok others =>
      simp only [hread, hextract, Except.mapError] at h
      cases h
      exact .read hread hextract hfates

/-- The targets that the companions of a file add to a list. -/
def companionTargets (context : Context) (view : FileView) (file : Path) (listed : List Path) :
    List Path :=
  (companionSteps context view file listed).filterMap Step.target?

/-- The problem of a companion that could not be looked up. -/
def companionProblem? (view : FileView) (file : Path) (suffix : String) : Option Problem :=
  match view.isFile (file.withSuffix suffix) with
  | .error fault => some (.companion (file.withSuffix suffix).name fault)
  | .ok _ => none

/-- The problems of a file's companions. -/
def companionProblems (view : FileView) (file : Path) : List Problem :=
  match file.kind with
  | .style => []
  | .code => styleSuffixes.filterMap (companionProblem? view file)

/-- The account is complete: it holds the share of the file's references, then that of its
companions, which are compared with what the file lists. -/
def Account.IsComplete (context : Context) (view : FileView) (extractor : Extractor)
    (listed : List Path) (a : Account) : Prop :=
  ∃ targets problems, ReferenceShare context view extractor a.file targets problems ∧
    a.targets = targets ++ companionTargets context view a.file (listed ++ targets) ∧
    a.problems = problems ++ companionProblems view a.file

/-- The accounts, in the order of entering, of the files that were entered between two walks. -/
structure Ledger (context : Context) (w : Walk) (accounts : List Account) (u : Walk) : Prop where
  visited : u.visited = (accounts.map Account.file).reverse ++ w.visited
  nodup : (accounts.map Account.file).Nodup
  fresh : ∀ f ∈ accounts.map Account.file, f ∉ w.visited
  listed : ∀ a ∈ accounts, u.listed a.file = w.listed a.file ++ a.targets
  others : ∀ f, f ∉ accounts.map Account.file → u.listed f = w.listed f
  diagnostics : ∃ added, u.diagnostics = w.diagnostics ++ added ∧
    added.Perm (accounts.flatMap (Account.diagnostics context))

theorem listed_enter_eq (w : Walk) (file other : Path) :
    (w.enter file).listed other = w.listed other := by
  by_cases h : other = file
  · rw [h, listed_enter]
  · rw [listed, get?_enter, if_neg h, listed]

theorem listed_link_of_ne (w : Walk) {file other : Path} (target : Path) (h : other ≠ file) :
    (w.link file target).listed other = w.listed other := by
  rw [listed, get?_link, if_neg h, listed]

namespace Ledger

variable {w u v : Walk} {file : Path} {accounts more rest : List Account} {targets : List Path}
  {problems : List Problem}

theorem refl (w : Walk) : Ledger context w [] w where
  visited := rfl
  nodup := List.nodup_nil
  fresh := nofun
  listed := nofun
  others _ _ := rfl
  diagnostics := ⟨[], (List.append_nil _).symm, .nil⟩

theorem enter (hfresh : file ∉ w.visited) : Ledger context w [⟨file, [], []⟩] (w.enter file) where
  visited := rfl
  nodup := List.nodup_singleton _
  fresh f hf := by rwa [List.mem_singleton.mp hf]
  listed a ha := by rw [listed_enter_eq, List.mem_singleton.mp ha, List.append_nil]
  others f _ := listed_enter_eq w file f
  diagnostics := ⟨[], (List.append_nil _).symm, .nil⟩

theorem mem_visited (h : Ledger context w accounts u) {a : Account} (ha : a ∈ accounts) :
    a.file ∈ u.visited := by
  rw [h.visited]
  exact List.mem_append_left _ (List.mem_reverse.mpr (List.mem_map_of_mem ha))

theorem not_mem_of_fresh (h : Ledger context w accounts u) {f : Path} (hf : f ∉ u.visited) :
    f ∉ accounts.map Account.file := by
  intro hmem
  obtain ⟨a, ha, rfl⟩ := List.mem_map.mp hmem
  exact hf (h.mem_visited ha)

/-- The accounts of what follows come behind those of what was before. -/
theorem trans (h : Ledger context w accounts u) (hmore : Ledger context u more v) :
    Ledger context w (accounts ++ more) v where
  visited := by
    rw [hmore.visited, h.visited, List.map_append, List.reverse_append, List.append_assoc]
  nodup := by
    rw [List.map_append]
    refine h.nodup.append hmore.nodup fun f hold hnew => ?_
    exact h.not_mem_of_fresh (hmore.fresh f hnew) hold
  fresh f hf := by
    rw [List.map_append] at hf
    rcases List.mem_append.mp hf with hf | hf
    · exact h.fresh f hf
    · intro hw
      exact hmore.fresh f hf (by rw [h.visited]; exact List.mem_append_right _ hw)
  listed a ha := by
    rcases List.mem_append.mp ha with ha | ha
    · rw [hmore.others a.file fun hmem => hmore.fresh _ hmem (h.mem_visited ha), h.listed a ha]
    · have hfresh := hmore.fresh a.file (List.mem_map_of_mem ha)
      rw [hmore.listed a ha, h.others a.file (h.not_mem_of_fresh hfresh)]
  others f hf := by
    rw [List.map_append, List.mem_append, not_or] at hf
    rw [hmore.others f hf.2, h.others f hf.1]
  diagnostics := by
    obtain ⟨added, hadded, hperm⟩ := h.diagnostics
    obtain ⟨later, hlater, hlaterPerm⟩ := hmore.diagnostics
    refine ⟨added ++ later, by rw [hlater, hadded, List.append_assoc], ?_⟩
    rw [List.flatMap_append]
    exact hperm.append hlaterPerm

/-- A problem of the file whose account is in progress. -/
theorem record (h : Ledger context w (⟨file, targets, problems⟩ :: rest) u) (problem : Problem) :
    Ledger context w (⟨file, targets, problems ++ [problem]⟩ :: rest)
      (u.record context file problem) where
  visited := h.visited
  nodup := h.nodup
  fresh := h.fresh
  listed := List.forall_mem_cons.mpr (List.forall_mem_cons.mp h.listed)
  others := h.others
  diagnostics := by
    obtain ⟨added, hadded, hperm⟩ := h.diagnostics
    refine ⟨added ++ [diagnostic context file problem], ?_, ?_⟩
    · rw [diagnostics_record, hadded, List.append_assoc]
    · simp only [List.flatMap_cons, Account.diagnostics, List.map_append, List.map_cons,
        List.map_nil] at hperm ⊢
      rw [List.append_assoc]
      refine (hperm.append_right _).trans ?_
      rw [List.append_assoc]
      exact List.perm_append_comm.append_left _

/-- An edge of the file whose account is in progress. -/
theorem link (h : Ledger context w (⟨file, targets, problems⟩ :: rest) u) (target : Path) :
    Ledger context w (⟨file, targets ++ [target], problems⟩ :: rest) (u.link file target) where
  visited := h.visited
  nodup := h.nodup
  fresh := h.fresh
  listed := by
    obtain ⟨hown, hrest⟩ := List.forall_mem_cons.mp h.listed
    refine List.forall_mem_cons.mpr ⟨?_, fun a ha => ?_⟩
    · rw [listed_link, hown, List.append_assoc]
    · have hmem : a.file ∈ rest.map Account.file := List.mem_map_of_mem ha
      have hne : a.file ≠ file := fun heq => (List.nodup_cons.mp h.nodup).1 (heq ▸ hmem)
      rw [listed_link_of_ne u target hne, hrest a ha]
  others f hf := by
    have hne : f ≠ file := fun heq => hf (heq ▸ List.mem_cons_self)
    rw [listed_link_of_ne u target hne, h.others f hf]
  diagnostics := h.diagnostics

end Ledger

/-! ## Steps -/

/-- The problem of a step that may be none. -/
def problem? : Option Step → Option Problem
  | some (.problem problem) => some problem
  | _ => none

theorem Fate.edge?_step? (x : Fate) : (edge? x.step?).toList = x.edges := by
  cases x <;> rfl

theorem Fate.problem?_step? (x : Fate) : (problem? x.step?).toList = x.problems := by
  cases x <;> rfl

theorem problem?_companionStep (file : Path) (edges : List Path) (suffix : String) :
    problem? (companionStep context view file edges suffix) =
      companionProblem? view file suffix := by
  unfold companionStep companionProblem?
  cases hfile : view.isFile (file.withSuffix suffix) with
  | error fault => simp only [hfile, problem?]
  | ok there =>
    simp only [hfile]
    split <;> rfl

/-- The companions before another one are other files. -/
theorem withSuffix_not_mem_companions {file : Path} {edges : List Path} {suffix : String}
    {before after : List String} (h : styleSuffixes = before ++ suffix :: after) :
    file.withSuffix suffix ∉ before.filterMap fun other =>
      edge? (companionStep context view file edges other) := by
  intro hmem
  obtain ⟨other, hother, hedge⟩ := List.mem_filterMap.mp hmem
  have hnodup : (before ++ suffix :: after).Nodup := h ▸ (by decide : styleSuffixes.Nodup)
  have hne : suffix ≠ other := by
    rintro rfl
    exact (List.nodup_middle.mp hnodup).notMem (List.mem_append_left _ hother)
  exact withSuffix_not_mem_companion hne (Option.mem_toList.mpr hedge)

/-! ## A file in progress -/

/-- Every file entered between two walks has a complete account. -/
def Accounted (context : Context) (view : FileView) (extractor : Extractor) (w w' : Walk) : Prop :=
  ∃ accounts, Ledger context w accounts w' ∧
    ∀ a ∈ accounts, a.IsComplete context view extractor (w.listed a.file)

/-- Following an edge to a settled file returns, and every file entered on the way has a complete
account. -/
def FollowsAll (context : Context) (view : FileView) (extractor : Extractor) (onward : Onward) :
    Prop :=
  ∀ target, Settled context view target → ∀ v, ∃ v', onward target v = .ok v' ∧
    Accounted context view extractor v v'

/-- A file entered from the walk `w` has contributed the targets and the problems so far, and every
file entered since has a complete account. -/
def InProgress (context : Context) (view : FileView) (extractor : Extractor) (w : Walk)
    (file : Path) (targets : List Path) (problems : List Problem) (u : Walk) : Prop :=
  ∃ rest, Ledger context w (⟨file, targets, problems⟩ :: rest) u ∧
    ∀ a ∈ rest, a.IsComplete context view extractor (w.listed a.file)

namespace InProgress

variable {w u v : Walk} {file : Path} {targets : List Path} {problems : List Problem}

theorem enter (hfresh : file ∉ w.visited) :
    InProgress context view extractor w file [] [] (w.enter file) :=
  ⟨[], .enter hfresh, nofun⟩

theorem record (h : InProgress context view extractor w file targets problems u)
    (problem : Problem) :
    InProgress context view extractor w file targets (problems ++ [problem])
      (u.record context file problem) := by
  obtain ⟨rest, hledger, hrest⟩ := h
  exact ⟨rest, hledger.record problem, hrest⟩

theorem link (h : InProgress context view extractor w file targets problems u) (target : Path) :
    InProgress context view extractor w file (targets ++ [target]) problems
      (u.link file target) := by
  obtain ⟨rest, hledger, hrest⟩ := h
  exact ⟨rest, hledger.link target, hrest⟩

theorem listed_eq (h : InProgress context view extractor w file targets problems u) :
    u.listed file = w.listed file ++ targets := by
  obtain ⟨rest, hledger, -⟩ := h
  exact hledger.listed _ List.mem_cons_self

/-- What is entered meanwhile had the same list before the file was entered. -/
theorem meanwhile (h : InProgress context view extractor w file targets problems u)
    (hmore : Accounted context view extractor u v) :
    InProgress context view extractor w file targets problems v := by
  obtain ⟨rest, hledger, hrest⟩ := h
  obtain ⟨more, hmore, hcomplete⟩ := hmore
  refine ⟨rest ++ more, hledger.trans hmore, fun a ha => ?_⟩
  rcases List.mem_append.mp ha with ha | ha
  · exact hrest a ha
  · have hfresh := hmore.fresh a.file (List.mem_map_of_mem ha)
    rw [← hledger.others a.file (hledger.not_mem_of_fresh hfresh)]
    exact hcomplete a ha

/-- A step contributes its edge or its problem.  Following the edge never fails, so that nothing is
blamed on a step whose edge is listed already. -/
theorem take {onward : Onward} {step : Option Step}
    (h : InProgress context view extractor w file targets problems u)
    (blame : DiskFault → Problem)
    (honward : FollowsAll context view extractor onward)
    (hsettled : ∀ target, step = some (.edge target) → Settled context view target) :
    InProgress context view extractor w file (targets ++ (edge? step).toList)
      (problems ++ (problem? step).toList) (Walk.take context onward file blame u step) := by
  refine take_cases ?_ ?_ ?_ ?_
  · rintro rfl
    simpa [edge?, problem?] using h
  · rintro problem rfl
    simpa [edge?, problem?, Step.target?] using h.record problem
  · rintro target v rfl hv
    obtain ⟨v', hok, haccounted⟩ := honward target (hsettled target rfl) (u.link file target)
    obtain rfl : v' = v := Except.ok.inj (hok.symm.trans hv)
    simpa [edge?, problem?, Step.target?] using (h.link target).meanwhile haccounted
  · rintro target fault rfl hfault
    obtain ⟨v', hok, -⟩ := honward target (hsettled target rfl) (u.link file target)
    cases hok.symm.trans hfault

end InProgress

/-! ## References and companions -/

/-- The references of a file that were taken so far have contributed the edges and the problems of
their fates. -/
def ReferencesTaken (context : Context) (view : FileView) (extractor : Extractor) (w : Walk)
    (file : Path) (before : List String) (u : Walk) : Prop :=
  ∃ fates, List.Forall₂ (HasFate context view file) before fates ∧
    InProgress context view extractor w file (fates.flatMap Fate.edges)
      (fates.flatMap Fate.problems) u

/-- The companions of a file that were taken so far have contributed their edges and problems,
behind those of the references. -/
def CompanionsTaken (context : Context) (view : FileView) (extractor : Extractor) (w : Walk)
    (file : Path) (targets : List Path) (problems : List Problem) (before : List String)
    (u : Walk) : Prop :=
  InProgress context view extractor w file
    (targets ++ before.filterMap fun suffix =>
      edge? (companionStep context view file (w.listed file ++ targets) suffix))
    (problems ++ before.filterMap (companionProblem? view file)) u

section Expansion

variable {w u : Walk} {file : Path} {targets : List Path} {problems : List Problem}
  {onward : Onward}

theorem ReferencesTaken.takeReference {before : List String} {reference : String}
    (h : ReferencesTaken context view extractor w file before u)
    (honward : FollowsAll context view extractor onward)
    (hsettled : ∀ target, referenceStep context view file reference = some (.edge target) →
      Settled context view target) :
    ReferencesTaken context view extractor w file (before ++ [reference])
      (Walk.takeReference context view onward file u reference) := by
  obtain ⟨fates, hfates, hu⟩ := h
  obtain ⟨x, hx⟩ := exists_fate context view file reference
  refine ⟨fates ++ [x], List.rel_append hfates (.cons hx .nil), ?_⟩
  rw [List.flatMap_append, List.flatMap_append, List.flatMap_singleton, List.flatMap_singleton,
    ← x.edge?_step?, ← x.problem?_step?, ← hx.step_eq]
  exact hu.take _ honward hsettled

/-- A companion is compared with what the file lists by then; the companions before it are other
files, so that they make no difference. -/
theorem CompanionsTaken.takeCompanion {before after : List String} {suffix : String}
    (h : CompanionsTaken context view extractor w file targets problems before u)
    (hsplit : styleSuffixes = before ++ suffix :: after)
    (honward : FollowsAll context view extractor onward)
    (hsettled : ∀ target, companionStep context view file (u.listed file) suffix =
      some (.edge target) → Settled context view target) :
    CompanionsTaken context view extractor w file targets problems (before ++ [suffix])
      (Walk.takeCompanion context view onward file u suffix) := by
  unfold CompanionsTaken at h ⊢
  have hsame : companionStep context view file (u.listed file) suffix =
      companionStep context view file (w.listed file ++ targets) suffix := by
    rw [h.listed_eq, ← List.append_assoc,
      companionStep_append (withSuffix_not_mem_companions hsplit)]
  rw [filterMap_concat, filterMap_concat, ← hsame, ← problem?_companionStep,
    ← List.append_assoc, ← List.append_assoc]
  exact h.take _ honward hsettled

/-- The references of a file contribute their share. -/
theorem exists_referenceShare (hcontext : context.IsNormal) (hfile : Inside context file)
    (honward : FollowsAll context view extractor onward) (hfresh : file ∉ w.visited) :
    ∃ targets problems, ReferenceShare context view extractor file targets problems ∧
      InProgress context view extractor w file targets problems
        (expandReferences context view extractor onward file (w.enter file)) := by
  have henter : InProgress context view extractor w file [] [] (w.enter file) := .enter hfresh
  unfold expandReferences
  cases hfound : references view extractor file with
  | error problem => exact ⟨[], [problem], .of_error hfound, henter.record problem⟩
  | ok found =>
    have hall : ∀ before after, found = before ++ after →
        ReferencesTaken context view extractor w file before
          (before.foldl (takeReference context view onward file) (w.enter file)) := by
      refine foldl_prefix_induction ⟨[], .nil, henter⟩ fun before reference after hsplit hu => ?_
      refine hu.takeReference honward fun target hstep => ?_
      have htakes : Takes context view extractor onward file w target _ :=
        .reference (hsplit ▸ hfound) hstep
      exact settled_of_mem_adjacency hcontext hfile htakes.mem_adjacency
    obtain ⟨fates, hfates, hu⟩ := hall found [] (List.append_nil found).symm
    exact ⟨_, _, .of_ok hfound hfates, hu⟩

/-- The companions of a file contribute theirs. -/
theorem inProgress_companions (hcontext : context.IsNormal) (hfile : Inside context file)
    (honward : FollowsAll context view extractor onward)
    (h : InProgress context view extractor w file targets problems
      (expandReferences context view extractor onward file (w.enter file))) :
    InProgress context view extractor w file
      (targets ++ companionTargets context view file (w.listed file ++ targets))
      (problems ++ companionProblems view file)
      (expand context view extractor onward file w) := by
  unfold expand expandCompanions companionTargets companionSteps companionProblems
  cases hkind : file.kind with
  | style => simpa using h
  | code =>
    have hstart : CompanionsTaken context view extractor w file targets problems []
        (expandReferences context view extractor onward file (w.enter file)) := by
      simpa [CompanionsTaken] using h
    have hall : ∀ before after, styleSuffixes = before ++ after →
        CompanionsTaken context view extractor w file targets problems before
          (before.foldl (takeCompanion context view onward file)
            (expandReferences context view extractor onward file (w.enter file))) := by
      refine foldl_prefix_induction hstart fun before suffix after hsplit hu => ?_
      refine hu.takeCompanion hsplit honward fun target hstep => ?_
      have htakes : Takes context view extractor onward file w target _ :=
        .companion hkind hsplit rfl hstep
      exact settled_of_mem_adjacency hcontext hfile htakes.mem_adjacency
    simpa [CompanionsTaken, List.filterMap_filterMap, edge?] using
      hall styleSuffixes [] (List.append_nil _).symm

end Expansion

/-! ## Calls -/

theorem Accounted.refl (w : Walk) : Accounted context view extractor w w :=
  ⟨[], .refl w, nofun⟩

/-- A file that is expanded has a complete account, and so has every file entered from there. -/
theorem accounted_expand {onward : Onward} {file : Path} {w : Walk} (hcontext : context.IsNormal)
    (hfile : Inside context file)
    (honward : FollowsAll context view extractor onward) (hfresh : file ∉ w.visited) :
    Accounted context view extractor w (expand context view extractor onward file w) := by
  obtain ⟨targets, problems, hshare, hreferences⟩ :=
    exists_referenceShare hcontext hfile honward hfresh
  obtain ⟨rest, hledger, hrest⟩ := inProgress_companions hcontext hfile honward hreferences
  refine ⟨_, hledger, List.forall_mem_cons.mpr ⟨?_, hrest⟩⟩
  exact ⟨targets, problems, hshare, rfl, rfl⟩

theorem accounted_track (hcontext : context.IsNormal) : ∀ (depth : Int) (path : Path) (w w' : Walk),
    path.IsSpelled → w.track context view extractor path depth = .ok w' →
    Accounted context view extractor w w' := by
  refine depth_induction context.maxDepth fun depth ih path w w' hpath htrack => ?_
  rcases track_cases htrack with rfl | ⟨file, henters, rfl⟩
  · exact .refl _
  · have hfile := henters.admits.settled hcontext hpath
    refine accounted_expand hcontext hfile.inside (fun target htarget v => ?_) henters.fresh
    obtain ⟨v', htracked, -⟩ := track_settled htarget (depth + 1) v
    exact ⟨v', htracked, ih henters.depth_le target v v' htarget.inside.normal.isSpelled htracked⟩

/-- The wording of a problem that a reference leaves. -/
theorem HasFate.missed_names {file : Path} {reference : String} {problem : Problem}
    (h : HasFate context view file reference (.missed problem)) :
    (problem.stage = "locate" ∧ problem.message = "cannot find '" ++ reference ++ "'") ∨
      ∃ fault : DiskFault, problem.stage = "resolve" ∧
        problem.message = "'" ++ reference ++ "': " ++ fault.message := by
  cases h with
  | notFound hresolve hlocate => exact .inl ⟨rfl, rfl⟩
  | @unresolved candidate fault hresolve hlocate => exact .inr ⟨fault, rfl, rfl⟩

/-- **Every reference is accounted for once.**  A reference has exactly one fate, and one that is
missed is named by its problem.  A call that returns, on any walk, has entered a number of new
files; the account of each is complete, the edges of the accounts are what the lists of the files
have gained, and their problems are, up to order, what is reported.  The context is normalized, as
every context is that was created for a project. -/
theorem references_accounted (hcontext : context.IsNormal) {path : String} {depth : Int}
    {w w' : Walk} (h : w.track context view extractor (Path.ofString path) depth = .ok w') :
    (∀ file reference, ∃! x, HasFate context view file reference x) ∧
    (∀ file reference problem, HasFate context view file reference (.missed problem) →
      (problem.stage = "locate" ∧ problem.message = "cannot find '" ++ reference ++ "'") ∨
        ∃ fault : DiskFault, problem.stage = "resolve" ∧
          problem.message = "'" ++ reference ++ "': " ++ fault.message) ∧
    ∃ accounts, Ledger context w accounts w' ∧
      ∀ a ∈ accounts, a.IsComplete context view extractor (w.listed a.file) := by
  refine ⟨fun file reference => ?_, fun _ _ _ => HasFate.missed_names,
    accounted_track hcontext depth _ w w' (Path.isSpelled_ofString path) h⟩
  obtain ⟨x, hx⟩ := exists_fate context view file reference
  exact ⟨x, hx, fun y hy => hy.unique hx⟩

/-- Every file refers to an external package and to a file that is not there. -/
def goneExtractor : Extractor :=
  fun _ _ => .ok ["react", "./gone"]

/-- A file of the pair and its stylesheet miss the same reference, and each has its own problem. -/
theorem references_accounted_pair : ∃ w',
    Walk.empty.track (pairContext 3) pairDisk.view goneExtractor (Path.ofString "a") 0 = .ok w' ∧
    w'.diagnostics.map Diagnostic.message = ["cannot find './gone'", "cannot find './gone'"] ∧
    ∃ accounts, Ledger (pairContext 3) Walk.empty accounts w' ∧
      ∀ a ∈ accounts, a.IsComplete (pairContext 3) pairDisk.view goneExtractor
        (Walk.empty.listed a.file) := by
  have hnormal : (pairContext 3).IsNormal := ⟨by decide, by decide⟩
  have htrack : Walk.empty.track (pairContext 3) pairDisk.view goneExtractor (Path.ofString "a") 0 =
      .ok (Walk.empty.after (pairContext 3) pairDisk.view goneExtractor (Path.ofString "a") 0) := by
    decide +kernel
  exact ⟨_, htrack, by decide +kernel, (references_accounted hnormal htrack).2.2⟩

end ImportAtlas.Walk
