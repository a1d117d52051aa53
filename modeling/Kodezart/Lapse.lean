import Kodezart.CriterionLifecycle
import Kodezart.RepoPath

/-! Whether a grading taken at one commit still stands at another: arithmetic over
two shas, the re-derivation class, the exercised prefixes and the paths changed between. -/
namespace Kodezart.Lapse

inductive GradedState where
  | counted | lapsed
  deriving DecidableEq, Repr

/-- The changed paths of the commits between a graded sha and a head. -/
structure ChangesetDigest where
  filePaths : List String
  deriving DecidableEq, Repr

/-- Whether the path is the prefix itself or sits under it, by whole segments. -/
def beneath (path : String) (declared : ExercisedPath) : Bool :=
  let stem := RepoPath.withoutTrailingSlashes declared.val.toList
  path.toList = stem || (stem ++ ['/']).isPrefixOf path.toList

def gradedState (gradedSha headSha : Sha) (rederivationClass : RederivationClass)
    (exercisedPaths : List ExercisedPath) (changeset : Option ChangesetDigest) (baseStale : Bool) :
    GradedState :=
  if baseStale then .lapsed
  else if gradedSha = headSha then .counted
  else if rederivationClass ∉ pathBoundClasses then .lapsed
  else match changeset with
    | none => .lapsed
    | some digest =>
      if digest.filePaths.any fun path => exercisedPaths.any fun declared => beneath path declared
      then .lapsed
      else .counted

structure HeldStanding where
  carried : List CriterionCrossOff := []
  rederive : List CriterionCrossOff := []
  lapsed : List CriterionCrossOff := []
  newlyLapsed : List CriterionCrossOff := []
  deriving DecidableEq

section Partition
variable (headSha : Sha) (changesets : Dict Sha ChangesetDigest) (baseStale : Bool)

def standingState (crossOff : CriterionCrossOff) : GradedState :=
  gradedState crossOff.evidence.gradedSha headSha crossOff.rederivationClass crossOff.exercisedPaths
    (changesets.get? crossOff.evidence.gradedSha) baseStale

/-- One turn of the loop: the cross-off goes to the end of the field it belongs in. -/
def hold (held : HeldStanding) (crossOff : CriterionCrossOff) : HeldStanding :=
  if crossOff.state = .lapsed then { held with lapsed := held.lapsed ++ [crossOff] }
  else if crossOff.state ≠ .passed ∨ crossOff.rederivationClass ∉ pathBoundClasses then
    { held with rederive := held.rederive ++ [crossOff] }
  else match standingState headSha changesets baseStale crossOff with
    | .counted => { held with carried := held.carried ++ [crossOff] }
    | .lapsed =>
      if crossOff.rederivationClass = .observed then
        { held with lapsed := held.lapsed ++ [crossOff], newlyLapsed := held.newlyLapsed ++ [crossOff] }
      else { held with rederive := held.rederive ++ [crossOff] }

def heldStanding (prior : List CriterionCrossOff) : HeldStanding :=
  prior.foldl (hold headSha changesets baseStale) {}

inductive Arm where
  | carried | rederive | lapsed | newlyLapsed
  deriving DecidableEq, Repr

/-- The field one cross-off belongs in; a newly lapsed one is among the lapsed besides. -/
def arm (crossOff : CriterionCrossOff) : Arm :=
  if crossOff.state = .lapsed then .lapsed
  else if crossOff.state ≠ .passed ∨ crossOff.rederivationClass ∉ pathBoundClasses then .rederive
  else match standingState headSha changesets baseStale crossOff with
    | .counted => .carried
    | .lapsed => if crossOff.rederivationClass = .observed then .newlyLapsed else .rederive

theorem foldlHold (prior : List CriterionCrossOff) (held : HeldStanding) :
    prior.foldl (hold headSha changesets baseStale) held =
      { carried := held.carried ++ prior.filter (fun c => arm headSha changesets baseStale c = .carried)
        rederive := held.rederive ++ prior.filter (fun c => arm headSha changesets baseStale c = .rederive)
        lapsed := held.lapsed ++ prior.filter (fun c => arm headSha changesets baseStale c = .lapsed ∨
          arm headSha changesets baseStale c = .newlyLapsed)
        newlyLapsed := held.newlyLapsed ++
          prior.filter (fun c => arm headSha changesets baseStale c = .newlyLapsed) } := by
  induction prior generalizing held with
  | nil => simp
  | cons crossOff prior ih =>
    rw [List.foldl_cons, ih]
    unfold hold
    simp only [List.filter_cons]
    unfold arm
    split
    · simp
    · split
      · simp
      · cases standingState headSha changesets baseStale crossOff with
        | counted => simp
        | lapsed => simp only; split <;> simp

/-- Each cross-off is in exactly the field of its arm, and every field keeps the arrival order. -/
theorem heldStandingArms (prior : List CriterionCrossOff) :
    heldStanding headSha changesets baseStale prior =
      { carried := prior.filter (fun c => arm headSha changesets baseStale c = .carried)
        rederive := prior.filter (fun c => arm headSha changesets baseStale c = .rederive)
        lapsed := prior.filter (fun c => arm headSha changesets baseStale c = .lapsed ∨
          arm headSha changesets baseStale c = .newlyLapsed)
        newlyLapsed := prior.filter (fun c => arm headSha changesets baseStale c = .newlyLapsed) } := by
  rw [heldStanding, foldlHold]
  simp

theorem heldStandingLength (prior : List CriterionCrossOff) :
    (heldStanding headSha changesets baseStale prior).carried.length +
      (heldStanding headSha changesets baseStale prior).lapsed.length +
      (heldStanding headSha changesets baseStale prior).rederive.length = prior.length := by
  rw [heldStandingArms]
  induction prior with
  | nil => rfl
  | cons crossOff prior ih =>
    dsimp only at ih ⊢
    cases place : arm headSha changesets baseStale crossOff <;> simp [place] at ih ⊢ <;> omega

theorem armCarried {crossOff : CriterionCrossOff} :
    arm headSha changesets baseStale crossOff = .carried ↔
      crossOff.state = .passed ∧ crossOff.rederivationClass ∈ pathBoundClasses ∧
      standingState headSha changesets baseStale crossOff = .counted := by
  unfold arm
  split
  · rename_i lapsed
    simp [lapsed]
  · split
    · rename_i owed
      simp only [reduceCtorEq, false_iff]
      tauto
    · rename_i standing
      simp only [ne_eq, not_or, not_not] at standing
      cases state : standingState headSha changesets baseStale crossOff with
      | counted => simp [standing]
      | lapsed => simp only [reduceCtorEq, and_false, iff_false]; split <;> simp

end Partition

theorem gradedStateCounted {gradedSha headSha : Sha} {rederivationClass : RederivationClass}
    {exercisedPaths : List ExercisedPath} {changeset : Option ChangesetDigest} {baseStale : Bool} :
    gradedState gradedSha headSha rederivationClass exercisedPaths changeset baseStale = .counted ↔
      baseStale = false ∧ (gradedSha = headSha ∨ (rederivationClass ∈ pathBoundClasses ∧
        ∃ digest, changeset = some digest ∧ ∀ path ∈ digest.filePaths, ∀ declared ∈ exercisedPaths,
          beneath path declared = false)) := by
  unfold gradedState
  cases baseStale with
  | true => simp
  | false =>
    by_cases same : gradedSha = headSha
    · simp [same]
    · by_cases bound : rederivationClass ∈ pathBoundClasses
      · cases changeset with
        | none => simp [same, bound]
        | some digest => simp [same, bound]
      · simp [same, bound]

/-- On a repository path the textual match finds what lies under a plainly spelled declaration. -/
theorem beneathIff {path : String} {declared : ExercisedPath} (plain : RepoPath.Plain path.toList) :
    beneath path declared ↔
      RepoPath.Plain (RepoPath.withoutTrailingSlashes declared.val.toList) ∧
      RepoPath.Under path.toList declared.val.toList := by
  rw [← RepoPath.segmentsPrefixIff plain]
  simp only [beneath, RepoPath.segments, ← RepoPath.splitPrefix, Bool.or_eq_true,
    decide_eq_true_eq, List.isPrefixOf_iff_prefix]

section Movement
variable (headSha : Sha) (changesets : Dict Sha ChangesetDigest) (baseStale : Bool)

def RepositoryPaths : Prop :=
  ∀ sha digest, changesets.get? sha = some digest → ∀ path ∈ digest.filePaths, RepoPath.Plain path.toList

/-- A changed path lies at or beneath one of the declared ones, read name by name. -/
def Moved (digest : ChangesetDigest) (crossOff : CriterionCrossOff) : Prop :=
  ∃ path ∈ digest.filePaths, ∃ declared ∈ crossOff.exercisedPaths,
    RepoPath.Under path.toList declared.val.toList

def MovedLegibly (digest : ChangesetDigest) (crossOff : CriterionCrossOff) : Prop :=
  ∃ path ∈ digest.filePaths, ∃ declared ∈ crossOff.exercisedPaths,
    RepoPath.Plain (RepoPath.withoutTrailingSlashes declared.val.toList) ∧
    RepoPath.Under path.toList declared.val.toList

/-- Changesets grow or go missing, and the base turns stale or stays as it was. -/
def MovesOn (changesets' : Dict Sha ChangesetDigest) (baseStale' : Bool) : Prop :=
  (baseStale → baseStale') ∧ ∀ sha digest', changesets'.get? sha = some digest' →
    ∃ digest, changesets.get? sha = some digest ∧ digest.filePaths ⊆ digest'.filePaths

structure CarriedUnmoved (prior : List CriterionCrossOff) : Prop where
  partition : ∃ place : CriterionCrossOff → Arm,
    heldStanding headSha changesets baseStale prior =
      { carried := prior.filter (place · = .carried)
        rederive := prior.filter (place · = .rederive)
        lapsed := prior.filter fun c => place c = .lapsed ∨ place c = .newlyLapsed
        newlyLapsed := prior.filter (place · = .newlyLapsed) }
  unmoved : ∀ crossOff ∈ (heldStanding headSha changesets baseStale prior).carried,
    crossOff.evidence.gradedSha ≠ headSha → baseStale = false ∧
    ∃ digest, changesets.get? crossOff.evidence.gradedSha = some digest ∧ ¬ Moved digest crossOff
  monotone : ∀ changesets' baseStale', MovesOn changesets baseStale changesets' baseStale' →
    (heldStanding headSha changesets' baseStale' prior).carried.Sublist
      (heldStanding headSha changesets baseStale prior).carried

/-- Wherever the tree moved under a standing path-bound grading, it moved under a declaration
spelled plainly: with no `.` segment and no repeated or leading slash. -/
def MovementLegible (prior : List CriterionCrossOff) : Prop :=
  baseStale = false → ∀ crossOff ∈ prior, crossOff.state = .passed →
    crossOff.rederivationClass ∈ pathBoundClasses → crossOff.evidence.gradedSha ≠ headSha →
    ∀ digest, changesets.get? crossOff.evidence.gradedSha = some digest →
      Moved digest crossOff → MovedLegibly digest crossOff

variable {headSha changesets baseStale}

theorem standingStateCounted {crossOff : CriterionCrossOff} (paths : RepositoryPaths changesets) :
    standingState headSha changesets baseStale crossOff = .counted ↔
      baseStale = false ∧ (crossOff.evidence.gradedSha = headSha ∨
        (crossOff.rederivationClass ∈ pathBoundClasses ∧
        ∃ digest, changesets.get? crossOff.evidence.gradedSha = some digest ∧
          ¬ MovedLegibly digest crossOff)) := by
  rw [standingState, gradedStateCounted]
  refine and_congr_right fun _ => or_congr_right (and_congr_right fun _ => exists_congr fun digest => ?_)
  refine and_congr_right fun found => ?_
  simp only [MovedLegibly, not_exists, not_and]
  refine forall_congr' fun path => forall_congr' fun changed => forall_congr' fun declared =>
    forall_congr' fun _ => ?_
  rw [← Bool.not_eq_true, beneathIff (paths _ _ found path changed), not_and]

theorem memCarried {prior : List CriterionCrossOff} {crossOff : CriterionCrossOff} :
    crossOff ∈ (heldStanding headSha changesets baseStale prior).carried ↔
      crossOff ∈ prior ∧ crossOff.state = .passed ∧ crossOff.rederivationClass ∈ pathBoundClasses ∧
      standingState headSha changesets baseStale crossOff = .counted := by
  simp only [heldStandingArms, List.mem_filter, decide_eq_true_eq, armCarried]

theorem carriedShrinks (prior : List CriterionCrossOff) {changesets' : Dict Sha ChangesetDigest}
    {baseStale' : Bool} (moves : MovesOn changesets baseStale changesets' baseStale') :
    (heldStanding headSha changesets' baseStale' prior).carried.Sublist
      (heldStanding headSha changesets baseStale prior).carried := by
  simp only [heldStandingArms]
  refine List.monotone_filter_right prior ?_
  intro crossOff carried
  simp only [decide_eq_true_eq, armCarried] at carried ⊢
  obtain ⟨passed, bound, counted⟩ := carried
  refine ⟨passed, bound, ?_⟩
  rw [standingState, gradedStateCounted] at counted ⊢
  obtain ⟨fresh, still⟩ := counted
  refine ⟨?_, still.imp_right ?_⟩
  · cases baseStale with
    | false => rfl
    | true => exact absurd (moves.1 rfl) (by simp [fresh])
  · rintro ⟨_, digest', found, untouched⟩
    obtain ⟨digest, before, fewer⟩ := moves.2 _ _ found
    exact ⟨bound, digest, before, fun path changed => untouched path (fewer changed)⟩

theorem carriedUnmovedIff (prior : List CriterionCrossOff) (paths : RepositoryPaths changesets) :
    CarriedUnmoved headSha changesets baseStale prior ↔
      MovementLegible headSha changesets baseStale prior := by
  constructor
  · intro ⟨_, unmoved, _⟩ fresh crossOff member passed bound elsewhere digest found moved
    by_contra illegible
    have counted : standingState headSha changesets baseStale crossOff = .counted :=
      (standingStateCounted paths).mpr ⟨fresh, Or.inr ⟨bound, digest, found, illegible⟩⟩
    obtain ⟨_, other, same, still⟩ := unmoved crossOff (memCarried.mpr ⟨member, passed, bound, counted⟩) elsewhere
    cases found.symm.trans same
    exact still moved
  · intro legible
    refine ⟨⟨_, heldStandingArms headSha changesets baseStale prior⟩, ?_, fun _ _ => carriedShrinks prior⟩
    intro crossOff carried elsewhere
    obtain ⟨member, passed, bound, counted⟩ := memCarried.mp carried
    obtain ⟨fresh, same | ⟨_, digest, found, untouched⟩⟩ := (standingStateCounted paths).mp counted
    · exact absurd same elsewhere
    · exact ⟨fresh, digest, found,
        fun moved => untouched (legible fresh crossOff member passed bound elsewhere digest found moved)⟩

end Movement

def gradedAt : Sha := ⟨"cccccccccccccccccccccccccccccccccccccccc", by decide⟩
def movedTo : Sha := ⟨"bbbbbbbbbbbbbbbbbbbbbbbbbbbbbbbbbbbbbbbb", by decide⟩

/-- A passing expensive grading that exercised one declared path. -/
def expensivePass (declared : ExercisedPath) : CriterionCrossOff where
  criterion := ⟨"KOD-7", by decide⟩
  state := .passed
  evidence := ⟨gradedAt, ⟨"evaluator session s, iteration 1", by decide⟩⟩
  rederivationClass := .expensive
  exercisedPaths := [declared]
  reasonIsTheState := by decide
  pathsNamed := by simp

def sourceMoved : Dict Sha ChangesetDigest := [(gradedAt, ⟨["src/main.py"]⟩)]

theorem sourceMovedPaths : RepositoryPaths sourceMoved := by
  intro sha digest found path changed
  have entry := Dict.getMember found
  simp only [sourceMoved, List.mem_singleton, Prod.mk.injEq] at entry
  obtain ⟨rfl, rfl⟩ := entry
  cases List.mem_singleton.mp changed
  decide

theorem plainDeclarationUnmoved :
    CarriedUnmoved movedTo sourceMoved false [expensivePass ⟨"src/", by decide⟩] := by
  refine (carriedUnmovedIff _ sourceMovedPaths).mpr ?_
  intro _ crossOff member _ _ _ digest found moved
  obtain ⟨path, changed, declared, inside, under⟩ := moved
  cases List.mem_singleton.mp member
  cases List.mem_singleton.mp inside
  exact ⟨path, changed, _, inside, by decide, under⟩

/-- `./src` names the directory `src`, matches nothing under it, and keeps its grading standing. -/
theorem dottedDeclarationCarried :
    RepositoryPaths sourceMoved ∧
      (heldStanding movedTo sourceMoved false [expensivePass ⟨"./src", by decide⟩]).carried =
        [expensivePass ⟨"./src", by decide⟩] ∧
      ¬ CarriedUnmoved movedTo sourceMoved false [expensivePass ⟨"./src", by decide⟩] := by
  have carried : (heldStanding movedTo sourceMoved false [expensivePass ⟨"./src", by decide⟩]).carried =
      [expensivePass ⟨"./src", by decide⟩] := by decide
  refine ⟨sourceMovedPaths, carried, ?_⟩
  intro ⟨_, unmoved, _⟩
  obtain ⟨_, digest, found, still⟩ := unmoved (expensivePass ⟨"./src", by decide⟩)
    (by rw [carried]; exact List.mem_singleton.mpr rfl) (by decide)
  cases List.mem_singleton.mp (Dict.getMember found)
  exact still ⟨"src/main.py", by decide, ⟨"./src", by decide⟩, by decide, by decide⟩

end Kodezart.Lapse
