import Kodezart.Standing
import Kodezart.Trajectory

/-! The quality loop as a state machine: execute, evaluate, and the routing between them. -/
namespace Kodezart.RalphLoop
open CriteriaGrading Lapse CrossOffs Standing Trajectory

structure LoopSettings where
  maxIterations : Nat
  plateauWindow : Nat

structure LoopState where
  iteration : Nat := 0
  verdict : AcceptVerdict := .rejected
  pendingFailures : List CriterionFailure := []
  iterationRecords : List IterationRecord := []
  iterationCommitSha : Option String := none
  amendmentBlocked : Bool := false
  standing : List CriterionCrossOff := []

inductive Node where
  | execute | evaluate | done
  deriving DecidableEq, Repr

def executeNode (commitSha : Option String) (blocked : Bool) (state : LoopState) : LoopState :=
  { state with
    iteration := state.iteration + 1
    iterationCommitSha := commitSha
    amendmentBlocked := blocked }

def evaluateNode (round : Round) (state : LoopState) : Except Refusal LoopState := do
  let evaluated ← evaluate round state.standing
  .ok { state with
    verdict := evaluated.grade.verdict
    pendingFailures := evaluated.grade.failures
    iterationRecords := state.iterationRecords ++ [{
      iteration := state.iteration
      passedCount := evaluated.grade.passedCount
      failingCriterionIds := evaluated.grade.failures.map CriterionFailure.criterionId
      commitSha := state.iterationCommitSha }]
    standing := evaluated.standing }

section Routing
variable (settings : LoopSettings)

def shouldContinue (state : LoopState) : Node :=
  if gateCleared state.verdict && !state.amendmentBlocked then .done
  else if settings.maxIterations ≤ state.iteration then .done
  else if (foldTrajectory settings.plateauWindow state.iterationRecords).plateaued then .done
  else .execute

def routeAfterExecute (state : LoopState) : Node :=
  -- No evaluation was produced: only the attempt budget advances.
  if state.amendmentBlocked then shouldContinue settings state else .evaluate

/-- The states a run over one roster reaches, each with the node it is about to enter. -/
inductive Reached (criteria : List TrackerCriterion) : LoopState → Node → Prop where
  | start : Reached criteria {} .execute
  | executed {state} (before : Reached criteria state .execute) (commitSha : Option String)
      (blocked : Bool) : Reached criteria (executeNode commitSha blocked state)
        (routeAfterExecute settings (executeNode commitSha blocked state))
  | evaluated {state state'} (before : Reached criteria state .evaluate) (round : Round)
      (same : round.criteria = criteria) (numbered : round.iteration = state.iteration)
      (done : evaluateNode round state = .ok state') :
      Reached criteria state' (shouldContinue settings state')

end Routing

/-- A standing that sent the loop on: nothing graded yet, or one grading for each criterion
of the roster and not all of them passing. -/
structure Unfinished (criteria : List TrackerCriterion) (standing : List CriterionCrossOff) : Prop where
  covers : standing ≠ [] → standing.map CriterionCrossOff.criterion = criteria.map TrackerCriterion.id
  failing : standing ≠ [] → ∃ c ∈ standing, c.state ≠ .passed

section Evaluation
variable {round : Round} {prior : List CriterionCrossOff}

/-- A criterion the reading counts passes in the round's own grade. -/
theorem countedResultPasses {reading : Reading} {output : AcceptanceCriteriaOutput}
    (reconciled : reconciledOutput round prior reading = .ok output) {result : CriterionResult}
    (member : result ∈ (gradeRound round reading output).1.results)
    (counted : reading.get? result.criterionId = some .counted) : result.passed = true := by
  have present : reading ≠ [] := by
    rintro rfl
    simp at counted
  rw [reconciledOutput, if_pos present] at reconciled
  have ids : (roster round).map ExecutionCriterion.id = round.criteria.map TrackerCriterion.id := by
    simp [roster, Function.comp_def, ExecutionCriterion.id]
  have passes : ∀ undemonstrated : Dict CriterionId UndemonstratedReason,
      undemonstrated.get? result.criterionId = none →
      result ∈ (gradeIteration (roster round) output undemonstrated).results → result.passed = true := by
    intro undemonstrated kept inside
    simp only [gradeIteration] at inside
    obtain ⟨criterion, listed, rfl⟩ := List.mem_map.mp inside
    obtain ⟨tracked, onRoster, rfl⟩ := List.mem_map.mp listed
    rw [gradeCriterionId] at counted kept
    obtain ⟨stands, once⟩ := iterationOutputWithheld reconciled round.distinct onRoster counted
    have known : tracked.id ∈ (roster round).map ExecutionCriterion.id := by
      rw [ids]
      exact List.mem_map.mpr ⟨tracked, onRoster, rfl⟩
    obtain ⟨answer, single⟩ := reconcileOnce _ known once
    rw [gradeCriterionAnswered answer single kept]
    simp [withheldRow]
  unfold gradeRound at member
  dsimp only at member
  split at member
  · refine passes _ ?_ member
    have read : result.criterionId ∈ reading.keys := (Dict.getSome _ _).mpr ⟨_, counted⟩
    have foreign : ∀ other ∈ (gradeIteration (roster round) output []).results.filter
        (fun other => other.criterionId ∉ reading.keys), other.criterionId ≠ result.criterionId := by
      intro other inside same
      simp only [List.mem_filter, decide_eq_true_eq] at inside
      exact inside.2 (same ▸ read)
    unfold roundReasons undemonstratedReasonsOf
    split
    · rw [Dict.updateGetNone]
      refine ⟨rfl, ?_⟩
      intro e inside
      obtain ⟨other, mem, rfl⟩ := List.mem_map.mp inside
      exact foreign other mem
    · rw [Dict.updateGetNone]
      refine ⟨rfl, ?_⟩
      intro e inside
      obtain ⟨other, mem, rfl⟩ := List.mem_map.mp inside
      exact foreign other (List.mem_of_mem_filter mem)
  · exact passes [] rfl member

theorem gradeRoundVerdict (round : Round) (reading : Reading) (output : AcceptanceCriteriaOutput) :
    (gradeRound round reading output).1.verdict =
      acceptVerdict (roster round) (gradeRound round reading output).1.results := by
  unfold gradeRound
  dsimp only
  split <;> rfl

/-- A rejected round leaves a grading that does not pass. -/
theorem rejectedLeavesFailing {evaluated : Evaluated} (done : evaluate round prior = .ok evaluated)
    (rejected : evaluated.grade.verdict = .rejected) : ∃ c ∈ evaluated.standing, c.state ≠ .passed := by
  obtain ⟨_, _, output, reconciled, grade, standing⟩ := evaluateFacts done
  have ids : (roster round).map ExecutionCriterion.id = round.criteria.map TrackerCriterion.id := by
    simp [roster, Function.comp_def, ExecutionCriterion.id]
  rw [grade, gradeRoundVerdict, rejectedIff (by rw [gradeRoundIds, ids]) (ids ▸ round.distinct)] at rejected
  obtain ⟨_, _, _, result, member, _, failed⟩ := rejected
  rw [standing, grade]
  refine ⟨_, List.mem_map.mpr ⟨result, member, rfl⟩, ?_⟩
  unfold crossOffFor
  dsimp only
  split
  · rename_i counted _
    have passed := countedResultPasses reconciled member counted
    rw [failed] at passed
    cases passed
  · simp [lapsedCrossOff]
  · simp only [freshCrossOff, failed, crossOffState]
    split <;> simp

end Evaluation

section Run
variable {settings : LoopSettings} {criteria : List TrackerCriterion} {state : LoopState}

theorem shouldContinueNotEvaluate (state : LoopState) : shouldContinue settings state ≠ .evaluate := by
  unfold shouldContinue
  repeat' split
  all_goals simp

theorem routedOnRejected {state : LoopState} (open_ : state.amendmentBlocked = false)
    (routed : shouldContinue settings state ≠ .done) : state.verdict = .rejected := by
  by_contra cleared
  refine routed ?_
  simp [shouldContinue, gateCleared, cleared, open_]

/-- Wherever the loop goes on, it goes on from an unfinished standing. -/
theorem reachedUnfinished {node : Node} (reached : Reached settings criteria state node) :
    (node ≠ .done → Unfinished criteria state.standing) ∧
    (node = .evaluate → state.amendmentBlocked = false) := by
  induction reached with
  | start => exact ⟨fun _ => ⟨by simp, by simp⟩, by simp⟩
  | executed before commitSha blocked ih =>
    refine ⟨fun _ => ih.1 (by simp), ?_⟩
    intro evaluating
    cases blocked with
    | false => rfl
    | true =>
      exact absurd evaluating (shouldContinueNotEvaluate _)
  | @evaluated state state' before round same numbered done ih =>
    obtain ⟨evaluated, step, done⟩ := bindOk.mp done
    cases done
    refine ⟨fun routed => ⟨fun _ => ?_, fun _ => ?_⟩, ?_⟩
    · rw [← same]
      exact standingCriteria step
    · exact rejectedLeavesFailing step (routedOnRejected (by exact ih.2 rfl) routed)
    · intro _
      exact ih.2 rfl

end Run

section Owed
variable (round : Round) (prior : List CriterionCrossOff)

/-- A standing in which some grading has lapsed holds another one this round may grade again. -/
def OwedBesideLapses : Prop :=
  (∃ c ∈ prior, c.state = .lapsed) → ∃ c ∈ prior, c.state ≠ .lapsed ∧
    (c.state ≠ .passed ∨ c.rederivationClass = .cheap ∨ (c.rederivationClass = .expensive ∧
      standingState round.headSha (movedSince round prior) round.baseStale c = .lapsed))

instance : Decidable (OwedBesideLapses round prior) := by
  unfold OwedBesideLapses
  infer_instance

variable {round prior}

theorem armRederive {headSha : Sha} {changesets : Dict Sha ChangesetDigest} {baseStale : Bool}
    {c : CriterionCrossOff} : arm headSha changesets baseStale c = .rederive ↔ c.state ≠ .lapsed ∧
      (c.state ≠ .passed ∨ c.rederivationClass = .cheap ∨ (c.rederivationClass = .expensive ∧
        standingState headSha changesets baseStale c = .lapsed)) := by
  unfold arm
  by_cases lapsed : c.state = .lapsed
  · simp [lapsed]
  · by_cases passed : c.state = .passed
    · cases class_ : c.rederivationClass with
      | cheap => simp [passed, pathBoundClasses]
      | expensive =>
        cases standing : standingState headSha changesets baseStale c <;> simp [passed, pathBoundClasses]
      | observed =>
        cases standing : standingState headSha changesets baseStale c <;> simp [passed, pathBoundClasses]
    · simp [lapsed, passed]

theorem withheldLength (round : Round) (prior : List CriterionCrossOff) :
    (withheldBy (heldFor round prior)).length + (heldFor round prior).rederive.length = prior.length := by
  rw [heldForArms, withheldBy, List.length_map, List.length_append]
  exact heldStandingLength _ _ _ prior

theorem rederivedIff : 0 < (heldFor round prior).rederive.length ↔ ∃ c ∈ prior, c.state ≠ .lapsed ∧
    (c.state ≠ .passed ∨ c.rederivationClass = .cheap ∨ (c.rederivationClass = .expensive ∧
      standingState round.headSha (movedSince round prior) round.baseStale c = .lapsed)) := by
  rw [heldForArms, heldStandingArms, List.length_pos_iff_exists_mem]
  simp only [List.mem_filter, decide_eq_true_eq, armRederive]

end Owed

section Attempts
variable (settings : LoopSettings) (criteria : List TrackerCriterion)

/-- Execute-and-evaluate passes none of which ends the loop. -/
def attempts : LoopState → List Round → Except Refusal LoopState
  | state, [] => .ok state
  | state, round :: rounds => do
    let state' ← evaluateNode round (executeNode none false state)
    if round.criteria = criteria ∧ round.iteration = state.iteration + 1 ∧
        shouldContinue settings state' = .execute then attempts state' rounds
    else .error .nothingToGrade

variable {settings criteria}

theorem attemptsReached {rounds : List Round} {state state' : LoopState}
    (begun : Reached settings criteria state .execute)
    (done : attempts settings criteria state rounds = .ok state') :
    Reached settings criteria state' .execute := by
  induction rounds generalizing state with
  | nil =>
    cases done
    exact begun
  | cons round rounds ih =>
    obtain ⟨next, step, done⟩ := bindOk.mp done
    split at done
    · rename_i routed
      refine ih ?_ done
      rw [← routed.2.2]
      exact .evaluated (.executed begun none false) round routed.1 routed.2.1 step
    · cases done

end Attempts

def fiveIterations : LoopSettings := ⟨5, 2⟩
def demoRoster : List TrackerCriterion := [observation, standingTest]

/-- The second round passes what the first failed, and lapses what the first observed. -/
def swappedRun : List Round :=
  [demoRound 1 'd' [row observation true .observed ["src"], row standingTest false .expensive ["lib"]] (by simp),
    demoRound 2 'e' [row standingTest true .expensive ["lib"]] (by simp)]

end Kodezart.RalphLoop
