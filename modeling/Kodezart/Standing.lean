import Kodezart.CriterionCrossOff
import Kodezart.Fallible

/-! What the quality loop's gradings leave standing from one evaluation to the next. -/
namespace Kodezart.Standing
open CriteriaGrading Lapse CrossOffs

/-- What one evaluation round is given: the roster it dispatches, one criterion for each key,
the head it grades and what the repository and the sessions answer about them. -/
structure Round where
  iteration : Nat
  criteria : List TrackerCriterion
  some_criterion : criteria ≠ []
  distinct : (criteria.map TrackerCriterion.id).Nodup
  headSha : Sha
  diffSummary : Sha → ChangesetDigest
  baseStale : Bool
  graded : AcceptanceCriteriaOutput
  sessionId : String
  workspaceStood : Bool
  surviving : List CriterionId
  baseReading : Option (List BaseCheckResult)

structure Evaluated where
  held : HeldStanding
  grade : IterationGrade
  standing : List CriterionCrossOff

section Evaluate
variable (round : Round) (prior : List CriterionCrossOff)

def movedSince : Dict Sha ChangesetDigest :=
  let standing := prior.filter fun crossOff =>
    crossOff.state = .passed ∧ crossOff.rederivationClass ∈ pathBoundClasses
  (sortBy Subtype.val (standing.map (·.evidence.gradedSha)).dedup).map fun sha =>
    (sha, round.diffSummary sha)

def heldFor : HeldStanding :=
  if prior = [] then {}
  else heldStanding round.headSha (movedSince round prior) round.baseStale prior

def readingOf (held : HeldStanding) : Reading :=
  Dict.update (Dict.update [] (held.carried.map fun crossOff => (crossOff.criterion, .counted)))
    (held.lapsed.map fun crossOff => (crossOff.criterion, .lapsed))

def withheldBy (held : HeldStanding) : List CriterionRef :=
  (held.carried ++ held.lapsed).map CriterionCrossOff.criterion

def forSession (held : HeldStanding) : List TrackerCriterion :=
  round.criteria.filter fun criterion => criterion.id ∉ withheldBy held

def roster : List ExecutionCriterion := round.criteria.map .tracker

/-- A criterion the reading withheld was read by nothing this round did, so none of its readings failed. -/
def roundReasons (reading : Reading) (grade : IterationGrade) : Dict CriterionId UndemonstratedReason :=
  undemonstratedReasonsOf (grade.results.filter fun result => result.criterionId ∉ reading.keys)
    round.workspaceStood (if round.workspaceStood then round.surviving else [])

/-- The grade of the round's output, graded again with the readings that came back empty. -/
def gradeRound (reading : Reading) (output : AcceptanceCriteriaOutput) :
    IterationGrade × Dict CriterionId UndemonstratedReason :=
  let grade := gradeIteration (roster round) output []
  let reasons := roundReasons round reading grade
  (if reasons ≠ [] then gradeIteration (roster round) output reasons else grade, reasons)

def withBaseReasons (reading : Reading) (grade : IterationGrade)
    (reasons : Dict CriterionId UndemonstratedReason) : Dict CriterionId UndemonstratedReason :=
  let passing := (passedIds grade.results).filter fun criterion => criterion ∉ reading.keys
  let atBase := if passing = [] then [] else (round.baseReading.map baseAnswers).getD []
  reasons.update (baseReasons passing atBase)

def reconciledOutput (reading : Reading) : Except Refusal AcceptanceCriteriaOutput :=
  if reading ≠ [] then iterationOutput round.criteria prior reading round.graded
  else .ok round.graded

def evaluate : Except Refusal Evaluated :=
  let held := heldFor round prior
  let reading := readingOf held
  if forSession round held = [] then .error .nothingToGrade
  else do
    let output ← reconciledOutput round prior reading
    let graded := gradeRound round reading output
    let standing ← crossOffsFor round.headSha
      (evaluationObservation round.sessionId round.iteration)
      (withBaseReasons round reading graded.1 graded.2) graded.1.results prior reading
    let _ ← (heldRederivationClasses (prior ++ standing)).mapError .sticky
    .ok { held, grade := graded.1, standing }

end Evaluate

section Step
variable {round : Round} {prior : List CriterionCrossOff}

theorem heldForArms (round : Round) (prior : List CriterionCrossOff) :
    heldFor round prior = heldStanding round.headSha (movedSince round prior) round.baseStale prior := by
  unfold heldFor
  split
  · rename_i empty
    subst empty
    rfl
  · rfl

theorem memHeldCarried {crossOff : CriterionCrossOff} :
    crossOff ∈ (heldFor round prior).carried ↔ crossOff ∈ prior ∧
      arm round.headSha (movedSince round prior) round.baseStale crossOff = .carried := by
  simp [heldForArms, heldStandingArms]

theorem memHeldLapsed {crossOff : CriterionCrossOff} :
    crossOff ∈ (heldFor round prior).lapsed ↔ crossOff ∈ prior ∧
      (arm round.headSha (movedSince round prior) round.baseStale crossOff = .lapsed ∨
        arm round.headSha (movedSince round prior) round.baseStale crossOff = .newlyLapsed) := by
  simp [heldForArms, heldStandingArms]

theorem readingNone {held : HeldStanding} {k : CriterionRef} :
    (readingOf held).get? k = none ↔
      (∀ c ∈ held.carried, c.criterion ≠ k) ∧ ∀ c ∈ held.lapsed, c.criterion ≠ k := by
  simp [readingOf, Dict.updateGetNone]

/-- A criterion of a standing without repeats is read by the field its grading is in. -/
theorem readingCounted (distinct : (prior.map CriterionCrossOff.criterion).Nodup) {c : CriterionCrossOff}
    (carried : c ∈ (heldFor round prior).carried) :
    (readingOf (heldFor round prior)).get? c.criterion = some .counted := by
  obtain ⟨member, place⟩ := memHeldCarried.mp carried
  cases found : (readingOf (heldFor round prior)).get? c.criterion with
  | none => exact absurd rfl ((readingNone.mp found).1 c carried)
  | some state =>
    cases state with
    | counted => rfl
    | lapsed =>
      rcases Dict.updateGetSome found with inside | before
      · obtain ⟨other, lapsed, same⟩ := List.mem_map.mp inside
        obtain ⟨otherMember, otherPlace⟩ := memHeldLapsed.mp lapsed
        rw [List.inj_on_of_nodup_map distinct otherMember member (congrArg Prod.fst same), place] at otherPlace
        simp at otherPlace
      · rcases Dict.updateGetSome before with inside | nothing
        · obtain ⟨_, _, same⟩ := List.mem_map.mp inside
          exact absurd (congrArg Prod.snd same) (by simp)
        · simp at nothing

theorem readingLapsed {c : CriterionCrossOff} (lapsed : c ∈ (heldFor round prior).lapsed) :
    (readingOf (heldFor round prior)).get? c.criterion = some .lapsed := by
  rw [readingOf, Dict.updateGet]
  have some_entry : ((((heldFor round prior).lapsed.map fun crossOff =>
      (crossOff.criterion, GradedState.lapsed)).reverse.find? fun e => e.1 = c.criterion)).isSome := by
    rw [List.find?_isSome]
    exact ⟨_, List.mem_reverse.mpr (List.mem_map.mpr ⟨c, lapsed, rfl⟩), by simp⟩
  obtain ⟨e, found⟩ := Option.isSome_iff_exists.mp some_entry
  obtain ⟨_, _, rfl⟩ := List.mem_map.mp (List.mem_reverse.mp (List.mem_of_find?_eq_some found))
  rw [found]
  rfl

/-- What a successful round is made of. -/
theorem evaluateFacts {evaluated : Evaluated} (done : evaluate round prior = .ok evaluated) :
    evaluated.held = heldFor round prior ∧ forSession round evaluated.held ≠ [] ∧
    ∃ output, reconciledOutput round prior (readingOf evaluated.held) = .ok output ∧
    evaluated.grade = (gradeRound round (readingOf evaluated.held) output).1 ∧
    evaluated.standing = evaluated.grade.results.map (crossOffFor round.headSha
      (evaluationObservation round.sessionId round.iteration)
      (withBaseReasons round (readingOf evaluated.held) evaluated.grade
        (gradeRound round (readingOf evaluated.held) output).2)
      (Dict.build CriterionCrossOff.criterion prior) (readingOf evaluated.held)) := by
  unfold evaluate at done
  dsimp only at done
  split at done
  · cases done
  · rename_i some_session
    obtain ⟨output, reconciled, done⟩ := bindOk.mp done
    obtain ⟨standing, crossed, done⟩ := bindOk.mp done
    obtain ⟨_, _, done⟩ := bindOk.mp done
    cases done
    refine ⟨rfl, some_session, output, reconciled, rfl, ?_⟩
    unfold crossOffsFor at crossed
    dsimp only at crossed
    split at crossed
    · cases crossed
    · exact (Except.ok.inj crossed).symm

theorem gradeRoundIds (round : Round) (reading : Reading) (output : AcceptanceCriteriaOutput) :
    (gradeRound round reading output).1.results.map CriterionResult.criterionId =
      round.criteria.map TrackerCriterion.id := by
  have ids : (roster round).map ExecutionCriterion.id = round.criteria.map TrackerCriterion.id := by
    simp [roster, Function.comp_def, ExecutionCriterion.id]
  rw [← ids]
  unfold gradeRound
  dsimp only
  split <;> exact gradeResultIds _ _ _

/-- The next standing answers for the roster, criterion by criterion. -/
theorem standingCriteria {evaluated : Evaluated} (done : evaluate round prior = .ok evaluated) :
    evaluated.standing.map CriterionCrossOff.criterion = round.criteria.map TrackerCriterion.id := by
  obtain ⟨_, _, output, _, grade, standing⟩ := evaluateFacts done
  rw [standing, List.map_map, ← gradeRoundIds round (readingOf evaluated.held) output, ← grade]
  exact List.map_congr_left fun result _ => crossOffForCriterion result

theorem standingDistinct {evaluated : Evaluated} (done : evaluate round prior = .ok evaluated) :
    (evaluated.standing.map CriterionCrossOff.criterion).Nodup := by
  rw [standingCriteria done]
  exact round.distinct

section Restated
variable (distinct : (prior.map CriterionCrossOff.criterion).Nodup) {evaluated : Evaluated}
  (done : evaluate round prior = .ok evaluated)
include distinct done

theorem countedRestated {c e : CriterionCrossOff} (carried : c ∈ evaluated.held.carried)
    (entry : e ∈ evaluated.standing) (same : e.criterion = c.criterion) : e = c := by
  obtain ⟨held, _, output, _, _, standing⟩ := evaluateFacts done
  rw [held] at carried
  rw [standing] at entry
  obtain ⟨result, _, rfl⟩ := List.mem_map.mp entry
  rw [crossOffForCriterion] at same
  have reading := readingCounted distinct carried
  have stands := Dict.buildGetUnique _ distinct (memHeldCarried.mp carried).1
  simp only [crossOffFor, criterionRef, same, held, reading, stands]

theorem lapsedRestated {c e : CriterionCrossOff} (lapsed : c ∈ evaluated.held.lapsed)
    (entry : e ∈ evaluated.standing) (same : e.criterion = c.criterion) :
    e = lapsedCrossOff c.criterion c := by
  obtain ⟨held, _, output, _, _, standing⟩ := evaluateFacts done
  rw [held] at lapsed
  rw [standing] at entry
  obtain ⟨result, _, rfl⟩ := List.mem_map.mp entry
  rw [crossOffForCriterion] at same
  have reading := readingLapsed lapsed
  have stands := Dict.buildGetUnique _ distinct (memHeldLapsed.mp lapsed).1
  simp only [crossOffFor, criterionRef, same, held, reading, stands]

end Restated

end Step

/-- Rounds done one after another, each over the standing the one before it left. -/
inductive Rounds : List CriterionCrossOff → List (Round × Evaluated) → Prop where
  | nil {prior} : Rounds prior []
  | cons {prior round evaluated rounds} (done : evaluate round prior = .ok evaluated)
      (later : Rounds evaluated.standing rounds) : Rounds prior ((round, evaluated) :: rounds)

/-- A counted grading is in the next standing as it was, or not at all once the roster lost it. -/
def CountedKept (step : Round × Evaluated) : Prop :=
  ∀ c ∈ step.2.held.carried,
    (c.criterion ∈ step.1.criteria.map TrackerCriterion.id → c ∈ step.2.standing) ∧
    ∀ e ∈ step.2.standing, e.criterion = c.criterion → e = c

/-- A lapsed grading stands unchanged in a later round, which withholds it from every other field. -/
def LapsedKept (earlier later : Round × Evaluated) : Prop :=
  ∀ c ∈ earlier.2.standing, c.state = .lapsed →
    c ∈ later.2.standing ∧ (∀ e ∈ later.2.standing, e.criterion = c.criterion → e = c) ∧
    c.criterion ∉ (later.2.held.carried ++ later.2.held.rederive ++ later.2.held.newlyLapsed).map
      CriterionCrossOff.criterion

def Restated (rounds : List (Round × Evaluated)) : Prop :=
  (∀ step ∈ rounds, CountedKept step) ∧ rounds.Pairwise LapsedKept

/-- No round starts from a standing that holds a lapsed grading. -/
def LapsesLast (rounds : List (Round × Evaluated)) : Prop :=
  ∀ step ∈ rounds.dropLast, ∀ c ∈ step.2.standing, c.state ≠ .lapsed

instance (rounds : List (Round × Evaluated)) : Decidable (LapsesLast rounds) := by
  unfold LapsesLast
  infer_instance

def runRounds : List CriterionCrossOff → List Round → Except Refusal (List (Round × Evaluated))
  | _, [] => .ok []
  | prior, round :: rounds => do
    let evaluated ← evaluate round prior
    let later ← runRounds evaluated.standing rounds
    .ok ((round, evaluated) :: later)

theorem runRoundsSound {prior : List CriterionCrossOff} {given : List Round}
    {rounds : List (Round × Evaluated)} (done : runRounds prior given = .ok rounds) :
    Rounds prior rounds ∧ rounds.map Prod.fst = given := by
  induction given generalizing prior rounds with
  | nil =>
    cases done
    exact ⟨.nil, rfl⟩
  | cons round given ih =>
    obtain ⟨evaluated, step, done⟩ := bindOk.mp done
    obtain ⟨later, rest, done⟩ := bindOk.mp done
    cases done
    obtain ⟨run, same⟩ := ih rest
    exact ⟨.cons step run, by rw [List.map_cons, same]⟩

section Run
variable {round : Round} {prior : List CriterionCrossOff} {evaluated : Evaluated}
  {rounds : List (Round × Evaluated)}

theorem roundCountedKept (distinct : (prior.map CriterionCrossOff.criterion).Nodup)
    (done : evaluate round prior = .ok evaluated) : CountedKept (round, evaluated) := by
  intro c carried
  have same : ∀ e ∈ evaluated.standing, e.criterion = c.criterion → e = c :=
    fun e entry => countedRestated distinct done carried entry
  refine ⟨fun onRoster => ?_, same⟩
  rw [← standingCriteria done] at onRoster
  obtain ⟨e, entry, key⟩ := List.mem_map.mp onRoster
  rwa [← same e entry key]

theorem runCountedKept (distinct : (prior.map CriterionCrossOff.criterion).Nodup)
    (run : Rounds prior rounds) : ∀ step ∈ rounds, CountedKept step := by
  induction run with
  | nil => simp
  | cons done later ih =>
    intro step member
    rcases List.mem_cons.mp member with rfl | inside
    · exact roundCountedKept distinct done
    · exact ih (standingDistinct done) step inside

/-- A standing grading that has lapsed is lapsed in the next round, with another pointer. -/
theorem lapsedMoves (distinct : (prior.map CriterionCrossOff.criterion).Nodup)
    (done : evaluate round prior = .ok evaluated) {c : CriterionCrossOff} (member : c ∈ prior)
    (lapsed : c.state = .lapsed) : c ∉ evaluated.standing := by
  intro entry
  have held : c ∈ evaluated.held.lapsed := by
    rw [(evaluateFacts done).1]
    exact memHeldLapsed.mpr ⟨member, Or.inl (by simp [arm, lapsed])⟩
  have moved := lapsedRestated distinct done held entry rfl
  exact lapseObservationMoves c.evidence.test (congrArg (·.evidence.test) moved).symm

theorem restatedOfLapsesLast (run : Rounds prior rounds)
    (distinct : (prior.map CriterionCrossOff.criterion).Nodup) (last : LapsesLast rounds) :
    Restated rounds := by
  refine ⟨runCountedKept distinct run, ?_⟩
  clear distinct run
  induction rounds with
  | nil => exact .nil
  | cons step rounds ih =>
    cases rounds with
    | nil => exact List.pairwise_singleton _ _
    | cons next rounds =>
      rw [LapsesLast, List.dropLast_cons_cons] at last
      refine List.pairwise_cons.mpr ⟨?_, ih fun other inside => last other (List.mem_cons_of_mem _ inside)⟩
      intro later _ c entry lapsed
      exact absurd lapsed (last step List.mem_cons_self c entry)

theorem lapsesLastOfRestated (run : Rounds prior rounds)
    (restated : rounds.Pairwise LapsedKept) : LapsesLast rounds := by
  induction run with
  | nil => simp [LapsesLast]
  | @cons prior round evaluated rounds done later ih =>
    obtain ⟨first, rest⟩ := List.pairwise_cons.mp restated
    cases later with
    | nil => simp [LapsesLast]
    | @cons _ round' evaluated' rounds done' later =>
      rw [LapsesLast, List.dropLast_cons_cons]
      intro step member c entry lapsed
      rcases List.mem_cons.mp member with rfl | inside
      · have kept := (first _ List.mem_cons_self c entry lapsed).1
        exact lapsedMoves (standingDistinct done) done' entry lapsed kept
      · exact ih rest step inside c entry lapsed

end Run

def observation : TrackerCriterion := ⟨⟨"KOD-1", by decide⟩, ⟨"the rollout was watched", by simp⟩⟩
def standingTest : TrackerCriterion := ⟨⟨"KOD-2", by decide⟩, ⟨"the suite passes", by simp⟩⟩

def demoSha (digit : Char) (hex : completeSha (String.ofList (List.replicate 40 digit)) := by decide) : Sha :=
  ⟨String.ofList (List.replicate 40 digit), hex⟩

/-- A session's row for one criterion, with the class and paths it declares. -/
def row (criterion : TrackerCriterion) (passed : Bool) (declared : RederivationClass) (paths : List String) :
    CriterionResult :=
  ⟨criterion.id, criterion.text, passed, ⟨"read", by simp⟩, declared, paths⟩

/-- A round at one head over the two criteria; every interval to it changed `src/app.py`. -/
def demoRound (iteration : Nat) (head : Char) (rows : List CriterionResult) (answered : rows ≠ [])
    (hex : completeSha (String.ofList (List.replicate 40 head)) := by decide) : Round where
  iteration := iteration
  criteria := [observation, standingTest]
  some_criterion := by simp
  distinct := by decide
  headSha := demoSha head hex
  diffSummary := fun _ => ⟨["src/app.py"]⟩
  baseStale := false
  graded := ⟨rows, [], answered⟩
  sessionId := "s"
  workspaceStood := true
  surviving := []
  baseReading := some [⟨observation.id, false⟩, ⟨standingTest.id, false⟩]

def watchedRound : Round :=
  demoRound 1 'a' [row observation true .observed ["src"], row standingTest false .cheap []] (by simp)

/-- A later round, which asks the session about the second criterion only. -/
def failingRound (iteration : Nat) (head : Char)
    (hex : completeSha (String.ofList (List.replicate 40 head)) := by decide) : Round :=
  demoRound iteration head [row standingTest false .cheap []] (by simp) hex

/-- The run whose first round passes the observation and whose second lapses it. -/
def lapsingRun : List Round := [watchedRound, failingRound 2 'b']

def pointersOf (rounds : List (Round × Evaluated)) : List (List String) :=
  rounds.map fun step => (step.2.standing.filter (·.criterion = observation.id)).map (·.evidence.test.val)

def lapsedAgainRun : List Round := lapsingRun ++ [failingRound 3 'c']

end Kodezart.Standing
