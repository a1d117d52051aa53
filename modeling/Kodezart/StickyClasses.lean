import Kodezart.IterationGrading

/-! The class a criterion holds, against the class one iteration's grading declares for it. -/
namespace Kodezart.CrossOffs
open CriteriaGrading Lapse TextLines

/-- No criterion holds two classes. -/
def Consistent (crossOffs : List CriterionCrossOff) : Prop :=
  ∀ c ∈ crossOffs, ∀ e ∈ crossOffs, c.criterion = e.criterion → c.rederivationClass = e.rederivationClass

theorem heldClassesFromIff (crossOffs : List CriterionCrossOff) (held : Dict CriterionRef RederivationClass) :
    (∃ classes, heldRederivationClassesFrom held crossOffs = .ok classes) ↔
      (∀ c ∈ crossOffs, ∀ current, held.get? c.criterion = some current → current = c.rederivationClass) ∧
      Consistent crossOffs := by
  induction crossOffs generalizing held with
  | nil => simp [heldRederivationClassesFrom, Consistent]
  | cons crossOff crossOffs ih =>
    simp only [heldRederivationClassesFrom, Dict.setDefaultGet, ↓reduceIte, Option.getD_some]
    by_cases same : (held.get? crossOff.criterion).getD crossOff.rederivationClass = crossOff.rederivationClass
    · simp only [same, ne_eq, not_true_eq_false, ↓reduceIte, ih, Dict.setDefaultGet]
      constructor
      · rintro ⟨later, apart⟩
        have here : ∀ c ∈ crossOffs, crossOff.criterion = c.criterion →
            crossOff.rederivationClass = c.rederivationClass := fun c inside key => by
          simpa [key, same] using later c inside crossOff.rederivationClass (by simp [key.symm])
        refine ⟨?_, ?_⟩
        · intro c member current found
          rcases List.mem_cons.mp member with rfl | inside
          · simpa [found] using same
          · by_cases key : crossOff.criterion = c.criterion
            · rw [← here c inside key]
              simpa [key, found] using same
            · exact later c inside current (by simpa [key] using found)
        · intro c member e other key
          rcases List.mem_cons.mp member with rfl | inside
          · rcases List.mem_cons.mp other with rfl | second
            · rfl
            · exact here e second key
          · rcases List.mem_cons.mp other with rfl | second
            · exact (here c inside key.symm).symm
            · exact apart c inside e second key
      · rintro ⟨known, apart⟩
        refine ⟨?_, fun c inside e second =>
          apart c (List.mem_cons_of_mem _ inside) e (List.mem_cons_of_mem _ second)⟩
        intro c inside current found
        by_cases key : crossOff.criterion = c.criterion
        · rw [if_pos key, Option.some.injEq] at found
          rw [← found]
          exact apart crossOff List.mem_cons_self c (List.mem_cons_of_mem _ inside) key
        · rw [if_neg key] at found
          exact known c (List.mem_cons_of_mem _ inside) current found
    · simp only [ne_eq, same, not_false_eq_true, ↓reduceIte, reduceCtorEq, exists_false, false_iff]
      rintro ⟨known, _⟩
      cases found : held.get? crossOff.criterion with
      | none => simp [found] at same
      | some current => exact same (by simpa [found] using known crossOff List.mem_cons_self current found)

theorem heldClassesIff (crossOffs : List CriterionCrossOff) :
    (∃ classes, heldRederivationClasses crossOffs = .ok classes) ↔ Consistent crossOffs := by
  simp [heldRederivationClasses, heldClassesFromIff]

section NeverFatal
variable (criteria : List TrackerCriterion) (standing : List CriterionCrossOff) (reading : Reading)
  (graded : AcceptanceCriteriaOutput) (undemonstrated reasons : Dict CriterionId UndemonstratedReason)
  (gradedSha : Sha) (observation : VisibleStr)

/-- The cross-offs one output comes to beside the standing, and the classes held after them. -/
def crossOffOutput : Except Refusal (List CriterionCrossOff × Dict CriterionRef RederivationClass) := do
  let output ← iterationOutput criteria standing reading graded
  let grade := gradeIteration (criteria.map .tracker) output undemonstrated
  let crossOffs ← crossOffsFor gradedSha observation reasons grade.results standing reading
  let classes ← (heldRederivationClasses (standing ++ crossOffs)).mapError .sticky
  .ok (crossOffs, classes)

/-- Nothing is raised, and a criterion the session was asked about and did not answer once is a fail. -/
def NeverFatal : Prop :=
  ∃ crossOffs classes, crossOffOutput criteria standing reading graded undemonstrated reasons gradedSha
      observation = .ok (crossOffs, classes) ∧
    ∀ criterion ∈ criteria, reading.get? (criterionRef criterion.id) = none →
      (rowsOf graded.criteriaResults criterion.id).length ≠ 1 → reasons.get? criterion.id = none →
      ∃ e ∈ crossOffs, e.criterion = criterionRef criterion.id ∧ e.state = .failed

/-- Each row of a criterion the session was asked about declares the class the standing holds for it. -/
def DeclaresHeld : Prop :=
  ∀ row ∈ graded.criteriaResults, row.criterionId ∈ criteria.map TrackerCriterion.id →
    reading.get? (criterionRef row.criterionId) = none →
    ∀ prior ∈ standing, prior.criterion = criterionRef row.criterionId →
      (declaredClass row.rederivationClass row.exercisedPaths).val.1 = prior.rederivationClass

/-- A criterion asked about again while it holds a path-bound class has exactly one answer. -/
def AnsweredOnce : Prop :=
  ∀ criterion ∈ criteria, reading.get? (criterionRef criterion.id) = none →
    ∀ prior ∈ standing, prior.criterion = criterionRef criterion.id → prior.rederivationClass ≠ .cheap →
      (rowsOf graded.criteriaResults criterion.id).length = 1

/-- The class a fresh criterion's rows come to; a missing or a second answer declares `cheap`. -/
def freshClass (k : CriterionId) : RederivationClass :=
  match rowsOf graded.criteriaResults k with
  | [row] => (declaredClass row.rederivationClass row.exercisedPaths).val.1
  | _ => .cheap

variable {criteria standing reading graded}

theorem gradeCriterionDeclares (found : Correspondence) (criterion : ExecutionCriterion) :
    (gradeCriterion found undemonstrated criterion).rederivationClass =
        (readAnswer found criterion).rederivationClass ∧
      (gradeCriterion found undemonstrated criterion).exercisedPaths =
        (readAnswer found criterion).exercisedPaths := by
  unfold gradeCriterion
  split <;> exact ⟨rfl, rfl⟩

theorem cheapDeclared : (declaredClass .cheap []).val.1 = .cheap := by
  simp [declaredClass, pathBoundClasses]

/-- What a fresh roster criterion is graded as: the class its rows come to, and a fail unless there is one. -/
theorem freshGraded {output : AcceptanceCriteriaOutput} {criterion : TrackerCriterion} (member : criterion ∈ criteria)
    (rows : rowsOf output.criteriaResults criterion.id = rowsOf graded.criteriaResults criterion.id) :
    let result := gradeCriterion (reconcile ((criteria.map ExecutionCriterion.tracker).map ExecutionCriterion.id)
      output.criteriaResults) undemonstrated (.tracker criterion)
    (declaredClass result.rederivationClass result.exercisedPaths).val.1 = freshClass graded criterion.id ∧
      ((rowsOf graded.criteriaResults criterion.id).length ≠ 1 → result.passed = false) := by
  intro result
  have dispatched : (ExecutionCriterion.tracker criterion).id ∈
      (criteria.map ExecutionCriterion.tracker).map ExecutionCriterion.id :=
    List.mem_map_of_mem (List.mem_map_of_mem member)
  have answer := @readAnswerRows _ output.criteriaResults _ dispatched
  have same : rowsOf output.criteriaResults (ExecutionCriterion.tracker criterion).id =
      rowsOf graded.criteriaResults criterion.id := rows
  rw [same] at answer
  have declares := gradeCriterionDeclares undemonstrated
    (reconcile ((criteria.map ExecutionCriterion.tracker).map ExecutionCriterion.id) output.criteriaResults)
    (.tracker criterion)
  have passing := gradeCriterionPassed
    (reconcile ((criteria.map ExecutionCriterion.tracker).map ExecutionCriterion.id) output.criteriaResults)
    undemonstrated (.tracker criterion)
  rw [answer] at declares passing
  change _ = _ ∧ _ = _ at declares
  rw [show result.rederivationClass = _ from declares.1, show result.exercisedPaths = _ from declares.2]
  unfold freshClass
  generalize rowsOf graded.criteriaResults criterion.id = rows at passing ⊢
  rcases rows with _ | ⟨row, _ | ⟨second, rest⟩⟩
  · exact ⟨cheapDeclared, fun _ => Bool.eq_false_iff.mpr fun passed => Bool.false_ne_true (passing.mp passed).1⟩
  · exact ⟨rfl, fun several => absurd rfl several⟩
  · exact ⟨cheapDeclared, fun _ => Bool.eq_false_iff.mpr fun passed => Bool.false_ne_true (passing.mp passed).1⟩

variable (standing reading graded) in
/-- A roster criterion's cross-off repeats its standing class where it was withheld, and declares
what its rows come to where it was asked about. -/
structure Crossed (criterion : TrackerCriterion) (e : CriterionCrossOff) : Prop where
  own : e.criterion = criterionRef criterion.id
  withheld : reading.get? (criterionRef criterion.id) ≠ none →
    ∃ prior ∈ standing, prior.criterion = criterionRef criterion.id ∧ e.rederivationClass = prior.rederivationClass
  asked : reading.get? (criterionRef criterion.id) = none → e.rederivationClass = freshClass graded criterion.id
  failing : reading.get? (criterionRef criterion.id) = none →
    (rowsOf graded.criteriaResults criterion.id).length ≠ 1 → reasons.get? criterion.id = none → e.state = .failed

theorem crossOffCrossed (known : ReadingOf standing reading) {output : AcceptanceCriteriaOutput}
    {criterion : TrackerCriterion} (member : criterion ∈ criteria)
    (rows : reading.get? (criterionRef criterion.id) = none →
      rowsOf output.criteriaResults criterion.id = rowsOf graded.criteriaResults criterion.id) :
    Crossed standing reading graded reasons criterion
      (crossOffFor gradedSha observation reasons (Dict.build CriterionCrossOff.criterion standing) reading
        (gradeCriterion (reconcile ((criteria.map ExecutionCriterion.tracker).map ExecutionCriterion.id)
          output.criteriaResults) undemonstrated (.tracker criterion))) := by
  generalize graded_as : gradeCriterion (reconcile ((criteria.map ExecutionCriterion.tracker).map
    ExecutionCriterion.id) output.criteriaResults) undemonstrated (.tracker criterion) = result
  have key : result.criterionId = criterion.id := by
    rw [← graded_as]
    exact gradeCriterionId _ _ _
  cases found : reading.get? (criterionRef criterion.id) with
  | none =>
    obtain ⟨declared, fails⟩ := freshGraded undemonstrated member (rows found)
    rw [graded_as] at declared fails
    have fresh : crossOffFor gradedSha observation reasons (Dict.build CriterionCrossOff.criterion standing)
        reading result = freshCrossOff gradedSha observation reasons result := by
      simp only [crossOffFor, key, found]
    refine ⟨(crossOffForCriterion result).trans key, fun some_state => absurd found some_state, fun _ => ?_, ?_⟩
    · rw [fresh]
      exact declared
    · intro _ several free
      rw [fresh]
      show crossOffState result.passed (reasons.get? result.criterionId) = .failed
      rw [key, free, fails several]
      rfl
  | some state =>
    obtain ⟨prior, stands, inside, same⟩ := readingHeld known found
    have repeats : (crossOffFor gradedSha observation reasons (Dict.build CriterionCrossOff.criterion standing)
        reading result).rederivationClass = prior.rederivationClass := by
      cases state <;> simp only [crossOffFor, key, found, stands, lapsedCrossOff]
    exact ⟨(crossOffForCriterion result).trans key, fun _ => ⟨prior, inside, same, repeats⟩,
      fun absent => by simp [found] at absent, fun absent => by simp [found] at absent⟩

theorem crossOffOutputOk (criteria : List TrackerCriterion) (known : ReadingOf standing reading)
    (graded : AcceptanceCriteriaOutput) :
    ∃ mark : TrackerCriterion → CriterionCrossOff,
      (∀ criterion ∈ criteria, Crossed standing reading graded reasons criterion (mark criterion)) ∧
      ∀ answer, crossOffOutput criteria standing reading graded undemonstrated reasons gradedSha observation =
          .ok answer ↔ answer.1 = criteria.map mark ∧
        heldRederivationClasses (standing ++ criteria.map mark) = .ok answer.2 := by
  obtain ⟨output, done, kept⟩ := iterationOutputTotal criteria known graded
  let mark (criterion : TrackerCriterion) : CriterionCrossOff :=
    crossOffFor gradedSha observation reasons (Dict.build CriterionCrossOff.criterion standing) reading
      (gradeCriterion (reconcile ((criteria.map ExecutionCriterion.tracker).map ExecutionCriterion.id)
        output.criteriaResults) undemonstrated (.tracker criterion))
  refine ⟨mark, fun criterion member => crossOffCrossed undemonstrated reasons gradedSha observation known member
    fun fresh => kept _ fun _ => fresh, fun answer => ?_⟩
  have standing_all : ¬ ∃ criterion ∈ reading.keys,
      criterion ∉ (Dict.build CriterionCrossOff.criterion standing).keys := by
    rintro ⟨k, read, unheld⟩
    obtain ⟨state, found⟩ := (Dict.getSome _ _).mp read
    obtain ⟨prior, stands, _⟩ := readingHeld known found
    exact unheld ((Dict.getSome _ _).mpr ⟨prior, stands⟩)
  have crossed : crossOffsFor gradedSha observation reasons
      (gradeIteration (criteria.map .tracker) output undemonstrated).results standing reading =
        .ok (criteria.map mark) := by
    have marks : (gradeIteration (criteria.map .tracker) output undemonstrated).results.map (crossOffFor gradedSha
        observation reasons (Dict.build CriterionCrossOff.criterion standing) reading) = criteria.map mark :=
      (List.map_map (l := criteria.map ExecutionCriterion.tracker)).trans List.map_map
    simp only [crossOffsFor, standing_all, ↓reduceIte, marks]
  unfold crossOffOutput
  constructor
  · intro ended
    obtain ⟨other, same, ended⟩ := bindOk.mp ended
    cases done.symm.trans same
    obtain ⟨crossOffs, marks, ended⟩ := bindOk.mp ended
    cases crossed.symm.trans marks
    obtain ⟨classes, held, ended⟩ := bindOk.mp ended
    cases ended
    exact ⟨rfl, mapErrorOk.mp held⟩
  · rintro ⟨marks, held⟩
    refine bindOk.mpr ⟨output, done, bindOk.mpr ⟨_, crossed, bindOk.mpr ⟨answer.2, mapErrorOk.mpr held, ?_⟩⟩⟩
    rw [← marks]

end NeverFatal

section Sample

/-- A session that answers the suite and leaves the rollout out. -/
def rolloutUnanswered : AcceptanceCriteriaOutput := ⟨[gradedRow suitePasses true], [], by simp⟩

theorem rolloutOnlyConsistent (state : CrossOffState)
    (verdict : (none : Option UndemonstratedReason) = none ↔ state ≠ .undemonstrated) :
    Consistent [rolloutGrading state verdict] := by
  intro c member e other _
  rw [List.mem_singleton.mp member, List.mem_singleton.mp other]

theorem rolloutDeclaresHeld (criteria : List TrackerCriterion) (state : CrossOffState)
    (verdict : (none : Option UndemonstratedReason) = none ↔ state ≠ .undemonstrated) :
    DeclaresHeld criteria [rolloutGrading state verdict] [] rolloutUnanswered := by
  intro row member _ _ prior inside same
  rw [List.mem_singleton.mp member, List.mem_singleton.mp inside] at same
  exact absurd (show watchedRollout.id = suitePasses.id from same) (by decide)

end Sample
end Kodezart.CrossOffs
