import Kodezart.CriterionCrossOff

/-! One iteration's grading over its whole roster: the standing rows and the session's own,
reconciled against the dispatched ids. -/
namespace Kodezart.CrossOffs
open CriteriaGrading Lapse TextLines

/-- The rows of one id, in the order they came. -/
def rowsOf (results : List CriterionResult) (k : CriterionId) : List CriterionResult :=
  results.filter fun result => result.criterionId = k

section Rows
variable {held : Dict CriterionRef CriterionCrossOff} {reading : Reading}

theorem answeredRowsFrom (results : List CriterionResult) (answered : Dict CriterionId (List CriterionResult))
    (k : CriterionId) :
    ((results.foldl (fun answered result => answered.set result.criterionId
      ((answered.get? result.criterionId).getD [] ++ [result])) answered).get? k).getD [] =
      (answered.get? k).getD [] ++ rowsOf results k := by
  induction results generalizing answered with
  | nil => simp [rowsOf]
  | cons result results ih =>
    rw [List.foldl_cons, ih, Dict.getSet]
    by_cases here : result.criterionId = k
    · subst here
      simp [rowsOf]
    · simp [rowsOf, here]

theorem answeredRowsOf (results : List CriterionResult) (k : CriterionId) :
    ((answeredRows results).get? k).getD [] = rowsOf results k := by
  exact answeredRowsFrom results [] k

theorem groupedFlatten {answered : Dict CriterionId (List CriterionResult)} (grouped : Grouped answered)
    (k : CriterionId) : rowsOf answered.values.flatten k = (answered.get? k).getD [] := by
  induction answered with
  | nil => rfl
  | cons e answered ih =>
    obtain ⟨fresh, unique⟩ := List.nodup_cons.mp grouped.unique
    have rest := ih ⟨unique, fun other inside => grouped.keyed other (List.mem_cons_of_mem _ inside)⟩
    have own := grouped.keyed e List.mem_cons_self
    have parts : rowsOf (Dict.values (e :: answered)).flatten k =
        rowsOf e.2 k ++ rowsOf (Dict.values answered).flatten k := by
      simp [rowsOf, Dict.values]
    rw [parts, rest]
    by_cases here : e.1 = k
    · have unread : Dict.get? answered k = none := by
        cases found : Dict.get? answered k with
        | none => rfl
        | some rows => exact absurd ((Dict.getSome _ _).mpr ⟨rows, here ▸ found⟩) fresh
      have whole : rowsOf e.2 k = e.2 :=
        List.filter_eq_self.mpr fun result inside => by simpa [here] using own result inside
      simp [Dict.get?, here, unread, whole]
    · have foreign : rowsOf e.2 k = [] := by
        refine List.filter_eq_nil_iff.mpr fun result inside => ?_
        simpa [own result inside] using here
      simp [Dict.get?, here, foreign]

/-- An id that no withheld roster criterion carries keeps the session's own rows, and no others. -/
theorem rosterRowsKept {criteria : List TrackerCriterion}
    {answered unknown : Dict CriterionId (List CriterionResult)} {rows : List CriterionResult}
    (done : rosterRows held reading criteria answered = .ok (rows, unknown)) (grouped : Grouped answered)
    {k : CriterionId} (asked : k ∈ criteria.map TrackerCriterion.id → reading.get? (criterionRef k) = none) :
    rowsOf (rows ++ unknown.values.flatten) k = (answered.get? k).getD [] := by
  induction criteria generalizing answered rows with
  | nil =>
    cases done
    exact groupedFlatten grouped k
  | cons criterion criteria ih =>
    obtain ⟨own, later, rfl, mine, tail⟩ := rosterRowsCons done
    have rest := ih tail (groupedErase grouped _) fun inside => asked (List.mem_cons_of_mem _ inside)
    have parts : rowsOf (own ++ later ++ unknown.values.flatten) k =
        rowsOf own k ++ rowsOf (later ++ unknown.values.flatten) k := by
      simp [rowsOf]
    rw [parts, rest, Dict.eraseGet grouped.unique]
    by_cases here : criterion.id = k
    · have fresh := asked (List.mem_cons.mpr (Or.inl here.symm))
      have ids : ∀ result ∈ own, result.criterionId = k :=
        fun result inside => (ownRowsId grouped mine inside).trans here
      have whole : rowsOf own k = own :=
        List.filter_eq_self.mpr fun result inside => by simpa using ids result inside
      simp only [ownRows, here, fresh, Except.ok.injEq] at mine
      simp [whole, here, mine]
    · have foreign : rowsOf own k = [] := by
        refine List.filter_eq_nil_iff.mpr fun result inside => ?_
        simpa [ownRowsId grouped mine inside] using here
      simp [foreign, here]

/-- Every criterion the reading answers for has a standing grading. -/
def ReadingOf (standing : List CriterionCrossOff) (reading : Reading) : Prop :=
  ∀ k ∈ reading.keys, k ∈ standing.map CriterionCrossOff.criterion

theorem readingHeld {standing : List CriterionCrossOff} (known : ReadingOf standing reading)
    {k : CriterionRef} {state : GradedState} (found : reading.get? k = some state) :
    ∃ prior, (Dict.build CriterionCrossOff.criterion standing).get? k = some prior ∧ prior ∈ standing ∧
      prior.criterion = k := by
  obtain ⟨c, member, same⟩ := List.mem_map.mp (known k ((Dict.getSome _ _).mpr ⟨state, found⟩))
  cases stands : (Dict.build CriterionCrossOff.criterion standing).get? k with
  | none => exact absurd same ((Dict.buildGetNone _).mp stands c member)
  | some prior => exact ⟨prior, rfl, Dict.buildGetSome _ stands⟩

theorem rosterRowsTotal {standing : List CriterionCrossOff} (known : ReadingOf standing reading)
    (criteria : List TrackerCriterion) (answered : Dict CriterionId (List CriterionResult)) :
    ∃ rows unknown, rosterRows (Dict.build CriterionCrossOff.criterion standing) reading criteria answered =
      .ok (rows, unknown) := by
  induction criteria generalizing answered with
  | nil => exact ⟨[], answered, rfl⟩
  | cons criterion criteria ih =>
    obtain ⟨later, unknown, tail⟩ := ih (answered.erase criterion.id)
    cases found : reading.get? (criterionRef criterion.id) with
    | none =>
      refine ⟨(answered.get? criterion.id).getD [] ++ later, unknown, ?_⟩
      simp [rosterRows, ownRows, found, tail, bind, Except.bind]
    | some state =>
      obtain ⟨prior, stands, _⟩ := readingHeld known found
      refine ⟨withheldRow criterion state prior :: later, unknown, ?_⟩
      simp [rosterRows, ownRows, found, stands, tail, bind, Except.bind]

/-- A roster criterion the reading withholds leaves a row, so the output is never empty. -/
theorem rosterRowsSome {criteria : List TrackerCriterion}
    {answered unknown : Dict CriterionId (List CriterionResult)} {rows : List CriterionResult}
    (done : rosterRows held reading criteria answered = .ok (rows, unknown)) {criterion : TrackerCriterion}
    (member : criterion ∈ criteria) {state : GradedState} (withheld : reading.get? criterion.id = some state) :
    rows ≠ [] := by
  induction criteria generalizing answered rows with
  | nil => simp at member
  | cons head criteria ih =>
    obtain ⟨own, later, rfl, mine, tail⟩ := rosterRowsCons done
    rcases List.mem_cons.mp member with rfl | inside
    · obtain ⟨prior, rfl⟩ := ownRowsWithheld mine withheld
      simp
    · simp [ih tail inside]

/-- The output of a reading over the standing: the session's rows for the criteria it was asked
about, one row each for the withheld ones. -/
theorem iterationOutputTotal (criteria : List TrackerCriterion) {standing : List CriterionCrossOff}
    (known : ReadingOf standing reading) (graded : AcceptanceCriteriaOutput) :
    ∃ output, iterationOutput criteria standing reading graded = .ok output ∧
      ∀ k, (k ∈ criteria.map TrackerCriterion.id → reading.get? (criterionRef k) = none) →
        rowsOf output.criteriaResults k = rowsOf graded.criteriaResults k := by
  obtain ⟨rows, unknown, walked⟩ := rosterRowsTotal known criteria (answeredRows graded.criteriaResults)
  have kept : ∀ k, (k ∈ criteria.map TrackerCriterion.id → reading.get? (criterionRef k) = none) →
      rowsOf (rows ++ unknown.values.flatten) k = rowsOf graded.criteriaResults k := fun k asked => by
    rw [rosterRowsKept walked (answeredRowsGrouped _) asked, answeredRowsOf]
  have some_row : rows ++ unknown.values.flatten ≠ [] := by
    obtain ⟨first, inside⟩ := List.exists_mem_of_ne_nil _ graded.answered
    by_cases asked : first.criterionId ∈ criteria.map TrackerCriterion.id →
        reading.get? (criterionRef first.criterionId) = none
    · have own : first ∈ rowsOf graded.criteriaResults first.criterionId :=
        List.mem_filter.mpr ⟨inside, by simp⟩
      rw [← kept _ asked] at own
      exact List.ne_nil_of_mem (List.mem_of_mem_filter own)
    · obtain ⟨onRoster, withheld⟩ := Classical.not_imp.mp asked
      obtain ⟨criterion, member, same⟩ := List.mem_map.mp onRoster
      obtain ⟨state, found⟩ := Option.ne_none_iff_exists'.mp withheld
      simp [rosterRowsSome walked member (by rw [same]; exact found)]
  refine ⟨⟨rows ++ unknown.values.flatten, graded.sherlockFlags, some_row⟩, ?_, kept⟩
  simp [iterationOutput, walked, some_row, bind, Except.bind]

end Rows

section Grade
variable (dispatched : List CriterionId)

/-- An id answered again after an answer of its own is a duplicate. -/
theorem reconcileDuplicatedFrom (results : List CriterionResult) (found : Correspondence) {k : CriterionId}
    (known : k ∈ dispatched)
    (again : k ∈ found.duplicateIds ∨ (k ∈ found.answered.keys ∧ rowsOf results k ≠ []) ∨
      2 ≤ (rowsOf results k).length) :
    k ∈ (results.foldl (correspond dispatched) found).duplicateIds := by
  induction results generalizing found with
  | nil => simpa [rowsOf] using again
  | cons result results ih =>
    rw [List.foldl_cons]
    apply ih
    unfold correspond
    by_cases here : result.criterionId = k
    · subst here
      simp only [known, not_true_eq_false, ↓reduceIte]
      split
      · simp
      · rename_i unseen
        have rows : rowsOf (result :: results) result.criterionId =
            result :: rowsOf results result.criterionId := by simp [rowsOf]
        rw [rows] at again
        rcases again with old | ⟨seen, _⟩ | twice
        · exact Or.inl old
        · exact absurd seen unseen
        · refine Or.inr (Or.inl ⟨(Dict.getSome _ _).mpr ⟨result, by simp⟩, fun none_later => ?_⟩)
          simp [none_later] at twice
    · have rows : rowsOf (result :: results) k = rowsOf results k := by simp [rowsOf, here]
      rw [rows] at again
      split
      · exact again
      · split
        · exact again.imp_left (List.mem_append_left _)
        · refine again.imp_right (Or.imp_left (And.imp_left fun seen => ?_))
          obtain ⟨first, answer⟩ := (Dict.getSome _ _).mp seen
          exact (Dict.getSome _ _).mpr ⟨first, by rw [Dict.getSetOther _ _ here, answer]⟩

/-- What a dispatched criterion's rows come to: an answer only where there is exactly one. -/
theorem readAnswerRows {results : List CriterionResult} {criterion : ExecutionCriterion}
    (known : criterion.id ∈ dispatched) :
    readAnswer (reconcile dispatched results) criterion =
      match rowsOf results criterion.id with
      | [] => ⟨criterion.id, criterion.text, false, missingResultReasoning, .cheap, []⟩
      | [row] => { row with criterionId := criterion.id, criterion := criterion.text }
      | _ => ⟨criterion.id, criterion.text, false, duplicateResultReasoning, .cheap, []⟩ := by
  have answer : (reconcile dispatched results).answered.get? criterion.id =
      (rowsOf results criterion.id).head? := by
    rw [reconcileAnswered dispatched results known, ← List.head?_filter]
    rfl
  cases rows : rowsOf results criterion.id with
  | nil => simp [readAnswer, answer, rows]
  | cons row rest =>
    cases rest with
    | nil =>
      have once := reconcileOnce dispatched known rows
      simp [readAnswer, once.1, once.2]
    | cons second rest =>
      have twice : criterion.id ∈ (reconcile dispatched results).duplicateIds :=
        reconcileDuplicatedFrom dispatched results {} known (Or.inr (Or.inr (by simp [rows])))
      simp [readAnswer, answer, rows, twice]

variable {dispatched}

theorem gradeCriterionPassed (found : Correspondence) (undemonstrated : Dict CriterionId UndemonstratedReason)
    (criterion : ExecutionCriterion) :
    (gradeCriterion found undemonstrated criterion).passed ↔
      (readAnswer found criterion).passed ∧ undemonstrated.get? criterion.id = none := by
  unfold gradeCriterion
  split <;> simp_all

theorem gradeCriterionText (found : Correspondence) (undemonstrated : Dict CriterionId UndemonstratedReason)
    (criterion : ExecutionCriterion) :
    (gradeCriterion found undemonstrated criterion).criterion = criterion.text := by
  have text : (readAnswer found criterion).criterion = criterion.text := by
    unfold readAnswer
    split
    · rfl
    · split <;> rfl
  unfold gradeCriterion
  split <;> exact text

end Grade

section FailClosed
variable (criteria : List TrackerCriterion) (reading : Reading) (graded : AcceptanceCriteriaOutput)
  (undemonstrated : Dict CriterionId UndemonstratedReason)

/-- When a roster criterion passes: on exactly one answer to it, or on the grading that stands for it. -/
def Passes (k : CriterionId) : Prop :=
  undemonstrated.get? k = none ∧ match reading.get? (criterionRef k) with
    | none => ∃ row, rowsOf graded.criteriaResults k = [row] ∧ row.passed
    | some state => state = .counted

structure FailClosed (grade : IterationGrade) : Prop where
  rows : grade.results.map (fun result => (result.criterionId, result.criterion)) =
    criteria.map fun criterion => (criterion.id, criterion.text)
  passing : ∀ result ∈ grade.results, result.passed ↔ Passes reading graded undemonstrated result.criterionId
  verdict : grade.verdict = .rejected ↔ ∃ criterion ∈ criteria, isGraded (.tracker criterion) ∧
    ¬ Passes reading graded undemonstrated criterion.id

variable {criteria reading graded}

theorem answerPassed {standing : List CriterionCrossOff} (known : ReadingOf standing reading)
    (distinct : (criteria.map TrackerCriterion.id).Nodup) {output : AcceptanceCriteriaOutput}
    (done : iterationOutput criteria standing reading graded = .ok output) {criterion : TrackerCriterion}
    (member : criterion ∈ criteria) :
    (readAnswer (reconcile ((criteria.map ExecutionCriterion.tracker).map ExecutionCriterion.id)
      output.criteriaResults) (.tracker criterion)).passed ↔
      match reading.get? (criterionRef criterion.id) with
      | none => ∃ row, rowsOf graded.criteriaResults criterion.id = [row] ∧ row.passed
      | some state => state = .counted := by
  have dispatched : (ExecutionCriterion.tracker criterion).id ∈
      (criteria.map ExecutionCriterion.tracker).map ExecutionCriterion.id :=
    List.mem_map_of_mem (List.mem_map_of_mem member)
  rw [readAnswerRows _ dispatched]
  obtain ⟨same, built, kept⟩ := iterationOutputTotal criteria known graded
  cases done.symm.trans built
  cases found : reading.get? (criterionRef criterion.id) with
  | none =>
    have rows : rowsOf output.criteriaResults (ExecutionCriterion.tracker criterion).id =
        rowsOf graded.criteriaResults criterion.id := kept _ fun _ => found
    rw [rows]
    rcases rowsOf graded.criteriaResults criterion.id with _ | ⟨row, _ | ⟨second, rest⟩⟩ <;> simp
  | some state =>
    obtain ⟨prior, row⟩ := iterationOutputWithheld done distinct member found
    have rows : rowsOf output.criteriaResults (ExecutionCriterion.tracker criterion).id =
      [withheldRow criterion state prior] := row
    simp [rows, withheldRow]

/-- Grading the output of a round reads every hole as a fail, over the whole roster. -/
theorem iterationFailClosed {standing : List CriterionCrossOff} (known : ReadingOf standing reading)
    (distinct : (criteria.map TrackerCriterion.id).Nodup) :
    ∃ output, iterationOutput criteria standing reading graded = .ok output ∧
      FailClosed criteria reading graded undemonstrated
        (gradeIteration (criteria.map .tracker) output undemonstrated) := by
  obtain ⟨output, done, _⟩ := iterationOutputTotal criteria known graded
  have passing : ∀ criterion ∈ criteria, (gradeCriterion (reconcile
      ((criteria.map ExecutionCriterion.tracker).map ExecutionCriterion.id) output.criteriaResults)
      undemonstrated (.tracker criterion)).passed ↔ Passes reading graded undemonstrated criterion.id := by
    intro criterion member
    rw [gradeCriterionPassed, answerPassed known distinct done member, and_comm]
    rfl
  refine ⟨output, done, ?_, ?_, ?_⟩
  · simp [gradeIteration, gradeCriterionText, Function.comp_def, ExecutionCriterion.id, ExecutionCriterion.text]
  · intro result inside
    obtain ⟨_, roster, rfl⟩ := List.mem_map.mp inside
    obtain ⟨criterion, member, rfl⟩ := List.mem_map.mp roster
    rw [gradeCriterionId]
    exact passing criterion member
  · have ids : (criteria.map ExecutionCriterion.tracker).map ExecutionCriterion.id =
        criteria.map TrackerCriterion.id := by simp [Function.comp_def, ExecutionCriterion.id]
    have exact_rows := rejectedIff (gradeResultIds (criteria.map .tracker) output undemonstrated)
      (ids ▸ distinct)
    refine exact_rows.trans ?_
    constructor
    · rintro ⟨_, roster, counted, result, inside, same, failed⟩
      obtain ⟨criterion, member, rfl⟩ := List.mem_map.mp roster
      refine ⟨criterion, member, counted, fun passes => ?_⟩
      obtain ⟨_, otherRoster, rfl⟩ := List.mem_map.mp inside
      obtain ⟨other, otherMember, rfl⟩ := List.mem_map.mp otherRoster
      rw [gradeCriterionId] at same
      have equal : other.id = criterion.id := same
      rw [← equal, ← passing other otherMember, failed] at passes
      cases passes
    · rintro ⟨criterion, member, counted, fails⟩
      refine ⟨_, List.mem_map_of_mem member, counted, _,
        List.mem_map_of_mem (List.mem_map_of_mem member), gradeCriterionId _ _ _, ?_⟩
      rw [← passing criterion member] at fails
      simpa using fails

end FailClosed

section Sample

def watchedRollout : TrackerCriterion := ⟨⟨"KOD-95", by decide⟩, ⟨"the rollout held for a day", by simp⟩⟩
def suitePasses : TrackerCriterion := ⟨⟨"KOD-96", by decide⟩, ⟨"the suite is green", by simp⟩⟩

def gradedRow (criterion : TrackerCriterion) (passed : Bool) : CriterionResult :=
  ⟨criterion.id, ⟨"as asked", by simp⟩, passed, ⟨"reran", by simp⟩, .cheap, []⟩

/-- A session that answers the suite twice, and the rollout once. -/
def twiceAnswered : AcceptanceCriteriaOutput where
  criteriaResults := [gradedRow suitePasses true, gradedRow watchedRollout false, gradedRow suitePasses true]
  answered := by simp

/-- The rollout as an earlier iteration graded it, observed under `src`. -/
def rolloutGrading (state : CrossOffState)
    (verdict : (none : Option UndemonstratedReason) = none ↔ state ≠ .undemonstrated := by decide) : CriterionCrossOff where
  criterion := watchedRollout.id
  state := state
  evidence := ⟨⟨String.ofList (List.replicate 40 '9'), by decide⟩, ⟨"evaluator session r, iteration 97", by decide⟩⟩
  rederivationClass := .observed
  exercisedPaths := [⟨"rollout", by decide⟩]
  reasonIsTheState := verdict
  pathsNamed := by simp

theorem twiceAnsweredFailClosed : ∃ output,
    iterationOutput [watchedRollout, suitePasses] [rolloutGrading .passed] [(watchedRollout.id, .counted)]
      twiceAnswered = .ok output ∧
    FailClosed [watchedRollout, suitePasses] [(watchedRollout.id, .counted)] twiceAnswered []
      (gradeIteration ([watchedRollout, suitePasses].map .tracker) output []) :=
  iterationFailClosed [] (by simp [ReadingOf, Dict.keys, rolloutGrading]) (by decide)

end Sample
end Kodezart.CrossOffs
