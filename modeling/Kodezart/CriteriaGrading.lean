import Kodezart.Branch
import Kodezart.CriterionLifecycle

/-! One evaluation pass graded against the dispatched criteria: reconciliation is keyed
by criterion id, the denominator is the dispatched count, and every hole fails. -/
namespace Kodezart.CriteriaGrading

inductive CriterionVerdict where
  | feasible | infeasible | unverifiable
  deriving DecidableEq, Repr

structure ValidatedCriterion where
  id : CriterionId
  text : NonemptyStr
  verdict : CriterionVerdict
  deriving DecidableEq, Repr

inductive ExecutionCriterion where
  | validated (criterion : ValidatedCriterion)
  | tracker (criterion : TrackerCriterion)
  deriving DecidableEq, Repr

def ExecutionCriterion.id : ExecutionCriterion → CriterionId
  | .validated criterion => criterion.id
  | .tracker criterion => criterion.id

def ExecutionCriterion.text : ExecutionCriterion → NonemptyStr
  | .validated criterion => criterion.text
  | .tracker criterion => criterion.text

structure CriterionResult where
  criterionId : CriterionId
  criterion : NonemptyStr
  passed : Bool
  reasoning : NonemptyStr
  rederivationClass : RederivationClass := .cheap
  exercisedPaths : List String := []
  deriving DecidableEq, Repr

structure SherlockFlag where
  criterionId : Option String
  concern : NonemptyStr
  deriving DecidableEq, Repr

structure AcceptanceCriteriaOutput where
  criteriaResults : List CriterionResult
  sherlockFlags : List SherlockFlag := []
  answered : criteriaResults ≠ []
  deriving DecidableEq

inductive AcceptVerdict where
  | accepted | shipWithFlags | rejected
  deriving DecidableEq, Repr

structure CriterionFailure where
  criterionId : CriterionId
  text : NonemptyStr
  reasoning : NonemptyStr
  deriving DecidableEq, Repr

structure IterationGrade where
  results : List CriterionResult
  failures : List CriterionFailure
  missingIds : List CriterionId
  unknownIds : List CriterionId
  duplicateIds : List CriterionId
  dispatchedCount : Nat
  passedCount : Nat
  verdict : AcceptVerdict
  sherlockFlags : List SherlockFlag
  deriving DecidableEq, Repr

/-- Whether the criterion's demonstration was possible at all. -/
def isGraded : ExecutionCriterion → Bool
  | .validated criterion => criterion.verdict ≠ .unverifiable
  | .tracker _ => true

section AcceptGate
variable (criteria : List ExecutionCriterion) (results : List CriterionResult)

def gateFailures : List ExecutionCriterion :=
  let answered := Dict.build CriterionResult.criterionId results
  criteria.filter fun criterion =>
    isGraded criterion && !(answered.get? criterion.id).any CriterionResult.passed

def ungraded : List ExecutionCriterion := criteria.filter fun criterion => !isGraded criterion

def acceptVerdict : AcceptVerdict :=
  if gateFailures criteria results ≠ [] then .rejected
  else if ungraded criteria ≠ [] then .shipWithFlags
  else .accepted

end AcceptGate

def gateCleared (verdict : AcceptVerdict) : Bool := verdict ≠ .rejected

def missingResultReasoning : NonemptyStr :=
  ⟨"The evaluator returned no result for this criterion id. " ++
    "A dispatched criterion with no verdict grades failed.", leadNonempty _ (by simp)⟩

def duplicateResultReasoning : NonemptyStr :=
  ⟨"The evaluator returned more than one result for this criterion id. " ++
    "A criterion answered twice has no verdict, so it grades failed.", leadNonempty _ (by simp)⟩

def undemonstratedReasons : UndemonstratedReason → NonemptyStr
  | .workspaceNotTheGradedSha =>
    ⟨"undemonstrated: the grading workspace held uncommitted changes, or its " ++
    ("head was not the sha this verdict would be stamped with, so what it read " ++
    "is not what that sha names"), leadNonempty _ (by simp)⟩
  | .checkSurvivedMutation =>
    ⟨"undemonstrated: the check this criterion names still passed after the " ++
    ("behaviour it names had been removed from the tree, so passing it is no " ++
    "reading of that behaviour"), leadNonempty _ (by simp)⟩
  | .satisfiedAtBase =>
    ⟨"undemonstrated: the check this criterion names already passed at the " ++
    ("lane's base, where none of the work exists, so passing it at the head is " ++
    "a reading of the base and not of the branch"), leadNonempty _ (by simp)⟩
  | .baseReadingUnsettled =>
    ⟨"undemonstrated: the check this criterion names was to be run at the " ++
    ("lane's base and no answer for it was settled there, so what the branch " ++
    "contributed to passing it was never read"), leadNonempty _ (by simp)⟩

/-- What the output corresponds to: the first answer of each dispatched id, and the holes. -/
structure Correspondence where
  answered : Dict CriterionId CriterionResult := []
  unknownIds : List CriterionId := []
  duplicateIds : List CriterionId := []

def correspond (dispatched : List CriterionId) (found : Correspondence) (result : CriterionResult) :
    Correspondence :=
  if result.criterionId ∉ dispatched then
    { found with unknownIds := found.unknownIds ++ [result.criterionId] }
  else if result.criterionId ∈ found.answered.keys then
    { found with duplicateIds := found.duplicateIds ++ [result.criterionId] }
  else { found with answered := found.answered.set result.criterionId result }

def reconcile (dispatched : List CriterionId) (results : List CriterionResult) : Correspondence :=
  results.foldl (correspond dispatched) {}

/-- A criterion with no answer, or two, declares nothing, exactly as it passes nothing. -/
def readAnswer (found : Correspondence) (criterion : ExecutionCriterion) : CriterionResult :=
  match found.answered.get? criterion.id with
  | none => ⟨criterion.id, criterion.text, false, missingResultReasoning, .cheap, []⟩
  | some answer =>
    if criterion.id ∈ found.duplicateIds then
      ⟨criterion.id, criterion.text, false, duplicateResultReasoning, .cheap, []⟩
    else { answer with criterionId := criterion.id, criterion := criterion.text }

def gradeCriterion (found : Correspondence) (undemonstrated : Dict CriterionId UndemonstratedReason)
    (criterion : ExecutionCriterion) : CriterionResult :=
  let reading := readAnswer found criterion
  match undemonstrated.get? criterion.id with
  | none => reading
  | some withheld => { reading with passed := false, reasoning := undemonstratedReasons withheld }

def gradeIteration (criteria : List ExecutionCriterion) (output : AcceptanceCriteriaOutput)
    (undemonstrated : Dict CriterionId UndemonstratedReason) : IterationGrade :=
  let found := reconcile (criteria.map ExecutionCriterion.id) output.criteriaResults
  let results := criteria.map (gradeCriterion found undemonstrated)
  let gradedIds := (criteria.filter fun criterion => isGraded criterion).map ExecutionCriterion.id
  let failures := (results.filter fun result => !result.passed).map fun result =>
    (⟨result.criterionId, result.criterion, result.reasoning⟩ : CriterionFailure)
  { results
    failures := failures.filter fun failure => failure.criterionId ∈ gradedIds
    missingIds := (criteria.filter fun criterion =>
      (found.answered.get? criterion.id).isNone).map ExecutionCriterion.id
    unknownIds := found.unknownIds
    duplicateIds := found.duplicateIds
    dispatchedCount := criteria.length
    passedCount := results.countP fun result => result.passed && result.criterionId ∈ gradedIds
    verdict := acceptVerdict criteria results
    sherlockFlags := output.sherlockFlags }

section Reconciliation
variable (dispatched : List CriterionId)

theorem reconcileAnsweredFrom (results : List CriterionResult) (found : Correspondence) (k : CriterionId) :
    (results.foldl (correspond dispatched) found).answered.get? k =
      (found.answered.get? k).or
        (if k ∈ dispatched then results.find? fun result => result.criterionId = k else none) := by
  induction results generalizing found with
  | nil => simp
  | cons result results ih =>
    rw [List.foldl_cons, ih, List.find?_cons]
    unfold correspond
    by_cases known : result.criterionId ∈ dispatched
    · simp only [known, not_true_eq_false, ↓reduceIte]
      by_cases seen : result.criterionId ∈ found.answered.keys
      · simp only [seen, ↓reduceIte]
        by_cases here : result.criterionId = k
        · subst here
          obtain ⟨first, answer⟩ := (Dict.getSome _ _).mp seen
          simp [answer]
        · simp [here]
      · simp only [seen, ↓reduceIte, Dict.getSet]
        by_cases here : result.criterionId = k
        · subst here
          have unseen : found.answered.get? result.criterionId = none := by
            cases answer : found.answered.get? result.criterionId with
            | none => rfl
            | some first => exact absurd ((Dict.getSome _ _).mpr ⟨first, answer⟩) seen
          simp [unseen, known]
        · simp [here]
    · simp only [known, not_false_eq_true, ↓reduceIte]
      by_cases here : result.criterionId = k
      · subst here
        simp [known]
      · simp [here]

theorem reconcileAnswered (results : List CriterionResult) {k : CriterionId} (known : k ∈ dispatched) :
    (reconcile dispatched results).answered.get? k =
      results.find? fun result => result.criterionId = k := by
  rw [reconcile, reconcileAnsweredFrom]
  simp [known]

/-- An id is a duplicate only once an answer of its stands before another. -/
theorem reconcileDuplicatesFrom (results : List CriterionResult) (found : Correspondence) {k : CriterionId}
    (duplicate : k ∈ (results.foldl (correspond dispatched) found).duplicateIds) :
    k ∈ found.duplicateIds ∨ (k ∈ found.answered.keys ∧ ∃ result ∈ results, result.criterionId = k) ∨
      2 ≤ results.countP fun result => result.criterionId = k := by
  induction results generalizing found with
  | nil => exact Or.inl duplicate
  | cons result results ih =>
    rw [List.foldl_cons] at duplicate
    have later := ih _ duplicate
    rw [List.countP_cons]
    unfold correspond at later
    split at later
    · rcases later with old | ⟨seen, rest⟩ | twice
      · exact Or.inl old
      · exact Or.inr (Or.inl ⟨seen, by simpa using Or.inr rest⟩)
      · exact Or.inr (Or.inr (by omega))
    · split at later
      · rename_i seen
        rcases later with old | ⟨still, rest⟩ | twice
        · rcases List.mem_append.mp old with old | new
          · exact Or.inl old
          · cases List.mem_singleton.mp new
            exact Or.inr (Or.inl ⟨seen, result, List.mem_cons_self, rfl⟩)
        · exact Or.inr (Or.inl ⟨still, by simpa using Or.inr rest⟩)
        · exact Or.inr (Or.inr (by omega))
      · rcases later with old | ⟨seen, other, member, same⟩ | twice
        · exact Or.inl old
        · by_cases here : result.criterionId = k
          · refine Or.inr (Or.inr ?_)
            have one : 0 < results.countP fun result => result.criterionId = k :=
              List.countP_pos_iff.mpr ⟨other, member, by simpa using same⟩
            simp only [here, decide_true, ↓reduceIte]
            omega
          · obtain ⟨first, answer⟩ := (Dict.getSome _ _).mp seen
            simp only [Dict.getSetOther _ _ here] at answer
            exact Or.inr (Or.inl ⟨(Dict.getSome _ _).mpr ⟨first, answer⟩, other,
              List.mem_cons_of_mem _ member, same⟩)
        · exact Or.inr (Or.inr (by omega))

/-- An id the output answers once reads as that answer and as no duplicate. -/
theorem reconcileOnce {results : List CriterionResult} {k : CriterionId} {row : CriterionResult}
    (known : k ∈ dispatched) (once : results.filter (fun result => result.criterionId = k) = [row]) :
    (reconcile dispatched results).answered.get? k = some row ∧
      k ∉ (reconcile dispatched results).duplicateIds := by
  constructor
  · rw [reconcileAnswered dispatched results known, ← List.head?_filter, once]
    rfl
  · intro duplicate
    rcases reconcileDuplicatesFrom dispatched results {} duplicate with old | ⟨seen, _⟩ | twice
    · simp at old
    · simp [Dict.keys] at seen
    · rw [List.countP_eq_length_filter, once] at twice
      simp at twice

end Reconciliation

@[simp] theorem gradeCriterionId (found : Correspondence)
    (undemonstrated : Dict CriterionId UndemonstratedReason) (criterion : ExecutionCriterion) :
    (gradeCriterion found undemonstrated criterion).criterionId = criterion.id := by
  have reading : (readAnswer found criterion).criterionId = criterion.id := by
    unfold readAnswer
    split
    · rfl
    · split <;> rfl
  unfold gradeCriterion
  split <;> exact reading

theorem gradeResultIds (criteria : List ExecutionCriterion) (output : AcceptanceCriteriaOutput)
    (undemonstrated : Dict CriterionId UndemonstratedReason) :
    (gradeIteration criteria output undemonstrated).results.map CriterionResult.criterionId =
      criteria.map ExecutionCriterion.id := by
  simp [gradeIteration, Function.comp_def]

theorem gradeCriterionAnswered {found : Correspondence}
    {undemonstrated : Dict CriterionId UndemonstratedReason} {criterion : ExecutionCriterion}
    {row : CriterionResult} (answer : found.answered.get? criterion.id = some row)
    (single : criterion.id ∉ found.duplicateIds) (kept : undemonstrated.get? criterion.id = none) :
    gradeCriterion found undemonstrated criterion =
      { row with criterionId := criterion.id, criterion := criterion.text } := by
  simp only [gradeCriterion, readAnswer, kept, answer, single, ↓reduceIte]

/-- Over distinct ids the gate rejects exactly when a gradable criterion's own row does not pass. -/
theorem rejectedIff {criteria : List ExecutionCriterion} {results : List CriterionResult}
    (ids : results.map CriterionResult.criterionId = criteria.map ExecutionCriterion.id)
    (distinct : (criteria.map ExecutionCriterion.id).Nodup) :
    acceptVerdict criteria results = .rejected ↔
      ∃ criterion ∈ criteria, isGraded criterion ∧
        ∃ result ∈ results, result.criterionId = criterion.id ∧ result.passed = false := by
  have answered : ∀ result ∈ results,
      (Dict.build CriterionResult.criterionId results).get? result.criterionId = some result :=
    fun result member => Dict.buildGetUnique _ (ids ▸ distinct) member
  have failing : gateFailures criteria results ≠ [] ↔ ∃ criterion ∈ criteria, isGraded criterion ∧
      ∃ result ∈ results, result.criterionId = criterion.id ∧ result.passed = false := by
    have some_member : gateFailures criteria results ≠ [] ↔ ∃ x, x ∈ gateFailures criteria results :=
      ⟨List.exists_mem_of_ne_nil _, fun ⟨_, member⟩ => List.ne_nil_of_mem member⟩
    rw [some_member]
    simp only [gateFailures, List.mem_filter, Bool.and_eq_true, Bool.not_eq_true']
    refine exists_congr fun criterion => and_congr_right fun member => and_congr_right fun _ => ?_
    have present : criterion.id ∈ results.map CriterionResult.criterionId :=
      ids ▸ List.mem_map.mpr ⟨criterion, member, rfl⟩
    obtain ⟨result, inside, same⟩ := List.mem_map.mp present
    rw [← same, answered result inside]
    constructor
    · intro failed
      exact ⟨result, inside, rfl, by simpa using failed⟩
    · rintro ⟨other, otherInside, key, failed⟩
      have equal := answered other otherInside
      rw [key, answered result inside] at equal
      cases equal
      simpa using failed
  unfold acceptVerdict
  split
  · rename_i some_failure
    simpa using failing.mp some_failure
  · rename_i none_failing
    constructor
    · split <;> simp
    · intro failure
      exact absurd (failing.mpr failure) none_failing

end Kodezart.CriteriaGrading
