import Kodezart.CriteriaGrading
import Kodezart.Fallible
import Kodezart.Lapse

/-! One cross-off per graded criterion, as arithmetic over the grade: the state is the
result's own pass where that pass reads the branch, the sha is the commit graded at. -/
namespace Kodezart.CrossOffs
open CriteriaGrading Lapse TextLines

structure BaseCheckResult where
  criterionId : CriterionId
  satisfiedAtBase : Bool
  deriving DecidableEq, Repr

def undemonstratedReasonsOf (results : List CriterionResult) (workspaceStood : Bool)
    (survivingChecks : List CriterionId) : Dict CriterionId UndemonstratedReason :=
  if !workspaceStood then
    Dict.update [] (results.map fun result => (result.criterionId, .workspaceNotTheGradedSha))
  else
    Dict.update [] ((results.filter fun result => result.criterionId ∈ survivingChecks).map
      fun result => (result.criterionId, .checkSurvivedMutation))

theorem visibleAppend {left : String} (seen : visible left) (right : String) : visible (left ++ right) := by
  simp only [visible, String.toList_append, List.any_append, Bool.or_eq_true] at seen ⊢
  exact Or.inl seen

/-- The pointer an Evidence row carries back to the grading it came from. -/
def evaluationObservation (sessionId : String) (iteration : Nat) : VisibleStr :=
  ⟨"evaluator session " ++ (sessionId ++ s!", iteration {iteration}"), visibleAppend (by decide) _⟩

def carriedReason : NonemptyStr :=
  ⟨"carried: nothing this grading exercised moved since the sha it was " ++
    "graded at, so the verdict it reached still stands and was not asked again", leadNonempty _ (by simp)⟩

def lapseReason : NonemptyStr :=
  ⟨"lapsed: what this grading exercised moved after the sha it was graded " ++
    "at, so the verdict it reached is owed again rather than failed", leadNonempty _ (by simp)⟩

abbrev Reading := Dict CriterionRef GradedState

inductive Refusal where
  | keyError (criterion : CriterionRef)
  | validationError
  | unstandingReading
  | sticky (error : StickyClassError)
  | nothingToGrade
  deriving DecidableEq, Repr

section IterationOutput

/-- The session's rows under the id each answers, in order of first answer. -/
def answeredRows (results : List CriterionResult) : Dict CriterionId (List CriterionResult) :=
  results.foldl (fun answered result =>
    answered.set result.criterionId ((answered.get? result.criterionId).getD [] ++ [result])) []

def withheldRow (criterion : TrackerCriterion) (state : GradedState) (prior : CriterionCrossOff) :
    CriterionResult :=
  { criterionId := criterion.id
    criterion := criterion.text
    passed := state = .counted
    reasoning := if state = .counted then carriedReason else lapseReason
    rederivationClass := prior.rederivationClass
    exercisedPaths := prior.exercisedPaths.map Subtype.val }

/-- One roster criterion's rows: the session's, or the row its standing grading earns. -/
def ownRows (held : Dict CriterionRef CriterionCrossOff) (reading : Reading)
    (answered : Dict CriterionId (List CriterionResult)) (criterion : TrackerCriterion) :
    Except Refusal (List CriterionResult) :=
  match reading.get? (criterionRef criterion.id) with
  | none => .ok ((answered.get? criterion.id).getD [])
  | some state =>
    match held.get? (criterionRef criterion.id) with
    | none => .error (.keyError (criterionRef criterion.id))
    | some prior => .ok [withheldRow criterion state prior]

/-- The roster's rows in order, and the session's rows no roster criterion took. -/
def rosterRows (held : Dict CriterionRef CriterionCrossOff) (reading : Reading) :
    List TrackerCriterion → Dict CriterionId (List CriterionResult) →
    Except Refusal (List CriterionResult × Dict CriterionId (List CriterionResult))
  | [], answered => .ok ([], answered)
  | criterion :: criteria, answered => do
    let rows ← ownRows held reading answered criterion
    let (later, unknown) ← rosterRows held reading criteria (answered.erase criterion.id)
    .ok (rows ++ later, unknown)

def iterationOutput (criteria : List TrackerCriterion) (standing : List CriterionCrossOff)
    (reading : Reading) (graded : AcceptanceCriteriaOutput) : Except Refusal AcceptanceCriteriaOutput := do
  let held := Dict.build CriterionCrossOff.criterion standing
  let (rows, unknown) ← rosterRows held reading criteria (answeredRows graded.criteriaResults)
  let criteriaResults := rows ++ unknown.values.flatten
  if answered : criteriaResults ≠ [] then
    .ok { criteriaResults, sherlockFlags := graded.sherlockFlags, answered }
  else .error .validationError

/-- Rows stand under the id they answer, each id once. -/
structure Grouped (answered : Dict CriterionId (List CriterionResult)) : Prop where
  unique : answered.keys.Nodup
  keyed : ∀ e ∈ answered, ∀ result ∈ e.2, result.criterionId = e.1

theorem groupedErase {answered : Dict CriterionId (List CriterionResult)} (grouped : Grouped answered)
    (k : CriterionId) : Grouped (answered.erase k) :=
  ⟨((answered.eraseSublist k).map Prod.fst).nodup grouped.unique,
    fun e member => grouped.keyed e ((answered.eraseSublist k).subset member)⟩

theorem answeredRowsGrouped (results : List CriterionResult) : Grouped (answeredRows results) := by
  have step : ∀ (answered : Dict CriterionId (List CriterionResult)) (result : CriterionResult),
      Grouped answered → Grouped (answered.set result.criterionId
        ((answered.get? result.criterionId).getD [] ++ [result])) := by
    intro answered result grouped
    refine ⟨Dict.setNodup _ _ grouped.unique, ?_⟩
    intro e member row inside
    rcases Dict.setMember member with old | rfl
    · exact grouped.keyed e old row inside
    · rcases List.mem_append.mp inside with before | last
      · cases found : answered.get? result.criterionId with
        | none => simp [found] at before
        | some rows =>
          simp only [found, Option.getD_some] at before
          exact grouped.keyed _ (Dict.getMember found) row before
      · rw [List.mem_singleton.mp last]
  have fold : ∀ answered, Grouped answered → Grouped (results.foldl (fun answered result =>
      answered.set result.criterionId ((answered.get? result.criterionId).getD [] ++ [result])) answered) := by
    induction results with
    | nil => exact fun _ grouped => grouped
    | cons result results ih => exact fun answered grouped => ih _ (step answered result grouped)
  exact fold [] ⟨by simp [Dict.keys], by simp⟩

variable {held : Dict CriterionRef CriterionCrossOff} {reading : Reading}

theorem ownRowsId {criterion : TrackerCriterion} {answered : Dict CriterionId (List CriterionResult)}
    (grouped : Grouped answered) {own : List CriterionResult}
    (done : ownRows held reading answered criterion = .ok own) {result : CriterionResult}
    (member : result ∈ own) : result.criterionId = criterion.id := by
  unfold ownRows at done
  split at done
  · cases done
    cases found : answered.get? criterion.id with
    | none => simp [found] at member
    | some rows =>
      simp only [found, Option.getD_some] at member
      exact grouped.keyed _ (Dict.getMember found) result member
  · split at done
    · cases done
    · cases done
      rw [List.mem_singleton.mp member]
      rfl

theorem ownRowsWithheld {criterion : TrackerCriterion} {answered : Dict CriterionId (List CriterionResult)}
    {own : List CriterionResult} (done : ownRows held reading answered criterion = .ok own)
    {state : GradedState} (withheld : reading.get? criterion.id = some state) :
    ∃ prior, own = [withheldRow criterion state prior] := by
  simp only [ownRows, criterionRef, withheld] at done
  split at done
  · cases done
  · cases done
    exact ⟨_, rfl⟩

theorem rosterRowsCons {criterion : TrackerCriterion} {criteria : List TrackerCriterion}
    {answered unknown : Dict CriterionId (List CriterionResult)} {rows : List CriterionResult}
    (done : rosterRows held reading (criterion :: criteria) answered = .ok (rows, unknown)) :
    ∃ own later, rows = own ++ later ∧ ownRows held reading answered criterion = .ok own ∧
      rosterRows held reading criteria (answered.erase criterion.id) = .ok (later, unknown) := by
  obtain ⟨own, mine, done⟩ := bindOk.mp done
  obtain ⟨⟨later, rest⟩, tail, done⟩ := bindOk.mp done
  cases done
  exact ⟨own, later, rfl, mine, tail⟩

/-- An id that neither the roster nor the session's rows carry gets no row. -/
theorem rosterRowsForeign {criteria : List TrackerCriterion}
    {answered unknown : Dict CriterionId (List CriterionResult)} {rows : List CriterionResult}
    (done : rosterRows held reading criteria answered = .ok (rows, unknown)) (grouped : Grouped answered)
    {k : CriterionId} (offRoster : ∀ criterion ∈ criteria, criterion.id ≠ k)
    (unanswered : answered.get? k = none) :
    ∀ result ∈ rows ++ unknown.values.flatten, result.criterionId ≠ k := by
  induction criteria generalizing answered rows with
  | nil =>
    cases done
    intro result member same
    rw [List.nil_append] at member
    obtain ⟨group, inside, row⟩ := List.mem_flatten.mp member
    obtain ⟨e, entry, rfl⟩ := List.mem_map.mp inside
    have key := grouped.keyed e entry result row
    have present := Dict.getOfMember grouped.unique (show (e.1, e.2) ∈ _ from entry)
    rw [← key, same, unanswered] at present
    cases present
  | cons criterion criteria ih =>
    obtain ⟨own, later, rfl, mine, tail⟩ := rosterRowsCons done
    have rest := ih tail (groupedErase grouped _)
      (fun other inside => offRoster other (List.mem_cons_of_mem _ inside))
      (by rw [Dict.eraseGet grouped.unique, unanswered]; simp)
    intro result member
    rw [List.append_assoc] at member
    rcases List.mem_append.mp member with here | others
    · rw [ownRowsId grouped mine here]
      exact offRoster criterion List.mem_cons_self
    · exact rest result others

/-- A criterion the reading withholds gets exactly the row its standing grading earns. -/
theorem rosterRowsWithheld {criteria : List TrackerCriterion}
    {answered unknown : Dict CriterionId (List CriterionResult)} {rows : List CriterionResult}
    (done : rosterRows held reading criteria answered = .ok (rows, unknown)) (grouped : Grouped answered)
    (distinct : (criteria.map TrackerCriterion.id).Nodup) {criterion : TrackerCriterion}
    (member : criterion ∈ criteria) {state : GradedState} (withheld : reading.get? criterion.id = some state) :
    ∃ prior, (rows ++ unknown.values.flatten).filter (fun result => result.criterionId = criterion.id) =
      [withheldRow criterion state prior] := by
  induction criteria generalizing answered rows with
  | nil => simp at member
  | cons head criteria ih =>
    obtain ⟨own, later, rfl, mine, tail⟩ := rosterRowsCons done
    obtain ⟨fresh, apart⟩ := List.nodup_cons.mp distinct
    rw [List.append_assoc, List.filter_append]
    rcases List.mem_cons.mp member with rfl | inside
    · have rest := rosterRowsForeign tail (groupedErase grouped _) (k := criterion.id)
        (fun other inside same => fresh (List.mem_map.mpr ⟨other, inside, same⟩))
        (by rw [Dict.eraseGet grouped.unique]; simp)
      have none_later : (later ++ unknown.values.flatten).filter
          (fun result => result.criterionId = criterion.id) = [] := by
        rw [List.filter_eq_nil_iff]
        exact fun result inside => by simpa using rest result inside
      obtain ⟨prior, rfl⟩ := ownRowsWithheld mine withheld
      exact ⟨prior, by rw [none_later]; simp [withheldRow]⟩
    · have other : head.id ≠ criterion.id :=
        fun same => fresh (List.mem_map.mpr ⟨criterion, inside, same.symm⟩)
      have none_own : own.filter (fun result => result.criterionId = criterion.id) = [] := by
        rw [List.filter_eq_nil_iff]
        intro result here
        simpa [ownRowsId grouped mine here] using other
      rw [none_own, List.nil_append]
      exact ih tail (groupedErase grouped _) apart inside

theorem iterationOutputWithheld {criteria : List TrackerCriterion} {standing : List CriterionCrossOff}
    {graded output : AcceptanceCriteriaOutput} (done : iterationOutput criteria standing reading graded = .ok output)
    (distinct : (criteria.map TrackerCriterion.id).Nodup) {criterion : TrackerCriterion}
    (member : criterion ∈ criteria) {state : GradedState} (withheld : reading.get? criterion.id = some state) :
    ∃ prior, output.criteriaResults.filter (fun result => result.criterionId = criterion.id) =
      [withheldRow criterion state prior] := by
  unfold iterationOutput at done
  dsimp only at done
  obtain ⟨⟨rows, unknown⟩, walked, done⟩ := bindOk.mp done
  split at done
  · cases done
    exact rosterRowsWithheld walked (answeredRowsGrouped _) distinct member withheld
  · cases done

end IterationOutput

def lapsePointer : String := "that grading lapsed"

/-- The pointer a lapsed grading leaves, beside the sha it was graded at. -/
def lapseObservation (observation : VisibleStr) : VisibleStr :=
  ⟨observation.val ++ (" — " ++ lapsePointer), visibleAppend observation.property _⟩

theorem lapseObservationMoves (observation : VisibleStr) : lapseObservation observation ≠ observation := by
  intro same
  have sizes := congrArg (fun text : VisibleStr => text.val.length) same
  simp [lapseObservation, lapsePointer, String.length_append] at sizes

section DeclaredClass

theorem visibleOfStripped {path : String} (stripped : path.toList.any fun c => !isSpace c) : visible path := by
  simp only [visible, List.any_eq_true, isSpace, Bool.not_eq_true', Bool.or_eq_false_iff] at stripped ⊢
  obtain ⟨c, member, seen, _⟩ := stripped
  exact ⟨c, member, seen⟩

/-- A declared prefix naming nothing is dropped. -/
def namedPaths (exercisedPaths : List String) : List ExercisedPath :=
  exercisedPaths.filterMap fun path =>
    if stripped : path.toList.any fun c => !isSpace c then some ⟨path, visibleOfStripped stripped⟩
    else none

abbrev Declaration := {declared : RederivationClass × List ExercisedPath //
  declared.1 ∈ pathBoundClasses → declared.2 ≠ []}

/-- The class and prefixes a declaration earns, normalised where it earns none. -/
def declaredClass (rederivationClass : RederivationClass) (exercisedPaths : List String) : Declaration :=
  let paths := namedPaths exercisedPaths
  if unnamed : rederivationClass ∈ pathBoundClasses ∧ paths = [] then ⟨(.cheap, []), cheapNamesNothing⟩
  else ⟨(rederivationClass, paths), fun bound blank => unnamed ⟨bound, blank⟩⟩

end DeclaredClass

def passedIds (results : List CriterionResult) : List CriterionId :=
  (results.filter CriterionResult.passed).map CriterionResult.criterionId

/-- One answer per id the base reading settled, and none for an id it answered twice. -/
def baseAnswers (results : List BaseCheckResult) : Dict CriterionId Bool :=
  let answers := Dict.update [] (results.map fun result => (result.criterionId, result.satisfiedAtBase))
  answers.filter fun e => (results.countP fun result => result.criterionId = e.1) < 2

def baseReasons (passing : List CriterionId) (atBase : Dict CriterionId Bool) :
    List (CriterionId × UndemonstratedReason) :=
  passing.filterMap fun criterionId =>
    match atBase.get? criterionId with
    | some true => some (criterionId, .satisfiedAtBase)
    | some false => none
    | none => some (criterionId, .baseReadingUnsettled)

/-- A withheld reading decides before the result does. -/
def crossOffState (passed : Bool) (reason : Option UndemonstratedReason) : CrossOffState :=
  match reason with
  | some _ => .undemonstrated
  | none => if passed then .passed else .failed

theorem crossOffStateReason (passed : Bool) (reason : Option UndemonstratedReason) :
    reason = none ↔ crossOffState passed reason ≠ .undemonstrated := by
  cases reason <;> cases passed <;> simp [crossOffState]

section CrossOffsFor
variable (gradedSha : Sha) (observation : VisibleStr) (reasons : Dict CriterionId UndemonstratedReason)

def freshCrossOff (result : CriterionResult) : CriterionCrossOff :=
  let withheld := reasons.get? result.criterionId
  let declared := declaredClass result.rederivationClass result.exercisedPaths
  { criterion := criterionRef result.criterionId
    state := crossOffState result.passed withheld
    evidence := ⟨gradedSha, observation⟩
    rederivationClass := declared.val.1
    exercisedPaths := declared.val.2
    undemonstratedReason := withheld
    reasonIsTheState := crossOffStateReason _ _
    pathsNamed := declared.property }

/-- What a grading that no longer stands becomes, at the sha it was graded at. -/
def lapsedCrossOff (criterion : CriterionRef) (prior : CriterionCrossOff) : CriterionCrossOff :=
  { criterion
    state := .lapsed
    evidence := ⟨prior.evidence.gradedSha, lapseObservation prior.evidence.test⟩
    rederivationClass := prior.rederivationClass
    exercisedPaths := prior.exercisedPaths
    undemonstratedReason := none
    reasonIsTheState := by simp
    pathsNamed := prior.pathsNamed }

def crossOffFor (held : Dict CriterionRef CriterionCrossOff) (reading : Reading) (result : CriterionResult) :
    CriterionCrossOff :=
  let criterion := criterionRef result.criterionId
  -- `crossOffsFor` has refused a reading with nothing standing for it, so the last arm is a fresh grading.
  match reading.get? criterion, held.get? criterion with
  | some .counted, some prior => prior
  | some .lapsed, some prior => lapsedCrossOff criterion prior
  | _, _ => freshCrossOff gradedSha observation reasons result

def crossOffsFor (results : List CriterionResult) (standing : List CriterionCrossOff) (reading : Reading) :
    Except Refusal (List CriterionCrossOff) :=
  let held := Dict.build CriterionCrossOff.criterion standing
  if ∃ criterion ∈ reading.keys, criterion ∉ held.keys then .error .unstandingReading
  else .ok (results.map (crossOffFor gradedSha observation reasons held reading))

end CrossOffsFor

theorem crossOffForCriterion {gradedSha : Sha} {observation : VisibleStr}
    {reasons : Dict CriterionId UndemonstratedReason} {standing : List CriterionCrossOff} {reading : Reading}
    (result : CriterionResult) :
    (crossOffFor gradedSha observation reasons (Dict.build CriterionCrossOff.criterion standing) reading
      result).criterion = result.criterionId := by
  unfold crossOffFor
  dsimp only
  split
  · rename_i found
    exact (Dict.buildGetSome _ found).2
  · rfl
  · rfl

end Kodezart.CrossOffs
