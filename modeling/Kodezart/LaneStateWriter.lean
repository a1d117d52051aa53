import Mathlib
import Kodezart.EvidenceStamp
import Kodezart.Requests
import Kodezart.RunEvents
import Kodezart.Tracker

/-! What a lane's verdict leaves on its board: the write of one attempt's cross-offs, as
requests to the tracker, and the tracker those requests are made to. -/
namespace Kodezart.LaneStateWriter
open TextLines FireSpec EvidenceField EvidenceStamp Tracker

/-- What a stale write asserted of the sub-issue it addressed. -/
inductive Asserted where
  | tickAnchor (criterion : TrackerCriterion)
  | body (expected : Text)
  deriving DecidableEq, Repr

inductive Refusal where
  | laneRecordWrite (laneKey reason : String)
  | staleWrite (target : String) (expected : Asserted)
  | criterionRead (issueKey reason : String)
  | absent (issueKey : String)
  deriving DecidableEq, Repr

/-- The issues a tracker holds under their keys, and each lane's stream. `moved` and `stampedBy`
are an account of the run and no field of the tracker: whether this writer moved the sub-issue to
where it stands, and the cross-off its Evidence row was last set from. -/
structure Board where
  issues : String → Option TrackerIssue
  keyed : ∀ key issue, issues key = some issue → issue.issueKey.1 = key
  streams : String → List LaneRunEvent
  moved : String → Bool := fun _ => false
  stampedBy : String → Option CriterionCrossOff := fun _ => none

def Board.putIssue (board : Board) (issue : TrackerIssue) : Board :=
  { board with
    issues := Function.update board.issues issue.issueKey.1 (some issue)
    keyed := by
      intro key found same
      by_cases here : key = issue.issueKey.1
      · subst here
        rw [Function.update_self, Option.some.injEq] at same
        rw [same]
      · rw [Function.update_of_ne here] at same
        exact board.keyed key found same }

inductive Call where
  | listComments (issueKey : String)
  | readIssue (issueKey : String)
  | gateExact (content : Text)
  | editDescription (target : String) (expected replacement : Text) (grading : CriterionCrossOff)
  | postRunEvent (issueKey : String) (event : LaneRunEvent)
  | setWorkflowStateDone (issueKey : String)
  | resetCriterionPending (expected : TrackerIssue)

def Reply : Call → Type
  | .listComments _ => List LaneRunEvent
  | .readIssue _ => TrackerIssue
  | _ => Unit

/-- Nothing to write where the replacement already stands, or is no replacement. -/
def descriptionReplacement (target : String) (body expected replacement : Text) :
    Except Refusal (Option Text) :=
  if expected = replacement ∨ body = replacement then .ok none
  else if body = expected then .ok (some replacement)
  else .error (.staleWrite target (.body expected))

/-- Every source fact is preserved, but for the state of one already reset. -/
def requireCriterionSource (expected current : TrackerIssue) : Except Refusal Unit :=
  if "criterion" ∉ current.issueLabels ∨ current.parentKey = none then
    .error (.criterionRead expected.issueKey.1
      "the native criterion lost its classification or parent")
  else if current.stateKind = .unstarted ∧
      { expected with stateKind := .unstarted } = current ∨ expected = current then .ok ()
  else .error (.criterionRead expected.issueKey.1 "native criterion facts changed before amendment")

def Board.edited (board : Board) (issue : TrackerIssue) (body : Text) (grading : CriterionCrossOff) :
    Board :=
  { board.putIssue { issue with body } with
    stampedBy := Function.update board.stampedBy issue.issueKey.1 (some grading) }

def Board.posted (board : Board) (issueKey : String) (event : LaneRunEvent) : Board :=
  { board with
    streams := Function.update board.streams issueKey (board.streams issueKey ++ [event]) }

def Board.finished (board : Board) (issue : TrackerIssue) : Board :=
  { board.putIssue { issue with stateKind := .completed } with
    moved := Function.update board.moved issue.issueKey.1 true }

def Board.pending (board : Board) (issue : TrackerIssue) : Board :=
  { board.putIssue { issue with stateKind := .unstarted } with
    moved := Function.update board.moved issue.issueKey.1 false }

def Board.read (board : Board) (issueKey : String) : Except Refusal TrackerIssue :=
  match board.issues issueKey with
  | some issue => .ok issue
  | none => .error (.absent issueKey)

/-- One request, served whole or refused with the board as it was. -/
def serve (board : Board) : (call : Call) → Except Refusal (Board × Reply call)
  | .listComments issueKey => .ok (board, board.streams issueKey)
  | .readIssue issueKey => do
    let issue ← board.read issueKey
    .ok (board, issue)
  | .gateExact _ => .ok (board, ())
  | .editDescription target expected replacement grading => do
    let issue ← board.read target
    let body ← descriptionReplacement target issue.body expected replacement
    .ok (board.edited issue (body.getD issue.body) grading, ())
  | .postRunEvent issueKey event => .ok (board.posted issueKey event, ())
  | .setWorkflowStateDone issueKey => do
    let issue ← board.read issueKey
    .ok (board.finished issue, ())
  | .resetCriterionPending expected => do
    let current ← board.read expected.issueKey.1
    requireCriterionSource expected current
    if current.teamKey = none then
      .error (.criterionRead expected.issueKey.1 "the criterion has no declared team")
    else .ok (board.pending current, ())

abbrev Program := Prog Call Reply Refusal

open Prog (ofExcept)

/-! The tracker's port, one request a method. -/

def listComments (issueKey : String) : Program (List LaneRunEvent) :=
  Prog.request (Call.listComments issueKey)

def readIssue (issueKey : String) : Program TrackerIssue := Prog.request (Call.readIssue issueKey)

def gateExact (content : Text) : Program Unit := Prog.request (Call.gateExact content)

def editDescription (target : String) (expected replacement : Text) (grading : CriterionCrossOff) :
    Program Unit :=
  Prog.request (Call.editDescription target expected replacement grading)

def postRunEvent (issueKey : String) (event : LaneRunEvent) : Program Unit :=
  Prog.request (Call.postRunEvent issueKey event)

def setWorkflowStateDone (issueKey : String) : Program Unit :=
  Prog.request (Call.setWorkflowStateDone issueKey)

def resetCriterionPending (expected : TrackerIssue) : Program Unit :=
  Prog.request (Call.resetCriterionPending expected)

/-- The cross-off states whose write can announce something on the lane's stream. -/
def announcingStates : List CrossOffState := [.passed, .failed, .lapsed, .undemonstrated]

def heldCriterionState : WorkflowStateKind := .completed

def tickableStates : List WorkflowStateKind := [.unstarted, heldCriterionState]

def requireTickable (issue : TrackerIssue) (criterion : TrackerCriterion) : Except Refusal Unit :=
  if "criterion" ∉ issue.issueLabels ∨ issue.stateKind ∉ tickableStates ∨
      criterionFieldBodies issue.body .Check ≠ [criterion.text.1.toList] ∨
      duplicatedRowLabels issue.body ≠ [] then
    .error (.staleWrite criterion.id.1 (.tickAnchor criterion))
  else .ok ()

def evidenceBody (issue : TrackerIssue) (criterion : TrackerCriterion)
    (crossOff : CriterionCrossOff) : Except Refusal Text :=
  match applyEvidence issue.body crossOff.evidence with
  | .ok body => .ok body
  | .error _ => .error (.staleWrite criterion.id.1 (.tickAnchor criterion))

/-- The one write of an Evidence row. -/
def stamp (criterion : TrackerCriterion) (issue : TrackerIssue) (crossOff : CriterionCrossOff) :
    Program Unit := do
  let body ← ofExcept (evidenceBody issue criterion crossOff)
  gateExact body
  editDescription criterion.id.1 issue.body body crossOff

def postUnless (held : Bool) (lane : VisibleStr) (event : LaneRunEvent) : Program Unit :=
  if held then pure () else postRunEvent lane.1 event

def eventOf (kind : RunEventKind) (lane : VisibleStr) (criterion : TrackerCriterion)
    (crossOff : CriterionCrossOff) : LaneRunEvent :=
  ⟨kind, lane, some criterion.id, some crossOff.evidence.gradedSha.named⟩

def undemonstrated (lane : VisibleStr) (criterion : TrackerCriterion) (crossOff : CriterionCrossOff)
    (reason : UndemonstratedReason) (events : List LaneRunEvent) : Program Unit :=
  let event := eventOf (undemonstratedEventKinds reason) lane criterion crossOff
  postUnless (event ∈ events) lane event

/-- Finish one criterion at the sha it was graded at. -/
def writeOne (lane : VisibleStr) (criterion : TrackerCriterion) (crossOff : CriterionCrossOff)
    (events : List LaneRunEvent) : Program Unit := do
  let issue ← readIssue criterion.id.1
  ofExcept (requireTickable issue criterion)
  let crossedOff := eventOf .issueCrossedOff lane criterion crossOff
  let event := eventOf .criterionPassed lane criterion crossOff
  let posted := endsRowHistory event events
  let crossed := decide (crossedOff ∈ events)
  stamp criterion issue crossOff
  postUnless posted lane event
  let stamped ← readIssue criterion.id.1
  ofExcept (requireTickable stamped criterion)
  setWorkflowStateDone criterion.id.1
  postUnless crossed lane crossedOff

/-- Whether a take-back's announcement already stands: a row write by the row's history, a lapse
anywhere on the stream. -/
def announced (event : LaneRunEvent) (events : List LaneRunEvent) : Bool :=
  if event.kind ∈ evidenceRowWrites then endsRowHistory event events else event ∈ events

/-- Take back a criterion found finished. The move back is the first write. -/
def takeBack (lane : VisibleStr) (criterion : TrackerCriterion) (crossOff : CriterionCrossOff)
    (event : LaneRunEvent) (events : List LaneRunEvent) : Program Unit := do
  let issue ← readIssue criterion.id.1
  if issue.stateKind ≠ heldCriterionState then pure ()
  else do
    ofExcept (requireTickable issue criterion)
    let _ ← ofExcept (evidenceBody issue criterion crossOff)
    let posted := announced event events
    resetCriterionPending issue
    let moved ← readIssue criterion.id.1
    ofExcept (requireTickable moved criterion)
    stamp criterion moved crossOff
    postUnless posted lane event

/-- What one verdict has written about its criterion. -/
def writeVerdict (lane : VisibleStr) (criterion : TrackerCriterion) (crossOff : CriterionCrossOff)
    (events : List LaneRunEvent) : Program Unit :=
  if crossOff.state = .passed then writeOne lane criterion crossOff events
  else match crossOff.undemonstratedReason with
    | some reason => undemonstrated lane criterion crossOff reason events
    | none =>
      if crossOff.state = .failed then
        takeBack lane criterion crossOff (eventOf .criterionRefuted lane criterion crossOff) events
      else if crossOff.state = .lapsed then
        takeBack lane criterion crossOff (eventOf .criterionLapsed lane criterion crossOff) events
      else pure ()

def writeEach (lane : VisibleStr) (events : List LaneRunEvent) :
    List (TrackerCriterion × CriterionCrossOff) → Program Unit
  | [] => pure ()
  | (criterion, crossOff) :: rest => do
    writeVerdict lane criterion crossOff events
    writeEach lane events rest

def writeCrossOffs (lane : VisibleStr) (dispatched : List TrackerCriterion)
    (crossOffs : List CriterionCrossOff) : Program Unit :=
  if crossOffs.map (·.criterion) ≠ dispatched.map fun criterion => criterionRef criterion.id then
    .raise (.laneRecordWrite lane.1 "the cross-offs do not answer the dispatched criteria")
  else do
    let events ← if crossOffs.any (·.state ∈ announcingStates) then listComments lane.1
      else pure ([] : List LaneRunEvent)
    writeEach lane events (dispatched.zip crossOffs)

end Kodezart.LaneStateWriter
