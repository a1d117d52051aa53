import Kodezart.CriterionLifecycle

/-! The lane's run-event stream: its vocabulary, what an entry carries, and the part of
it that is the write history of a criterion's Evidence row. -/
namespace Kodezart

inductive RunEventKind where
  | firstPush | prOpened | gateGreen | gateRed | evaluatorAccepted | lanePlateaued
  | issueCrossedOff | criterionRefuted | criterionPassed | criterionLapsed | escalationRaised
  | laneDispatched | claimLost | checksGreen | landedAndVerified | criteriaHalt | auditRefuted
  | runAlarmRaised | runAlarmCleared | nodeSessionStarted | criterionGradingUnverified
  | criterionCheckSurvivedMutation | criterionSatisfiedAtBase | criterionBaseReadingUnsettled
  deriving DecidableEq, Repr

/-- The kinds that record a write of a criterion's Evidence row. -/
def evidenceRowWrites : List RunEventKind := [.criterionPassed, .criterionRefuted]

def undemonstratedEventKinds : UndemonstratedReason → RunEventKind
  | .workspaceNotTheGradedSha => .criterionGradingUnverified
  | .checkSurvivedMutation => .criterionCheckSurvivedMutation
  | .satisfiedAtBase => .criterionSatisfiedAtBase
  | .baseReadingUnsettled => .criterionBaseReadingUnsettled

structure LaneRunEvent where
  kind : RunEventKind
  laneKey : VisibleStr
  subjectKey : Option VisibleStr := none
  gradedSha : Option VisibleStr := none
  deriving DecidableEq, Repr

/-- What the stream holds of the writes of one subject's row, in order. -/
def rowHistory (events : List LaneRunEvent) (subject : Option VisibleStr) : List LaneRunEvent :=
  events.filter fun entry => entry.subjectKey = subject && entry.kind ∈ evidenceRowWrites

def endsRowHistory (event : LaneRunEvent) (events : List LaneRunEvent) : Bool :=
  (rowHistory events event.subjectKey).getLast? = some event

theorem rowHistoryAppend (events more : List LaneRunEvent) (subject : Option VisibleStr) :
    rowHistory (events ++ more) subject = rowHistory events subject ++ rowHistory more subject :=
  List.filter_append events more

/-- Entries about other subjects add nothing to a row's history. -/
theorem rowHistoryOthers {more : List LaneRunEvent} {subject : Option VisibleStr}
    (others : ∀ entry ∈ more, entry.subjectKey ≠ subject) : rowHistory more subject = [] := by
  rw [rowHistory, List.filter_eq_nil_iff]
  intro entry member
  simp [others entry member]

/-- A sha as an entry names it. -/
def Sha.named (sha : Sha) : VisibleStr := ⟨sha.1, shaVisible sha.2⟩

end Kodezart
