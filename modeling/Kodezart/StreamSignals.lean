import Mathlib
import Kodezart.RunShape

/-! Signals read off a lane's own event stream, and the table a stored record is
replayed through: whether a record is an alarm is the answer of its own fold. -/
namespace Kodezart.RunShape
open Tracker Gap

/-- Everything a lane says about a criterion it graded. -/
def accountKinds : List RunEventKind := [.issueCrossedOff, .criterionRefuted, .criterionLapsed]

/-- The last thing the lane said about the criterion. -/
def account (projections : List RunEventProjection) : Option RunEventKind :=
  ((projections.map RunEventProjection.kind).filter (· ∈ accountKinds)).getLast?

structure CriterionReadings where
  memberId : Identity
  laneKey : Identity
  state : WorkflowStateKind
  projections : List RunEventProjection

def criterionReadings (subject : AlarmSubject) (stateReading eventsReading : AlarmReading)
    (signal : AlarmSignal) : Except Refusal CriterionReadings :=
  match subject with
  | .criterion _ _ memberId (some laneKey) =>
    if stateReading.sourceRef ≠ memberId then
      .error (unreadableReading signal stateReading.sourceRef "the state reading names another record")
    else if eventsReading.sourceRef ≠ laneKey then
      .error (unreadableReading signal eventsReading.sourceRef "the account reading names another lane")
    else do
      let state ← readAlarmValue stateReading AlarmEvidence.state? signal
      let projections ← readAlarmValue eventsReading AlarmEvidence.runEvents? signal
      if ∃ projection ∈ projections, projection.kind ∉ accountKinds ∨ projection.subjectKey ≠ some memberId then
        .error (unreadableReading signal eventsReading.sourceRef
          "an account reading carries another subject's event")
      else .ok ⟨memberId, laneKey, state, projections⟩
  | _ => .error (unreadableReading signal subject.scopeKey "a criterion signal names no observing lane")

/-- A record of the readings: raised where the fold says so, without a bound. -/
def unbounded (raised : Bool) (subject : AlarmSubject) (signal : AlarmSignal) (readings : List AlarmReading)
    (raisedAtSha raisedBy : Identity) : Option RunAlarm :=
  if raised then some ⟨subject, signal, readings, none, raisedAtSha, raisedBy⟩ else none

def tallyRegressed (subject : AlarmSubject) (readings : List AlarmReading) (raisedAtSha raisedBy : Identity) :
    Except Refusal (Option RunAlarm) :=
  let signal := .tallyRegressed
  match readings with
  | [stateReading, eventsReading] => do
    let read ← criterionReadings subject stateReading eventsReading signal
    let raised := account read.projections = some .issueCrossedOff ∧ read.state = .unstarted
    return unbounded raised subject signal readings raisedAtSha raisedBy
  | _ => .error (unreadableReading signal subject.scopeKey "incomplete criterion readings")

def lapseUndischarged (subject : AlarmSubject) (readings : List AlarmReading) (raisedAtSha raisedBy : Identity) :
    Except Refusal (Option RunAlarm) :=
  let signal := .lapseUndischarged
  match readings with
  | [stateReading, eventsReading, presenceReading] => do
    let read ← criterionReadings subject stateReading eventsReading signal
    if presenceReading.sourceRef ≠ read.laneKey then
      .error (unreadableReading signal presenceReading.sourceRef "the re-derivation reading names another lane")
    else
      let rederived ← readAlarmValue presenceReading AlarmEvidence.presence? signal
      let raised := account read.projections = some .criterionLapsed ∧ openStateKind read.state ∧ rederived = false
      return unbounded raised subject signal readings raisedAtSha raisedBy
  | _ => .error (unreadableReading signal subject.scopeKey "incomplete criterion readings")

structure NodeInvocation where
  runName : String
  nodeKey : Identity
  invocationKey : Identity
  declaredSessions : Nat
  deriving DecidableEq, Repr

structure NodeSessionKey where
  invocation : NodeInvocation
  sessionId : Identity
  deriving DecidableEq, Repr

section Table

/- What the model library reads an opening's key as; the library is not part of the repository. -/
variable (readKey : Identity → Option NodeSessionKey)

def openings (stream : AlarmReading) : List RunEventProjection → Dict NodeInvocation (List Identity) →
    Except Refusal (Dict NodeInvocation (List Identity))
  | [], opened => .ok opened
  | projection :: projections, opened =>
    match projection.kind, projection.subjectKey with
    | .nodeSessionStarted, some subjectKey =>
      match readKey subjectKey with
      | none => .error (unreadableReading .compositionSubstituted stream.sourceRef
          "a session opening names no invocation")
      | some key =>
        let sessions := (opened.get? key.invocation).getD []
        openings stream projections
          (opened.set key.invocation (if key.sessionId ∈ sessions then sessions else sessions ++ [key.sessionId]))
    | _, _ => .error (unreadableReading .compositionSubstituted stream.sourceRef
        "a session reading carries another event")

def compositionSubstituted (subject : AlarmSubject) (readings : List AlarmReading)
    (raisedAtSha raisedBy : Identity) : Except Refusal (Option RunAlarm) :=
  let signal := .compositionSubstituted
  match readings with
  | [stream] =>
    match subject with
    | .lane _ laneKey =>
      if stream.sourceRef ≠ laneKey then
        .error (unreadableReading signal stream.sourceRef "the session reading names another lane")
      else do
        let projections ← readAlarmValue stream AlarmEvidence.runEvents? signal
        let opened ← openings readKey stream projections []
        let raised := ∃ e ∈ opened, e.1.declaredSessions < e.2.length
        return unbounded raised subject signal readings raisedAtSha raisedBy
    | _ => .error (unreadableReading signal subject.scopeKey "a substitution is observed on a lane")
  | _ => .error (unreadableReading signal subject.scopeKey "incomplete session readings")

/-- `ALARM_TABLE[signal].fold`, for the signals and subjects a lane's observation composes. -/
def fold (signal : AlarmSignal) (subject : AlarmSubject) (readings : List AlarmReading)
    (raisedAtSha raisedBy : Identity) : Except Refusal (Option RunAlarm) :=
  match signal, subject with
  | .tallyUnmoved, .lane scopeKey laneKey => laneTallyUnmoved scopeKey laneKey readings raisedAtSha raisedBy
  | .tallyUnmoved, .criterion scopeKey _ _ _ =>
    .error (unreadableReading .tallyUnmoved scopeKey "no tally arm for this subject")
  | .tallyRegressed, _ => tallyRegressed subject readings raisedAtSha raisedBy
  | .lapseUndischarged, _ => lapseUndischarged subject readings raisedAtSha raisedBy
  | .compositionSubstituted, _ => compositionSubstituted readKey subject readings raisedAtSha raisedBy
  | _, _ => .error .elsewhere

def alarmRaised : Option RunAlarm → Except Refusal Bool
  | none => .ok false
  | some record => do
    let replayed ← fold readKey record.signal record.subject record.readings record.raisedAtSha record.raisedBy
    if record.bound ≠ replayed.bind RunAlarm.bound then
      .error (.runShapeReadError record.signal record.raisedAtSha.val
        "the stored record replays to a bound it does not carry")
    else return replayed.isSome

end Table
end Kodezart.RunShape
