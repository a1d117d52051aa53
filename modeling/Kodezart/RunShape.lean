import Mathlib
import Kodezart.Machine
import Kodezart.Gap
import Kodezart.RunEvents

/-! Immutable typed observations of a run's recorded shape, and the lane arm of the
tally signal: a lane's tally read twice. -/
namespace Kodezart.RunShape
open Tracker

inductive AlarmSignal where
  | tallyUnmoved | tallyRegressed | lapseUndischarged | escalationAgeing | writeBackMissing
  | surfaceContended | recordSuperseded | compositionSubstituted | barrenTickWithDiffGrowth
  | commitsAheadOfRecord | rulingsOutpaceClosures | structuralWriteUncrossesMilestone
  deriving DecidableEq, Repr

abbrev Identity := VisibleStr

/-- The subjects a lane's observation addresses; every other one by its kind and spelling. -/
inductive AlarmSubject where
  | lane (scopeKey laneKey : Identity)
  | criterion (scopeKey issueId memberId : Identity) (laneKey : Option Identity)
  | other (scopeKey : Identity) (spelling : String)
  deriving DecidableEq, Repr

def AlarmSubject.scopeKey : AlarmSubject → Identity
  | .lane scopeKey _ => scopeKey
  | .criterion scopeKey _ _ _ => scopeKey
  | .other scopeKey _ => scopeKey

/-- One reading of a lane: what its subtree owes, and what it has recorded. -/
structure LaneTally where
  openKeys : List Identity
  commits : List Identity
  deriving DecidableEq, Repr

structure RunEventProjection where
  kind : RunEventKind
  subjectKey : Option Identity
  deriving DecidableEq, Repr

/-- The evidence kinds the lane folds read; any other by the kind it declares. -/
inductive AlarmEvidence where
  | tally (value : LaneTally)
  | references (value : List Identity)
  | count (value : Nat)
  | presence (value : Bool)
  | state (value : WorkflowStateKind)
  | runEvents (value : List RunEventProjection)
  | other (kind : String)
  deriving DecidableEq, Repr

namespace AlarmEvidence

def tally? : AlarmEvidence → Option LaneTally
  | .tally value => some value
  | _ => none

def references? : AlarmEvidence → Option (List Identity)
  | .references value => some value
  | _ => none

def count? : AlarmEvidence → Option Nat
  | .count value => some value
  | _ => none

def presence? : AlarmEvidence → Option Bool
  | .presence value => some value
  | _ => none

def state? : AlarmEvidence → Option WorkflowStateKind
  | .state value => some value
  | _ => none

def runEvents? : AlarmEvidence → Option (List RunEventProjection)
  | .runEvents value => some value
  | _ => none

end AlarmEvidence

structure AlarmReading where
  sourceRef : Identity
  value : AlarmEvidence
  atSha : Option Identity
  deriving DecidableEq, Repr

structure AlarmBound where
  configField : Identity
  configuredValue : Nat
  observedValue : Nat
  deriving DecidableEq, Repr

structure RunAlarm where
  subject : AlarmSubject
  signal : AlarmSignal
  readings : List AlarmReading
  bound : Option AlarmBound
  raisedAtSha : Identity
  raisedBy : Identity
  deriving DecidableEq, Repr

inductive Refusal where
  | runShapeReadError (signal : AlarmSignal) (sourceRef : String) (reason : String)
  | valueError (message : String)
  | validationError (value : String)
  /-- An arm of the table that no lane's observation asks. -/
  | elsewhere
  deriving DecidableEq, Repr

def unreadableReading (signal : AlarmSignal) (sourceRef : Identity) (reason : String) : Refusal :=
  .runShapeReadError signal sourceRef.val reason

/-- A value of the identity type, or the model's refusal of it. -/
def identity (value : String) : Except Refusal Identity :=
  if solid : visible value then .ok ⟨value, solid⟩ else .error (.validationError value)

def readAlarmValue {α : Type} (reading : AlarmReading) (expected : AlarmEvidence → Option α)
    (signal : AlarmSignal) : Except Refusal α :=
  match expected reading.value with
  | some value => .ok value
  | none => .error (unreadableReading signal reading.sourceRef "another evidence kind was recorded")

def commitsWithoutClosureBound : Identity := ⟨"run_alarm_max_commits_without_closure", by decide⟩

/-- `len(set(latest) - set(anchor))` -/
def distinctNew (latest anchor : List String) : Nat := (latest.toFinset \ anchor.toFinset).card

def texts (identities : List Identity) : List String := identities.map Subtype.val

def laneTallyUnmoved (scopeKey laneKey : Identity) (readings : List AlarmReading)
    (raisedAtSha raisedBy : Identity) : Except Refusal (Option RunAlarm) :=
  let signal := .tallyUnmoved
  match readings with
  | [anchorReading, latestReading, closedReading, boundReading] =>
    match [anchorReading, latestReading, closedReading].find? fun reading => reading.sourceRef ≠ laneKey with
    | some reading => .error (unreadableReading signal reading.sourceRef "a tally reading names another lane")
    | none =>
      if boundReading.sourceRef ≠ commitsWithoutClosureBound then
        .error (unreadableReading signal boundReading.sourceRef "the bound names another configured field")
      else do
        let anchor ← readAlarmValue anchorReading AlarmEvidence.tally? signal
        let latest ← readAlarmValue latestReading AlarmEvidence.tally? signal
        let closed ← readAlarmValue closedReading AlarmEvidence.references? signal
        let configured ← readAlarmValue boundReading AlarmEvidence.count? signal
        match [(anchorReading, anchor.openKeys), (latestReading, latest.openKeys), (closedReading, closed)].find?
            fun pair => ¬ pair.2.Nodup with
        | some pair => .error (unreadableReading signal pair.1.sourceRef "an identity appears more than once")
        | none =>
          if ∃ key ∈ closed, key ∉ anchor.openKeys then
            .error (unreadableReading signal closedReading.sourceRef "a closed identity was never owed")
          else if ∃ key ∈ closed, key ∈ latest.openKeys then
            .error (unreadableReading signal closedReading.sourceRef "a closed identity is still owed")
          else if latest.openKeys = [] ∨ closed ≠ [] then .ok none
          else
            let observed := distinctNew (texts latest.commits) (texts anchor.commits)
            if configured < observed then
              .ok (some ⟨.lane scopeKey laneKey, signal, readings,
                some ⟨commitsWithoutClosureBound, configured, observed⟩, raisedAtSha, raisedBy⟩)
            else .ok none
  | _ => .error (unreadableReading signal laneKey "incomplete lane tally readings")

end Kodezart.RunShape
