import Kodezart.RunAlarmPayload

/-! The evidence kinds of an alarm's readings, whole issue snapshots among them, and the alarm. -/
namespace Kodezart.RunAlarmRecord
open Tracker (IssuePriority WorkflowStateKind IssueRelation IssueRelationKind ScopeRef)
open RunShape (AlarmSignal Identity LaneTally RunEventProjection AlarmBound)
open Gate (QueueState)
open JsonCodec
open JsonText (Fits)

variable {ok : Int → Prop}

section Issues

def issuePriority : Codec IssuePriority := named [.urgent, .high, .medium, .low, .none] fun
  | .urgent => "urgent".toList
  | .high => "high".toList
  | .medium => "medium".toList
  | .low => "low".toList
  | .none => "none".toList

theorem issuePriorityKeeps (priority : IssuePriority) : issuePriority.Keeps ok priority :=
  namedKeeps (by cases priority <;> decide) (by decide)

def queueState : Codec QueueState := named [.triage, .proposed, .approved, .done, .decision] fun
  | .triage => "triage".toList
  | .proposed => "proposed".toList
  | .approved => "approved".toList
  | .done => "done".toList
  | .decision => "decision".toList

theorem queueStateKeeps (state : QueueState) : queueState.Keeps ok state :=
  namedKeeps (by cases state <;> decide) (by decide)

def issueRelationKind : Codec IssueRelationKind := named [.blockedBy, .blocks, .related, .duplicate] fun
  | .blockedBy => "blocked_by".toList
  | .blocks => "blocks".toList
  | .related => "related".toList
  | .duplicate => "duplicate".toList

theorem issueRelationKindKeeps (kind : IssueRelationKind) : issueRelationKind.Keeps ok kind :=
  namedKeeps (by cases kind <;> decide) (by decide)

def issueRelation : Codec IssueRelation := object <|
  ((plain "kind" issueRelationKind).and <| field "issueKey".toList "issue_key".toList nonempty).build
    (fun (kind, issueKey) => some ⟨kind, issueKey⟩) fun relation => (relation.kind, relation.issueKey)

theorem issueRelationKeeps (relation : IssueRelation) : issueRelation.Keeps ok relation :=
  objectKeeps (buildKeeps (andKeeps (fieldKeeps (issueRelationKindKeeps _) _ _) (fieldKeeps (nonemptyKeeps _) _ _)
    (by decide)) rfl)

/-- An issue with every field its full read carries. -/
structure TrackerIssue (Instant : Type) where
  issueKey : NonemptyStr
  title : String
  body : String
  priority : IssuePriority
  stateName : String
  stateKind : WorkflowStateKind
  queueStates : Finset QueueState
  issueLabels : Finset String
  teamKey : Option String
  project : Option String
  projectId : Option String
  milestoneKey : Option String
  relations : List IssueRelation
  parentKey : Option String
  assigneeKey : Option String
  createdAt : Instant
  updatedAt : Instant
  url : String
  deriving DecidableEq

/-- How one process iterates the sets of an issue. -/
structure SetOrders where
  queueStates : Iteration QueueState
  issueLabels : Iteration String

variable {Instant : Type} (moment : Codec Instant) (orders : SetOrders)

def stringField (camel snake : String) : Fields String := field camel.toList snake.toList string

def stringFieldOr (camel snake : String) : Fields (Option String) :=
  fieldOr camel.toList snake.toList string.optional none

def trackerIssueFields : Fields (TrackerIssue Instant) :=
  ((field "issueKey".toList "issue_key".toList nonempty).and <| (plain "title" string).and <|
      (plain "body" string).and <| (plain "priority" issuePriority).and <|
      (stringField "stateName" "state_name").and <|
      (field "stateKind".toList "state_kind".toList workflowStateKind).and <|
      (field "queueStates".toList "queue_states".toList (unordered orders.queueStates queueState)).and <|
      (fieldOr "issueLabels".toList "issue_labels".toList (unordered orders.issueLabels string) ∅).and <|
      (field "teamKey".toList "team_key".toList string.optional).and <|
      (stringFieldOr "project" "project").and <| (stringFieldOr "projectId" "project_id").and <|
      (stringFieldOr "milestoneKey" "milestone_key").and <|
      (fieldOr "relations".toList "relations".toList (list issueRelation) []).and <|
      (stringFieldOr "parentKey" "parent_key").and <| (stringFieldOr "assigneeKey" "assignee_key").and <|
      (field "createdAt".toList "created_at".toList moment).and <|
      (field "updatedAt".toList "updated_at".toList moment).and (plain "url" string)).build
    (fun (issueKey, title, body, priority, stateName, stateKind, queueStates, issueLabels, teamKey, project,
        projectId, milestoneKey, relations, parentKey, assigneeKey, createdAt, updatedAt, url) =>
      some ⟨issueKey, title, body, priority, stateName, stateKind, queueStates, issueLabels, teamKey, project,
        projectId, milestoneKey, relations, parentKey, assigneeKey, createdAt, updatedAt, url⟩)
    fun issue => (issue.issueKey, issue.title, issue.body, issue.priority, issue.stateName, issue.stateKind,
      issue.queueStates, issue.issueLabels, issue.teamKey, issue.project, issue.projectId, issue.milestoneKey,
      issue.relations, issue.parentKey, issue.assigneeKey, issue.createdAt, issue.updatedAt, issue.url)

def trackerIssue : Codec (TrackerIssue Instant) := object (trackerIssueFields moment orders)

variable {moment}

theorem trackerIssueKeeps (dates : ∀ t, moment.Keeps ok t) (issue : TrackerIssue Instant) :
    (trackerIssue moment orders).Keeps ok issue := by
  have text (camel snake : String) (s : String) : (stringField camel snake).Keeps ok s := fieldKeeps (stringKeeps s) _ _
  have textOr (camel snake : String) (s : Option String) : (stringFieldOr camel snake).Keeps ok s :=
    fieldOrKeeps (stringOr s) _ _ _
  have states : (unordered orders.queueStates queueState).Keeps ok issue.queueStates :=
    setKeeps _ fun state _ => queueStateKeeps state
  have labels : (unordered orders.issueLabels string).Keeps ok issue.issueLabels := setKeeps _ fun label _ => stringKeeps label
  have relations : (list issueRelation).Keeps ok issue.relations := listKeeps fun relation _ => issueRelationKeeps relation
  refine objectKeeps (buildKeeps ?_ rfl)
  refine andKeeps (fieldKeeps (nonemptyKeeps _) _ _) ?_ (of_decide_eq_true rfl)
  refine andKeeps (fieldKeeps (stringKeeps _) _ _) ?_ (of_decide_eq_true rfl)
  refine andKeeps (fieldKeeps (stringKeeps _) _ _) ?_ (of_decide_eq_true rfl)
  refine andKeeps (fieldKeeps (issuePriorityKeeps _) _ _) ?_ (of_decide_eq_true rfl)
  refine andKeeps (text _ _ _) ?_ (of_decide_eq_true rfl)
  refine andKeeps (fieldKeeps (workflowStateKindKeeps _) _ _) ?_ (of_decide_eq_true rfl)
  refine andKeeps (fieldKeeps states _ _) ?_ (of_decide_eq_true rfl)
  refine andKeeps (fieldOrKeeps labels _ _ _) ?_ (of_decide_eq_true rfl)
  refine andKeeps (fieldKeeps (stringOr _) _ _) ?_ (of_decide_eq_true rfl)
  refine andKeeps (textOr _ _ _) (andKeeps (textOr _ _ _) (andKeeps (textOr _ _ _) ?_ (of_decide_eq_true rfl)) (of_decide_eq_true rfl)) (of_decide_eq_true rfl)
  refine andKeeps (fieldOrKeeps relations _ _ _) ?_ (of_decide_eq_true rfl)
  refine andKeeps (textOr _ _ _) (andKeeps (textOr _ _ _) ?_ (of_decide_eq_true rfl)) (of_decide_eq_true rfl)
  refine andKeeps (fieldKeeps (dates _) _ _) (andKeeps (fieldKeeps (dates _) _ _) ?_ (of_decide_eq_true rfl)) (of_decide_eq_true rfl)
  exact fieldKeeps (stringKeeps _) _ _

structure LaneGraphSnapshot (Instant : Type) where
  laneKey : VisibleStr
  fireKey : VisibleStr
  milestone : ScopeRef
  subtree : List (TrackerIssue Instant)
  milestoneMembers : List (TrackerIssue Instant)
  supersessions : List IssueSupersession
  deriving DecidableEq

variable (moment) in
def laneGraphSnapshot : Codec (LaneGraphSnapshot Instant) := object <|
  ((field "laneKey".toList "lane_key".toList identity).and <|
      (field "fireKey".toList "fire_key".toList identity).and <| (plain "milestone" scopeRef).and <|
      (plain "subtree" (list (trackerIssue moment orders))).and <|
      (field "milestoneMembers".toList "milestone_members".toList (list (trackerIssue moment orders))).and
        (plain "supersessions" (list issueSupersession))).build
    (fun (laneKey, fireKey, milestone, subtree, milestoneMembers, supersessions) =>
      some ⟨laneKey, fireKey, milestone, subtree, milestoneMembers, supersessions⟩)
    fun snapshot => (snapshot.laneKey, snapshot.fireKey, snapshot.milestone, snapshot.subtree,
      snapshot.milestoneMembers, snapshot.supersessions)

theorem laneGraphSnapshotKeeps (dates : ∀ t, moment.Keeps ok t) (snapshot : LaneGraphSnapshot Instant) :
    (laneGraphSnapshot moment orders).Keeps ok snapshot := by
  have issues (members : List (TrackerIssue Instant)) : (list (trackerIssue moment orders)).Keeps ok members :=
    listKeeps fun issue _ => trackerIssueKeeps orders dates issue
  refine objectKeeps (buildKeeps ?_ rfl)
  refine andKeeps (fieldKeeps (identityKeeps _) _ _) ?_ (of_decide_eq_true rfl)
  refine andKeeps (fieldKeeps (identityKeeps _) _ _) ?_ (of_decide_eq_true rfl)
  refine andKeeps (fieldKeeps (scopeRefKeeps _) _ _) ?_ (of_decide_eq_true rfl)
  refine andKeeps (fieldKeeps (issues _) _ _) ?_ (of_decide_eq_true rfl)
  refine andKeeps (fieldKeeps (issues _) _ _) ?_ (of_decide_eq_true rfl)
  exact fieldKeeps (listKeeps fun entry _ => issueSupersessionKeeps entry) _ _

end Issues

section Readings

inductive AlarmEvidence (Instant : Type) where
  | text (value : String)
  | count (value : Nat)
  | presence (value : Bool)
  | references (value : List Identity)
  | labels (value : Option (List Identity))
  | surface (value : WritableSurface)
  | escalation (value : LaneEscalation)
  | resolution (value : EscalationResolution)
  | commits (value : List LaneCommit)
  | laneField (value : LaneFieldValue)
  | tally (value : LaneTally)
  | scope (value : ScopeRef)
  | state (value : WorkflowStateKind)
  | runEvents (value : List RunEventProjection)
  | rulings (value : LaneRulingSnapshot)
  | graph (value : LaneGraphSnapshot Instant)
  deriving DecidableEq

variable {Instant : Type}

/-- One kind of evidence: its value, and the kind it declares. -/
def evidence {σ : Type} (kind : String) (codec : Codec σ) (make : σ → AlarmEvidence Instant) :
    Variant (AlarmEvidence Instant) where
  kind := kind
  payload := σ × Unit
  fields := (plain "value" codec).and (plain "kind" (literal kind))
  make parts := make parts.1

variable (moment : Codec Instant) (orders : SetOrders)

def textEvidence : Variant (AlarmEvidence Instant) := evidence "text" string .text
def countEvidence : Variant (AlarmEvidence Instant) := evidence "count" count .count
def presenceEvidence : Variant (AlarmEvidence Instant) := evidence "presence" flag .presence
def referencesEvidence : Variant (AlarmEvidence Instant) := evidence "references" (list identity) .references
def labelsEvidence : Variant (AlarmEvidence Instant) := evidence "labels" (list identity).optional .labels
def surfaceEvidence : Variant (AlarmEvidence Instant) := evidence "surface" writableSurface .surface
def escalationEvidence : Variant (AlarmEvidence Instant) := evidence "escalation" laneEscalation .escalation
def resolutionEvidence : Variant (AlarmEvidence Instant) := evidence "resolution" escalationResolution .resolution
def commitsEvidence : Variant (AlarmEvidence Instant) := evidence "commits" (list laneCommit) .commits
def laneFieldEvidence : Variant (AlarmEvidence Instant) := evidence "lane_field" laneFieldValue .laneField
def tallyEvidence : Variant (AlarmEvidence Instant) := evidence "tally" laneTally .tally
def scopeEvidence : Variant (AlarmEvidence Instant) := evidence "scope" scopeRef .scope
def stateEvidence : Variant (AlarmEvidence Instant) := evidence "state" workflowStateKind .state
def runEventsEvidence : Variant (AlarmEvidence Instant) := evidence "run_events" (list runEventProjection) .runEvents
def rulingsEvidence : Variant (AlarmEvidence Instant) := evidence "rulings" laneRulingSnapshot .rulings
def graphEvidence : Variant (AlarmEvidence Instant) := evidence "graph" (laneGraphSnapshot moment orders) .graph

def evidenceKinds : List (Variant (AlarmEvidence Instant)) :=
  [textEvidence, countEvidence, presenceEvidence, referencesEvidence, labelsEvidence, surfaceEvidence,
    escalationEvidence, resolutionEvidence, commitsEvidence, laneFieldEvidence, tallyEvidence, scopeEvidence,
    stateEvidence, runEventsEvidence, rulingsEvidence, graphEvidence moment orders]

def alarmEvidence : Codec (AlarmEvidence Instant) := union "kind".toList (evidenceKinds moment orders) fun
  | .text value => ⟨textEvidence, value, ()⟩
  | .count value => ⟨countEvidence, value, ()⟩
  | .presence value => ⟨presenceEvidence, value, ()⟩
  | .references value => ⟨referencesEvidence, value, ()⟩
  | .labels value => ⟨labelsEvidence, value, ()⟩
  | .surface value => ⟨surfaceEvidence, value, ()⟩
  | .escalation value => ⟨escalationEvidence, value, ()⟩
  | .resolution value => ⟨resolutionEvidence, value, ()⟩
  | .commits value => ⟨commitsEvidence, value, ()⟩
  | .laneField value => ⟨laneFieldEvidence, value, ()⟩
  | .tally value => ⟨tallyEvidence, value, ()⟩
  | .scope value => ⟨scopeEvidence, value, ()⟩
  | .state value => ⟨stateEvidence, value, ()⟩
  | .runEvents value => ⟨runEventsEvidence, value, ()⟩
  | .rulings value => ⟨rulingsEvidence, value, ()⟩
  | .graph value => ⟨graphEvidence moment orders, value, ()⟩

structure AlarmReading (Instant : Type) where
  sourceRef : Identity
  value : AlarmEvidence Instant
  atSha : Option Identity
  deriving DecidableEq

def alarmReadingFields : Fields (AlarmReading Instant) :=
  ((field "sourceRef".toList "source_ref".toList identity).and <| (plain "value" (alarmEvidence moment orders)).and <|
      fieldOr "atSha".toList "at_sha".toList identity.optional none).build
    (fun (sourceRef, value, atSha) => some ⟨sourceRef, value, atSha⟩)
    fun reading => (reading.sourceRef, reading.value, reading.atSha)

def alarmReading : Codec (AlarmReading Instant) := object (alarmReadingFields moment orders)

def alarmBoundFields : Fields AlarmBound :=
  ((field "configField".toList "config_field".toList identity).and <|
      (field "configuredValue".toList "configured_value".toList count).and <|
      field "observedValue".toList "observed_value".toList count).build
    (fun (configField, configuredValue, observedValue) => some ⟨configField, configuredValue, observedValue⟩)
    fun bound => (bound.configField, bound.configuredValue, bound.observedValue)

def alarmBound : Codec AlarmBound := object alarmBoundFields

def alarmSignals : List AlarmSignal :=
  [.tallyUnmoved, .tallyRegressed, .lapseUndischarged, .escalationAgeing, .writeBackMissing, .surfaceContended,
    .recordSuperseded, .compositionSubstituted, .barrenTickWithDiffGrowth, .commitsAheadOfRecord,
    .rulingsOutpaceClosures, .structuralWriteUncrossesMilestone]

def alarmSignal : Codec AlarmSignal := named alarmSignals fun signal => signal.value.val.toList

structure RunAlarm (Instant : Type) where
  subject : AlarmSubject
  signal : AlarmSignal
  readings : {readings : List (AlarmReading Instant) // readings ≠ []}
  bound : Option AlarmBound
  raisedAtSha : VisibleStr
  raisedBy : VisibleStr
  deriving DecidableEq

def runAlarmFields : Fields (RunAlarm Instant) :=
  ((plain "subject" alarmSubject).and <| (plain "signal" alarmSignal).and <|
      (plain "readings" (checked (fun readings => readings ≠ []) (list (alarmReading moment orders)))).and <|
      (plain "bound" alarmBound.optional).and <|
      (field "raisedAtSha".toList "raised_at_sha".toList identity).and <|
      field "raisedBy".toList "raised_by".toList identity).build
    (fun (subject, signal, readings, bound, raisedAtSha, raisedBy) =>
      some ⟨subject, signal, readings, bound, raisedAtSha, raisedBy⟩)
    fun alarm => (alarm.subject, alarm.signal, alarm.readings, alarm.bound, alarm.raisedAtSha, alarm.raisedBy)

def runAlarm : Codec (RunAlarm Instant) := object (runAlarmFields moment orders)

/-- Evidence whose count fits. -/
def AlarmEvidence.Counts (ok : Int → Prop) : AlarmEvidence Instant → Prop
  | .count value => ok value
  | _ => True

structure RunAlarm.Counts (ok : Int → Prop) (alarm : RunAlarm Instant) : Prop where
  readings : ∀ reading ∈ alarm.readings.val, reading.value.Counts ok
  bound : ∀ bound, alarm.bound = some bound → ok bound.configuredValue ∧ ok bound.observedValue

variable {moment}

theorem evidenceKeeps {σ : Type} {codec : Codec σ} {value : σ} (keeps : codec.Keeps ok value) (kind : String)
    (make : σ → AlarmEvidence Instant) : (evidence kind codec make).fields.Keeps ok (value, ()) :=
  andKeeps (fieldKeeps keeps _ _) (fieldKeeps (literalKeeps kind) _ _) (of_decide_eq_true rfl)

theorem evidenceTag {σ : Type} (kind : String) (codec : Codec σ) (make : σ → AlarmEvidence Instant) (parts : σ × Unit)
    (spelling : Spelling) : ("kind".toList, Json.string kind.toList) ∈ (evidence kind codec make).fields.write spelling parts := by
  cases spelling <;> simp [evidence, Fields.and, field, plain, literal, Spelling.pick]

theorem evidenceOnce : ((evidenceKinds moment orders).map Variant.kind).Nodup := of_decide_eq_true rfl

theorem alarmEvidenceKeeps (dates : ∀ t, moment.Keeps ok t) {value : AlarmEvidence Instant} (counted : value.Counts ok) :
    (alarmEvidence moment orders).Keeps ok value := by
  cases value with
  | text value =>
    exact unionKeeps (evidenceOnce orders) (by simp [evidenceKinds]) rfl (evidenceKeeps (stringKeeps _) "text" _)
      (evidenceTag "text" _ _ _)
  | count value =>
    exact unionKeeps (evidenceOnce orders) (by simp [evidenceKinds]) rfl (evidenceKeeps (countKeeps counted) "count" _)
      (evidenceTag "count" _ _ _)
  | presence value =>
    exact unionKeeps (evidenceOnce orders) (by simp [evidenceKinds]) rfl (evidenceKeeps (flagKeeps _) "presence" _)
      (evidenceTag "presence" _ _ _)
  | references value =>
    exact unionKeeps (evidenceOnce orders) (by simp [evidenceKinds]) rfl
      (evidenceKeeps (identitiesKeep _) "references" _) (evidenceTag "references" _ _ _)
  | labels value =>
    have solid : (list identity).Solid := fun spelling a => by simp [list]
    exact unionKeeps (evidenceOnce orders) (by simp [evidenceKinds]) rfl
      (evidenceKeeps (optionalKeeps solid fun a _ => identitiesKeep a) "labels" _) (evidenceTag "labels" _ _ _)
  | surface value =>
    exact unionKeeps (evidenceOnce orders) (by simp [evidenceKinds]) rfl
      (evidenceKeeps (writableSurfaceKeeps _) "surface" _) (evidenceTag "surface" _ _ _)
  | escalation value =>
    exact unionKeeps (evidenceOnce orders) (by simp [evidenceKinds]) rfl
      (evidenceKeeps (laneEscalationKeeps _) "escalation" _) (evidenceTag "escalation" _ _ _)
  | resolution value =>
    exact unionKeeps (evidenceOnce orders) (by simp [evidenceKinds]) rfl
      (evidenceKeeps (escalationResolutionKeeps _) "resolution" _) (evidenceTag "resolution" _ _ _)
  | commits value =>
    exact unionKeeps (evidenceOnce orders) (by simp [evidenceKinds]) rfl
      (evidenceKeeps (listKeeps fun commit _ => laneCommitKeeps commit) "commits" _) (evidenceTag "commits" _ _ _)
  | laneField value =>
    exact unionKeeps (evidenceOnce orders) (by simp [evidenceKinds]) rfl
      (evidenceKeeps (laneFieldValueKeeps _) "lane_field" _) (evidenceTag "lane_field" _ _ _)
  | tally value =>
    exact unionKeeps (evidenceOnce orders) (by simp [evidenceKinds]) rfl (evidenceKeeps (laneTallyKeeps _) "tally" _)
      (evidenceTag "tally" _ _ _)
  | scope value =>
    exact unionKeeps (evidenceOnce orders) (by simp [evidenceKinds]) rfl (evidenceKeeps (scopeRefKeeps _) "scope" _)
      (evidenceTag "scope" _ _ _)
  | state value =>
    exact unionKeeps (evidenceOnce orders) (by simp [evidenceKinds]) rfl
      (evidenceKeeps (workflowStateKindKeeps _) "state" _) (evidenceTag "state" _ _ _)
  | runEvents value =>
    exact unionKeeps (evidenceOnce orders) (by simp [evidenceKinds]) rfl
      (evidenceKeeps (listKeeps fun event _ => runEventProjectionKeeps event) "run_events" _)
      (evidenceTag "run_events" _ _ _)
  | rulings value =>
    exact unionKeeps (evidenceOnce orders) (by simp [evidenceKinds]) rfl
      (evidenceKeeps (laneRulingSnapshotKeeps _) "rulings" _) (evidenceTag "rulings" _ _ _)
  | graph value =>
    exact unionKeeps (evidenceOnce orders) (by simp [evidenceKinds]) rfl
      (evidenceKeeps (laneGraphSnapshotKeeps orders dates _) "graph" _) (evidenceTag "graph" _ _ _)

theorem alarmReadingKeeps (dates : ∀ t, moment.Keeps ok t) {reading : AlarmReading Instant}
    (counted : reading.value.Counts ok) : (alarmReading moment orders).Keeps ok reading := by
  refine objectKeeps (buildKeeps ?_ rfl)
  refine andKeeps (fieldKeeps (identityKeeps _) _ _) ?_ (of_decide_eq_true rfl)
  exact andKeeps (fieldKeeps (alarmEvidenceKeeps orders dates counted) _ _) (fieldOrKeeps (identityOr _) _ _ _)
    (of_decide_eq_true rfl)

theorem alarmBoundKeeps {bound : AlarmBound} (configured : ok bound.configuredValue)
    (observed : ok bound.observedValue) : alarmBound.Keeps ok bound :=
  objectKeeps (buildKeeps (andKeeps (fieldKeeps (identityKeeps _) _ _) (andKeeps (fieldKeeps (countKeeps configured) _ _)
    (fieldKeeps (countKeeps observed) _ _) (by decide)) (by decide)) rfl)

theorem alarmSignalKeeps (signal : AlarmSignal) : alarmSignal.Keeps ok signal :=
  namedKeeps (by cases signal <;> decide) (by decide)

/-- An alarm with readable counts reads back as itself. -/
theorem runAlarmKeeps (dates : ∀ t, moment.Keeps ok t) {alarm : RunAlarm Instant} (counted : alarm.Counts ok) :
    (runAlarm moment orders).Keeps ok alarm := by
  have readings : (list (alarmReading moment orders)).Keeps ok alarm.readings.val :=
    listKeeps fun reading member => alarmReadingKeeps orders dates (counted.readings reading member)
  have bound : alarmBound.optional.Keeps ok alarm.bound := optionalKeeps (objectSolid _) fun bound found =>
    alarmBoundKeeps (counted.bound bound found).1 (counted.bound bound found).2
  refine objectKeeps (buildKeeps ?_ rfl)
  refine andKeeps (fieldKeeps (alarmSubjectKeeps _) _ _) ?_ (of_decide_eq_true rfl)
  refine andKeeps (fieldKeeps (alarmSignalKeeps _) _ _) ?_ (of_decide_eq_true rfl)
  refine andKeeps (fieldKeeps (checkedKeeps readings) _ _) ?_ (of_decide_eq_true rfl)
  refine andKeeps (fieldKeeps bound _ _) ?_ (of_decide_eq_true rfl)
  exact andKeeps (fieldKeeps (identityKeeps _) _ _) (fieldKeeps (identityKeeps _) _ _) (of_decide_eq_true rfl)

/-- No count is lost in what is written. -/
theorem runAlarmCounts {alarm : RunAlarm Instant} {spelling : Spelling}
    (fits : Fits ok ((runAlarm moment orders).encode spelling alarm)) : alarm.Counts ok := by
  have readings : ("readings".toList, (list (alarmReading moment orders)).encode spelling alarm.readings.val) ∈
      (runAlarmFields moment orders).write spelling alarm := by
    cases spelling <;> simp [runAlarmFields, Fields.build, Fields.and, field, plain, checked, Spelling.pick]
  have bound : ("bound".toList, alarmBound.optional.encode spelling alarm.bound) ∈
      (runAlarmFields moment orders).write spelling alarm := by
    cases spelling <;> simp [runAlarmFields, Fields.build, Fields.and, field, plain, Spelling.pick]
  constructor
  · intro reading member
    have value : ("value".toList, (alarmEvidence moment orders).encode spelling reading.value) ∈
        (alarmReadingFields moment orders).write spelling reading := by
      cases spelling <;> simp [alarmReadingFields, Fields.build, Fields.and, field, plain, Spelling.pick]
    have evidence := fitsField (fitsItem (fitsField fits readings) member) value
    cases kind : reading.value with
    | count n =>
      rw [kind] at evidence
      have number : ("value".toList, count.encode spelling n) ∈
          (@countEvidence Instant).fields.write spelling (n, ()) := by
        cases spelling <;> simp [countEvidence, RunAlarmRecord.evidence, Fields.and, field, plain, Spelling.pick]
      cases fitsField evidence number with
      | int _ fits => exact fits
    | _ => trivial
  · intro own found
    have written := fitsField fits bound
    rw [found] at written
    have configured : (spelling.pick "configuredValue".toList "configured_value".toList,
        count.encode spelling own.configuredValue) ∈ alarmBoundFields.write spelling own := by
      simp [alarmBoundFields, Fields.build, Fields.and, field]
    have observed : (spelling.pick "observedValue".toList "observed_value".toList,
        count.encode spelling own.observedValue) ∈ alarmBoundFields.write spelling own := by
      simp [alarmBoundFields, Fields.build, Fields.and, field]
    cases fitsField written configured with
    | int _ fits =>
      cases fitsField written observed with
      | int _ fits' => exact ⟨fits, fits'⟩

end Readings

end Kodezart.RunAlarmRecord
