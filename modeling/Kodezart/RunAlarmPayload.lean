import Kodezart.JsonCodec
import Kodezart.JsonCompact
import Kodezart.LaneAlarms
import Kodezart.PassGate

/-! A run alarm as it is stored: every subject and every evidence kind with its own data, and
the JSON each is written in. A datetime is a value of its own, with a codec of its own. -/
namespace Kodezart.RunAlarmRecord
open Tracker (IssuePriority WorkflowStateKind IssueRelation IssueRelationKind ScopeKind ScopeRef)
open RunShape (AlarmSignal Identity LaneTally RunEventProjection AlarmBound)
open Gate (QueueState)
open JsonCodec TextLines

variable {ok : Int → Prop}

def nonempty : Codec NonemptyStr := checked (fun s => s ≠ "") string

def identity : Codec Identity := checked (fun s => visible s) string

theorem nonemptyKeeps (s : NonemptyStr) : nonempty.Keeps ok s := checkedKeeps (stringKeeps s.val)

theorem identityKeeps (s : Identity) : identity.Keeps ok s := checkedKeeps (stringKeeps s.val)

theorem identityOr (value : Option Identity) : identity.optional.Keeps ok value :=
  optionalKeeps (checkedSolid stringSolid) fun a _ => identityKeeps a

theorem stringOr (value : Option String) : string.optional.Keeps ok value :=
  optionalKeeps stringSolid fun a _ => stringKeeps a

/-- A field whose alias is its own name. -/
def plain {σ : Type} (name : String) (codec : Codec σ) : Fields σ := field name.toList name.toList codec

section Addresses

def scopeKind : Codec ScopeKind := named [.initiative, .project, .milestone, .issue] fun
  | .initiative => "initiative".toList
  | .project => "project".toList
  | .milestone => "milestone".toList
  | .issue => "issue".toList

theorem scopeKindKeeps (kind : ScopeKind) : scopeKind.Keeps ok kind :=
  namedKeeps (by cases kind <;> decide) (by decide)

def scopeRef : Codec ScopeRef := object <|
  ((plain "kind" scopeKind).and (plain "key" nonempty)).build
    (fun (kind, key) => some ⟨kind, key⟩) fun ref => (ref.kind, ref.key)

theorem scopeRefKeeps (ref : ScopeRef) : scopeRef.Keeps ok ref :=
  objectKeeps (buildKeeps (andKeeps (fieldKeeps (scopeKindKeeps _) _ _) (fieldKeeps (nonemptyKeeps _) _ _) (by decide)) rfl)

inductive SurfaceKind where
  | issueDescription | markerComment | containerDescription | containerStatusUpdate | issueLabelSet
  | criterionSubIssue | criterionChildSet | issueGraph | issueSplitSet
  deriving DecidableEq, Repr

def surfaceKind : Codec SurfaceKind := named
  [.issueDescription, .markerComment, .containerDescription, .containerStatusUpdate, .issueLabelSet,
    .criterionSubIssue, .criterionChildSet, .issueGraph, .issueSplitSet] fun
  | .issueDescription => "issue_description".toList
  | .markerComment => "marker_comment".toList
  | .containerDescription => "container_description".toList
  | .containerStatusUpdate => "container_status_update".toList
  | .issueLabelSet => "issue_label_set".toList
  | .criterionSubIssue => "criterion_sub_issue".toList
  | .criterionChildSet => "criterion_child_set".toList
  | .issueGraph => "issue_graph".toList
  | .issueSplitSet => "issue_split_set".toList

theorem surfaceKindKeeps (kind : SurfaceKind) : surfaceKind.Keeps ok kind :=
  namedKeeps (by cases kind <;> decide) (by decide)

def containerKinds : List SurfaceKind := [.containerDescription, .containerStatusUpdate]

def blank (s : String) : Bool := strip s.toList = []

/-- Which parts an address may be made of. -/
def addressable (kind : SurfaceKind) (ref : ScopeRef) (marker : Option String) : Bool :=
  !blank ref.key.val &&
    (if kind ∈ containerKinds then ref.kind ≠ .issue else ref.kind = .issue) &&
    (if kind = .markerComment then marker.any fun marker => !blank marker else marker = none)

structure WritableSurface where
  kind : SurfaceKind
  ref : ScopeRef
  marker : Option String
  admitted : addressable kind ref marker
  deriving DecidableEq

def WritableSurface.of (parts : SurfaceKind × ScopeRef × Option String) : Option WritableSurface :=
  if admitted : addressable parts.1 parts.2.1 parts.2.2 then some ⟨parts.1, parts.2.1, parts.2.2, admitted⟩ else none

def writableSurface : Codec WritableSurface := object <|
  ((plain "kind" surfaceKind).and <| (plain "ref" scopeRef).and <|
      fieldOr "marker".toList "marker".toList string.optional none).build
    WritableSurface.of fun surface => (surface.kind, surface.ref, surface.marker)

theorem writableSurfaceKeeps (surface : WritableSurface) : writableSurface.Keeps ok surface := by
  have made : WritableSurface.of (surface.kind, surface.ref, surface.marker) = some surface := by
    simp [WritableSurface.of, surface.admitted]
  exact objectKeeps (buildKeeps (andKeeps (fieldKeeps (surfaceKindKeeps _) _ _)
    (andKeeps (fieldKeeps (scopeRefKeeps _) _ _) (fieldOrKeeps (stringOr _) _ _ _) (by decide)) (by decide)) made)

end Addresses

section Subjects

inductive AlarmSubject where
  | scope (scopeKey : Identity)
  | lane (scopeKey laneKey : Identity)
  | issue (scopeKey issueId : Identity) (laneKey : Option Identity)
  | criterion (scopeKey issueId memberId : Identity) (laneKey : Option Identity)
  | surface (scopeKey : Identity) (surface : WritableSurface) (laneKey issueId : Option Identity)
  | escalation (scopeKey memberId : Identity) (laneKey issueId : Option Identity)
  deriving DecidableEq

def laneKey : Fields Identity := field "laneKey".toList "lane_key".toList identity

def laneKeyOr : Fields (Option Identity) := fieldOr "laneKey".toList "lane_key".toList identity.optional none

def issueId : Fields Identity := field "issueId".toList "issue_id".toList identity

def issueIdOr : Fields (Option Identity) := fieldOr "issueId".toList "issue_id".toList identity.optional none

def memberId : Fields Identity := field "memberId".toList "member_id".toList identity

/-- A subject's fields: its scope, its kind, and its own. -/
def subject {σ : Type} (kind : String) (own : Fields σ) (make : Identity → σ → AlarmSubject) : Variant AlarmSubject where
  kind := kind
  payload := Identity × Unit × σ
  fields := (field "scopeKey".toList "scope_key".toList identity).and <| (plain "kind" (literal kind)).and own
  make parts := make parts.1 parts.2.2

def scopeSubject := subject "scope" noFields fun scopeKey _ => .scope scopeKey

def laneSubject := subject "lane" laneKey .lane

def issueSubject := subject "issue" (issueId.and laneKeyOr) fun scopeKey own => .issue scopeKey own.1 own.2

def criterionSubject := subject "criterion" (issueId.and <| memberId.and laneKeyOr) fun scopeKey own =>
  .criterion scopeKey own.1 own.2.1 own.2.2

def surfaceSubject := subject "surface" ((plain "surface" writableSurface).and <| laneKeyOr.and issueIdOr)
  fun scopeKey own => .surface scopeKey own.1 own.2.1 own.2.2

def escalationSubject := subject "escalation" (memberId.and <| laneKeyOr.and issueIdOr) fun scopeKey own =>
  .escalation scopeKey own.1 own.2.1 own.2.2

def subjects : List (Variant AlarmSubject) :=
  [scopeSubject, laneSubject, issueSubject, criterionSubject, surfaceSubject, escalationSubject]

def alarmSubject : Codec AlarmSubject := union "kind".toList subjects fun
  | .scope scopeKey => ⟨scopeSubject, scopeKey, (), ()⟩
  | .lane scopeKey laneKey => ⟨laneSubject, scopeKey, (), laneKey⟩
  | .issue scopeKey issueId laneKey => ⟨issueSubject, scopeKey, (), issueId, laneKey⟩
  | .criterion scopeKey issueId memberId laneKey => ⟨criterionSubject, scopeKey, (), issueId, memberId, laneKey⟩
  | .surface scopeKey surface laneKey issueId => ⟨surfaceSubject, scopeKey, (), surface, laneKey, issueId⟩
  | .escalation scopeKey memberId laneKey issueId => ⟨escalationSubject, scopeKey, (), memberId, laneKey, issueId⟩

theorem subjectKeeps {σ : Type} {own : Fields σ} {a : σ} (keeps : own.Keeps ok a) (kind : String) (scopeKey : Identity)
    (make : Identity → σ → AlarmSubject)
    (apart : ∀ name ∈ own.names, name ∉ ["kind".toList, "scopeKey".toList, "scope_key".toList]) :
    (subject kind own make).fields.Keeps ok (scopeKey, (), a) := by
  refine andKeeps (fieldKeeps (identityKeeps _) _ _) (andKeeps (fieldKeeps (literalKeeps kind) _ _) keeps ?_) ?_
  · intro name member
    have other := apart name member
    simp only [List.mem_cons, List.not_mem_nil, or_false, not_or] at other
    simpa [plain, field] using other.1
  · intro name member
    rcases List.mem_append.mp member with tag | inside
    · have same : name = "kind".toList := by simpa [plain, field] using tag
      rw [same]
      decide
    · have other := apart name inside
      simp only [List.mem_cons, List.not_mem_nil, or_false, not_or] at other
      simpa [field] using other.2

theorem subjectTag {σ : Type} (kind : String) (own : Fields σ) (make : Identity → σ → AlarmSubject)
    (parts : Identity × Unit × σ) (spelling : Spelling) :
    ("kind".toList, Json.string kind.toList) ∈ (subject kind own make).fields.write spelling parts := by
  cases spelling <;> simp [subject, Fields.and, field, plain, literal, Spelling.pick]

theorem subjectKinds : (subjects.map Variant.kind).Nodup := by decide

theorem alarmSubjectKeeps (a : AlarmSubject) : alarmSubject.Keeps ok a := by
  have lane (value : Option Identity) : laneKeyOr.Keeps ok value := fieldOrKeeps (identityOr value) _ _ _
  have issue (value : Option Identity) : issueIdOr.Keeps ok value := fieldOrKeeps (identityOr value) _ _ _
  have member (value : Identity) : memberId.Keeps ok value := fieldKeeps (identityKeeps value) _ _
  have tail (values : Option Identity × Option Identity) : (laneKeyOr.and issueIdOr).Keeps ok values :=
    andKeeps (lane values.1) (issue values.2) (by decide)
  cases a with
  | scope scopeKey =>
    exact unionKeeps subjectKinds (by simp [subjects]) rfl (subjectKeeps noFieldsKeeps "scope" scopeKey _ (by decide)) (subjectTag "scope" _ _ _)
  | lane scopeKey laneKey =>
    exact unionKeeps subjectKinds (by simp [subjects]) rfl (subjectKeeps (fieldKeeps (identityKeeps _) _ _) "lane" scopeKey _ (by decide))
      (subjectTag "lane" _ _ _)
  | issue scopeKey issueId laneKey =>
    exact unionKeeps subjectKinds (by simp [subjects]) rfl (subjectKeeps (andKeeps (fieldKeeps (identityKeeps _) _ _) (lane _) (by decide)) "issue"
      scopeKey _ (by decide)) (subjectTag "issue" _ _ _)
  | criterion scopeKey issueId memberId laneKey =>
    exact unionKeeps subjectKinds (by simp [subjects]) rfl (subjectKeeps (andKeeps (fieldKeeps (identityKeeps _) _ _)
      (andKeeps (member _) (lane _) (by decide)) (by decide)) "criterion" scopeKey _ (by decide))
      (subjectTag "criterion" _ _ _)
  | surface scopeKey surface laneKey issueId =>
    exact unionKeeps subjectKinds (by simp [subjects]) rfl (subjectKeeps (andKeeps (fieldKeeps (writableSurfaceKeeps _) _ _) (tail _) (by decide))
      "surface" scopeKey _ (by decide)) (subjectTag "surface" _ _ _)
  | escalation scopeKey memberId laneKey issueId =>
    exact unionKeeps subjectKinds (by simp [subjects]) rfl (subjectKeeps (andKeeps (member _) (tail _) (by decide)) "escalation" scopeKey _
      (by decide)) (subjectTag "escalation" _ _ _)

end Subjects

section Observations

def workflowStateKind : Codec WorkflowStateKind := named
  [.triage, .backlog, .unstarted, .started, .completed, .canceled, .duplicate] fun
  | .triage => "triage".toList
  | .backlog => "backlog".toList
  | .unstarted => "unstarted".toList
  | .started => "started".toList
  | .completed => "completed".toList
  | .canceled => "canceled".toList
  | .duplicate => "duplicate".toList

theorem workflowStateKindKeeps (kind : WorkflowStateKind) : workflowStateKind.Keeps ok kind :=
  namedKeeps (by cases kind <;> decide) (by decide)

def runEventKind : Codec RunEventKind := named
  [.firstPush, .prOpened, .gateGreen, .gateRed, .evaluatorAccepted, .lanePlateaued, .issueCrossedOff,
    .criterionRefuted, .criterionPassed, .criterionLapsed, .escalationRaised, .laneDispatched, .claimLost,
    .checksGreen, .landedAndVerified, .criteriaHalt, .auditRefuted, .runAlarmRaised, .runAlarmCleared,
    .nodeSessionStarted, .criterionGradingUnverified, .criterionCheckSurvivedMutation, .criterionSatisfiedAtBase,
    .criterionBaseReadingUnsettled] fun
  | .firstPush => "first_push".toList
  | .prOpened => "pr_opened".toList
  | .gateGreen => "gate_green".toList
  | .gateRed => "gate_red".toList
  | .evaluatorAccepted => "evaluator_accepted".toList
  | .lanePlateaued => "lane_plateaued".toList
  | .issueCrossedOff => "issue_crossed_off".toList
  | .criterionRefuted => "criterion_refuted".toList
  | .criterionPassed => "criterion_passed".toList
  | .criterionLapsed => "criterion_lapsed".toList
  | .escalationRaised => "escalation_raised".toList
  | .laneDispatched => "lane_dispatched".toList
  | .claimLost => "claim_lost".toList
  | .checksGreen => "checks_green".toList
  | .landedAndVerified => "landed_and_verified".toList
  | .criteriaHalt => "criteria_halt".toList
  | .auditRefuted => "audit_refuted".toList
  | .runAlarmRaised => "run_alarm_raised".toList
  | .runAlarmCleared => "run_alarm_cleared".toList
  | .nodeSessionStarted => "node_session_started".toList
  | .criterionGradingUnverified => "criterion_grading_unverified".toList
  | .criterionCheckSurvivedMutation => "criterion_check_survived_mutation".toList
  | .criterionSatisfiedAtBase => "criterion_satisfied_at_base".toList
  | .criterionBaseReadingUnsettled => "criterion_base_reading_unsettled".toList

theorem runEventKindKeeps (kind : RunEventKind) : runEventKind.Keeps ok kind :=
  namedKeeps (by cases kind <;> decide) (by decide)

def runEventProjection : Codec RunEventProjection := object <|
  ((plain "kind" runEventKind).and <|
      fieldOr "subjectKey".toList "subject_key".toList identity.optional none).build
    (fun (kind, subjectKey) => some ⟨kind, subjectKey⟩) fun projection => (projection.kind, projection.subjectKey)

theorem runEventProjectionKeeps (projection : RunEventProjection) : runEventProjection.Keeps ok projection :=
  objectKeeps (buildKeeps (andKeeps (fieldKeeps (runEventKindKeeps _) _ _) (fieldOrKeeps (identityOr _) _ _ _)
    (by decide)) rfl)

def laneTally : Codec LaneTally := object <|
  ((plain "open" (list identity)).and (plain "commits" (list identity))).build
    (fun (openKeys, commits) => some ⟨openKeys, commits⟩) fun tally => (tally.openKeys, tally.commits)

theorem identitiesKeep (ids : List Identity) : (list identity).Keeps ok ids := listKeeps fun id _ => identityKeeps id

theorem laneTallyKeeps (tally : LaneTally) : laneTally.Keeps ok tally :=
  objectKeeps (buildKeeps (andKeeps (fieldKeeps (identitiesKeep _) _ _) (fieldKeeps (identitiesKeep _) _ _)
    (by decide)) rfl)

structure LaneFieldValue where
  laneKey : VisibleStr
  fieldKey : VisibleStr
  value : String
  deriving DecidableEq

def laneFieldValue : Codec LaneFieldValue := object <|
  ((field "laneKey".toList "lane_key".toList identity).and <|
      (field "fieldKey".toList "field_key".toList identity).and (plain "value" string)).build
    (fun (laneKey, fieldKey, value) => some ⟨laneKey, fieldKey, value⟩)
    fun assertion => (assertion.laneKey, assertion.fieldKey, assertion.value)

theorem laneFieldValueKeeps (assertion : LaneFieldValue) : laneFieldValue.Keeps ok assertion :=
  objectKeeps (buildKeeps (andKeeps (fieldKeeps (identityKeeps _) _ _) (andKeeps (fieldKeeps (identityKeeps _) _ _)
    (fieldKeeps (stringKeeps _) _ _) (by decide)) (by decide)) rfl)

structure LaneCommit where
  sha : String
  subject : String
  issueId : String
  deriving DecidableEq

def laneCommit : Codec LaneCommit := object <|
  ((plain "sha" string).and <| (plain "subject" string).and <| field "issueId".toList "issue_id".toList string).build
    (fun (sha, subject, issueId) => some ⟨sha, subject, issueId⟩) fun commit => (commit.sha, commit.subject, commit.issueId)

theorem laneCommitKeeps (commit : LaneCommit) : laneCommit.Keeps ok commit :=
  objectKeeps (buildKeeps (andKeeps (fieldKeeps (stringKeeps _) _ _) (andKeeps (fieldKeeps (stringKeeps _) _ _)
    (fieldKeeps (stringKeeps _) _ _) (by decide)) (by decide)) rfl)

structure LaneEscalation where
  issueId : NonemptyStr
  escalationKey : NonemptyStr
  raisedBy : NonemptyStr
  question : NonemptyStr
  interimReading : VisibleStr
  interimBasis : NonemptyStr
  raisedAtSha : NonemptyStr
  deriving DecidableEq

def laneEscalation : Codec LaneEscalation := object <|
  ((field "issueId".toList "issue_id".toList nonempty).and <|
      (field "escalationKey".toList "escalation_key".toList nonempty).and <|
      (field "raisedBy".toList "raised_by".toList nonempty).and <| (plain "question" nonempty).and <|
      (field "interimReading".toList "interim_reading".toList identity).and <|
      (field "interimBasis".toList "interim_basis".toList nonempty).and <|
      field "raisedAtSha".toList "raised_at_sha".toList nonempty).build
    (fun (issueId, escalationKey, raisedBy, question, interimReading, interimBasis, raisedAtSha) =>
      some ⟨issueId, escalationKey, raisedBy, question, interimReading, interimBasis, raisedAtSha⟩)
    fun asked => (asked.issueId, asked.escalationKey, asked.raisedBy, asked.question, asked.interimReading,
      asked.interimBasis, asked.raisedAtSha)

theorem laneEscalationKeeps (asked : LaneEscalation) : laneEscalation.Keeps ok asked :=
  objectKeeps (buildKeeps (andKeeps (fieldKeeps (nonemptyKeeps _) _ _) (andKeeps (fieldKeeps (nonemptyKeeps _) _ _)
    (andKeeps (fieldKeeps (nonemptyKeeps _) _ _) (andKeeps (fieldKeeps (nonemptyKeeps _) _ _)
    (andKeeps (fieldKeeps (identityKeeps _) _ _) (andKeeps (fieldKeeps (nonemptyKeeps _) _ _)
    (fieldKeeps (nonemptyKeeps _) _ _) (by decide)) (by decide)) (by decide)) (by decide)) (by decide)) (by decide)) rfl)

inductive EscalationResolutionState where
  | unresolved | resolved
  deriving DecidableEq, Repr

def escalationResolutionState : Codec EscalationResolutionState := named [.unresolved, .resolved] fun
  | .unresolved => "unresolved".toList
  | .resolved => "resolved".toList

/-- Only a resolved escalation carries a decision reference. -/
structure EscalationResolution where
  state : EscalationResolutionState
  decisionRef : Option NonemptyStr
  decided : state = .resolved ↔ decisionRef ≠ none
  deriving DecidableEq

def EscalationResolution.of (parts : EscalationResolutionState × Option NonemptyStr) : Option EscalationResolution :=
  if decided : parts.1 = .resolved ↔ parts.2 ≠ none then some ⟨parts.1, parts.2, decided⟩ else none

def escalationResolution : Codec EscalationResolution := object <|
  ((plain "state" escalationResolutionState).and <|
      field "decisionRef".toList "decision_ref".toList nonempty.optional).build
    EscalationResolution.of fun resolution => (resolution.state, resolution.decisionRef)

theorem escalationResolutionKeeps (resolution : EscalationResolution) : escalationResolution.Keeps ok resolution := by
  have state : escalationResolutionState.Keeps ok resolution.state :=
    namedKeeps (by cases resolution.state <;> decide) (by decide)
  have decision : nonempty.optional.Keeps ok resolution.decisionRef :=
    optionalKeeps (checkedSolid stringSolid) fun a _ => nonemptyKeeps a
  have made : EscalationResolution.of (resolution.state, resolution.decisionRef) = some resolution := by
    simp [EscalationResolution.of, resolution.decided]
  exact objectKeeps (buildKeeps (andKeeps (fieldKeeps state _ _) (fieldKeeps decision _ _) (by decide)) made)

inductive RulingAuthor where
  | machine | principal
  deriving DecidableEq, Repr

def rulingAuthor : Codec RulingAuthor := named [.machine, .principal] fun
  | .machine => "machine".toList
  | .principal => "principal".toList

theorem rulingAuthorKeeps (author : RulingAuthor) : rulingAuthor.Keeps ok author :=
  namedKeeps (by cases author <;> decide) (by decide)

structure RulingAuthorship where
  rulingId : VisibleStr
  issueKey : VisibleStr
  authoredBy : RulingAuthor
  deriving DecidableEq

def rulingAuthorship : Codec RulingAuthorship := object <|
  ((field "rulingId".toList "ruling_id".toList identity).and <|
      (field "issueKey".toList "issue_key".toList identity).and <|
      field "authoredBy".toList "authored_by".toList rulingAuthor).build
    (fun (rulingId, issueKey, authoredBy) => some ⟨rulingId, issueKey, authoredBy⟩)
    fun ruling => (ruling.rulingId, ruling.issueKey, ruling.authoredBy)

theorem rulingAuthorshipKeeps (ruling : RulingAuthorship) : rulingAuthorship.Keeps ok ruling :=
  objectKeeps (buildKeeps (andKeeps (fieldKeeps (identityKeeps _) _ _) (andKeeps (fieldKeeps (identityKeeps _) _ _)
    (fieldKeeps (rulingAuthorKeeps _) _ _) (by decide)) (by decide)) rfl)

structure LaneRulingSnapshot where
  laneKey : VisibleStr
  issueKeys : List VisibleStr
  rulings : List RulingAuthorship
  deriving DecidableEq

def laneRulingSnapshot : Codec LaneRulingSnapshot := object <|
  ((field "laneKey".toList "lane_key".toList identity).and <|
      (field "issueKeys".toList "issue_keys".toList (list identity)).and (plain "rulings" (list rulingAuthorship))).build
    (fun (laneKey, issueKeys, rulings) => some ⟨laneKey, issueKeys, rulings⟩)
    fun snapshot => (snapshot.laneKey, snapshot.issueKeys, snapshot.rulings)

theorem laneRulingSnapshotKeeps (snapshot : LaneRulingSnapshot) : laneRulingSnapshot.Keeps ok snapshot :=
  objectKeeps (buildKeeps (andKeeps (fieldKeeps (identityKeeps _) _ _) (andKeeps (fieldKeeps (identitiesKeep _) _ _)
    (fieldKeeps (listKeeps fun ruling _ => rulingAuthorshipKeeps ruling) _ _) (by decide)) (by decide)) rfl)

structure IssueSupersession where
  issueKey : VisibleStr
  sourceRef : VisibleStr
  deriving DecidableEq

def issueSupersession : Codec IssueSupersession := object <|
  ((field "issueKey".toList "issue_key".toList identity).and <|
      field "sourceRef".toList "source_ref".toList identity).build
    (fun (issueKey, sourceRef) => some ⟨issueKey, sourceRef⟩) fun entry => (entry.issueKey, entry.sourceRef)

theorem issueSupersessionKeeps (entry : IssueSupersession) : issueSupersession.Keeps ok entry :=
  objectKeeps (buildKeeps (andKeeps (fieldKeeps (identityKeeps _) _ _) (fieldKeeps (identityKeeps _) _ _)
    (by decide)) rfl)

end Observations

end Kodezart.RunAlarmRecord
