import Mathlib
import Kodezart.Dispatch
import Kodezart.Exchanges

/-! The producer feeding the fire queue: one fixed procedure, which scans, filters, ranks,
claims and enqueues, over data read through the ports. The dispatcher's own memory is
asked like a port too, and it is the one that never fails. -/
namespace Kodezart.Dispatch
open Tracker
open Gate (QueueState IssueQuery)
open Jobs (JobRecord JobState)
open Outbound (RepoVisibility)
open Prog (raise)

inductive Failure where
  | baseResolution (message : String)
  | cancelled
  | other (message : String)
  deriving DecidableEq, Repr

/-- What a call raised, and what of its work stood by then: a call cut short may have
released a claim, or left a job on the queue. -/
structure Raised where
  failure : Failure
  landed : Bool := false
  job : Option String := none
  deriving DecidableEq, Repr

structure RememberedExclusion where
  updatedAt : Int
  clause : ExclusionClause
  detail : String
  deriving DecidableEq, Repr

inductive RunOutcome where
  | completed | failed | timedOut | neverStarted
  deriving DecidableEq, Repr

def RunOutcome.value : RunOutcome → String
  | .completed => "completed"
  | .failed => "failed"
  | .timedOut => "timed_out"
  | .neverStarted => "never_started"

structure FireAsset where
  assetKey : NonemptyStr
  title : String
  content : String
  deriving DecidableEq, Repr

structure FireContext where
  issueKey : NonemptyStr
  body : String
  assets : List FireAsset
  deriving DecidableEq, Repr

def fence : String := String.ofList [Char.ofNat 0x60, Char.ofNat 0x60, Char.ofNat 0x60]

/-- The tracker identity, the ticket's body and the declared inventory of assets. -/
def FireContext.render (context : FireContext) : String :=
  let sections := ["Tracker issue: " ++ context.issueKey.val, context.body, "## Fetched assets"]
  "\n\n".intercalate <| sections ++
    if context.assets.isEmpty then ["This ticket references no assets."]
    else
      "\n".intercalate (context.assets.map fun asset => "- " ++ asset.assetKey.val ++ ": " ++ asset.title) ::
      context.assets.map fun asset =>
        "### " ++ asset.assetKey.val ++ "\n" ++ fence ++ "\n" ++ asset.content ++ "\n" ++ fence

inductive PermissionMode where
  | interactive | acceptEdits | plan | unattended
  deriving DecidableEq, Repr

inductive ToolPreset where
  | evaluation | delegatedEvaluation | authoring | implementation
  deriving DecidableEq, Repr

structure WorkflowSubmission extends Jobs.WorkflowSubmission where
  repoPath : Option String
  repoUrl : Option String
  baseSpec : BaseSpec
  impliedBase : Option BaseSpec
  permissionMode : PermissionMode
  allowedTools : ToolPreset
  deriving DecidableEq, Repr

structure ReadyLane where
  issue : BoardIssue
  /-- The keys of the criteria the lane's subtree still owes. -/
  gap : List String
  deriving DecidableEq, Repr

structure BlockedLane where
  issueKey : String
  blockerKeys : List String
  deriving DecidableEq, Repr

structure UnreachableCriterion where
  issueKey : String
  container : Option String
  reason : String
  deriving DecidableEq, Repr

structure ScopeReady where
  issues : List BoardIssue
  ready : List ReadyLane
  blocked : List BlockedLane
  unreachable : List UnreachableCriterion
  deriving DecidableEq, Repr

inductive Call where
  | scanIssues (query : IssueQuery)
  | readIssue (issueKey : String)
  | activeClaim (issueKey : String)
  | recordedRepository (issueKey : String)
  | initiativeIdentifiers (projectId : String)
  | readScopeReady (ref : ScopeRef)
  | claimIssue (issueKey holder : String) (leaseSeconds : Int)
  | releaseClaim (issueKey holder : String)
  | readBaseSpec (issueKey : String)
  | recordBaseSpec (issueKey : String) (spec : BaseSpec)
  | ensureAvailable (repoUrl : String)
  | resolve (issueKey repoPath integrationWorkspace trunk : String) (now : Int)
  | assemble (issueKey : String) (body : Text)
  | submit (lane : String) (submission : WorkflowSubmission)
  | jobRecord (jobId : String)
  | openDeliveryExists (repoUrl issueKey : String)
  | gateDelta
  | log (event : String)
  | draw (tied : List String)
  | workspaceId
  | now
  | holding
  | beginCooldown (failureClass : String)
  | recall (issueKey : String)
  | remember (issueKey : String) (exclusion : RememberedExclusion)
  | forget (issueKey : String)
  | jobOf (issueKey : String)
  | noteJob (issueKey jobId : String)
  | initiativesOf (projectId : String)
  | noteInitiatives (projectId : String) (identifiers : List String)
  | rearm
  | follow (issueKey jobId preClaimState : String) (visibility : RepoVisibility)
  deriving DecidableEq, Repr

abbrev Reply : Call → Type
  | .scanIssues _ => List BoardIssue
  | .readIssue _ => BoardIssue
  | .activeClaim _ => Option ClaimResult
  | .recordedRepository _ => Option String
  | .initiativeIdentifiers _ => List String
  | .readScopeReady _ => ScopeReady
  | .claimIssue _ _ _ => ClaimResult
  | .releaseClaim _ _ => Unit
  | .readBaseSpec _ => Option BaseSpec
  | .recordBaseSpec _ _ => Unit
  | .ensureAvailable _ => String
  | .resolve _ _ _ _ _ => BaseSpec
  | .assemble _ _ => FireContext
  | .submit _ _ => JobRecord
  | .jobRecord _ => Option JobRecord
  | .openDeliveryExists _ _ => Bool
  /- The keys that moved. -/
  | .gateDelta => List String
  | .log _ => Unit
  | .draw _ => String
  | .workspaceId => String
  | .now => Int
  | .holding => Option String
  | .beginCooldown _ => Int
  | .recall _ => Option RememberedExclusion
  | .remember _ _ => Unit
  | .forget _ => Unit
  | .jobOf _ => Option String
  | .noteJob _ _ => Unit
  | .initiativesOf _ => Option (List String)
  | .noteInitiatives _ _ => Unit
  | .rearm => Unit
  | .follow _ _ _ _ => Unit

/-- Whether the call is awaited; the others are made between two awaits, and answer. -/
def Call.awaited : Call → Bool
  | .scanIssues _ | .readIssue _ | .activeClaim _ | .recordedRepository _ | .initiativeIdentifiers _
  | .readScopeReady _ | .claimIssue _ _ _ | .releaseClaim _ _ | .readBaseSpec _ | .recordBaseSpec _ _
  | .ensureAvailable _ | .resolve _ _ _ _ _ | .assemble _ _ | .submit _ _ | .jobRecord _
  | .openDeliveryExists _ _ | .gateDelta | .log _ => true
  | .draw _ | .workspaceId | .now | .holding | .beginCooldown _ | .recall _ | .remember _ _ | .forget _
  | .jobOf _ | .noteJob _ _ | .initiativesOf _ | .noteInitiatives _ _ | .rearm | .follow _ _ _ _ => false

abbrev Program := Prog Call Reply Raised
abbrev Transcript := List (Exchange Call Reply Raised)
abbrev ask (call : Call) : Program (Reply call) := Prog.request call

structure FireDispatcher where
  operation : OperationConfig
  repoUrl : String
  lane : String
  holder : String
  claimLeaseSeconds : Int
  queryPageSize : Nat
  trunk : String
  integrationWorkspaceDir : String
  deriving DecidableEq, Repr

namespace FireDispatcher
variable (d : FireDispatcher)

section Clauses

def teamExclusion (issue : BoardIssue) (teamKeys : List String) : Program (Option IssueExclusion) :=
  if clauseInTeam issue teamKeys then pure none
  else pure (some ⟨issue.key, .outsideTeam, (issue.teamKey.map (·.val)).getD ""⟩)

/-- Whether the memory is still true of the board it was taken on. -/
def stillStands (remembered : RememberedExclusion) : Program Bool := do
  if remembered.clause ≠ .liveBlocker then return true
  let blocker : BoardIssue ← ask (.readIssue remembered.detail)
  return clauseOpen blocker

/-- An issue that has moved is re-admitted without asking anything about its blocker. -/
def memoryStands (issue : BoardIssue) (remembered : RememberedExclusion) : Program Bool :=
  if issue.updatedAt ≤ remembered.updatedAt then stillStands remembered else pure false

def memoryExclusion (issue : BoardIssue) : Program (Option IssueExclusion) := do
  let remembered : Option RememberedExclusion ← ask (.recall issue.key)
  match remembered with
  | none => return none
  | some remembered =>
    let stands ← memoryStands issue remembered
    if stands then return some ⟨issue.key, remembered.clause, remembered.detail⟩
    ask (.forget issue.key)
    return none

def backoffExclusion (issue : BoardIssue) : Program (Option IssueExclusion) := do
  let holding : Option String ← ask .holding
  return holding.map fun failureClass => ⟨issue.key, .laneBackoff, failureClass⟩

def initiativesFor (projectId : String) : Program (List String) := do
  let cached : Option (List String) ← ask (.initiativesOf projectId)
  match cached with
  | some identifiers => return identifiers
  | none =>
    let identifiers : List String ← ask (.initiativeIdentifiers projectId)
    ask (.noteInitiatives projectId identifiers)
    return identifiers

def scopeOf (issue : BoardIssue) : List String :=
  match issue.teamKey.bind fun key => d.operation.teams.get? key.val with
  | some entry => entry.scope
  | none => []

def placement (issue : BoardIssue) : List String := issue.project.toList ++ issue.projectId.toList

/-- The initiatives are read only when the project's own spellings do not settle it. -/
def identifiersOf (scope : List String) (issue : BoardIssue) : Program (List String) :=
  if clauseInScope scope (placement issue) then pure (placement issue)
  else match issue.projectId with
    | none => pure (placement issue)
    | some projectId => do
      let initiatives ← initiativesFor projectId
      pure (placement issue ++ initiatives)

def scopeExclusion (issue : BoardIssue) : Program (Option IssueExclusion) := do
  let scope := d.scopeOf issue
  if scope.isEmpty then return none
  let identifiers ← identifiersOf scope issue
  if clauseInScope scope identifiers then return none
  return some ⟨issue.key, .outOfScope, issue.project.getD "the issue belongs to no project"⟩

def boundTeamKeys : List String := d.operation.teamsBoundTo d.repoUrl

def routeExclusion (issue : BoardIssue) : Program (Option IssueExclusion) := do
  if clauseInTeam issue d.boundTeamKeys then return none
  let recorded : Option String ← ask (.recordedRepository issue.key)
  if clauseRecordedRepository false recorded d.repoUrl then return none
  match recorded with
  | none => return some { issueKey := issue.key, clause := .noRecordedRepository }
  | some url => return some ⟨issue.key, .recordedElsewhere, url⟩

def approvalExclusion (issue : BoardIssue) : Program (Option IssueExclusion) :=
  if clauseApproved issue then pure none
  else pure (some { issueKey := issue.key, clause := .notApproved })

def openExclusion (issue : BoardIssue) : Program (Option IssueExclusion) :=
  if clauseOpen issue then pure none else pure (some ⟨issue.key, .notOpen, issue.stateName⟩)

def readBlockers : List String → Program (List (String × BoardIssue))
  | [] => pure []
  | key :: keys => do
    let blocker : BoardIssue ← ask (.readIssue key)
    let rest ← readBlockers keys
    pure ((key, blocker) :: rest)

def liveBlockerOf (issue : BoardIssue) : Program (Option String) := do
  let blockers ← readBlockers (blockerKeys issue)
  pure (liveBlocker issue (Dict.update [] blockers))

def blockerExclusion (issue : BoardIssue) : Program (Option IssueExclusion) := do
  let blocking ← liveBlockerOf issue
  pure (blocking.map fun key => ⟨issue.key, .liveBlocker, key⟩)

def runIsLive (issueKey : String) : Program Bool := do
  let jobId : Option String ← ask (.jobOf issueKey)
  match jobId with
  | none => return false
  | some jobId =>
    let record : Option JobRecord ← ask (.jobRecord jobId)
    return record.any fun record => record.state ≠ .terminal

def inFlightExclusion (issue : BoardIssue) : Program (Option IssueExclusion) := do
  let claim : Option ClaimResult ← ask (.activeClaim issue.key)
  let live ← runIsLive issue.key
  if clauseUnclaimed claim live then return none
  return some ⟨issue.key, .claimedOrInFlight, (claim.map (·.holder)).getD ""⟩

def deliveryExclusion (issue : BoardIssue) : Program (Option IssueExclusion) := do
  let delivered : Bool ← ask (.openDeliveryExists d.repoUrl issue.key)
  if clauseUndelivered delivered then return none
  return some { issueKey := issue.key, clause := .openDelivery }

/-- The first clause that excludes, none after it asked. -/
def firstExclusion : List (Program (Option IssueExclusion)) → Program (Option IssueExclusion)
  | [] => pure none
  | clause :: rest => do
    let exclusion ← clause
    match exclusion with
    | some exclusion => pure (some exclusion)
    | none => firstExclusion rest

def exclude (issue : BoardIssue) (teamKeys : List String) : Program (Option IssueExclusion) :=
  firstExclusion [teamExclusion issue teamKeys, memoryExclusion issue, backoffExclusion issue,
    d.scopeExclusion issue, d.routeExclusion issue, approvalExclusion issue, openExclusion issue,
    blockerExclusion issue, inFlightExclusion issue, d.deliveryExclusion issue]

def teamKeys : Program (List String) :=
  match d.operation.teamKeysForRepo d.repoUrl with
  | .ok keys => pure keys
  | .error error => raise { failure := .other error.message }

/-- The clauses that hold whatever selected the issue. -/
def standingExclusion (issue : BoardIssue) : Program (Option IssueExclusion) := do
  let teamKeys ← d.teamKeys
  firstExclusion [teamExclusion issue teamKeys, d.routeExclusion issue, memoryExclusion issue,
    backoffExclusion issue, inFlightExclusion issue, d.deliveryExclusion issue]

end Clauses

section Launch

def resolveBase (winner : BoardIssue) : Program BaseSpec := do
  let repoPath : String ← ask (.ensureAvailable d.repoUrl)
  let workspace : String ← ask .workspaceId
  let now : Int ← ask .now
  ask (.resolve winner.key repoPath (d.integrationWorkspaceDir ++ "/" ++ workspace) d.trunk now)

/-- The claim is given back, and the failure remembered off a reading taken after that. -/
def baseUnresolved (winner : BoardIssue) (message : String) : Program Unit := do
  ask (.releaseClaim winner.key d.holder)
  let refreshed : BoardIssue ← ask (.readIssue winner.key)
  ask (.remember winner.key ⟨refreshed.updatedAt, .baseUnresolved, message⟩)
  ask (.log "dispatch_base_unresolved")

def noteSuperseded (superseded : Option BaseSpec) : Program Unit :=
  if superseded.isSome then ask (.log "dispatch_base_superseded") else pure ()

def submitFire (winner : BoardIssue) (spec : BaseSpec) (context : FireContext) : Program JobRecord := do
  ask (.recordBaseSpec winner.key spec)
  let record : JobRecord ← ask (.submit d.lane
    { prompt := context.render, issueKey := some winner.key, repoPath := none, repoUrl := some d.repoUrl,
      baseSpec := spec, impliedBase := some spec, scope := none, permissionMode := .unattended,
      allowedTools := .implementation })
  ask (.noteJob winner.key record.jobId)
  ask (.log "dispatch_fire_enqueued")
  pure record

/-- The fire's context, its base on record and its job on the queue. -/
def enqueue (winner : BoardIssue) (spec : BaseSpec) : Program (JobRecord × Option BaseSpec) := do
  let context : FireContext ← ask (.assemble winner.key winner.body)
  let recorded : Option BaseSpec ← ask (.readBaseSpec winner.key)
  let superseded := recorded.filter (· ≠ spec)
  noteSuperseded superseded
  let record ← d.submitFire winner spec context
  pure (record, superseded)

/-- What a launch does with the claim it was granted. The base is read off the graph before
anything is assembled, and only its own failure is caught. -/
def fire (winner : BoardIssue) (rows : List IssueSnapshot) (exclusions : List IssueExclusion)
    (eligibleKeys tied criterionKeys : List String) : Program DispatchReport := do
  let resolved ← (d.resolveBase winner).attempt
  match resolved with
  | .error raised =>
    match raised.failure with
    | .baseResolution message =>
      d.baseUnresolved winner message
      return { outcome := .baseUnresolved, snapshot := rows, exclusions, eligible := eligibleKeys,
               tiedCandidates := tied, claimedIssueKey := some winner.key, criterionKeys }
    | _ => raise raised
  | .ok spec =>
    let (record, superseded) ← d.enqueue winner spec
    return { outcome := .fireEnqueued, snapshot := rows, exclusions, eligible := eligibleKeys,
             tiedCandidates := tied, claimedIssueKey := some winner.key, claimedStateName := some winner.stateName,
             claimedVisibility := d.operation.boardVisibility (winner.teamKey.map (·.val)),
             jobId := some record.jobId, base := some spec, supersededBase := superseded, criterionKeys }

def launch (winner : BoardIssue) (rows : List IssueSnapshot) (exclusions : List IssueExclusion)
    (eligibleKeys tied criterionKeys : List String) : Program DispatchReport := do
  let claim : ClaimResult ← ask (.claimIssue winner.key d.holder d.claimLeaseSeconds)
  if claim.status ≠ .granted then
    ask (.log "dispatch_claim_lost")
    return { outcome := .claimLost, snapshot := rows, exclusions, eligible := eligibleKeys,
             tiedCandidates := tied, criterionKeys }
  d.fire winner rows exclusions eligibleKeys tied criterionKeys

end Launch

section Pass

def scan : List String → Program (List BoardIssue)
  | [] => pure []
  | teamKey :: rest => do
    let found : List BoardIssue ← ask (.scanIssues ⟨some .approved, some teamKey, none, d.queryPageSize⟩)
    let more ← scan rest
    pure (found ++ more)

/-- The eligible of a snapshot, and what excluded each of the others. -/
def sift (teamKeys : List String) : List BoardIssue → Program (List BoardIssue × List IssueExclusion)
  | [] => pure ([], [])
  | issue :: rest => do
    let exclusion ← d.exclude issue teamKeys
    let (eligible, exclusions) ← sift teamKeys rest
    match exclusion with
    | none => pure (issue :: eligible, exclusions)
    | some exclusion => pure (eligible, exclusion :: exclusions)

def selectTopRanked (issues : List BoardIssue) : Program (Option Selection) :=
  match topRanked issues with
  | [] => pure none
  | [key] => pure (some ⟨key, [key]⟩)
  | tied => do
    let winnerKey : String ← ask (.draw tied)
    pure (some ⟨winnerKey, tied⟩)

/-- The winner is read before it is claimed, since a listing may carry none of its edges. -/
def claimAndEnqueue (selection : Selection) (eligible : List BoardIssue) (rows : List IssueSnapshot)
    (exclusions : List IssueExclusion) : Program DispatchReport := do
  let eligibleKeys := eligible.map BoardIssue.key
  let winner : BoardIssue ← ask (.readIssue selection.winnerKey)
  let blocking ← liveBlockerOf winner
  match blocking with
  | some blocker =>
    ask (.remember winner.key ⟨winner.updatedAt, .liveBlocker, blocker⟩)
    ask (.log "dispatch_winner_blocked")
    return { outcome := .winnerBlocked, snapshot := rows,
             exclusions := exclusions ++ [⟨winner.key, .liveBlocker, blocker⟩], eligible := eligibleKeys,
             tiedCandidates := selection.tied }
  | none => d.launch winner rows exclusions eligibleKeys selection.tied []

/-- What a pass decides on before it writes anything. -/
structure Survey where
  rows : List IssueSnapshot
  eligible : List BoardIssue
  exclusions : List IssueExclusion
  selection : Option Selection

def survey : Program Survey := do
  let teamKeys ← d.teamKeys
  let snapshot ← d.scan teamKeys
  let (eligible, exclusions) ← d.sift teamKeys snapshot
  let selection ← selectTopRanked eligible
  pure ⟨snapshot.map BoardIssue.snapshot, eligible, exclusions, selection⟩

def actOn (survey : Survey) : Program DispatchReport :=
  match survey.selection with
  | none => do
    ask (.log "dispatch_empty_eligible_set")
    return { outcome := .emptyEligibleSet, snapshot := survey.rows, exclusions := survey.exclusions, eligible := [] }
  | some selection => do
    ask (.log "dispatch_ranked")
    d.claimAndEnqueue selection survey.eligible survey.rows survey.exclusions

def runPass : Program DispatchReport := do
  let survey ← d.survey
  d.actOn survey

def rateLimitedFailure : String := "RateLimitedSoftFailureError"

/-- The lane is held back whoever fired the run: the limit is the account's. -/
def noteRateLimit (failureClass : Option String) : Program Unit :=
  if failureClass = some rateLimitedFailure then do
    let _until : Int ← ask (.beginCooldown rateLimitedFailure)
    ask (.log "dispatch_lane_backoff")
  else pure ()

def recordRunOutcome (issueKey : String) (outcome : RunOutcome) (failureClass : Option String) : Program Unit := do
  if outcome = .completed then return ()
  noteRateLimit failureClass
  let job : Option String ← ask (.jobOf issueKey)
  if job.isNone then return ()
  let refreshed : BoardIssue ← ask (.readIssue issueKey)
  ask (.remember issueKey ⟨refreshed.updatedAt, .runFailed, failureClass.getD outcome.value⟩)
  ask (.log "dispatch_run_failed_remembered")

end Pass
end FireDispatcher
end Kodezart.Dispatch
