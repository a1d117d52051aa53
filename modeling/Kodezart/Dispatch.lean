import Mathlib
import Kodezart.JobQueue
import Kodezart.Gating
import Kodezart.PassGate
import Kodezart.Fallible

/-! The dispatch arithmetic: the eligibility clauses as total functions of what the port
returned, the rank order over the eligible set, and the report a pass ends with. -/
namespace Kodezart.Dispatch
open Tracker
open Gate (QueueState)
open Outbound (RepoVisibility)

structure BoardIssue extends TrackerIssue where
  stateName : String
  queueStates : List QueueState
  project : Option String := none
  projectId : Option String := none
  updatedAt : Int
  deriving DecidableEq, Repr

def BoardIssue.key (issue : BoardIssue) : String := issue.issueKey.val

inductive ClaimStatus where
  | granted | lost | contended
  deriving DecidableEq, Repr

structure ClaimResult where
  issueKey : String
  status : ClaimStatus
  holder : String
  expiresAt : Int
  currentHolder : Option String := none
  deriving DecidableEq, Repr

structure TeamEntry where
  repository : Option String := none
  scope : List String := []
  visibility : Option RepoVisibility := none
  deriving DecidableEq, Repr

structure OperationConfig where
  teams : Dict String TeamEntry
  /-- The url of each declared repository. -/
  repos : List String
  deriving DecidableEq, Repr

structure OperationMemberAbsentError where
  missing : String
  stops : String
  deriving DecidableEq, Repr

def OperationMemberAbsentError.message (error : OperationMemberAbsentError) : String :=
  "operation config declares no " ++ error.missing ++ "; " ++ error.stops

namespace OperationConfig

def teamsBoundTo (operation : OperationConfig) (repoUrl : String) : List String :=
  let implicit := operation.repos = [repoUrl]
  Dict.keys <| operation.teams.filter fun entry =>
    entry.2.repository = some repoUrl ∨ (entry.2.repository = none ∧ implicit)

def teamsScannedBy (operation : OperationConfig) (repoUrl : String) : List String :=
  if operation.repos.length ≤ 1 then operation.teamsBoundTo repoUrl
  else
    let bound := operation.teamsBoundTo repoUrl
    Dict.keys <| operation.teams.filter fun entry => entry.1 ∈ bound ∨ entry.2.repository = none

def teamKeysForRepo (operation : OperationConfig) (repoUrl : String) :
    Except OperationMemberAbsentError (List String) :=
  match operation.teamsScannedBy repoUrl with
  | [] => .error
    ⟨"teams entry scanned by " ++ repoUrl,
      "a dispatch scan has no container to be bounded by, so nothing distinguishes this operation's board " ++
      "from any other in the workspace and no issue can be selected"⟩
  | scanned => .ok scanned

/-- `private` only where a declared team says so. -/
def boardVisibility (operation : OperationConfig) (teamKey : Option String) : RepoVisibility :=
  match teamKey.bind fun key => operation.teams.get? key with
  | some entry => if entry.visibility = some .privateRepo then .privateRepo else .publicRepo
  | none => .publicRepo

end OperationConfig

section Clauses

def clauseInTeam (issue : BoardIssue) (teamKeys : List String) : Bool :=
  match issue.teamKey with
  | none => false
  | some team => team.val ∈ teamKeys

def clauseInScope (scope identifiers : List String) : Bool :=
  scope.isEmpty || identifiers.any (· ∈ scope)

def clauseRecordedRepository (teamBound : Bool) (recorded : Option String) (repoUrl : String) : Bool :=
  teamBound || recorded = some repoUrl

def clauseApproved (issue : BoardIssue) : Bool := .approved ∈ issue.queueStates

def clauseOpen (issue : BoardIssue) : Bool := isOpen issue.stateKind

def blockerKeys (issue : BoardIssue) : List String := Tracker.blockerKeys issue.toTrackerIssue

def liveBlocker (issue : BoardIssue) (blockers : Dict String BoardIssue) : Option String :=
  (blockerKeys issue).find? fun key => (blockers.get? key).any clauseOpen

def clauseUnclaimed (claim : Option ClaimResult) (runIsLive : Bool) : Bool := claim.isNone && !runIsLive

def clauseUndelivered (hasOpenDelivery : Bool) : Bool := !hasOpenDelivery

end Clauses

section Ranking

abbrev RankKey := Nat ×ₗ Int

/-- Urgent first, none last, and the oldest first among those of one priority. -/
def rankKey (issue : BoardIssue) : RankKey := toLex (priorityRank issue.priority, issue.createdAt)

structure Selection where
  winnerKey : String
  tied : List String
  deriving DecidableEq, Repr

/-- The keys at the top of the order, more than one only on an exact tie. -/
def topRanked (issues : List BoardIssue) : List String :=
  match (issues.map rankKey).min? with
  | none => []
  | some best => ((issues.filter fun issue => rankKey issue = best).map BoardIssue.key).insertionSort (· ≤ ·)

theorem topRankedMember {issues : List BoardIssue} {key : String} (member : key ∈ topRanked issues) :
    ∃ issue ∈ issues, issue.key = key ∧ ∀ other ∈ issues, rankKey issue ≤ rankKey other := by
  unfold topRanked at member
  cases least : (issues.map rankKey).min? with
  | none => simp [least] at member
  | some best =>
    rw [least, List.mem_insertionSort] at member
    obtain ⟨issue, kept, same⟩ := List.mem_map.mp member
    obtain ⟨listed, top⟩ := List.mem_filter.mp kept
    have bound := (List.min?_eq_some_iff.mp least).2
    refine ⟨issue, listed, same, fun other held => ?_⟩
    rw [of_decide_eq_true top]
    exact bound _ (List.mem_map_of_mem held)

theorem topRankedSome {issues : List BoardIssue} (some_issue : issues ≠ []) : topRanked issues ≠ [] := by
  unfold topRanked
  cases least : (issues.map rankKey).min? with
  | none => exact absurd (List.map_eq_nil_iff.mp (List.min?_eq_none_iff.mp least)) some_issue
  | some best =>
    obtain ⟨issue, listed, same⟩ := List.mem_map.mp (List.min?_eq_some_iff.mp least).1
    have kept : issue.key ∈ ((issues.filter fun issue => rankKey issue = best).map BoardIssue.key) :=
      List.mem_map_of_mem (List.mem_filter.mpr ⟨listed, decide_eq_true same⟩)
    exact List.ne_nil_of_mem ((List.mem_insertionSort _).mpr kept)

end Ranking

section Reports

inductive DispatchOutcome where
  | fireEnqueued | claimLost | emptyEligibleSet | baseUnresolved | winnerBlocked
  deriving DecidableEq, Repr

inductive ExclusionClause where
  | outsideTeam | baseUnresolved | runFailed | laneBackoff | outOfScope | noRecordedRepository
  | recordedElsewhere | notApproved | notOpen | liveBlocker | claimedOrInFlight | openDelivery
  deriving DecidableEq, Repr

structure IssueSnapshot where
  issueKey : String
  priority : IssuePriority
  stateName : String
  createdAt : Int
  deriving DecidableEq, Repr

def BoardIssue.snapshot (issue : BoardIssue) : IssueSnapshot :=
  ⟨issue.key, issue.priority, issue.stateName, issue.createdAt⟩

structure IssueExclusion where
  issueKey : String
  clause : ExclusionClause
  detail : String := ""
  deriving DecidableEq, Repr

structure DispatchReport where
  outcome : DispatchOutcome
  snapshot : List IssueSnapshot
  exclusions : List IssueExclusion
  eligible : List String
  tiedCandidates : List String := []
  claimedIssueKey : Option String := none
  claimedStateName : Option String := none
  claimedVisibility : RepoVisibility := .publicRepo
  jobId : Option String := none
  base : Option BaseSpec := none
  criterionKeys : List String := []
  supersededBase : Option BaseSpec := none
  deriving DecidableEq, Repr

end Reports
end Kodezart.Dispatch
