import Mathlib
import Kodezart.LaunchClaims

/-! One scheduled dispatch tick: the gate first, the pass only on a delta, and the watch
of the fire a pass started. -/
namespace Kodezart.Dispatch
open Tracker Prog

/-- The second selection producer: one fire a walk, over a scope's ready set. -/
structure ScopeDispatcher where
  ref : ScopeRef
  dispatcher : FireDispatcher

namespace ScopeDispatcher
variable (d : ScopeDispatcher)

def rows (ready : ScopeReady) : Except Raised (List IssueSnapshot) :=
  let members := Dict.build BoardIssue.key ready.issues
  (fun held => (ready.ready.map fun lane => lane.issue.snapshot) ++ held) <$>
    ready.blocked.mapM fun blocked =>
      match members.get? blocked.issueKey with
      | some issue => .ok issue.snapshot
      | none => .error { failure := .other blocked.issueKey }

def UnreachableCriterion.detail (named : UnreachableCriterion) : String :=
  match named.container with
  | some container => if container = "" then named.reason else container
  | none => named.reason

def heldBack (ready : ScopeReady) : List IssueExclusion :=
  (ready.unreachable.map fun named => ⟨named.issueKey, .outOfScope, UnreachableCriterion.detail named⟩) ++
  ready.blocked.map fun blocked => ⟨blocked.issueKey, .liveBlocker, ",".intercalate blocked.blockerKeys⟩

/-- The first ready lane nothing holds back is the one launched. -/
def offer (rows : List IssueSnapshot) (eligibleKeys : List String) :
    List ReadyLane → List IssueExclusion → Program DispatchReport
  | [], exclusions => pure { outcome := .emptyEligibleSet, snapshot := rows, exclusions, eligible := eligibleKeys }
  | lane :: lanes, exclusions => do
    let exclusion ← d.dispatcher.standingExclusion lane.issue
    match exclusion with
    | some exclusion => offer rows eligibleKeys lanes (exclusions ++ [exclusion])
    | none => d.dispatcher.launch lane.issue rows exclusions eligibleKeys [] lane.gap

def runPass : Program DispatchReport := do
  let ready : ScopeReady ← ask (.readScopeReady d.ref)
  let rows ← ofExcept (rows ready)
  let eligibleKeys := ready.ready.map fun lane => lane.issue.key
  ask (.log "scope_walk_ready")
  d.offer rows eligibleKeys ready.ready (heldBack ready)

end ScopeDispatcher

inductive DispatchProducer where
  | board (d : FireDispatcher)
  | scope (d : ScopeDispatcher)

namespace DispatchProducer

def runPass : DispatchProducer → Program DispatchReport
  | .board d => d.runPass
  | .scope d => d.runPass

def holder : DispatchProducer → String
  | .board d => d.holder
  | .scope d => d.dispatcher.holder

end DispatchProducer

inductive PassRun where
  | ran | skipped
  deriving DecidableEq, Repr

structure GatedDispatchPass where
  gated : Bool
  dispatcher : DispatchProducer

namespace GatedDispatchPass
variable (pass : GatedDispatchPass)

/-- A fire on the queue is followed; a report of one that lacks what the enqueue produced raises. -/
def watchFire (report : DispatchReport) : Program Unit :=
  if report.outcome ≠ .fireEnqueued then pure ()
  else match report.claimedIssueKey, report.jobId, report.claimedStateName with
    | some issueKey, some jobId, some stateName =>
      ask (.follow issueKey jobId stateName report.claimedVisibility)
    | _, _, _ => raise { failure := .other "fire_enqueued report is missing what the enqueue produced" }

def dispatch : Program Unit := do
  let report ← pass.dispatcher.runPass
  ask (.log "dispatch_pass_completed")
  watchFire report

def tick : Program PassRun :=
  if pass.gated then do
    let changed : List String ← ask .gateDelta
    if changed.isEmpty then
      ask (.log "dispatch_pass_skipped_no_delta")
      return .skipped
    pass.dispatch
    return .ran
  else do
    pass.dispatch
    return .ran

/-- Whatever is raised re-arms the gate that was asked, a cancellation too. -/
def rearm : Program Unit := if pass.gated then ask .rearm else pure ()

def run : Program PassRun := do
  let ended ← pass.tick.attempt
  match ended with
  | .ok done => return done
  | .error raised =>
    pass.rearm
    raise raised

end GatedDispatchPass
end Kodezart.Dispatch
