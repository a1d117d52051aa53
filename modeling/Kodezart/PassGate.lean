import Mathlib
import Kodezart.Fallible
import Kodezart.SelfWrites

/-! The deterministic pre-query a dispatch tick is gated on: one scoped scan for each
signal and container, from a mark of its own, against what the gate last retained. -/
namespace Kodezart.Gate
open SelfWrites

inductive PassSignal where
  | approvedChanged | issuesChanged | triageBacklog | reviewsChanged
  deriving DecidableEq, Repr

inductive QueueState where
  | triage | proposed | approved | done | decision
  deriving DecidableEq, Repr

structure IssueQuery where
  queueState : Option QueueState
  teamKey : Option String
  updatedSince : Option Int
  pageSize : Nat
  deriving DecidableEq, Repr

structure ReviewQuery where
  repoUrl : Option String
  updatedSince : Option Int
  pageSize : Nat
  deriving DecidableEq, Repr

/-- A scanned issue or review as the gate reads it: identity and recency. -/
structure Scanned where
  key : String
  updatedAt : Int
  deriving DecidableEq, Repr

/-- One observation of an issue: the ledger before and after the read, and what was read. -/
structure Reading where
  opened : SelfWriteLedger
  snapshot : Option IssueMovementSnapshot
  closed : SelfWriteLedger

/-- The reads a gate makes; a tool that refuses answers none. -/
structure Tracker where
  scanIssues : IssueQuery → Option (List Scanned)
  scanReviews : ReviewQuery → Option (List Scanned)
  readIssueMovement : Scanned → Reading

inductive Refusal where
  | trackerUnavailable
  | trackerProtocol (message detail : String)
  | operationMemberAbsent (missing stops : String)
  | passGateScope (message signal container : String)
  deriving DecidableEq, Repr

abbrev Asked := PassSignal × String
abbrev Watched := PassSignal × String × String
abbrev Observation := IssueMovementSnapshot × Nat

structure PassGate where
  signals : List PassSignal
  teamKeys : List String
  repoUrls : List String
  pageSize : Nat
  marks : Dict Asked (Option Int)
  advanced : Dict Asked (Option Int)
  observations : Dict Watched Observation
  previousObservations : Dict Watched Observation
  deriving DecidableEq, Repr

def PassSignal.value : PassSignal → String
  | .approvedChanged => "approved_changed"
  | .issuesChanged => "issues_changed"
  | .triageBacklog => "triage_backlog"
  | .reviewsChanged => "reviews_changed"

def isForgeLessOrigin (url : String) : Bool := "file://".isPrefixOf url

def forgeLess : String :=
  "a review scan resolves an owner and a repository out of a forge URL and this origin has no forge " ++
    "behind it, so the review signal cannot be asked about this repository at all"

def unbounded (signal : PassSignal) : String :=
  s!"the {signal.value} signal has no container to be bounded by, so nothing distinguishes this " ++
    "operation's work from any other in the workspace and the gate would answer about a board it does not own"

/-- The containers a signal is asked once per, refusing when it has none. -/
def containers (teamKeys repoUrls : List String) (signal : PassSignal) : Except Refusal (List String) :=
  match signal with
  | .reviewsChanged =>
    match repoUrls.find? isForgeLessOrigin with
    | some repoUrl => .error (.passGateScope forgeLess signal.value repoUrl)
    | none =>
      if repoUrls = [] then
        .error (.operationMemberAbsent "repository this gate's review signal can be scoped to" (unbounded signal))
      else .ok repoUrls
  | _ =>
    if teamKeys = [] then
      .error (.operationMemberAbsent "team this gate's issue signals can be scoped to" (unbounded signal))
    else .ok teamKeys

namespace PassGate

/-- Every question in the order it is asked. -/
def asks (teamKeys repoUrls : List String) : List PassSignal → Except Refusal (List Asked)
  | [] => .ok []
  | signal :: signals => do
    let held ← containers teamKeys repoUrls signal
    return held.map (fun container => (signal, container)) ++ (← asks teamKeys repoUrls signals)

def new (signals : List PassSignal) (teamKeys repoUrls : List String) (pageSize : Nat) : Except Refusal PassGate := do
  let asked ← asks teamKeys repoUrls signals
  return ⟨signals, teamKeys, repoUrls, pageSize, Dict.update [] (asked.map fun key => (key, none)), [], [], []⟩

/-- The high-water stamp the signal's next query over the container asks from. -/
def mark (gate : PassGate) (asked : Asked) : Option Int := (gate.marks.get? asked).join

/-- The mark over everything a page held, and what it held before. -/
def advance (gate : PassGate) (asked : Asked) (rows : List Scanned) : PassGate :=
  { gate with
    advanced := gate.advanced.set asked (gate.mark asked)
    marks := gate.marks.set asked (rows.map Scanned.updatedAt).max? }

section Observe
variable {Value : Type} (json : JsonLibrary Value)

/-- Whether a movement is the operation's own: its exact stamp, or a replay of its receipts. -/
def judgedOwn (closed : SelfWriteLedger) (previous : Option Observation) (mutations : Option (List OwnMutation))
    (issue : Scanned) (snapshot : IssueMovementSnapshot) : Bool :=
  closed.wrote issue.key issue.updatedAt ||
    match previous, mutations with
    | some (before, _), some mutations => matchesOwnMutations json before snapshot mutations
    | _, _ => false

/-- One issue's observation against what was retained of it. -/
def observeIssue (previous : Option Observation) (issue : Scanned) (reading : Reading) :
    Except Refusal (Bool × Observation) :=
  let (cursor, mutations) := reading.opened.receipts issue.key (previous.elim 0 Prod.snd)
  match reading.snapshot with
  | none => .error .trackerUnavailable
  | some snapshot =>
    let (finalCursor, _) := reading.closed.receipts issue.key 0
    if snapshot.issueKey ≠ issue.key ∨ snapshot.updatedAt ≠ issue.updatedAt ∨ cursor ≠ finalCursor then
      .error (.trackerProtocol "issue movement changed during the gate observation" issue.key)
    else .ok (judgedOwn json reading.closed previous mutations issue snapshot, (snapshot, cursor))

/-- A page's observations, up to the first that refuses. -/
def observePage (gate : PassGate) (tracker : Tracker) (asked : Asked) :
    List Scanned → Except Refusal (List (Scanned × Bool × Observation))
  | [] => .ok []
  | issue :: issues => do
    let seen ← observeIssue json (gate.observations.get? (asked.1, asked.2, issue.key)) issue
      (tracker.readIssueMovement issue)
    return (issue, seen) :: (← observePage gate tracker asked issues)

def issueDelta (gate : PassGate) (tracker : Tracker) (signal : PassSignal) (teamKey : String)
    (queueState : Option QueueState) : Except Refusal (List String × PassGate) :=
  match tracker.scanIssues ⟨queueState, some teamKey, gate.mark (signal, teamKey), gate.pageSize⟩ with
  | none => .error .trackerUnavailable
  | some [] => .ok ([], gate)
  | some issues => do
    let seen ← observePage json gate tracker (signal, teamKey) issues
    -- A container's window is committed only after every observation of it succeeded.
    let observed := seen.map fun row => ((signal, teamKey, row.1.key), row.2.2)
    return ((seen.filter fun row => row.2.1 = false).map fun row => row.1.key,
      { gate.advance (signal, teamKey) issues with observations := gate.observations.update observed })

def reviewDelta (gate : PassGate) (tracker : Tracker) (repoUrl : String) : Except Refusal (List String × PassGate) :=
  match tracker.scanReviews ⟨some repoUrl, gate.mark (.reviewsChanged, repoUrl), gate.pageSize⟩ with
  | none => .error .trackerUnavailable
  | some [] => .ok ([], gate)
  | some reviews => .ok (reviews.map Scanned.key, gate.advance (.reviewsChanged, repoUrl) reviews)

/-- The standing triage backlog: a size question, so no mark moves. -/
def backlog (gate : PassGate) (tracker : Tracker) (teamKey : String) : Except Refusal (List String × PassGate) :=
  match tracker.scanIssues ⟨some .triage, some teamKey, none, gate.pageSize⟩ with
  | none => .error .trackerUnavailable
  | some issues => .ok (issues.map Scanned.key, gate)

def observe (gate : PassGate) (tracker : Tracker) : Asked → Except Refusal (List String × PassGate)
  | (.triageBacklog, container) => gate.backlog tracker container
  | (.reviewsChanged, container) => gate.reviewDelta tracker container
  | (.approvedChanged, container) => gate.issueDelta json tracker .approvedChanged container (some .approved)
  | (.issuesChanged, container) => gate.issueDelta json tracker .issuesChanged container none

/-- The asks in turn: one that could not be asked contributes nothing and moves nothing. -/
def observeAll (gate : PassGate) (tracker : Tracker) : List Asked → List String × PassGate
  | [] => ([], gate)
  | asked :: rest =>
    match gate.observe json tracker asked with
    | .error _ => gate.observeAll tracker rest
    | .ok (moved, gate) =>
      let (changed, gate) := gate.observeAll tracker rest
      (moved ++ changed, gate)

structure PassDelta where
  changed : List String
  mark : Option Int
  deriving DecidableEq, Repr

/-- Scoped scans plus stable native snapshots: everything that moved. -/
def delta (gate : PassGate) (tracker : Tracker) : Except Refusal (PassDelta × PassGate) := do
  let asked ← asks gate.teamKeys gate.repoUrls gate.signals
  let opened := { gate with advanced := [], previousObservations := gate.observations }
  let (changed, gate) := opened.observeAll json tracker asked
  return (⟨changed, (gate.marks.values.filterMap id).max?⟩, gate)

end Observe

/-- Every mark the last delta advanced put back where it was. -/
def rearm (gate : PassGate) : PassGate :=
  { gate with
    observations := if gate.advanced = [] then gate.observations else gate.previousObservations
    marks := gate.marks.update gate.advanced
    advanced := [] }

end PassGate

end Kodezart.Gate
