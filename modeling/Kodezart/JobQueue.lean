import Mathlib
import Kodezart.Dict
import Kodezart.Tracker

/-! The in-process queue of runs: one queue, arrival order and set of workers for each
lane, the records every job is read by, and the steps its tasks take between awaits. -/
namespace Kodezart.Jobs
open Tracker

inductive JobState where
  | queued | running | terminal
  deriving DecidableEq, Repr

inductive WorkflowOutcome where
  | mergeDivergent | fixConsolidationFailed | loopPlateaued | loopNotAccepted | reviewPassedNoPrAdapter
  | reviewFailedFixBudgetExhausted | prOpened | ciPassed | ciNotConfigured | ciFailedFixBudgetExhausted
  | criteriaInfeasible | stalledPrOpened | zeroCommitNoPr | remediationBudgetExhausted | engineError
  | shutdownAbandoned | scopeConverged | scopeConvergedWithResidual | scopeStoppedShort | handedOffForDelivery
  | ciFailedEnvironmentPrerequisite | ciFailedUnclassified | ciNoRunAtRef | rulingUnrecorded | jobTimedOut
  deriving DecidableEq, Repr

/-- A frame of a run: its terminal event, its error event, or any other. -/
inductive AgentEvent where
  | terminal (outcome : WorkflowOutcome)
  | error (error errorKind : String)
  | frame (spelling : String)
  deriving DecidableEq, Repr

structure WorkflowSubmission where
  prompt : String
  issueKey : Option String
  scope : Option ScopeRef
  deriving DecidableEq, Repr

structure JobRecord where
  jobId : String
  lane : String
  state : JobState
  queuePosition : Option Nat
  submittedAt : Int
  scope : Option ScopeRef
  outcome : Option WorkflowOutcome
  truncated : Bool
  deriving DecidableEq, Repr

/-- A job's bounded replay buffer. -/
structure JobStream where
  buffer : List AgentEvent
  closed : Bool
  deriving DecidableEq, Repr

/-- Where a worker is suspended, and what it holds there. -/
inductive Worker where
  | waiting
  | started (jobId : String)
  | running (jobId : String) (outcome : Option WorkflowOutcome) (expired : Bool)
  | published (jobId : String) (outcome : Option WorkflowOutcome) (event : AgentEvent) (expired : Bool)
  | failing (jobId : String) (outcome : WorkflowOutcome) (event : Option AgentEvent)
  | reported (jobId : String) (outcome : WorkflowOutcome)
  | finishing (jobId : String)
  /-- The task has ended, with the job it was running, if it was. -/
  | gone (jobId : Option String)
  deriving DecidableEq, Repr

def Worker.ended : Worker → Bool
  | .gone _ => true
  | _ => false

/-- One lane's queue, arrival order and worker tasks. -/
structure Lane where
  queue : List String
  pending : List String
  workers : List Worker
  deriving DecidableEq, Repr

inductive Retention where
  | buffer | record
  deriving DecidableEq, Repr

/-- The queue's configured limits, within the bounds its settings accept. -/
structure Limits where
  maxConcurrentRunsPerLane : Nat
  maxDepthPerLane : Nat
  eventBufferCapacity : Nat
  runTimeoutSeconds : Option String
  concurrent : 0 < maxConcurrentRunsPerLane
  deep : 0 < maxDepthPerLane
  capacious : 0 < eventBufferCapacity

structure JobQueue where
  accepting : Bool
  stopped : Bool
  lanes : Dict String Lane
  records : Dict String JobRecord
  requests : Dict String WorkflowSubmission
  streams : Dict String JobStream
  evictions : List (String × Retention)
  /-- Every identity a submission has drawn. -/
  drawn : List String
  deriving DecidableEq, Repr

/-- What a raise leaves the handler: an exception, with whether its text can be taken and the
error event built of it, a cancellation, or anything no handler names. -/
inductive Raised where
  | error (prints : Bool) (event : Option AgentEvent)
  | cancelled
  | fatal
  deriving DecidableEq, Repr

/-- What a worker's task does next, where it is suspended. -/
inductive Act where
  | takes
  | resumes
  | cancelled
  | yields (event : AgentEvent)
  | ends
  | raises (raised : Raised)
  | expires
  deriving DecidableEq, Repr

inductive QueueFullError where
  | notAccepting (lane : String)
  | atCapacity (lane : String) (maxDepthPerLane : Nat)
  deriving DecidableEq, Repr

def defaultLane : String := "workflow"

namespace JobQueue

def new : JobQueue := ⟨false, false, [], [], [], [], [], []⟩

section Limited
variable (limits : Limits)

def ensureLane (queue : JobQueue) (lane : String) : JobQueue :=
  match queue.lanes.get? lane with
  | some _ => queue
  | none => { queue with
      lanes := queue.lanes.set lane ⟨[], [], List.replicate limits.maxConcurrentRunsPerLane .waiting⟩ }

/-- Open for submissions, with the default lane's workers. -/
def start (queue : JobQueue) : JobQueue := ({ queue with accepting := true } : JobQueue).ensureLane limits defaultLane

def submit (queue : JobQueue) (lane : String) (request : WorkflowSubmission) (jobId : String) (now : Int) :
    JobQueue × Except QueueFullError JobRecord :=
  if queue.accepting = false then (queue, .error (.notAccepting lane))
  else
    let opened := queue.ensureLane limits lane
    match opened.lanes.get? lane with
    | none => (opened, .error (.atCapacity lane limits.maxDepthPerLane))
    | some runtime =>
      if limits.maxDepthPerLane ≤ runtime.queue.length then
        (opened, .error (.atCapacity lane limits.maxDepthPerLane))
      else
        let record : JobRecord := ⟨jobId, lane, .queued, some (runtime.pending.length + 1), now, request.scope, none, false⟩
        ({ opened with
            lanes := opened.lanes.set lane { runtime with
              queue := runtime.queue ++ [jobId], pending := runtime.pending ++ [jobId] }
            records := opened.records.set jobId record
            requests := opened.requests.set jobId request
            streams := opened.streams.set jobId ⟨[], false⟩
            drawn := jobId :: opened.drawn }, .ok record)

/-- Every waiting record's position, counted from `position`. -/
def reindex (position : Nat) : List String → Dict String JobRecord → Dict String JobRecord
  | [], records => records
  | jobId :: pending, records => reindex (position + 1) pending (match records.get? jobId with
    | some record =>
      if record.state = .queued then records.set jobId { record with queuePosition := some position } else records
    | none => records)

def put (queue : JobQueue) (lane : String) (i : Nat) (worker : Worker) : JobQueue :=
  match queue.lanes.get? lane with
  | none => queue
  | some runtime => { queue with lanes := queue.lanes.set lane { runtime with workers := runtime.workers.set i worker } }

/-- A worker's next job taken off its lane, up to the log of its start. -/
def take (queue : JobQueue) (lane : String) (i : Nat) (runtime : Lane) (jobId : String) (rest : List String) :
    JobQueue :=
  let pending := runtime.pending.erase jobId
  let taken : JobQueue := { queue with
    lanes := queue.lanes.set lane { runtime with queue := rest, pending }
    records := reindex 1 pending queue.records }
  match taken.records.get? jobId with
  | none => taken.put lane i (.gone (some jobId))
  | some record =>
    let amended : JobQueue := { taken with
      records := taken.records.set jobId { record with state := .running, queuePosition := none }
      requests := taken.requests.erase jobId }
    if jobId ∈ taken.requests.keys then amended.put lane i (.started jobId)
    else amended.put lane i (.gone (some jobId))

/-- One frame on a job's stream, and whether its record was marked truncated for it. -/
def publish (queue : JobQueue) (jobId : String) (event : AgentEvent) : Option (JobQueue × Bool) := do
  let stream ← queue.streams.get? jobId
  let dropped := stream.buffer.length = limits.eventBufferCapacity
  let buffer := if dropped then stream.buffer.tail ++ [event] else stream.buffer ++ [event]
  let sent : JobQueue := { queue with streams := queue.streams.set jobId { stream with buffer } }
  if dropped then
    let record ← sent.records.get? jobId
    if record.truncated then return (sent, false)
    else return ({ sent with records := sent.records.set jobId { record with truncated := true } }, true)
  else return (sent, false)

/-- The job's record TERMINAL and its stream closed, up to the log of its end. -/
def finish (queue : JobQueue) (lane : String) (i : Nat) (jobId : String) (outcome : Option WorkflowOutcome) :
    JobQueue :=
  match queue.records.get? jobId with
  | none => queue.put lane i (.gone (some jobId))
  | some record =>
    let amended : JobQueue := { queue with
      records := queue.records.set jobId { record with state := .terminal, queuePosition := none, outcome } }
    match amended.streams.get? jobId with
    | none => amended.put lane i (.gone none)
    | some stream =>
      ({ amended with streams := amended.streams.set jobId { stream with closed := true } } : JobQueue).put lane i
        (.finishing jobId)

def timedOut : AgentEvent :=
  .error ("job ran past the queue's run time limit of " ++ limits.runTimeoutSeconds.getD "None" ++
    " seconds and was cancelled") "TimeoutError"

/-- What a raise under the deadline makes of the worker. Only the limit's own cancellation is
told apart, and a stop's cancellation takes precedence over it. -/
def handled (queue : JobQueue) (jobId : String) (expired : Bool) : Raised → Worker
  | .cancelled => if expired && queue.accepting then .failing jobId .jobTimedOut (some (timedOut limits)) else .gone (some jobId)
  | .error prints event =>
    if expired then .failing jobId .jobTimedOut (some (timedOut limits))
    else if prints then .failing jobId .engineError event
    else .gone (some jobId)
  | .fatal => .gone (some jobId)

/-- The outcome a frame carries, where it is the run's terminal event. -/
def noted (outcome : Option WorkflowOutcome) : AgentEvent → Option WorkflowOutcome
  | .terminal reported => some reported
  | _ => outcome

def received (queue : JobQueue) (lane : String) (i : Nat) (jobId : String) (outcome : Option WorkflowOutcome)
    (expired : Bool) (event : AgentEvent) : JobQueue :=
  match queue.publish limits jobId event with
  | none => queue.put lane i (queue.handled limits jobId expired (.error true (some (.error jobId "KeyError"))))
  | some (sent, true) => sent.put lane i (.published jobId outcome event expired)
  | some (sent, false) => sent.put lane i (.running jobId (noted outcome event) expired)

def report (queue : JobQueue) (lane : String) (i : Nat) (jobId : String) (outcome : WorkflowOutcome) :
    Option AgentEvent → JobQueue
  | none => queue.put lane i (.gone (some jobId))
  | some event =>
    match queue.publish limits jobId event with
    | none => queue.put lane i (.gone (some jobId))
    | some (sent, true) => sent.put lane i (.reported jobId outcome)
    | some (sent, false) => sent.finish lane i jobId outcome

/-- A worker's task from one await to the next. A cancellation reaches an await of the queue's
own from a stop, or from the limit where the limit covers it. -/
def work (queue : JobQueue) (lane : String) (i : Nat) (act : Act) : Option JobQueue := do
  let runtime ← queue.lanes.get? lane
  let worker ← runtime.workers[i]?
  match worker, act with
  | .waiting, .takes =>
    match runtime.queue with
    | [] => none
    | jobId :: rest => some (queue.take lane i runtime jobId rest)
  | .started jobId, .resumes => some (queue.put lane i (.running jobId none false))
  | .running jobId outcome expired, .yields event => some (queue.received limits lane i jobId outcome expired event)
  | .running jobId outcome _, .ends => some (queue.finish lane i jobId outcome)
  | .running jobId _ expired, .raises raised => some (queue.put lane i (queue.handled limits jobId expired raised))
  | .running jobId outcome false, .expires =>
    if limits.runTimeoutSeconds.isSome then some (queue.put lane i (.running jobId outcome true)) else none
  | .published jobId outcome event expired, .resumes =>
    some (queue.put lane i (.running jobId (noted outcome event) expired))
  | .published jobId outcome event false, .expires =>
    if limits.runTimeoutSeconds.isSome then some (queue.put lane i (.published jobId outcome event true)) else none
  | .published jobId _ _ expired, .cancelled =>
    if queue.accepting && !expired then none
    else some (queue.put lane i (queue.handled limits jobId expired .cancelled))
  | .failing jobId outcome event, .resumes => some (queue.report limits lane i jobId outcome event)
  | .reported jobId outcome, .resumes => some (queue.finish lane i jobId outcome)
  | .finishing jobId, .resumes => some (({ queue with
      evictions := queue.evictions ++ [(jobId, .buffer), (jobId, .record)] } : JobQueue).put lane i .waiting)
  | .waiting, .cancelled => if queue.accepting then none else some (queue.put lane i (.gone none))
  | .started jobId, .cancelled => if queue.accepting then none else some (queue.put lane i (.gone (some jobId)))
  | .failing jobId _ _, .cancelled => if queue.accepting then none else some (queue.put lane i (.gone (some jobId)))
  | .reported jobId _, .cancelled => if queue.accepting then none else some (queue.put lane i (.gone (some jobId)))
  | .finishing _, .cancelled => if queue.accepting then none else some (queue.put lane i (.gone none))
  | _, _ => none

end Limited

def dropBuffer (queue : JobQueue) (jobId : String) : JobQueue :=
  match queue.streams.get? jobId with
  | none => queue
  | some stream =>
    let discarded : JobQueue := { queue with streams := queue.streams.set jobId { stream with buffer := [] } }
    match stream.buffer, discarded.records.get? jobId with
    | [], _ => discarded
    | _, none => discarded
    | _, some record =>
      if record.truncated then discarded
      else { discarded with records := discarded.records.set jobId { record with truncated := true } }

def dropRecord (queue : JobQueue) (jobId : String) : JobQueue :=
  { queue with records := queue.records.erase jobId, streams := queue.streams.erase jobId }

/-- One scheduled eviction, once its window has passed. -/
def evict (queue : JobQueue) (jobId : String) (retention : Retention) : Option JobQueue :=
  if (jobId, retention) ∈ queue.evictions then
    let queue := { queue with evictions := queue.evictions.erase (jobId, retention) }
    match retention with
    | .buffer => some (queue.dropBuffer jobId)
    | .record => some (queue.dropRecord jobId)
  else none

/-- The first part of a stop: nothing more is accepted, every task is cancelled. -/
def stop (queue : JobQueue) : JobQueue := { queue with accepting := false, stopped := false, evictions := [] }

def abandon (record : JobRecord) : JobRecord :=
  if record.state = .terminal then record
  else { record with state := .terminal, queuePosition := none, outcome := some .shutdownAbandoned }

/-- The rest of a stop, once every worker has ended: whatever is open is abandoned. -/
def sweep (queue : JobQueue) : Option JobQueue :=
  if queue.accepting = false ∧ ∀ e ∈ queue.lanes, ∀ worker ∈ e.2.workers, worker.ended then
    some { queue with
      stopped := true
      lanes := queue.lanes.map fun e => (e.1, { e.2 with pending := [], workers := [] })
      records := queue.records.map fun e => (e.1, abandon e.2)
      streams := queue.streams.map fun e => (e.1, if (queue.records.get? e.1).any (fun record => record.state ≠ .terminal)
        then { e.2 with closed := true } else e.2) }
  else none

end JobQueue

inductive Event where
  | submitted (lane : String) (request : WorkflowSubmission) (jobId : String) (now : Int)
  | worked (lane : String) (i : Nat) (act : Act)
  | evicted (jobId : String) (retention : Retention)
  | stopping
  | stopped
  deriving DecidableEq, Repr

/-- One task's step between awaits. An identity drawn for a job is drawn once. -/
def JobQueue.next (limits : Limits) (queue : JobQueue) : Event → Option JobQueue
  | .submitted lane request jobId now =>
    if jobId ∈ queue.drawn then none else some (queue.submit limits lane request jobId now).1
  | .worked lane i act => queue.work limits lane i act
  | .evicted jobId retention => queue.evict jobId retention
  | .stopping => some queue.stop
  | .stopped => queue.sweep

end Kodezart.Jobs
