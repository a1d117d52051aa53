import Mathlib
import Kodezart.JobQueue

/-! What one step of the queue can do, said once: a worker takes its lane's next job, goes
on with the one it has, or ends it. -/
namespace Kodezart.Jobs

/-- The job a worker's task is still running. -/
def Worker.active : Worker → Option String
  | .started jobId | .running jobId _ _ | .published jobId _ _ _ | .failing jobId _ _ | .reported jobId _ => some jobId
  | _ => none

/-- The job a worker's task runs, or was running as it ended. -/
def Worker.held : Worker → Option String
  | .gone jobId => jobId
  | worker => worker.active

/-- A record that changed at most in whether it was truncated. -/
structure Kept (record record' : JobRecord) : Prop where
  lane : record'.lane = record.lane
  state : record'.state = record.state
  position : record'.queuePosition = record.queuePosition
  outcome : record'.outcome = record.outcome

theorem keptRefl (record : JobRecord) : Kept record record := ⟨rfl, rfl, rfl, rfl⟩

/-- Books in which every record was kept. -/
structure Books (records records' : Dict String JobRecord) : Prop where
  keyed : records.keys.Nodup → records'.keys.Nodup
  kept : ∀ jobId, Option.Rel Kept (records.get? jobId) (records'.get? jobId)

theorem relRefl (record : Option JobRecord) : Option.Rel Kept record record := by
  cases record with
  | none => exact .none
  | some record => exact .some (keptRefl record)

theorem booksRefl (records : Dict String JobRecord) : Books records records :=
  ⟨id, fun jobId => relRefl (records.get? jobId)⟩

theorem booksTruncated {records : Dict String JobRecord} {jobId : String} {record : JobRecord}
    (found : records.get? jobId = some record) (truncated : Bool) :
    Books records (records.set jobId { record with truncated }) := by
  refine ⟨Dict.setNodup _ _, fun other => ?_⟩
  rw [Dict.getSet]
  split
  · rename_i same
    subst same
    rw [found]
    exact .some ⟨rfl, rfl, rfl, rfl⟩
  · exact relRefl _

namespace JobQueue
variable {limits : Limits} {queue sent : JobQueue} {lane jobId : String} {i : Nat} {runtime : Lane} {worker : Worker}
  {event : AgentEvent} {warned : Bool}

/-- Everything but the streams and the records' marks of truncation. -/
structure Aside (queue queue' : JobQueue) : Prop where
  accepting : queue'.accepting = queue.accepting
  stopped : queue'.stopped = queue.stopped
  lanes : queue'.lanes = queue.lanes
  books : Books queue.records queue'.records
  evictions : queue'.evictions = queue.evictions
  drawn : queue'.drawn = queue.drawn

theorem publishAside (ok : queue.publish limits jobId event = some (sent, warned)) : Aside queue sent := by
  simp only [publish, Option.bind_eq_bind, Option.bind_eq_some_iff] at ok
  obtain ⟨stream, -, ok⟩ := ok
  split at ok
  · obtain ⟨record, found, ok⟩ := Option.bind_eq_some_iff.mp ok
    split at ok
    · cases ok
      exact ⟨rfl, rfl, rfl, booksRefl _, rfl, rfl⟩
    · cases ok
      exact ⟨rfl, rfl, rfl, booksTruncated found true, rfl, rfl⟩
  · cases ok
    exact ⟨rfl, rfl, rfl, booksRefl _, rfl, rfl⟩

theorem putFound (found : queue.lanes.get? lane = some runtime) (next : Worker) : queue.put lane i next =
    { queue with lanes := queue.lanes.set lane { runtime with workers := runtime.workers.set i next } } := by
  simp [put, found]

/-- A worker goes on with what it holds, or its task ends holding it. -/
structure Goes (worker next : Worker) : Prop where
  active : next.active = worker.active ∨ next.active = none
  held : ∀ jobId, worker.held = some jobId → next.held = some jobId
  unfinished : ∀ jobId, next ≠ .finishing jobId

/-- One step of a worker's task. -/
inductive Worked (limits : Limits) (queue : JobQueue) (lane : String) (i : Nat) (runtime : Lane) (worker : Worker) :
    JobQueue → Prop where
  | took {jobId : String} {rest : List String} (waits : worker = .waiting) (head : runtime.queue = jobId :: rest) :
      Worked limits queue lane i runtime worker (queue.take lane i runtime jobId rest)
  | went {sent : JobQueue} {next : Worker} (aside : Aside queue sent) (goes : Goes worker next) :
      Worked limits queue lane i runtime worker (sent.put lane i next)
  | finished {sent : JobQueue} {jobId : String} (aside : Aside queue sent) (runs : worker.active = some jobId)
      (outcome : Option WorkflowOutcome) :
      Worked limits queue lane i runtime worker (sent.finish lane i jobId outcome)
  | settled {jobId : String} (finishing : worker = .finishing jobId) :
      Worked limits queue lane i runtime worker (({ queue with
        evictions := queue.evictions ++ [(jobId, .buffer), (jobId, .record)] } : JobQueue).put lane i .waiting)

theorem asideRefl (queue : JobQueue) : Aside queue queue := ⟨rfl, rfl, rfl, booksRefl _, rfl, rfl⟩

theorem goesOn {next : Worker} {jobId : String} (now : worker.active = some jobId) (held : next.held = some jobId)
    (active : next.active = some jobId ∨ next.active = none) (unfinished : ∀ jobId, next ≠ .finishing jobId) :
    Goes worker next := by
  refine ⟨by rwa [now], fun other holds => ?_, unfinished⟩
  have own : worker.held = worker.active := by
    cases worker <;> simp_all [Worker.active, Worker.held]
  rw [own, now] at holds
  rw [held, holds]

theorem handledGoes (now : worker.active = some jobId) (expired : Bool) (raised : Raised) :
    Goes worker (queue.handled limits jobId expired raised) := by
  have shape : (∃ outcome event, queue.handled limits jobId expired raised = .failing jobId outcome event) ∨
      queue.handled limits jobId expired raised = .gone (some jobId) := by
    cases raised with
    | cancelled =>
      simp only [handled]
      split
      · exact Or.inl ⟨_, _, rfl⟩
      · exact Or.inr rfl
    | error prints event =>
      simp only [handled]
      split
      · exact Or.inl ⟨_, _, rfl⟩
      · split
        · exact Or.inl ⟨_, _, rfl⟩
        · exact Or.inr rfl
    | fatal => exact Or.inr rfl
  rcases shape with ⟨outcome, event, same⟩ | same
  · rw [same]
    exact goesOn now rfl (Or.inl rfl) (by simp)
  · rw [same]
    exact goesOn now rfl (Or.inr rfl) (by simp)

theorem receivedWorked (now : worker.active = some jobId) (outcome : Option WorkflowOutcome) (expired : Bool) :
    Worked limits queue lane i runtime worker (queue.received limits lane i jobId outcome expired event) := by
  simp only [received]
  split
  · exact .went (asideRefl queue) (handledGoes now _ _)
  · rename_i sent ok
    exact .went (publishAside ok) (goesOn now rfl (Or.inl rfl) (by simp))
  · rename_i sent ok
    exact .went (publishAside ok) (goesOn now rfl (Or.inl rfl) (by simp))

theorem reportWorked (now : worker.active = some jobId) (outcome : WorkflowOutcome) (event : Option AgentEvent) :
    Worked limits queue lane i runtime worker (queue.report limits lane i jobId outcome event) := by
  cases event with
  | none => exact .went (asideRefl queue) (goesOn now rfl (Or.inr rfl) (by simp))
  | some event =>
    simp only [report]
    split
    · exact .went (asideRefl queue) (goesOn now rfl (Or.inr rfl) (by simp))
    · rename_i sent ok
      exact .went (publishAside ok) (goesOn now rfl (Or.inl rfl) (by simp))
    · rename_i sent ok
      exact .finished (publishAside ok) now _

theorem workOk {act : Act} {queue' : JobQueue} (ok : queue.work limits lane i act = some queue') :
    ∃ runtime worker, queue.lanes.get? lane = some runtime ∧ runtime.workers[i]? = some worker ∧
      Worked limits queue lane i runtime worker queue' := by
  simp only [work, Option.bind_eq_bind, Option.bind_eq_some_iff] at ok
  obtain ⟨runtime, found, worker, stands, ok⟩ := ok
  refine ⟨runtime, worker, found, stands, ?_⟩
  have on : ∀ {jobId next}, worker.active = some jobId → next.held = some jobId →
      (next.active = some jobId ∨ next.active = none) → (∀ jobId, next ≠ .finishing jobId) →
      Worked limits queue lane i runtime worker (queue.put lane i next) :=
    fun now held active unfinished => .went (asideRefl queue) (goesOn now held active unfinished)
  split at ok
  · -- A waiting worker takes the head of its lane's queue.
    split at ok
    · cases ok
    · rename_i jobId rest head
      cases ok
      exact .took rfl head
  · cases ok
    exact on rfl rfl (Or.inl rfl) (by simp)
  · cases ok
    exact receivedWorked rfl _ _
  · cases ok
    exact .finished (asideRefl queue) rfl _
  · cases ok
    exact .went (asideRefl queue) (handledGoes rfl _ _)
  · split at ok
    · cases ok
      exact on rfl rfl (Or.inl rfl) (by simp)
    · cases ok
  · cases ok
    exact on rfl rfl (Or.inl rfl) (by simp)
  · split at ok
    · cases ok
      exact on rfl rfl (Or.inl rfl) (by simp)
    · cases ok
  · split at ok
    · cases ok
    · cases ok
      exact .went (asideRefl queue) (handledGoes rfl _ _)
  · cases ok
    exact reportWorked rfl _ _
  · cases ok
    exact .finished (asideRefl queue) rfl _
  · cases ok
    exact .settled rfl
  · -- What is left is the cancellation of an await a stop finds the task at.
    split at ok
    · cases ok
    · cases ok
      exact .went (asideRefl queue) ⟨Or.inl rfl, by simp [Worker.held, Worker.active], by simp⟩
  · split at ok
    · cases ok
    · cases ok
      exact on rfl rfl (Or.inr rfl) (by simp)
  · split at ok
    · cases ok
    · cases ok
      exact on rfl rfl (Or.inr rfl) (by simp)
  · split at ok
    · cases ok
    · cases ok
      exact on rfl rfl (Or.inr rfl) (by simp)
  · split at ok
    · cases ok
    · cases ok
      exact .went (asideRefl queue) ⟨Or.inl rfl, by simp [Worker.held, Worker.active], by simp⟩
  · cases ok

end JobQueue
end Kodezart.Jobs
