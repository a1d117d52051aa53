import Mathlib
import Kodezart.JobQueueHistory

/-! The workers of a lane while the queue accepts: which raises end one, and that every
other way a run can go brings its worker back to the next job. -/
namespace Kodezart.Jobs
open Machine

/-- Neither ended nor about to end on an error it has no event for. -/
def Worker.sturdy : Worker → Bool
  | .gone _ => false
  | .failing _ _ none => false
  | _ => true

/-- How many of a worker's own steps lie between it and its next job, once its engine is done. -/
def Worker.home : Worker → Nat
  | .waiting => 0
  | .finishing _ => 1
  | .reported _ _ => 2
  | .failing _ _ _ => 3
  | .running _ _ _ => 4
  | .started _ | .published _ _ _ _ => 5
  | .gone _ => 6

/-- The steps that are not the engine's next frame, the clock's or a lane's next job. -/
def Act.drives : Act → Bool
  | .resumes | .ends | .raises _ | .cancelled => true
  | .takes | .yields _ | .expires => false

/-- A raise that a handler of the run reports: an exception that can be told, or anything that
cancels a run past its limit. -/
def Raised.reported (expired : Bool) : Raised → Bool
  | .error prints event => expired || prints && event.isSome
  | .cancelled => expired
  | .fatal => false

namespace JobQueue
variable {limits : Limits} {queue queue' sent : JobQueue} {lane jobId : String} {i : Nat} {act : Act} {runtime : Lane}
  {worker next : Worker} {record : JobRecord} {event : AgentEvent} {warned : Bool}

def Stands (queue : JobQueue) (lane : String) (i : Nat) (worker : Worker) : Prop :=
  ∃ runtime, queue.lanes.get? lane = some runtime ∧ runtime.workers[i]? = some worker

/-- While the queue accepts, no engine raises what its run does not report. -/
def Orderly (queue : JobQueue) : Event → Prop
  | .worked lane i (.raises raised) => queue.accepting = true →
    ∀ jobId outcome expired, queue.Stands lane i (.running jobId outcome expired) → raised.reported expired
  | _ => True

structure Manned (queue : JobQueue) : Prop where
  live : ∀ lane i worker, queue.Stands lane i worker → worker.sturdy
  finished : ∀ lane i jobId, queue.Stands lane i (.finishing jobId) →
    ∃ record, queue.records.get? jobId = some record ∧ record.lane = lane ∧ record.state = .terminal
  alone : ∀ lane i j jobId, queue.Stands lane i (.finishing jobId) → queue.Stands lane j (.finishing jobId) → i = j
  unscheduled : ∀ lane i jobId, queue.Stands lane i (.finishing jobId) → ∀ e ∈ queue.evictions, e.1 ≠ jobId
  streamed : ∀ lane i worker jobId, queue.Stands lane i worker → worker.active = some jobId →
    jobId ∈ queue.streams.keys
  waits : ∀ lane runtime, queue.lanes.get? lane = some runtime → ∀ jobId ∈ runtime.queue,
    jobId ∈ queue.requests.keys ∧ jobId ∈ queue.streams.keys

theorem publishOk (limits : Limits) (event : AgentEvent) (streamed : jobId ∈ queue.streams.keys) (found : queue.records.get? jobId = some record) :
    ∃ sent warned, queue.publish limits jobId event = some (sent, warned) ∧
      sent.streams.keys = queue.streams.keys ∧ sent.requests = queue.requests := by
  obtain ⟨stream, stands⟩ := (Dict.getSome _ _).mp streamed
  simp only [publish, stands, Option.bind_eq_bind, Option.bind_some]
  split
  · simp only [found, Option.bind_some]
    split
    · exact ⟨_, _, rfl, setKeys stands _, rfl⟩
    · exact ⟨_, _, rfl, setKeys stands _, rfl⟩
  · exact ⟨_, _, rfl, setKeys stands _, rfl⟩

/-- One step of a sturdy worker. -/
inductive Turned (limits : Limits) (queue : JobQueue) (lane : String) (i : Nat) (runtime : Lane) (worker : Worker)
    (act : Act) : JobQueue → Prop where
  | took {jobId : String} {rest : List String} (waits : worker = .waiting) (head : runtime.queue = jobId :: rest)
      (takes : act = .takes) : Turned limits queue lane i runtime worker act (queue.take lane i runtime jobId rest)
  | went {sent : JobQueue} {next : Worker} {jobId : String} (aside : Aside queue sent)
      (streams : sent.streams.keys = queue.streams.keys) (requests : sent.requests = queue.requests)
      (was : worker.active = some jobId) (now : next.active = some jobId) (live : next.sturdy)
      (nearer : act.drives → next.home < worker.home) :
      Turned limits queue lane i runtime worker act (sent.put lane i next)
  | finished {sent : JobQueue} {jobId : String} (aside : Aside queue sent)
      (streams : sent.streams.keys = queue.streams.keys) (requests : sent.requests = queue.requests)
      (runs : worker.active = some jobId) (outcome : Option WorkflowOutcome) :
      Turned limits queue lane i runtime worker act (sent.finish lane i jobId outcome)
  | settled {jobId : String} (finishing : worker = .finishing jobId) :
      Turned limits queue lane i runtime worker act (({ queue with
        evictions := queue.evictions ++ [(jobId, .buffer), (jobId, .record)] } : JobQueue).put lane i .waiting)

theorem handledReported (limits : Limits) (jobId : String) {raised : Raised} {expired : Bool} (accepting : queue.accepting = true)
    (reported : raised.reported expired) :
    ∃ outcome event, queue.handled limits jobId expired raised = .failing jobId outcome (some event) := by
  cases expired with
  | true =>
    cases raised with
    | error prints event => exact ⟨_, _, rfl⟩
    | cancelled => exact ⟨.jobTimedOut, timedOut limits, by simp [handled, accepting]⟩
    | fatal => cases reported
  | false =>
    cases raised with
    | error prints event =>
      obtain ⟨prints, told⟩ : prints = true ∧ event.isSome := by simpa [Raised.reported] using reported
      obtain ⟨event, rfl⟩ := Option.isSome_iff_exists.mp told
      exact ⟨.engineError, event, by simp [handled, prints]⟩
    | cancelled => cases reported
    | fatal => cases reported

theorem receivedTurned (streamed : jobId ∈ queue.streams.keys) (found : queue.records.get? jobId = some record)
    (runs : worker.active = some jobId) (outcome : Option WorkflowOutcome) (expired : Bool) :
    Turned limits queue lane i runtime worker (.yields event)
      (queue.received limits lane i jobId outcome expired event) := by
  obtain ⟨sent, warned, ok, streams, requests⟩ := publishOk limits event streamed found
  simp only [received, ok]
  cases warned with
  | true => exact .went (publishAside ok) streams requests runs rfl rfl (by simp [Act.drives])
  | false => exact .went (publishAside ok) streams requests runs rfl rfl (by simp [Act.drives])

theorem reportTurned (streamed : jobId ∈ queue.streams.keys) (found : queue.records.get? jobId = some record)
    (outcome : WorkflowOutcome) :
    Turned limits queue lane i runtime (.failing jobId outcome (some event)) act
      (queue.report limits lane i jobId outcome (some event)) := by
  obtain ⟨sent, warned, ok, streams, requests⟩ := publishOk limits event streamed found
  simp only [report, ok]
  cases warned with
  | true => exact .went (publishAside ok) streams requests rfl rfl rfl (by simp [Worker.home])
  | false => exact .finished (publishAside ok) streams requests rfl _

theorem workTurns (sound : queue.Sound limits) (manned : queue.Manned) (accepting : queue.accepting = true)
    (orderly : queue.Orderly (.worked lane i act)) (ok : queue.work limits lane i act = some queue') :
    ∃ runtime worker, queue.lanes.get? lane = some runtime ∧ runtime.workers[i]? = some worker ∧
      Turned limits queue lane i runtime worker act queue' := by
  simp only [work, Option.bind_eq_bind, Option.bind_eq_some_iff] at ok
  obtain ⟨runtime, found, worker, stands, ok⟩ := ok
  refine ⟨runtime, worker, found, stands, ?_⟩
  have stands' : queue.Stands lane i worker := ⟨runtime, found, stands⟩
  have live := manned.live lane i worker stands'
  have same := asideRefl queue
  have booked : ∀ {jobId}, worker.active = some jobId → jobId ∈ queue.streams.keys ∧
      ∃ record, queue.records.get? jobId = some record := by
    intro jobId runs
    obtain ⟨record, held, -⟩ := (sound.lanes lane runtime found).crew.runs worker (List.mem_of_getElem? stands) jobId runs
    exact ⟨manned.streamed lane i worker jobId stands' runs, record, held⟩
  split at ok
  · split at ok
    · cases ok
    · rename_i head
      cases ok
      exact .took rfl head rfl
  · cases ok
    exact .went same rfl rfl rfl rfl rfl (by simp [Worker.home])
  · cases ok
    obtain ⟨streamed, record, held⟩ := booked rfl
    exact receivedTurned streamed held rfl _ _
  · cases ok
    exact .finished same rfl rfl rfl _
  · -- What the run raises is reported, so the worker is left failing.
    rename_i jobId outcome expired raised
    cases ok
    obtain ⟨outcome', event, failing⟩ :=
      handledReported limits jobId accepting (orderly accepting jobId outcome expired stands')
    rw [failing]
    exact .went same rfl rfl rfl rfl rfl (by simp [Worker.home])
  · split at ok
    · cases ok
      exact .went same rfl rfl rfl rfl rfl (by simp [Act.drives])
    · cases ok
  · cases ok
    exact .went same rfl rfl rfl rfl rfl (by simp [Worker.home])
  · split at ok
    · cases ok
      exact .went same rfl rfl rfl rfl rfl (by simp [Act.drives])
    · cases ok
  · rename_i jobId outcome event expired
    split at ok
    · cases ok
    · rename_i unheld
      cases ok
      have past : Raised.reported expired .cancelled := by simpa [accepting, Raised.reported] using unheld
      obtain ⟨outcome', event, failing⟩ := handledReported limits jobId accepting past
      rw [failing]
      exact .went same rfl rfl rfl rfl rfl (by simp [Worker.home])
  · rename_i jobId outcome event
    cases ok
    obtain ⟨streamed, record, held⟩ := booked rfl
    cases event with
    | none => cases live
    | some event => exact reportTurned streamed held outcome
  · cases ok
    exact .finished same rfl rfl rfl _
  · cases ok
    exact .settled rfl
  all_goals
    first
      | cases ok
      | rw [if_pos accepting] at ok
        cases ok

theorem standsSet {lane' : String} {j : Nat} {other : Worker} {waiting pending : List String}
    (found : queue.lanes.get? lane = some runtime)
    (lanes : queue'.lanes = queue.lanes.set lane ⟨waiting, pending, runtime.workers.set i next⟩)
    (there : queue'.Stands lane' j other) :
    (lane' = lane ∧ j = i ∧ other = next) ∨ (queue.Stands lane' j other ∧ ¬ (lane' = lane ∧ j = i)) := by
  obtain ⟨runtime', found', at'⟩ := there
  rw [lanes, Dict.getSet] at found'
  split at found'
  · rename_i same
    subst same
    cases found'
    simp only [List.getElem?_set] at at'
    split at at'
    · split at at'
      · exact Or.inl ⟨rfl, Eq.symm ‹_›, (Option.some.inj at').symm⟩
      · cases at'
    · rename_i different
      exact Or.inr ⟨⟨runtime, found, at'⟩, fun same => different same.2.symm⟩
  · rename_i different
    exact Or.inr ⟨⟨runtime', found', at'⟩, fun same => different same.1.symm⟩

/-- One worker of a lane becomes another, and the rest stand as they stood. -/
structure Handed (queue queue' : JobQueue) (lane : String) (i : Nat) (runtime : Lane) (worker next : Worker)
    (waiting pending : List String) : Prop where
  found : queue.lanes.get? lane = some runtime
  stands : runtime.workers[i]? = some worker
  lanes : queue'.lanes = queue.lanes.set lane ⟨waiting, pending, runtime.workers.set i next⟩
  live : next.sturdy
  records : ∀ jobId record, queue.records.get? jobId = some record → record.state = .terminal →
    ∃ record', queue'.records.get? jobId = some record' ∧ record'.lane = record.lane ∧ record'.state = .terminal
  evictions : ∀ e ∈ queue'.evictions, e ∈ queue.evictions ∨ worker = .finishing e.1
  streams : queue'.streams.keys = queue.streams.keys
  active : ∀ jobId, next.active = some jobId → jobId ∈ queue.streams.keys
  finishing : ∀ jobId, next = .finishing jobId →
    (∃ record, queue'.records.get? jobId = some record ∧ record.lane = lane ∧ record.state = .terminal) ∧
    (∀ lane i, ¬ queue.Stands lane i (.finishing jobId)) ∧ ∀ e ∈ queue'.evictions, e.1 ≠ jobId
  waiting : ∀ jobId ∈ waiting, jobId ∈ queue'.requests.keys ∧ jobId ∈ runtime.queue
  elsewhere : ∀ lane' runtime', lane' ≠ lane → queue.lanes.get? lane' = some runtime' → ∀ jobId ∈ runtime'.queue,
    jobId ∈ queue'.requests.keys

theorem Handed.keeps {waiting pending : List String}
    (handed : Handed queue queue' lane i runtime worker next waiting pending) (manned : queue.Manned) :
    queue'.Manned := by
  have place : ∀ {lane' j other}, queue'.Stands lane' j other →
      (lane' = lane ∧ j = i ∧ other = next) ∨ (queue.Stands lane' j other ∧ ¬ (lane' = lane ∧ j = i)) :=
    standsSet handed.found handed.lanes
  have before : queue.Stands lane i worker := ⟨runtime, handed.found, handed.stands⟩
  refine ⟨fun lane' j other there => ?_, fun lane' j jobId there => ?_, fun lane' j k jobId left right => ?_,
    fun lane' j jobId there e member => ?_, fun lane' j other jobId there runs => ?_,
    fun lane' runtime' there jobId member => ?_⟩
  · rcases place there with ⟨-, -, rfl⟩ | ⟨old, -⟩
    · exact handed.live
    · exact manned.live lane' j other old
  · rcases place there with ⟨rfl, -, same⟩ | ⟨old, -⟩
    · exact (handed.finishing jobId same.symm).1
    · obtain ⟨record, found, home, terminal⟩ := manned.finished lane' j jobId old
      obtain ⟨record', found', home', terminal'⟩ := handed.records jobId record found terminal
      exact ⟨record', found', home'.trans home, terminal'⟩
  · rcases place left with ⟨-, rfl, same⟩ | ⟨old, -⟩ <;> rcases place right with ⟨-, rfl, same'⟩ | ⟨old', -⟩
    · rfl
    · exact absurd old' ((handed.finishing jobId same.symm).2.1 _ _)
    · exact absurd old ((handed.finishing jobId same'.symm).2.1 _ _)
    · exact manned.alone lane' j k jobId old old'
  · rcases place there with ⟨-, -, same⟩ | ⟨old, apart⟩
    · exact (handed.finishing jobId same.symm).2.2 e member
    · rcases handed.evictions e member with scheduled | ends
      · exact manned.unscheduled lane' j jobId old e scheduled
      · rintro rfl
        rw [ends] at before
        obtain ⟨record, found, home, -⟩ := manned.finished lane i _ before
        obtain ⟨record', found', home', -⟩ := manned.finished lane' j _ old
        cases Option.some.inj (found.symm.trans found')
        obtain rfl : lane' = lane := home'.symm.trans home
        exact apart ⟨rfl, manned.alone lane' j i _ old before⟩
  · rw [handed.streams]
    rcases place there with ⟨-, -, rfl⟩ | ⟨old, -⟩
    · exact handed.active jobId runs
    · exact manned.streamed lane' j other jobId old runs
  · rw [handed.streams]
    rw [handed.lanes, Dict.getSet] at there
    split at there
    · cases there
      obtain ⟨requested, was⟩ := handed.waiting jobId member
      exact ⟨requested, (manned.waits lane runtime handed.found jobId was).2⟩
    · rename_i different
      exact ⟨handed.elsewhere lane' runtime' (Ne.symm different) there jobId member,
        (manned.waits lane' runtime' there jobId member).2⟩

theorem asideTerminal (books : Books queue.records queue'.records) (found : queue.records.get? jobId = some record)
    (terminal : record.state = .terminal) :
    ∃ record', queue'.records.get? jobId = some record' ∧ record'.lane = record.lane ∧ record'.state = .terminal := by
  obtain ⟨record', found', kept⟩ := booksForward books found
  exact ⟨record', found', kept.lane, kept.state.trans terminal⟩

theorem eraseKeys {ν : Type} {d : Dict String ν} {k k' : String} (different : k ≠ k') (inside : k' ∈ d.keys) :
    k' ∈ (d.erase k).keys := by
  induction d with
  | nil => simp [Dict.keys] at inside
  | cons e d ih =>
    simp only [Dict.erase]
    rcases List.mem_cons.mp inside with same | later
    · rw [if_neg (fun here => different (here.symm.trans same.symm))]
      exact List.mem_cons.mpr (Or.inl same)
    · split
      · exact later
      · exact List.mem_cons.mpr (Or.inr (ih later))

/-- No worker is finishing a job whose record is not TERMINAL. -/
theorem unfinished (manned : queue.Manned) (held : queue.records.get? jobId = some record)
    (state : record.state ≠ .terminal) (lane : String) (i : Nat) : ¬ queue.Stands lane i (.finishing jobId) := by
  intro there
  obtain ⟨record', held', -, terminal⟩ := manned.finished lane i jobId there
  cases Option.some.inj (held.symm.trans held')
  exact state terminal

theorem tookManned {rest : List String} (sound : queue.Sound limits) (manned : queue.Manned)
    (found : queue.lanes.get? lane = some runtime) (stands : runtime.workers[i]? = some .waiting)
    (head : runtime.queue = jobId :: rest) : (queue.take lane i runtime jobId rest).Manned := by
  have here := sound.lanes lane runtime found
  obtain ⟨record, next, held, home, queued, became, same⟩ := takeOk here head i
  obtain ⟨requested, streamed⟩ := manned.waits lane runtime found jobId (by simp [head])
  rw [if_pos requested] at became
  subst became
  rw [same]
  have unique := here.unique
  rw [head] at unique
  obtain ⟨fresh, unique⟩ := List.nodup_cons.mp unique
  have handed : Handed queue { queue with
      lanes := queue.lanes.set lane ⟨rest, rest, runtime.workers.set i (.started jobId)⟩
      records := (reindex 1 rest queue.records).set jobId (begun record)
      requests := queue.requests.erase jobId } lane i runtime .waiting (.started jobId) rest rest := by
    refine ⟨found, stands, rfl, rfl, fun other old stood terminal => ?_, fun e => Or.inl, rfl, fun other runs => ?_,
      fun other ends => (by cases ends), fun other inside => ?_, fun lane' runtime' apart there other inside => ?_⟩
    · have different : jobId ≠ other := by
        rintro rfl
        cases Option.some.inj (held.symm.trans stood)
        cases queued.symm.trans terminal
      have absent : other ∉ rest := by
        intro inside
        obtain ⟨k, at'⟩ := List.mem_iff_getElem?.mp inside
        obtain ⟨old', stood', -, state, -⟩ := here.waits (k + 1) other (by rw [head]; exact at')
        cases Option.some.inj (stood.symm.trans stood')
        cases state.symm.trans terminal
      exact ⟨old, by simp only [Dict.getSetOther _ _ different, reindexOther _ _ _ absent, stood], rfl, terminal⟩
    · cases runs
      exact streamed
    · have inside' : other ∈ runtime.queue := by simp [head, inside]
      refine ⟨eraseKeys ?_ (manned.waits lane runtime found other inside').1, inside'⟩
      rintro rfl
      exact fresh inside
    · refine eraseKeys ?_ (manned.waits lane' runtime' there other inside).1
      rintro rfl
      obtain ⟨k, at'⟩ := List.mem_iff_getElem?.mp inside
      obtain ⟨old, stood, home', -⟩ := (sound.lanes lane' runtime' there).waits k jobId at'
      cases Option.some.inj (held.symm.trans stood)
      exact apart (home'.symm.trans home)
  exact handed.keeps manned

theorem wentManned (manned : queue.Manned) (found : queue.lanes.get? lane = some runtime)
    (stands : runtime.workers[i]? = some worker) (aside : Aside queue sent)
    (streams : sent.streams.keys = queue.streams.keys) (requests : sent.requests = queue.requests)
    (was : worker.active = some jobId) (now : next.active = some jobId) (live : next.sturdy) :
    (sent.put lane i next).Manned := by
  rw [putFound (aside.lanes ▸ found)]
  have handed : Handed queue { sent with
      lanes := sent.lanes.set lane { runtime with workers := runtime.workers.set i next } } lane i runtime worker next
      runtime.queue runtime.pending := by
    refine ⟨found, stands, by rw [aside.lanes], live, fun other record => asideTerminal aside.books,
      fun e scheduled => Or.inl (aside.evictions ▸ scheduled), streams, fun other runs => ?_, fun other ends => ?_,
      fun other inside => ⟨?_, inside⟩, fun lane' runtime' _ there other inside => ?_⟩
    · cases now.symm.trans runs
      exact manned.streamed lane i worker jobId ⟨runtime, found, stands⟩ was
    · subst ends
      cases now
    · exact requests ▸ (manned.waits lane runtime found other inside).1
    · exact requests ▸ (manned.waits lane' runtime' there other inside).1
  exact handed.keeps manned

theorem finishedManned (sound : queue.Sound limits) (manned : queue.Manned)
    (found : queue.lanes.get? lane = some runtime) (stands : runtime.workers[i]? = some worker)
    (aside : Aside queue sent) (streams : sent.streams.keys = queue.streams.keys)
    (requests : sent.requests = queue.requests) (runs : worker.active = some jobId)
    (outcome : Option WorkflowOutcome) : (sent.finish lane i jobId outcome).Manned := by
  have here := sound.lanes lane runtime found
  obtain ⟨record, held, home, running⟩ := here.crew.runs worker (List.mem_of_getElem? stands) jobId runs
  obtain ⟨record', held', kept⟩ := booksForward aside.books held
  obtain ⟨streams', next, -, became, keys, same⟩ := finishOk (aside.lanes ▸ found) held' i outcome
  have streamed := manned.streamed lane i worker jobId ⟨runtime, found, stands⟩ runs
  have became := became (streams ▸ streamed)
  subst became
  rw [same]
  have handed : Handed queue { sent with
      lanes := sent.lanes.set lane { runtime with workers := runtime.workers.set i (.finishing jobId) }
      records := sent.records.set jobId (ended record' outcome)
      streams := streams' } lane i runtime worker (.finishing jobId) runtime.queue runtime.pending := by
    refine ⟨found, stands, by rw [aside.lanes], rfl, fun other old stood terminal => ?_,
      fun e scheduled => Or.inl (aside.evictions ▸ scheduled), keys.trans streams, fun other active => ?_,
      fun other ends => ?_, fun other inside => ⟨?_, inside⟩, fun lane' runtime' _ there other inside => ?_⟩
    · obtain ⟨new, stood', home', terminal'⟩ := asideTerminal aside.books stood terminal
      have different : jobId ≠ other := by
        rintro rfl
        cases Option.some.inj (held.symm.trans stood)
        cases running.symm.trans terminal
      exact ⟨new, by simp only [Dict.getSetOther _ _ different, stood'], home', terminal'⟩
    · cases active
    · cases ends
      refine ⟨⟨ended record' outcome, Dict.getSetSame _ _ _, kept.lane.trans home, rfl⟩,
        unfinished manned held (by simp [running]), fun e scheduled => ?_⟩
      rintro rfl
      have gone := (sound.evicted e (aside.evictions ▸ scheduled)).2 record held
      cases running.symm.trans gone
    · exact requests ▸ (manned.waits lane runtime found other inside).1
    · exact requests ▸ (manned.waits lane' runtime' there other inside).1
  exact handed.keeps manned

theorem settledManned (manned : queue.Manned) (found : queue.lanes.get? lane = some runtime)
    (stands : runtime.workers[i]? = some (.finishing jobId)) :
    (({ queue with evictions := queue.evictions ++ [(jobId, .buffer), (jobId, .record)] } : JobQueue).put lane i
      .waiting).Manned := by
  have placed : (({ queue with evictions := queue.evictions ++ [(jobId, .buffer), (jobId, .record)] } : JobQueue).put lane i
      .waiting) = { queue with
        lanes := queue.lanes.set lane { runtime with workers := runtime.workers.set i .waiting }
        evictions := queue.evictions ++ [(jobId, .buffer), (jobId, .record)] } := by
    simp only [put, found]
  rw [placed]
  have handed : Handed queue { queue with
      lanes := queue.lanes.set lane { runtime with workers := runtime.workers.set i .waiting }
      evictions := queue.evictions ++ [(jobId, .buffer), (jobId, .record)] } lane i runtime (.finishing jobId) .waiting
      runtime.queue runtime.pending := by
    refine ⟨found, stands, rfl, rfl, fun other record stood terminal => ⟨record, stood, rfl, terminal⟩,
      fun e scheduled => ?_, rfl, fun other active => (by cases active), fun other ends => (by cases ends),
      fun other inside => ⟨(manned.waits lane runtime found other inside).1, inside⟩,
      fun lane' runtime' _ there other inside => (manned.waits lane' runtime' there other inside).1⟩
    rcases List.mem_append.mp scheduled with old | new
    · exact Or.inl old
    · rcases List.mem_pair.mp new with rfl | rfl
      · exact Or.inr rfl
      · exact Or.inr rfl
  exact handed.keeps manned

theorem turnedManned (sound : queue.Sound limits) (manned : queue.Manned)
    (found : queue.lanes.get? lane = some runtime) (stands : runtime.workers[i]? = some worker)
    (turned : Turned limits queue lane i runtime worker act queue') : queue'.Manned := by
  cases turned with
  | took waits head takes =>
    subst waits
    exact tookManned sound manned found stands head
  | went aside streams requests was now live nearer =>
    exact wentManned manned found stands aside streams requests was now live
  | finished aside streams requests runs outcome =>
    exact finishedManned sound manned found stands aside streams requests runs outcome
  | settled finishing =>
    subst finishing
    exact settledManned manned found stands

theorem keysGrow {ν : Type} {d : Dict String ν} {k' : String} (k : String) (v : ν) (inside : k' ∈ d.keys) :
    k' ∈ (d.set k v).keys := by
  obtain ⟨old, found⟩ := (Dict.getSome _ _).mp inside
  refine (Dict.getSome _ _).mpr ?_
  rw [Dict.getSet]
  split
  · exact ⟨v, rfl⟩
  · exact ⟨old, found⟩

theorem ensureLaneManned (manned : queue.Manned) (limits : Limits) (lane : String) :
    (queue.ensureLane limits lane).Manned := by
  rw [ensureLane]
  split
  · exact manned
  · have place : ∀ {lane' : String} {j : Nat} {other : Worker}, Stands { queue with
          lanes := queue.lanes.set lane ⟨[], [], List.replicate limits.maxConcurrentRunsPerLane .waiting⟩ } lane' j other →
        other = .waiting ∨ queue.Stands lane' j other := by
      rintro lane' j other ⟨runtime, there, at'⟩
      simp only [Dict.getSet] at there
      split at there
      · cases there
        exact Or.inl (List.eq_of_mem_replicate (List.mem_of_getElem? at'))
      · exact Or.inr ⟨runtime, there, at'⟩
    refine ⟨fun lane' j other there => ?_, fun lane' j jobId there => ?_, fun lane' j k jobId left right => ?_,
      fun lane' j jobId there e member => ?_, fun lane' j other jobId there runs => ?_,
      fun lane' runtime there jobId member => ?_⟩
    · rcases place there with rfl | old
      · rfl
      · exact manned.live lane' j other old
    · exact manned.finished lane' j jobId ((place there).resolve_left (by simp))
    · exact manned.alone lane' j k jobId ((place left).resolve_left (by simp)) ((place right).resolve_left (by simp))
    · exact manned.unscheduled lane' j jobId ((place there).resolve_left (by simp)) e member
    · rcases place there with rfl | old
      · cases runs
      · exact manned.streamed lane' j other jobId old runs
    · simp only [Dict.getSet] at there
      split at there
      · cases there
        cases member
      · exact manned.waits lane' runtime there jobId member

theorem submitManned (sound : queue.Sound limits) (manned : queue.Manned) (fresh : jobId ∉ queue.drawn) (lane : String)
    (request : WorkflowSubmission) (now : Int) : (queue.submit limits lane request jobId now).1.Manned := by
  have opened := ensureLaneManned manned limits lane
  have known : ∀ {other record}, queue.records.get? other = some record → jobId ≠ other := by
    rintro other record stood rfl
    exact fresh (sound.drawn _ record stood)
  obtain same | same | ⟨runtime, found, -, same⟩ := submitOk limits queue lane request jobId now
  · rwa [same]
  · rwa [same]
  rw [same]
  have place : ∀ {lane' : String} {j : Nat} {other : Worker}, Stands { queue.ensureLane limits lane with
        lanes := (queue.ensureLane limits lane).lanes.set lane
          ⟨runtime.queue ++ [jobId], runtime.pending ++ [jobId], runtime.workers⟩ } lane' j other →
      (queue.ensureLane limits lane).Stands lane' j other := by
    rintro lane' j other ⟨runtime', there, at'⟩
    simp only [Dict.getSet] at there
    split at there
    · rename_i own
      subst own
      cases there
      exact ⟨runtime, found, at'⟩
    · exact ⟨runtime', there, at'⟩
  refine ⟨fun lane' j other there => opened.live lane' j other (place there), fun lane' j other there => ?_,
    fun lane' j k other left right => opened.alone lane' j k other (place left) (place right),
    fun lane' j other there e member => opened.unscheduled lane' j other (place there) e member,
    fun lane' j other job there runs => keysGrow _ _ (opened.streamed lane' j other job (place there) runs),
    fun lane' runtime' there other member => ?_⟩
  · obtain ⟨record, stood, home, terminal⟩ := opened.finished lane' j other (place there)
    rw [ensureLaneRecords] at stood
    exact ⟨record, by simp only [Dict.getSetOther _ _ (known stood), stood], home, terminal⟩
  · have both : other = jobId ∨ other ∈ (queue.ensureLane limits lane).requests.keys ∧
        other ∈ (queue.ensureLane limits lane).streams.keys := by
      simp only [Dict.getSet] at there
      split at there
      · cases there
        rcases List.mem_append.mp member with old | new
        · exact Or.inr (opened.waits lane runtime found other old)
        · exact Or.inl (List.mem_singleton.mp new)
      · exact Or.inr (opened.waits lane' runtime' there other member)
    rcases both with rfl | ⟨requested, streamed⟩
    · exact ⟨(Dict.getSome _ _).mpr ⟨_, Dict.getSetSame _ _ _⟩, (Dict.getSome _ _).mpr ⟨_, Dict.getSetSame _ _ _⟩⟩
    · exact ⟨keysGrow _ _ requested, keysGrow _ _ streamed⟩

theorem dropBufferStreams (queue : JobQueue) (jobId : String) :
    (queue.dropBuffer jobId).streams.keys = queue.streams.keys ∧ (queue.dropBuffer jobId).requests = queue.requests := by
  simp only [dropBuffer]
  split
  · exact ⟨rfl, rfl⟩
  · rename_i stream stands
    split
    · exact ⟨setKeys stands _, rfl⟩
    · exact ⟨setKeys stands _, rfl⟩
    · split
      · exact ⟨setKeys stands _, rfl⟩
      · exact ⟨setKeys stands _, rfl⟩

/-- What a step does to a queue whose lanes it leaves alone, and to no job of theirs. -/
theorem mannedSame (manned : queue.Manned) (lanes : queue'.lanes = queue.lanes)
    (records : ∀ lane i jobId, queue.Stands lane i (.finishing jobId) → ∀ record,
      queue.records.get? jobId = some record → record.state = .terminal →
      ∃ record', queue'.records.get? jobId = some record' ∧ record'.lane = record.lane ∧ record'.state = .terminal)
    (evictions : queue'.evictions.Subset queue.evictions) (requests : queue'.requests = queue.requests)
    (active : ∀ lane i worker jobId, queue.Stands lane i worker → worker.active = some jobId →
      jobId ∈ queue.streams.keys → jobId ∈ queue'.streams.keys)
    (waiting : ∀ lane runtime, queue.lanes.get? lane = some runtime → ∀ jobId ∈ runtime.queue,
      jobId ∈ queue.streams.keys → jobId ∈ queue'.streams.keys) : queue'.Manned := by
  have place : ∀ {lane i worker}, queue'.Stands lane i worker → queue.Stands lane i worker := by
    rintro lane i worker ⟨runtime, found, stands⟩
    exact ⟨runtime, lanes ▸ found, stands⟩
  refine ⟨fun lane i worker there => manned.live lane i worker (place there), fun lane i jobId there => ?_,
    fun lane i j jobId left right => manned.alone lane i j jobId (place left) (place right),
    fun lane i jobId there e member => manned.unscheduled lane i jobId (place there) e (evictions member),
    fun lane i worker jobId there runs =>
      active lane i worker jobId (place there) runs (manned.streamed lane i worker jobId (place there) runs),
    fun lane runtime found jobId member => ?_⟩
  · obtain ⟨record, found, home, terminal⟩ := manned.finished lane i jobId (place there)
    obtain ⟨record', found', home', terminal'⟩ := records lane i jobId (place there) record found terminal
    exact ⟨record', found', home'.trans home, terminal'⟩
  · rw [lanes] at found
    obtain ⟨requested, streamed⟩ := manned.waits lane runtime found jobId member
    exact ⟨requests ▸ requested, waiting lane runtime found jobId member streamed⟩

theorem evictManned {retention : Retention} (sound : queue.Sound limits) (manned : queue.Manned)
    (ok : queue.evict jobId retention = some queue') : queue'.Manned := by
  simp only [evict] at ok
  split at ok
  · rename_i scheduled
    cases retention with
    | buffer =>
      cases ok
      have aside := dropBufferBooks { queue with evictions := queue.evictions.erase (jobId, .buffer) } jobId
      obtain ⟨keys, requests⟩ := dropBufferStreams { queue with evictions := queue.evictions.erase (jobId, .buffer) } jobId
      refine mannedSame manned aside.lanes (fun lane i other there record found terminal => ?_) ?_ requests
        (fun _ _ _ _ _ _ inside => keys ▸ inside) (fun _ _ _ _ _ inside => keys ▸ inside)
      · exact asideTerminal aside.books found terminal
      · rw [aside.evictions]
        exact List.erase_subset
    | record =>
      cases ok
      have gone := sound.evicted _ scheduled
      refine mannedSame manned rfl (fun lane i other there record found terminal => ⟨record, ?_, rfl, terminal⟩)
        List.erase_subset rfl (fun lane i worker other there runs inside => eraseKeys ?_ inside)
        (fun lane runtime found other member inside => eraseKeys ?_ inside)
      · have different : jobId ≠ other := manned.unscheduled lane i other there _ scheduled
        simp only [dropRecord, Dict.eraseGet sound.keyed, if_neg different, found]
      · rintro rfl
        obtain ⟨runtime, found, stands⟩ := there
        obtain ⟨record, held, -, running⟩ :=
          (sound.lanes lane runtime found).crew.runs worker (List.mem_of_getElem? stands) _ runs
        cases running.symm.trans (gone.2 record held)
      · rintro rfl
        obtain ⟨k, at'⟩ := List.mem_iff_getElem?.mp member
        obtain ⟨record, held, -, queued, -⟩ := (sound.lanes lane runtime found).waits k _ at'
        cases queued.symm.trans (gone.2 record held)
  · cases ok

theorem acceptingBefore {event : Event} (sound : queue.Sound limits) (ok : queue.next limits event = some queue')
    (accepting : queue'.accepting = true) : queue.accepting = true := by
  cases event with
  | submitted lane request jobId now =>
    simp only [JobQueue.next] at ok
    split at ok
    · cases ok
    · cases ok
      have opened : (queue.ensureLane limits lane).accepting = queue.accepting := by
        rw [ensureLane]
        split <;> rfl
      obtain same | same | ⟨runtime, -, -, same⟩ := submitOk limits queue lane request jobId now
      · rwa [same] at accepting
      · rwa [same, opened] at accepting
      · rwa [same, opened] at accepting
  | worked lane i act =>
    obtain ⟨runtime, worker, found, stands, step⟩ := workOk ok
    have here := sound.lanes lane runtime found
    cases step with
    | took waits head =>
      obtain ⟨record, next, -, -, -, -, same⟩ := takeOk here head i
      rwa [same] at accepting
    | went aside goes =>
      rw [putFound (aside.lanes ▸ found)] at accepting
      exact aside.accepting.symm.trans accepting
    | @finished sent jobId aside runs outcome =>
      obtain ⟨record, held, -⟩ := here.crew.runs worker (List.mem_of_getElem? stands) jobId runs
      obtain ⟨record', held', -⟩ := booksForward aside.books held
      obtain ⟨streams, next, -, -, -, same⟩ := finishOk (aside.lanes ▸ found) held' i outcome
      rw [same] at accepting
      exact aside.accepting.symm.trans accepting
    | settled finishing =>
      simp only [put, found] at accepting
      exact accepting
  | evicted jobId retention =>
    simp only [JobQueue.next, evict] at ok
    split at ok
    · cases retention with
      | buffer =>
        cases ok
        exact (dropBufferBooks { queue with evictions := queue.evictions.erase (jobId, .buffer) } jobId).accepting.symm.trans
          accepting
      | record =>
        cases ok
        exact accepting
    · cases ok
  | stopping =>
    cases ok
    cases accepting
  | stopped =>
    obtain ⟨-, closed, -⟩ := sweepOk ok
    cases accepting.symm.trans closed

/-- Sound records, and sturdy workers at every place while the queue accepts. -/
theorem mannedNext {event : Event} (settled : queue.Settled limits) (manned : queue.accepting = true → queue.Manned)
    (orderly : queue.Orderly event) (ok : queue.next limits event = some queue') (accepting : queue'.accepting = true) :
    queue'.Manned := by
  rcases settled with ⟨sound, -⟩ | swept
  · have before := acceptingBefore sound ok accepting
    have manned := manned before
    cases event with
    | submitted lane request jobId now =>
      simp only [JobQueue.next] at ok
      split at ok
      · cases ok
      · rename_i fresh
        cases ok
        exact submitManned sound manned fresh lane request now
    | worked lane i act =>
      obtain ⟨runtime, worker, found, stands, turned⟩ := workTurns sound manned before orderly ok
      exact turnedManned sound manned found stands turned
    | evicted jobId retention => exact evictManned sound manned ok
    | stopping =>
      cases ok
      cases accepting
    | stopped =>
      obtain ⟨-, closed, -⟩ := sweepOk ok
      cases accepting.symm.trans closed
  · cases accepting.symm.trans (sweptNext swept ok).1.closed

theorem startManned (limits : Limits) : (JobQueue.new.start limits).Manned := by
  refine ensureLaneManned ?_ limits defaultLane
  have empty : ∀ lane i worker, ¬ Stands { JobQueue.new with accepting := true } lane i worker := by
    rintro lane i worker ⟨runtime, found, -⟩
    cases found
  exact ⟨fun lane i worker there => absurd there (empty _ _ _), fun lane i jobId there => absurd there (empty _ _ _),
    fun lane i j jobId there => absurd there (empty _ _ _), fun lane i jobId there => absurd there (empty _ _ _),
    fun lane i worker jobId there => absurd there (empty _ _ _), fun lane runtime found => by cases found⟩

def Staffed (limits : Limits) (queue : JobQueue) : Prop :=
  queue.Settled limits ∧ (queue.accepting = true → queue.Manned)

theorem runStaffed {events : List Event} (run : Run (JobQueue.next limits) (JobQueue.new.start limits) events queue)
    (orderly : ∀ before e after mid, events = before ++ e :: after →
      Run (JobQueue.next limits) (JobQueue.new.start limits) before mid → mid.Orderly e) : queue.Staffed limits := by
  refine runKeepsWhile ⟨startSettled limits, fun _ => startManned limits⟩ ?_ run orderly
  rintro queue event queue' ⟨settled, manned⟩ orderly ok
  exact ⟨(settledNext settled ok).1, mannedNext settled manned orderly ok⟩

theorem standsPut (stands : runtime.workers[i]? = some worker)
    {waiting pending : List String}
    (lanes : queue'.lanes = queue.lanes.set lane ⟨waiting, pending, runtime.workers.set i next⟩) :
    queue'.Stands lane i next := by
  refine ⟨⟨waiting, pending, runtime.workers.set i next⟩, by rw [lanes, Dict.getSetSame], ?_⟩
  exact List.getElem?_set_self (List.getElem?_eq_some_iff.mp stands).1

end JobQueue

/-- The job a worker has, until it is back for the next. -/
def Worker.job : Worker → Option String
  | .finishing jobId => some jobId
  | worker => worker.active

theorem activeJob {worker : Worker} {jobId : String} (runs : worker.active = some jobId) :
    worker.job = some jobId ∧ 1 < worker.home := by
  cases worker <;> simp_all [Worker.active, Worker.job, Worker.home]

namespace JobQueue
variable {limits : Limits} {queue queue' sent : JobQueue} {lane jobId : String} {i : Nat} {act : Act} {runtime : Lane}
  {worker next : Worker}

/-- A step of a worker's own keeps its job or brings it back with the record TERMINAL, and one
that waits on neither engine nor clock brings it nearer. -/
theorem turnedNearer (sound : queue.Sound limits) (manned : queue.Manned)
    (found : queue.lanes.get? lane = some runtime) (stands : runtime.workers[i]? = some worker)
    (turned : Turned limits queue lane i runtime worker act queue') :
    ∃ next, queue'.Stands lane i next ∧ (act.drives → next.home < worker.home) ∧
      ∀ jobId, worker.job = some jobId → next.job = some jobId ∨
        (next = .waiting ∧ ∃ record, queue'.records.get? jobId = some record ∧ record.state = .terminal) := by
  have here := sound.lanes lane runtime found
  cases turned with
  | @took jobId rest waits head takes =>
    subst waits
    obtain ⟨record, next, -, -, -, -, same⟩ := takeOk here head i
    rw [same]
    refine ⟨next, standsPut stands rfl, by simp [takes, Act.drives], fun jobId has => ?_⟩
    cases has
  | @went sent next jobId aside streams requests was now live nearer =>
    rw [putFound (aside.lanes ▸ found)]
    refine ⟨next, standsPut stands (by rw [aside.lanes]), nearer, fun other has => Or.inl ?_⟩
    cases (activeJob was).1.symm.trans has
    exact (activeJob now).1
  | @finished sent jobId aside streams requests runs outcome =>
    obtain ⟨record, held, -⟩ := here.crew.runs worker (List.mem_of_getElem? stands) jobId runs
    obtain ⟨record', held', -⟩ := booksForward aside.books held
    obtain ⟨streams', next, -, became, -, same⟩ := finishOk (aside.lanes ▸ found) held' i outcome
    have became := became (streams ▸ manned.streamed lane i worker jobId ⟨runtime, found, stands⟩ runs)
    subst became
    rw [same]
    refine ⟨.finishing jobId, standsPut stands (by rw [aside.lanes]), fun _ => (activeJob runs).2,
      fun other has => Or.inl ?_⟩
    exact (activeJob runs).1.symm.trans has
  | @settled jobId finishing =>
    subst finishing
    obtain ⟨record, held, -, terminal⟩ := manned.finished lane i jobId ⟨runtime, found, stands⟩
    simp only [put, found]
    refine ⟨.waiting, standsPut stands rfl, by simp [Worker.home], fun other has => Or.inr ⟨rfl, record, ?_, terminal⟩⟩
    cases has
    exact held

theorem stepEnabled (limits : Limits) (there : queue.Stands lane i worker) (live : worker.sturdy)
    (busy : worker ≠ .waiting) : ∃ act, act.drives ∧ (queue.work limits lane i act).isSome := by
  obtain ⟨runtime, found, stands⟩ := there
  cases worker with
  | waiting => exact absurd rfl busy
  | running jobId outcome expired => exact ⟨.ends, rfl, by simp [work, found, stands]⟩
  | gone jobId => cases live
  | _ => exact ⟨.resumes, rfl, by simp [work, found, stands]⟩

/-- A worker is where it was after any step that is not its own, but a stop. -/
theorem othersStand {event : Event} (sound : queue.Sound limits) (ok : queue.next limits event = some queue')
    (accepting : queue'.accepting = true) (there : queue.Stands lane i worker)
    (others : ∀ act, event ≠ .worked lane i act) : queue'.Stands lane i worker := by
  obtain ⟨runtime, found, stands⟩ := there
  cases event with
  | submitted lane' request jobId now =>
    simp only [JobQueue.next] at ok
    split at ok
    · cases ok
    · cases ok
      have opened : (queue.ensureLane limits lane').lanes.get? lane = some runtime := by
        rw [ensureLane]
        split
        · exact found
        · rename_i absent
          refine (Dict.getSetOther _ _ ?_).trans found
          rintro rfl
          cases absent.symm.trans found
      obtain same | same | ⟨runtime', found', -, same⟩ := submitOk limits queue lane' request jobId now
      · rw [same]
        exact ⟨runtime, found, stands⟩
      · rw [same]
        exact ⟨runtime, opened, stands⟩
      · rw [same]
        by_cases own : lane' = lane
        · subst own
          cases Option.some.inj (opened.symm.trans found')
          exact ⟨_, Dict.getSetSame _ _ _, stands⟩
        · exact ⟨runtime, (Dict.getSetOther _ _ own).trans opened, stands⟩
  | worked lane' j act =>
    obtain ⟨runtime', worker', found', stands', step⟩ := workOk ok
    have different : ∀ {waiting pending : List String} {next : Worker} {after : JobQueue},
        after.lanes = queue.lanes.set lane' ⟨waiting, pending, runtime'.workers.set j next⟩ →
        after.Stands lane i worker := by
      intro waiting pending next after lanes
      by_cases own : lane' = lane
      · subst own
        cases Option.some.inj (found.symm.trans found')
        have apart : j ≠ i := by
          rintro rfl
          exact others act rfl
        exact ⟨_, by rw [lanes, Dict.getSetSame], by simpa [List.getElem?_set, apart] using stands⟩
      · exact ⟨runtime, by rw [lanes, Dict.getSetOther _ _ own, found], stands⟩
    have here := sound.lanes lane' runtime' found'
    cases step with
    | took waits head =>
      obtain ⟨record, next, -, -, -, -, same⟩ := takeOk here head j
      rw [same]
      exact different rfl
    | went aside goes =>
      rw [putFound (aside.lanes ▸ found')]
      exact different (by rw [aside.lanes])
    | @finished sent jobId aside runs outcome =>
      obtain ⟨record, held, -⟩ := here.crew.runs worker' (List.mem_of_getElem? stands') jobId runs
      obtain ⟨record', held', -⟩ := booksForward aside.books held
      obtain ⟨streams, next, -, -, -, same⟩ := finishOk (aside.lanes ▸ found') held' j outcome
      rw [same]
      exact different (by rw [aside.lanes])
    | settled finishing =>
      simp only [put, found']
      exact different rfl
  | evicted jobId retention =>
    simp only [JobQueue.next, evict] at ok
    split at ok
    · cases retention with
      | buffer =>
        cases ok
        have aside := dropBufferBooks { queue with evictions := queue.evictions.erase (jobId, .buffer) } jobId
        exact ⟨runtime, by rw [aside.lanes]; exact found, stands⟩
      | record =>
        cases ok
        exact ⟨runtime, found, stands⟩
    · cases ok
  | stopping =>
    cases ok
    cases accepting
  | stopped =>
    obtain ⟨-, closed, -⟩ := sweepOk ok
    cases accepting.symm.trans closed

end JobQueue

variable {limits : Limits} {queue : JobQueue} {events : List Event}

/-- A run whose engine fails, reported, and its worker back. -/
def failedRun : List Event :=
  [.submitted "workflow" (asking "KOD-82") "job-3" 0, .worked "workflow" 0 .takes, .worked "workflow" 0 .resumes,
    .worked "workflow" 0 (.raises (.error true (some (.error "lost" "RuntimeError")))), .worked "workflow" 0 .resumes,
    .worked "workflow" 0 .resumes]

end Kodezart.Jobs
