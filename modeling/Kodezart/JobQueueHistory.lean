import Mathlib
import Kodezart.JobQueueRuns

/-! Whole histories of a queue, from its start to after a stop. -/
namespace Kodezart.Jobs
open Machine

/-- What may become of a job's record in one step. -/
inductive Moves : Option JobRecord → Option JobRecord → Prop where
  | absent : Moves none none
  | submitted {record : JobRecord} (queued : record.state = .queued) : Moves none (some record)
  | stays {record record' : JobRecord} (state : record'.state = record.state) (outcome : record'.outcome = record.outcome) :
      Moves (some record) (some record')
  | begins {record record' : JobRecord} (queued : record.state = .queued) (running : record'.state = .running) :
      Moves (some record) (some record')
  | ends {record record' : JobRecord} (unfinished : record.state ≠ .terminal) (terminal : record'.state = .terminal) :
      Moves (some record) (some record')
  | evicted {record : JobRecord} (terminal : record.state = .terminal) : Moves (some record) none

theorem movesSame (record : Option JobRecord) : Moves record record := by
  cases record with
  | none => exact .absent
  | some record => exact .stays rfl rfl

theorem movesBooks {records records' : Dict String JobRecord} (books : Books records records') (jobId : String) :
    Moves (records.get? jobId) (records'.get? jobId) := by
  have rel := books.kept jobId
  generalize records.get? jobId = record, records'.get? jobId = record' at rel ⊢
  cases rel with
  | none => exact .absent
  | some kept => exact .stays kept.state kept.outcome

theorem abandonMoves (record : JobRecord) : Moves (some record) (some (JobQueue.abandon record)) := by
  rw [JobQueue.abandon]
  split
  · exact .stays rfl rfl
  · rename_i unfinished
    exact .ends unfinished rfl

theorem abandonTerminal (record : JobRecord) : (JobQueue.abandon record).state = .terminal := by
  rw [JobQueue.abandon]
  split
  · assumption
  · rfl

namespace JobQueue
variable {limits : Limits} {queue queue' : JobQueue} {lane jobId : String} {i : Nat} {act : Act}

/-- A queue whose stop is over. -/
structure Swept (queue : JobQueue) : Prop where
  closed : queue.accepting = false
  keyed : queue.records.keys.Nodup
  idle : ∀ lane runtime, queue.lanes.get? lane = some runtime → runtime.workers = []
  terminal : ∀ jobId record, queue.records.get? jobId = some record → record.state = .terminal

theorem sweptMoves (swept : queue.Swept) (books : ∀ jobId record, queue'.records.get? jobId = some record →
    ∃ old, queue.records.get? jobId = some old ∧ record.state = old.state ∧ record.outcome = old.outcome) (jobId : String) :
    Moves (queue.records.get? jobId) (queue'.records.get? jobId) := by
  cases found : queue'.records.get? jobId with
  | none =>
    cases stood : queue.records.get? jobId with
    | none => exact .absent
    | some record => exact .evicted (swept.terminal jobId record stood)
  | some record =>
    obtain ⟨old, stood, state, outcome⟩ := books jobId record found
    rw [stood]
    exact .stays state outcome

theorem sweepOk (ok : queue.sweep = some queue') : queue.accepting = false ∧ queue'.accepting = false ∧
    (∀ lane, queue'.lanes.get? lane = (queue.lanes.get? lane).map fun runtime =>
      { runtime with pending := [], workers := [] }) ∧
    queue'.records.keys = queue.records.keys ∧
    ∀ jobId, queue'.records.get? jobId = (queue.records.get? jobId).map abandon := by
  simp only [sweep] at ok
  split at ok
  · rename_i done
    cases ok
    exact ⟨done.1, done.1, mapGet (fun runtime : Lane => { runtime with pending := [], workers := [] }) _,
      by simp [Dict.keys], mapGet abandon _⟩
  · cases ok

theorem sweepSwept (keyed : queue.records.keys.Nodup) (ok : queue.sweep = some queue') : queue'.Swept := by
  obtain ⟨-, closed, lanes, keys, records⟩ := sweepOk ok
  refine ⟨closed, keys ▸ keyed, fun lane runtime found => ?_, fun jobId record found => ?_⟩
  · obtain ⟨old, -, rfl⟩ := Option.map_eq_some_iff.mp ((lanes lane).symm.trans found)
    rfl
  · obtain ⟨old, -, rfl⟩ := Option.map_eq_some_iff.mp ((records jobId).symm.trans found)
    exact abandonTerminal old

theorem sweepMoves (ok : queue.sweep = some queue') (jobId : String) :
    Moves (queue.records.get? jobId) (queue'.records.get? jobId) := by
  obtain ⟨-, -, -, -, records⟩ := sweepOk ok
  rw [records]
  cases queue.records.get? jobId with
  | none => exact .absent
  | some record => exact abandonMoves record

theorem workMoves (sound : queue.Sound limits) (ok : queue.work limits lane i act = some queue') (jobId : String) :
    Moves (queue.records.get? jobId) (queue'.records.get? jobId) := by
  obtain ⟨runtime, worker, found, stands, step⟩ := workOk ok
  have here := sound.lanes lane runtime found
  cases step with
  | @took taken rest waits head =>
    obtain ⟨record, next, held, home, queued, -, same⟩ := takeOk here head i
    rw [same]
    show Moves _ (((reindex 1 rest queue.records).set taken (begun record)).get? jobId)
    rw [Dict.getSet]
    split
    · rename_i own
      subst own
      rw [held]
      exact .begins queued rfl
    · by_cases inside : jobId ∈ rest
      · have unique := here.unique
        rw [head] at unique
        obtain ⟨k, at'⟩ := List.mem_iff_getElem?.mp inside
        obtain ⟨old, stood, -, state, -⟩ := here.waits (k + 1) jobId (by rw [head]; exact at')
        rw [stood, reindexAt (List.nodup_cons.mp unique).2 at' stood state]
        exact .stays rfl rfl
      · rw [reindexOther _ _ _ inside]
        exact movesSame _
  | @went sent next aside goes =>
    rw [putFound (aside.lanes ▸ found)]
    exact movesBooks aside.books jobId
  | @finished sent ended aside runs outcome =>
    obtain ⟨record, held, -, running⟩ := here.crew.runs worker (List.mem_of_getElem? stands) ended runs
    obtain ⟨record', held', kept⟩ := booksForward aside.books held
    obtain ⟨streams, next, -, -, -, same⟩ := finishOk (aside.lanes ▸ found) held' i outcome
    rw [same]
    show Moves _ ((sent.records.set ended (JobQueue.ended record' outcome)).get? jobId)
    rw [Dict.getSet]
    split
    · rename_i own
      subst own
      rw [held]
      exact .ends (by simp [running]) rfl
    · exact movesBooks aside.books jobId
  | settled finishing =>
    simp only [put, found]
    exact movesSame _

theorem submitMoves (sound : queue.Sound limits) {fresh : String} (unseen : fresh ∉ queue.drawn) (lane : String)
    (request : WorkflowSubmission) (now : Int) (jobId : String) :
    Moves (queue.records.get? jobId) ((queue.submit limits lane request fresh now).1.records.get? jobId) := by
  obtain same | same | ⟨runtime, -, -, same⟩ := submitOk limits queue lane request fresh now
  · rw [same]
    exact movesSame _
  · rw [same, ensureLaneRecords]
    exact movesSame _
  · rw [same]
    simp only [Dict.getSet]
    split
    · rename_i own
      subst own
      cases stood : queue.records.get? fresh with
      | none => exact .submitted rfl
      | some record => exact absurd (sound.drawn fresh record stood) unseen
    · exact movesSame _

theorem evictMoves {evicted : String} {retention : Retention} (sound : queue.Sound limits)
    (ok : queue.evict evicted retention = some queue') (jobId : String) :
    Moves (queue.records.get? jobId) (queue'.records.get? jobId) := by
  simp only [evict] at ok
  split at ok
  · rename_i scheduled
    cases retention with
    | buffer =>
      cases ok
      exact movesBooks (dropBufferBooks { queue with evictions := queue.evictions.erase (evicted, .buffer) } evicted).books jobId
    | record =>
      cases ok
      simp only [dropRecord, Dict.eraseGet sound.keyed]
      split
      · rename_i own
        subst own
        cases stood : queue.records.get? evicted with
        | none => exact .absent
        | some record => exact .evicted ((sound.evicted _ scheduled).2 record stood)
      · exact movesSame _
  · cases ok

@[simp] theorem putStopped (queue : JobQueue) (lane : String) (i : Nat) (worker : Worker) :
    (queue.put lane i worker).stopped = queue.stopped := by
  rw [put]
  split <;> rfl

theorem workStopped (sound : queue.Sound limits) (ok : queue.work limits lane i act = some queue') :
    queue'.stopped = queue.stopped := by
  obtain ⟨runtime, worker, found, stands, step⟩ := workOk ok
  have here := sound.lanes lane runtime found
  cases step with
  | took waits head =>
    obtain ⟨record, next, -, -, -, -, same⟩ := takeOk here head i
    rw [same]
  | went aside goes => rw [putStopped, aside.stopped]
  | @finished sent ended aside runs outcome =>
    obtain ⟨record, held, -⟩ := here.crew.runs worker (List.mem_of_getElem? stands) ended runs
    obtain ⟨record', held', -⟩ := booksForward aside.books held
    obtain ⟨streams, next, -, -, -, same⟩ := finishOk (aside.lanes ▸ found) held' i outcome
    rw [same]
    exact aside.stopped
  | settled => rw [putStopped]

theorem submitStopped (limits : Limits) (queue : JobQueue) (lane : String) (request : WorkflowSubmission)
    (jobId : String) (now : Int) : (queue.submit limits lane request jobId now).1.stopped = queue.stopped := by
  have opened : (queue.ensureLane limits lane).stopped = queue.stopped := by
    rw [ensureLane]
    split <;> rfl
  obtain same | same | ⟨runtime, -, -, same⟩ := submitOk limits queue lane request jobId now
  · rw [same]
  · rw [same, opened]
  · rw [same, opened]

theorem evictStopped {retention : Retention} (ok : queue.evict jobId retention = some queue') :
    queue'.stopped = queue.stopped := by
  simp only [evict] at ok
  split at ok
  · cases retention with
    | buffer =>
      cases ok
      exact (dropBufferBooks _ _).stopped
    | record =>
      cases ok
      rfl
  · cases ok

/-- Sound until a stop is over, and swept from then on. -/
def Settled (limits : Limits) (queue : JobQueue) : Prop :=
  (queue.Sound limits ∧ queue.stopped = false) ∨ queue.Swept

theorem startSettled (limits : Limits) : (JobQueue.new.start limits).Settled limits := by
  have nothing : ({ JobQueue.new with accepting := true } : JobQueue).Sound limits := by
    constructor <;> simp [new, Dict.keys]
  refine Or.inl ⟨soundEnsureLane nothing defaultLane, ?_⟩
  simp [start, ensureLane, new]

theorem sweptEvict {retention : Retention} (swept : queue.Swept) (ok : queue.evict jobId retention = some queue') :
    queue'.Swept ∧ ∀ other, Moves (queue.records.get? other) (queue'.records.get? other) := by
  simp only [evict] at ok
  split at ok
  · cases retention with
    | buffer =>
      cases ok
      have aside := dropBufferBooks { queue with evictions := queue.evictions.erase (jobId, .buffer) } jobId
      refine ⟨⟨aside.accepting.trans swept.closed, aside.books.keyed swept.keyed, fun lane runtime found => ?_,
        fun other record found => ?_⟩, movesBooks aside.books⟩
      · exact swept.idle lane runtime (aside.lanes ▸ found)
      · obtain ⟨old, stood, kept⟩ := booksBackward aside.books found
        exact kept.state.trans (swept.terminal other old stood)
    | record =>
      cases ok
      have found : ∀ {other record}, (queue.records.erase jobId).get? other = some record →
          queue.records.get? other = some record := by
        intro other record stands
        rw [Dict.eraseGet swept.keyed] at stands
        split at stands
        · cases stands
        · exact stands
      exact ⟨⟨swept.closed, eraseKeyed swept.keyed jobId, swept.idle, fun other record stands =>
        swept.terminal other record (found stands)⟩, fun other => sweptMoves swept
          (fun _ record stands => ⟨record, found stands, rfl, rfl⟩) other⟩
  · cases ok

theorem sweptNext {event : Event} (swept : queue.Swept) (ok : queue.next limits event = some queue') :
    queue'.Swept ∧ ∀ jobId, Moves (queue.records.get? jobId) (queue'.records.get? jobId) := by
  cases event with
  | submitted lane request jobId now =>
    simp only [next] at ok
    split at ok
    · cases ok
    · cases ok
      rw [submit, if_pos swept.closed]
      exact ⟨swept, fun _ => movesSame _⟩
  | worked lane i act =>
    obtain ⟨runtime, worker, found, stands, -⟩ := workOk ok
    rw [swept.idle lane runtime found] at stands
    cases stands
  | evicted jobId retention => exact sweptEvict swept ok
  | stopping =>
    cases ok
    exact ⟨⟨rfl, swept.keyed, swept.idle, swept.terminal⟩, fun _ => movesSame _⟩
  | stopped => exact ⟨sweepSwept swept.keyed ok, sweepMoves ok⟩

theorem settledNext {event : Event} (settled : queue.Settled limits) (ok : queue.next limits event = some queue') :
    queue'.Settled limits ∧ ∀ jobId, Moves (queue.records.get? jobId) (queue'.records.get? jobId) := by
  rcases settled with ⟨sound, going⟩ | swept
  · cases event with
    | submitted lane request jobId now =>
      simp only [next] at ok
      split at ok
      · cases ok
      · rename_i fresh
        cases ok
        exact ⟨Or.inl ⟨soundSubmit sound fresh lane request now, (submitStopped ..).trans going⟩,
          submitMoves sound fresh lane request now⟩
    | worked lane i act =>
      exact ⟨Or.inl ⟨soundWork sound ok, (workStopped sound ok).trans going⟩, workMoves sound ok⟩
    | evicted jobId retention =>
      exact ⟨Or.inl ⟨soundEvict sound ok, (evictStopped ok).trans going⟩, evictMoves sound ok⟩
    | stopping =>
      cases ok
      exact ⟨Or.inl ⟨soundStop sound, rfl⟩, fun _ => movesSame _⟩
    | stopped => exact ⟨Or.inr (sweepSwept sound.keyed ok), sweepMoves ok⟩
  · exact ⟨Or.inr (sweptNext swept ok).1, (sweptNext swept ok).2⟩

theorem runSettled {events : List Event} (run : Run (JobQueue.next limits) (JobQueue.new.start limits) events queue) :
    queue.Settled limits :=
  runKeeps (startSettled limits) (fun _ _ _ settled ok => (settledNext settled ok).1) run

/-- No lane has more jobs under way than it has workers. -/
theorem runningBounded (settled : queue.Settled limits) (lane : String) :
    (queue.records.filter fun e => e.2.lane = lane ∧ e.2.state = .running).length ≤ limits.maxConcurrentRunsPerLane := by
  have keyed : queue.records.keys.Nodup := by
    rcases settled with ⟨sound, -⟩ | swept
    · exact sound.keyed
    · exact swept.keyed
  set running := queue.records.filter fun e => e.2.lane = lane ∧ e.2.state = .running with shape
  have found : ∀ e ∈ running, queue.records.get? e.1 = some e.2 ∧ e.2.lane = lane ∧ e.2.state = .running := by
    intro e member
    obtain ⟨inside, is⟩ := List.mem_filter.mp member
    exact ⟨Dict.getOfMember keyed inside, by simpa using is⟩
  rcases settled with ⟨sound, -⟩ | swept
  · cases stood : queue.lanes.get? lane with
    | none =>
      have none : running = [] := by
        refine List.eq_nil_iff_forall_not_mem.mpr fun e member => ?_
        obtain ⟨held, home, state⟩ := found e member
        obtain ⟨runtime, there, -⟩ := sound.running e.1 e.2 held state
        cases stood.symm.trans (home ▸ there)
      simp [none]
    | some runtime =>
      have distinct : (running.map Prod.fst).Nodup := (List.filter_sublist.map Prod.fst).nodup keyed
      have held : (running.map Prod.fst) ⊆ runtime.workers.filterMap Worker.held := by
        intro jobId member
        obtain ⟨e, inside, rfl⟩ := List.mem_map.mp member
        obtain ⟨held, home, state⟩ := found e inside
        obtain ⟨other, there, holder, stands, holds⟩ := sound.running e.1 e.2 held state
        cases Option.some.inj (stood.symm.trans (home ▸ there))
        exact List.mem_filterMap.mpr ⟨holder, stands, holds⟩
      calc running.length = (running.map Prod.fst).length := (List.length_map _).symm
        _ ≤ (runtime.workers.filterMap Worker.held).length := (distinct.subperm held).length_le
        _ ≤ runtime.workers.length := List.length_filterMap_le _ _
        _ = limits.maxConcurrentRunsPerLane := (sound.lanes lane runtime stood).full
  · have none : running = [] := by
      refine List.eq_nil_iff_forall_not_mem.mpr fun e member => ?_
      obtain ⟨held, -, state⟩ := found e member
      cases state.symm.trans (swept.terminal e.1 e.2 held)
    simp [none]

end JobQueue

variable {limits : Limits} {queue : JobQueue} {events : List Event}

theorem recordsAndLanesAgree (run : Run (JobQueue.next limits) (JobQueue.new.start limits) events queue) :
    (∀ event queue', queue.next limits event = some queue' →
      ∀ jobId, Moves (queue.records.get? jobId) (queue'.records.get? jobId)) ∧
    (queue.accepting = true →
      (∀ lane runtime, queue.lanes.get? lane = some runtime → runtime.pending.Nodup ∧
        runtime.pending = runtime.queue ∧ runtime.pending.length ≤ limits.maxDepthPerLane) ∧
      ∀ jobId record, queue.records.get? jobId = some record → record.state = .queued →
        ∃ runtime k, queue.lanes.get? record.lane = some runtime ∧ runtime.pending[k]? = some jobId ∧
          record.queuePosition = some (k + 1)) ∧
    (∀ lane, (queue.records.filter fun e => e.2.lane = lane ∧ e.2.state = .running).length ≤
      limits.maxConcurrentRunsPerLane) ∧
    (queue.stopped = true → ∀ e ∈ queue.records, e.2.state = .terminal) := by
  have settled := JobQueue.runSettled run
  refine ⟨fun event queue' ok => (JobQueue.settledNext settled ok).2, fun accepting => ?_,
    JobQueue.runningBounded settled, fun stopped => ?_⟩
  · rcases settled with ⟨sound, -⟩ | swept
    · refine ⟨fun lane runtime found => ?_, fun jobId record found queued => ?_⟩
      · have here := sound.lanes lane runtime found
        exact ⟨here.aligned ▸ here.unique, here.aligned, here.aligned ▸ here.depth⟩
      · obtain ⟨runtime, there, waits⟩ := sound.queued jobId record found queued
        have here := sound.lanes _ runtime there
        obtain ⟨k, at'⟩ := List.mem_iff_getElem?.mp waits
        obtain ⟨record', found', -, -, position⟩ := here.waits k jobId at'
        cases Option.some.inj (found.symm.trans found')
        exact ⟨runtime, k, there, by rw [here.aligned, at'], position⟩
    · cases accepting.symm.trans swept.closed
  · rcases settled with ⟨-, going⟩ | swept
    · cases stopped.symm.trans going
    · exact fun e member => swept.terminal e.1 e.2 (Dict.getOfMember swept.keyed member)

def narrow : Limits := ⟨1, 2, 1, none, by decide, by decide, by decide⟩

def asking (prompt : String) : WorkflowSubmission := ⟨prompt, none, none⟩

/-- Of two jobs on one lane the second waits at the place it is recorded at. -/
theorem secondWaits : ∃ queue, Run (JobQueue.next narrow) (JobQueue.new.start narrow)
    [.submitted "workflow" (asking "KOD-80") "job-1" 0, .submitted "workflow" (asking "KOD-81") "job-2" 1,
      .worked "workflow" 0 .takes] queue ∧
    ∃ record runtime k, queue.records.get? "job-2" = some record ∧ queue.lanes.get? record.lane = some runtime ∧
      runtime.pending[k]? = some "job-2" ∧ record.queuePosition = some (k + 1) := by
  have run : Run (JobQueue.next narrow) (JobQueue.new.start narrow)
      ([] ++ [.submitted "workflow" (asking "KOD-80") "job-1" 0] ++ [.submitted "workflow" (asking "KOD-81") "job-2" 1] ++
        [.worked "workflow" 0 .takes]) _ := .move (.move (.move .start rfl) rfl) rfl
  obtain ⟨runtime, k, there, at', position⟩ := ((recordsAndLanesAgree run).2.1 rfl).2 "job-2" _ rfl rfl
  exact ⟨_, run, _, runtime, k, rfl, there, at', position⟩

end Kodezart.Jobs
