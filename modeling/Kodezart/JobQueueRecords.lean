import Mathlib
import Kodezart.JobQueueSteps

/-! What the queue's three readings of a lane's order and the jobs its workers hold have to
do with the records, and that every task's step keeps it. -/
namespace Kodezart.Jobs

/-- Every job a worker runs has a RUNNING record of the lane, and no other worker. -/
structure CrewSound (records : Dict String JobRecord) (lane : String) (workers : List Worker) : Prop where
  runs : ∀ worker ∈ workers, ∀ jobId, worker.active = some jobId → ∃ record,
    records.get? jobId = some record ∧ record.lane = lane ∧ record.state = .running
  apart : ∀ (i j : Nat) (worker other : Worker), workers[i]? = some worker → workers[j]? = some other →
    ∀ jobId, worker.active = some jobId → other.active = some jobId → i = j

structure LaneSound (limits : Limits) (records : Dict String JobRecord) (lane : String) (runtime : Lane) : Prop where
  full : runtime.workers.length = limits.maxConcurrentRunsPerLane
  unique : runtime.queue.Nodup
  aligned : runtime.pending = runtime.queue
  depth : runtime.queue.length ≤ limits.maxDepthPerLane
  waits : ∀ k jobId, runtime.queue[k]? = some jobId → ∃ record, records.get? jobId = some record ∧
    record.lane = lane ∧ record.state = .queued ∧ record.queuePosition = some (k + 1)
  crew : CrewSound records lane runtime.workers

namespace JobQueue

/-- A job no task will write the record of again. -/
def Over (queue : JobQueue) (jobId : String) : Prop :=
  jobId ∈ queue.drawn ∧ ∀ record, queue.records.get? jobId = some record → record.state = .terminal

structure Sound (limits : Limits) (queue : JobQueue) : Prop where
  keyed : queue.records.keys.Nodup
  drawn : ∀ jobId record, queue.records.get? jobId = some record → jobId ∈ queue.drawn
  lanes : ∀ lane runtime, queue.lanes.get? lane = some runtime → LaneSound limits queue.records lane runtime
  queued : ∀ jobId record, queue.records.get? jobId = some record → record.state = .queued →
    ∃ runtime, queue.lanes.get? record.lane = some runtime ∧ jobId ∈ runtime.queue
  running : ∀ jobId record, queue.records.get? jobId = some record → record.state = .running →
    ∃ runtime, queue.lanes.get? record.lane = some runtime ∧ ∃ worker ∈ runtime.workers, worker.held = some jobId
  finishing : ∀ lane runtime, queue.lanes.get? lane = some runtime → ∀ jobId, .finishing jobId ∈ runtime.workers →
    queue.Over jobId
  evicted : ∀ e ∈ queue.evictions, queue.Over e.1

end JobQueue

variable {limits : Limits} {records records' : Dict String JobRecord} {lane jobId : String} {runtime : Lane}
  {record : JobRecord} {i : Nat} {worker : Worker}

theorem crewCongr {workers : List Worker} (sound : CrewSound records lane workers)
    (kept : ∀ worker ∈ workers, ∀ jobId, worker.active = some jobId → ∀ record, records.get? jobId = some record →
      record.lane = lane → record.state = .running → ∃ record', records'.get? jobId = some record' ∧ Kept record record') :
    CrewSound records' lane workers := by
  refine { sound with runs := fun worker member jobId active => ?_ }
  obtain ⟨record, found, home, running⟩ := sound.runs worker member jobId active
  obtain ⟨record', found', kept⟩ := kept worker member jobId active record found home running
  exact ⟨record', found', kept.lane.trans home, kept.state.trans running⟩

theorem laneCongr (sound : LaneSound limits records lane runtime)
    (kept : ∀ jobId, (jobId ∈ runtime.queue ∨ ∃ worker ∈ runtime.workers, worker.active = some jobId) →
      ∀ record, records.get? jobId = some record → record.lane = lane →
      ∃ record', records'.get? jobId = some record' ∧ Kept record record') :
    LaneSound limits records' lane runtime := by
  refine { sound with
    waits := fun k jobId at' => ?_
    crew := crewCongr sound.crew fun worker member jobId active record found home _ =>
      kept jobId (Or.inr ⟨worker, member, active⟩) record found home }
  obtain ⟨record, found, home, queued, position⟩ := sound.waits k jobId at'
  obtain ⟨record', found', kept⟩ := kept jobId (Or.inl (List.mem_of_getElem? at')) record found home
  exact ⟨record', found', kept.lane.trans home, kept.state.trans queued, kept.position.trans position⟩

theorem booksForward (books : Books records records') (found : records.get? jobId = some record) :
    ∃ record', records'.get? jobId = some record' ∧ Kept record record' := by
  have rel := books.kept jobId
  rw [found] at rel
  cases found' : records'.get? jobId with
  | none => rw [found'] at rel; cases rel
  | some record' =>
    rw [found'] at rel
    cases rel with
    | some kept => exact ⟨record', rfl, kept⟩

theorem booksBackward (books : Books records records') (found : records'.get? jobId = some record) :
    ∃ old, records.get? jobId = some old ∧ Kept old record := by
  have rel := books.kept jobId
  rw [found] at rel
  cases found' : records.get? jobId with
  | none => rw [found'] at rel; cases rel
  | some old =>
    rw [found'] at rel
    cases rel with
    | some kept => exact ⟨old, rfl, kept⟩

/-- A worker another one's place was given to still stands. -/
theorem memberStands {workers : List Worker} {next holder : Worker} (stands : workers[i]? = some worker)
    (member : holder ∈ workers) (other : holder ≠ worker) : holder ∈ workers.set i next := by
  obtain ⟨j, at'⟩ := List.mem_iff_getElem?.mp member
  refine List.mem_iff_getElem?.mpr ⟨j, ?_⟩
  rw [List.getElem?_set]
  split
  · rename_i same
    subst same
    exact absurd (Option.some.inj (at'.symm.trans stands)) other
  · exact at'

theorem memberNext {workers : List Worker} (stands : workers[i]? = some worker) (next : Worker) :
    next ∈ workers.set i next :=
  List.mem_set (List.getElem?_eq_some_iff.mp stands).1 next

namespace JobQueue
variable {queue queue' : JobQueue} {runtime' : Lane}

/-- One lane replaced, with the records of its own jobs. -/
structure Replaced (limits : Limits) (queue queue' : JobQueue) (lane : String) (runtime' : Lane) : Prop where
  lanes : queue'.lanes = queue.lanes.set lane runtime'
  keyed : queue'.records.keys.Nodup
  drawn : ∀ jobId ∈ queue.drawn, jobId ∈ queue'.drawn
  own : ∀ jobId, queue'.records.get? jobId = queue.records.get? jobId ∨
    ∃ record, queue'.records.get? jobId = some record ∧ record.lane = lane ∧ jobId ∈ queue'.drawn ∧
      ∀ old, queue.records.get? jobId = some old → old.lane = lane ∧ old.state ≠ .terminal
  known : ∀ jobId, queue.records.get? jobId = none → queue'.records.get? jobId ≠ none → jobId ∉ queue.drawn
  sound : LaneSound limits queue'.records lane runtime'
  queued : ∀ jobId record, queue'.records.get? jobId = some record → record.lane = lane → record.state = .queued →
    jobId ∈ runtime'.queue
  running : ∀ jobId record, queue'.records.get? jobId = some record → record.lane = lane → record.state = .running →
    ∃ worker ∈ runtime'.workers, worker.held = some jobId
  finishing : ∀ jobId, .finishing jobId ∈ runtime'.workers → queue.Over jobId ∨ queue'.Over jobId
  evicted : ∀ e ∈ queue'.evictions, e ∈ queue.evictions ∨ queue'.Over e.1

namespace Replaced

theorem stillOver (replaced : Replaced limits queue queue' lane runtime') (ended : queue.Over jobId) :
    queue'.Over jobId := by
  refine ⟨replaced.drawn jobId ended.1, fun record found => ?_⟩
  rcases replaced.own jobId with same | ⟨-, -, -, -, was⟩
  · exact ended.2 record (same ▸ found)
  · cases old : queue.records.get? jobId with
    | none => exact absurd ended.1 (replaced.known jobId old (by simp [found]))
    | some record => exact absurd (ended.2 record old) (was record old).2

theorem elsewhere (replaced : Replaced limits queue queue' lane runtime')
    (found : queue'.records.get? jobId = some record) (other : record.lane ≠ lane) :
    queue.records.get? jobId = some record := by
  rcases replaced.own jobId with same | ⟨record', found', home, -⟩
  · exact same ▸ found
  · cases Option.some.inj (found.symm.trans found')
    exact absurd home other

theorem keeps (lane : String) (runtime' : Lane) (replaced : Replaced limits queue queue' lane runtime') (sound : queue.Sound limits) :
    queue'.Sound limits := by
  have lanes : ∀ {other : String}, lane ≠ other → queue'.lanes.get? other = queue.lanes.get? other := by
    intro other apart
    rw [replaced.lanes, Dict.getSetOther _ _ apart]
  have here : queue'.lanes.get? lane = some runtime' := by simp [replaced.lanes]
  refine ⟨replaced.keyed, fun jobId record found => ?_, fun other runtime found => ?_,
    fun jobId record found queued => ?_, fun jobId record found running => ?_,
    fun other runtime found jobId member => ?_, fun e member => ?_⟩
  · rcases replaced.own jobId with same | ⟨-, -, -, drawn, -⟩
    · exact replaced.drawn jobId (sound.drawn jobId record (same ▸ found))
    · exact drawn
  · by_cases same : lane = other
    · subst same
      cases Option.some.inj (here.symm.trans found)
      exact replaced.sound
    · rw [lanes same] at found
      refine laneCongr (sound.lanes other runtime found) fun jobId _ record stood home => ?_
      rcases replaced.own jobId with same' | ⟨-, -, -, -, was⟩
      · exact ⟨record, same'.trans stood, keptRefl record⟩
      · exact absurd ((was record stood).1.symm.trans home) same
  · by_cases home : record.lane = lane
    · exact ⟨runtime', home ▸ here, replaced.queued jobId record found home queued⟩
    · rw [lanes (Ne.symm home)]
      exact sound.queued jobId record (replaced.elsewhere found home) queued
  · by_cases home : record.lane = lane
    · exact ⟨runtime', home ▸ here, replaced.running jobId record found home running⟩
    · rw [lanes (Ne.symm home)]
      exact sound.running jobId record (replaced.elsewhere found home) running
  · by_cases same : lane = other
    · subst same
      cases Option.some.inj (here.symm.trans found)
      exact (replaced.finishing jobId member).elim replaced.stillOver id
    · rw [lanes same] at found
      exact replaced.stillOver (sound.finishing other runtime found jobId member)
  · exact (replaced.evicted e member).elim (fun old => replaced.stillOver (sound.evicted e old)) id

end Replaced

theorem soundBooks (sound : queue.Sound limits) (lanes : queue'.lanes = queue.lanes)
    (books : Books queue.records queue'.records) (evictions : queue'.evictions.Subset queue.evictions)
    (drawn : queue'.drawn = queue.drawn) : queue'.Sound limits := by
  have stillOver : ∀ {jobId}, queue.Over jobId → queue'.Over jobId := by
    intro jobId ended
    refine ⟨drawn ▸ ended.1, fun record found => ?_⟩
    obtain ⟨old, stood, kept⟩ := booksBackward books found
    exact kept.state.trans (ended.2 old stood)
  refine ⟨books.keyed sound.keyed, fun jobId record found => ?_, fun lane runtime found => ?_,
    fun jobId record found queued => ?_, fun jobId record found running => ?_,
    fun lane runtime found jobId member => ?_, fun e member => ?_⟩
  · obtain ⟨old, stood, -⟩ := booksBackward books found
    exact drawn ▸ sound.drawn jobId old stood
  · rw [lanes] at found
    exact laneCongr (sound.lanes lane runtime found) fun _ _ _ stood _ => booksForward books stood
  · obtain ⟨old, stood, kept⟩ := booksBackward books found
    rw [lanes, kept.lane]
    exact sound.queued jobId old stood (kept.state.symm.trans queued)
  · obtain ⟨old, stood, kept⟩ := booksBackward books found
    rw [lanes, kept.lane]
    exact sound.running jobId old stood (kept.state.symm.trans running)
  · rw [lanes] at found
    exact stillOver (sound.finishing lane runtime found jobId member)
  · exact stillOver (sound.evicted e (evictions member))

theorem asideSound (sound : queue.Sound limits) (aside : Aside queue queue') : queue'.Sound limits :=
  soundBooks sound aside.lanes aside.books (by rw [aside.evictions]; exact List.Subset.refl _) aside.drawn

end JobQueue
end Kodezart.Jobs
