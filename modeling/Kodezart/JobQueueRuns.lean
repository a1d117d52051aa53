import Mathlib
import Kodezart.Machine
import Kodezart.JobQueueRecords

/-! Each task's step, one after another: a lane's readings stay one order, and every record
moves forward only. -/
namespace Kodezart.Jobs
variable {limits : Limits} {records : Dict String JobRecord} {lane jobId : String} {runtime : Lane}
  {record : JobRecord} {i : Nat} {worker next : Worker} {pending rest : List String} {position : Nat}

theorem eraseKeyed (keyed : records.keys.Nodup) (jobId : String) : (records.erase jobId).keys.Nodup :=
  ((Dict.eraseSublist records jobId).map Prod.fst).nodup keyed

theorem mapGet {ν : Type} (f : ν → ν) (d : Dict String ν) (k : String) :
    Dict.get? (d.map fun e => (e.1, f e.2)) k = (d.get? k).map f := by
  induction d with
  | nil => rfl
  | cons e d ih =>
    simp only [List.map_cons, Dict.get?]
    split
    · rfl
    · exact ih

theorem setAgain (lanes : Dict String Lane) (lane : String) (first second : Lane) :
    (lanes.set lane first).set lane second = lanes.set lane second := by
  induction lanes with
  | nil => simp [Dict.set]
  | cons e lanes ih =>
    simp only [Dict.set]
    split
    · rename_i same
      simp [Dict.set, same]
    · rename_i different
      simp [Dict.set, different, ih]

/-- A worker's place taken by what it becomes, which holds no job another worker has. -/
theorem crewSet {workers : List Worker} (sound : CrewSound records lane workers)
    (active : ∀ jobId, next.active = some jobId →
      (∃ record, records.get? jobId = some record ∧ record.lane = lane ∧ record.state = .running) ∧
      ∀ (j : Nat) (other : Worker), workers[j]? = some other → other.active = some jobId → i = j) :
    CrewSound records lane (workers.set i next) := by
  refine ⟨fun worker member jobId runs => ?_, fun j k worker other left right jobId runs also => ?_⟩
  · rcases List.mem_or_eq_of_mem_set member with old | rfl
    · exact sound.runs worker old jobId runs
    · exact (active jobId runs).1
  · have place : ∀ {j : Nat} {worker : Worker}, (workers.set i next)[j]? = some worker →
        (i = j ∧ worker = next) ∨ workers[j]? = some worker := by
      intro j worker at'
      rw [List.getElem?_set] at at'
      split at at'
      · split at at'
        · exact Or.inl ⟨‹_›, (Option.some.inj at').symm⟩
        · cases at'
      · exact Or.inr at'
    rcases place left with ⟨rfl, rfl⟩ | stood <;> rcases place right with ⟨rfl, rfl⟩ | stands
    · rfl
    · exact (active jobId runs).2 k other stands also
    · exact ((active jobId also).2 j worker stood runs).symm
    · exact sound.apart j k worker other stood stands jobId runs also

theorem laneSet (sound : LaneSound limits records lane runtime)
    (crew : CrewSound records lane (runtime.workers.set i next)) :
    LaneSound limits records lane { runtime with workers := runtime.workers.set i next } :=
  { sound with full := by simpa using sound.full, crew }

theorem activeHeld (runs : worker.active = some jobId) : worker.held = some jobId := by
  cases worker with
  | gone job => cases runs
  | _ => exact runs

namespace JobQueue
variable {queue queue' sent : JobQueue} {act : Act}

theorem soundPut (sound : queue.Sound limits) (found : queue.lanes.get? lane = some runtime)
    (stands : runtime.workers[i]? = some worker) (goes : Goes worker next) : (queue.put lane i next).Sound limits := by
  rw [putFound found]
  have here := sound.lanes lane runtime found
  have member := List.mem_of_getElem? stands
  refine Replaced.keeps lane { runtime with workers := runtime.workers.set i next } ?_ sound
  refine ⟨rfl, sound.keyed, fun _ => id, fun _ => Or.inl rfl, fun _ none some => absurd none some,
    laneSet here (crewSet here.crew fun jobId active => ?_), fun jobId record stood home queued => ?_,
    fun jobId record stood home running => ?_, fun jobId inside => ?_, fun e => Or.inl⟩
  · have was : worker.active = some jobId := by
      rcases goes.active with same | none
      · exact same ▸ active
      · cases none.symm.trans active
    exact ⟨here.crew.runs worker member jobId was, fun j other at' also => here.crew.apart i j worker other stands at' jobId was also⟩
  · obtain ⟨other, there, waits⟩ := sound.queued jobId record stood queued
    cases Option.some.inj (found.symm.trans (home ▸ there))
    exact waits
  · obtain ⟨other, there, holder, inside, held⟩ := sound.running jobId record stood running
    cases Option.some.inj (found.symm.trans (home ▸ there))
    by_cases same : holder = worker
    · exact ⟨next, memberNext stands next, goes.held jobId (same ▸ held)⟩
    · exact ⟨holder, memberStands stands inside same, held⟩
  · rcases List.mem_or_eq_of_mem_set inside with old | same
    · exact Or.inl (sound.finishing lane runtime found jobId old)
    · exact absurd same.symm (goes.unfinished jobId)

/-- A record as a run that ended leaves it. -/
def ended (record : JobRecord) (outcome : Option WorkflowOutcome) : JobRecord :=
  { record with state := .terminal, queuePosition := none, outcome }

theorem setKeys {ν : Type} {d : Dict String ν} {k : String} {v : ν} (found : d.get? k = some v) (v' : ν) :
    (d.set k v').keys = d.keys := Dict.keysSet v' ((Dict.getSome d k).mpr ⟨v, found⟩)

theorem finishOk (found : queue.lanes.get? lane = some runtime) (held : queue.records.get? jobId = some record)
    (i : Nat) (outcome : Option WorkflowOutcome) :
    ∃ streams next, (next = .gone none ∨ next = .finishing jobId) ∧
      (jobId ∈ queue.streams.keys → next = .finishing jobId) ∧ streams.keys = queue.streams.keys ∧
      queue.finish lane i jobId outcome = { queue with
        lanes := queue.lanes.set lane { runtime with workers := runtime.workers.set i next }
        records := queue.records.set jobId (ended record outcome)
        streams } := by
  simp only [finish, held]
  split
  · rename_i absent
    refine ⟨queue.streams, .gone none, Or.inl rfl, fun inside => ?_, rfl, by simp only [put, found]; rfl⟩
    obtain ⟨stream, stands⟩ := (Dict.getSome _ _).mp inside
    cases absent.symm.trans stands
  · rename_i stream stands
    exact ⟨queue.streams.set jobId { stream with closed := true }, .finishing jobId, Or.inr rfl, fun _ => rfl,
      setKeys stands _, by simp only [put, found]; rfl⟩

theorem soundFinish (sound : queue.Sound limits) (found : queue.lanes.get? lane = some runtime)
    (stands : runtime.workers[i]? = some worker) (runs : worker.active = some jobId) (outcome : Option WorkflowOutcome) :
    (queue.finish lane i jobId outcome).Sound limits := by
  have here := sound.lanes lane runtime found
  have member := List.mem_of_getElem? stands
  obtain ⟨record, held, home, running⟩ := here.crew.runs worker member jobId runs
  obtain ⟨streams, next, shape, -, -, same⟩ := finishOk found held i outcome
  rw [same]
  have idle : next.active = none := by rcases shape with rfl | rfl <;> rfl
  have drawn := sound.drawn jobId record held
  have look : ∀ {other : String}, (queue.records.set jobId (ended record outcome)).get? other =
      if jobId = other then some (ended record outcome) else queue.records.get? other := Dict.getSet _ _ _ _
  refine Replaced.keeps lane { runtime with workers := runtime.workers.set i next } ?_ sound
  refine ⟨rfl, Dict.setNodup _ _ sound.keyed, fun _ => id, fun other => ?_, fun other none some => ?_,
    laneCongr (laneSet here (crewSet here.crew fun jobId active => ?_)) fun other holds record stood home => ?_,
    fun other record stood home queued => ?_, fun other record stood home running => ?_, fun other inside => ?_,
    fun e => Or.inl⟩
  · by_cases same : jobId = other
    · exact Or.inr ⟨ended record outcome, by rw [look, if_pos same], home, same ▸ drawn, fun old stood => by
        subst same
        cases Option.some.inj (held.symm.trans stood)
        exact ⟨home, by simp [running]⟩⟩
    · exact Or.inl (by rw [look, if_neg same])
  · rw [look, if_neg (by rintro rfl; simp [held] at none)] at some
    exact absurd none some
  · rw [idle] at active
    cases active
  · have apart : jobId ≠ other := by
      rintro rfl
      rcases holds with waits | ⟨holder, inside, active⟩
      · obtain ⟨k, at'⟩ := List.mem_iff_getElem?.mp waits
        obtain ⟨queued, found', -, state, -⟩ := here.waits k jobId at'
        cases Option.some.inj (held.symm.trans found')
        cases running.symm.trans state
      · rcases List.mem_iff_getElem?.mp inside with ⟨j, at'⟩
        rw [List.getElem?_set] at at'
        split at at'
        · split at at'
          · cases Option.some.inj at'
            cases idle.symm.trans active
          · cases at'
        · rename_i different
          exact different (here.crew.apart i j worker holder stands at' jobId runs active)
    exact ⟨record, by rw [look, if_neg apart, stood], keptRefl record⟩
  · rw [look] at stood
    split at stood
    · cases stood
      cases queued
    · obtain ⟨lane', there, waits⟩ := sound.queued other record stood queued
      cases Option.some.inj (found.symm.trans (home ▸ there))
      exact waits
  · rw [look] at stood
    split at stood
    · cases stood
      cases running
    · rename_i different
      obtain ⟨lane', there, holder, inside, held'⟩ := sound.running other record stood running
      cases Option.some.inj (found.symm.trans (home ▸ there))
      refine ⟨holder, memberStands stands inside ?_, held'⟩
      rintro rfl
      exact different (Option.some.inj ((activeHeld runs).symm.trans held'))
  · rcases List.mem_or_eq_of_mem_set inside with old | same
    · exact Or.inl (sound.finishing lane runtime found other old)
    · rcases shape with rfl | rfl
      · cases same
      · cases same
        refine Or.inr ⟨drawn, fun record stood => ?_⟩
        rw [look, if_pos rfl] at stood
        cases stood
        rfl

theorem reindexOther (pending : List String) (position : Nat) (records : Dict String JobRecord)
    (absent : jobId ∉ pending) : (reindex position pending records).get? jobId = records.get? jobId := by
  induction pending generalizing position records with
  | nil => rfl
  | cons head pending ih =>
    obtain ⟨different, absent⟩ : jobId ≠ head ∧ jobId ∉ pending := by simpa using absent
    rw [reindex, ih _ _ absent]
    split
    · split
      · exact Dict.getSetOther _ _ (Ne.symm different)
      · rfl
    · rfl

theorem reindexAt {k : Nat} (unique : pending.Nodup) (at' : pending[k]? = some jobId)
    (found : records.get? jobId = some record) (queued : record.state = .queued) (position : Nat) :
    (reindex position pending records).get? jobId = some { record with queuePosition := some (position + k) } := by
  induction pending generalizing position records k with
  | nil => simp at at'
  | cons head pending ih =>
    obtain ⟨fresh, unique⟩ := List.nodup_cons.mp unique
    cases k with
    | zero =>
      cases Option.some.inj at'
      rw [reindex, found, reindexOther _ _ _ fresh]
      simp [queued]
    | succ k =>
      have different : head ≠ jobId := by
        rintro rfl
        exact fresh (List.mem_of_getElem? at')
      rw [reindex, ih unique at']
      · rw [Nat.add_right_comm]
        rfl
      · split
        · split
          · rwa [Dict.getSetOther _ _ different]
          · exact found
        · exact found

theorem reindexKeyed (pending : List String) (position : Nat) (keyed : records.keys.Nodup) :
    (reindex position pending records).keys.Nodup := by
  induction pending generalizing position records with
  | nil => exact keyed
  | cons head pending ih =>
    rw [reindex]
    refine ih _ ?_
    split
    · split
      · exact Dict.setNodup _ _ keyed
      · exact keyed
    · exact keyed

/-- A record as its worker marks it when it takes the job. -/
def begun (record : JobRecord) : JobRecord := { record with state := .running, queuePosition := none }

theorem takeOk (sound : LaneSound limits queue.records lane runtime) (head : runtime.queue = jobId :: rest) (i : Nat) :
    ∃ record next, queue.records.get? jobId = some record ∧ record.lane = lane ∧ record.state = .queued ∧
      next = (if jobId ∈ queue.requests.keys then .started jobId else .gone (some jobId)) ∧
      queue.take lane i runtime jobId rest =
      { queue with
        lanes := queue.lanes.set lane ⟨rest, rest, runtime.workers.set i next⟩
        records := (reindex 1 rest queue.records).set jobId (begun record)
        requests := queue.requests.erase jobId } := by
  obtain ⟨record, found, home, queued, -⟩ := sound.waits 0 jobId (by rw [head]; rfl)
  have unique := sound.unique
  rw [head] at unique
  obtain ⟨fresh, unique⟩ := List.nodup_cons.mp unique
  have pending : runtime.pending.erase jobId = rest := by rw [sound.aligned, head, List.erase_cons_head]
  have found' : (reindex 1 rest queue.records).get? jobId = some record := by rw [reindexOther _ _ _ fresh, found]
  refine ⟨record, _, found, home, queued, rfl, ?_⟩
  simp only [take, pending, found']
  split
  · simp only [put, Dict.getSetSame, setAgain]
    rfl
  · simp only [put, Dict.getSetSame, setAgain]
    rfl

theorem soundTake (sound : queue.Sound limits) (found : queue.lanes.get? lane = some runtime)
    (stands : runtime.workers[i]? = some .waiting) (head : runtime.queue = jobId :: rest) :
    (queue.take lane i runtime jobId rest).Sound limits := by
  have here := sound.lanes lane runtime found
  obtain ⟨record, next, held, home, queued, became, same⟩ := takeOk here head i
  have shape : next = .started jobId ∨ next = .gone (some jobId) := by
    rw [became]
    split
    · exact Or.inl rfl
    · exact Or.inr rfl
  rw [same]
  clear became
  have unique := here.unique
  rw [head] at unique
  obtain ⟨fresh, unique⟩ := List.nodup_cons.mp unique
  have look : ∀ {other : String}, ((reindex 1 rest queue.records).set jobId (begun record)).get? other =
      if jobId = other then some (begun record) else (reindex 1 rest queue.records).get? other := Dict.getSet _ _ _ _
  have later : ∀ k other, rest[k]? = some other → jobId ≠ other ∧ ∃ record, queue.records.get? other = some record ∧
      record.lane = lane ∧ record.state = .queued ∧
      (reindex 1 rest queue.records).get? other = some { record with queuePosition := some (1 + k) } := by
    intro k other at'
    obtain ⟨record, found, home, queued, -⟩ := here.waits (k + 1) other (by rw [head]; exact at')
    refine ⟨?_, record, found, home, queued, reindexAt unique at' found queued 1⟩
    rintro rfl
    exact fresh (List.mem_of_getElem? at')
  have untouched : ∀ other, other ∉ rest → jobId ≠ other →
      ((reindex 1 rest queue.records).set jobId (begun record)).get? other = queue.records.get? other := by
    intro other absent different
    rw [look, if_neg different, reindexOther _ _ _ absent]
  have active : ∀ worker ∈ runtime.workers, ∀ other, worker.active = some other → other ∉ rest ∧ jobId ≠ other := by
    intro worker member other runs
    obtain ⟨old, found, -, running⟩ := here.crew.runs worker member other runs
    refine ⟨fun inside => ?_, ?_⟩
    · obtain ⟨k, at'⟩ := List.mem_iff_getElem?.mp inside
      obtain ⟨-, old', found', -, queued, -⟩ := later k other at'
      cases Option.some.inj (found.symm.trans found')
      cases running.symm.trans queued
    · rintro rfl
      cases Option.some.inj (held.symm.trans found)
      cases running.symm.trans queued
  have idle : Worker.held .waiting = none := rfl
  refine Replaced.keeps lane ⟨rest, rest, runtime.workers.set i next⟩ ?_ sound
  refine ⟨rfl, Dict.setNodup _ _ (reindexKeyed _ _ sound.keyed), fun _ => id, fun other => ?_, fun other none some => ?_,
    ⟨by simpa using here.full, unique, rfl, ?_, fun k other at' => ?_, crewSet (crewCongr here.crew ?_) ?_⟩,
    fun other record stood home queued => ?_, fun other record stood home running => ?_, fun other inside => ?_,
    fun e => Or.inl⟩
  · by_cases same : jobId = other
    · subst same
      refine Or.inr ⟨begun record, by rw [look, if_pos rfl], home, sound.drawn _ _ held, fun old stood => ?_⟩
      cases Option.some.inj (held.symm.trans stood)
      exact ⟨home, by simp [queued]⟩
    · by_cases inside : other ∈ rest
      · obtain ⟨k, at'⟩ := List.mem_iff_getElem?.mp inside
        obtain ⟨-, old, stood, home, queued, now⟩ := later k other at'
        refine Or.inr ⟨{ old with queuePosition := some (1 + k) }, by rw [look, if_neg same, now], home,
          sound.drawn _ _ stood, fun old' stood' => ?_⟩
        cases Option.some.inj (stood.symm.trans stood')
        exact ⟨home, by simp [queued]⟩
      · exact Or.inl (untouched other inside same)
  · by_cases same : jobId = other
    · subst same
      rw [held] at none
      cases none
    · by_cases inside : other ∈ rest
      · obtain ⟨k, at'⟩ := List.mem_iff_getElem?.mp inside
        obtain ⟨-, old, stood, -⟩ := later k other at'
        rw [stood] at none
        cases none
      · exact absurd none (untouched other inside same ▸ some)
  · have depth := here.depth
    rw [head] at depth
    exact (Nat.le_succ _).trans depth
  · obtain ⟨different, old, -, home, queued, now⟩ := later k other at'
    exact ⟨{ old with queuePosition := some (1 + k) }, by rw [look, if_neg different, now], home, queued,
      by rw [Nat.add_comm]⟩
  · intro worker member other runs old stood _ _
    obtain ⟨absent, different⟩ := active worker member other runs
    exact ⟨old, (untouched other absent different).trans stood, keptRefl old⟩
  · intro other runs
    have same : other = jobId := by
      rcases shape with rfl | rfl
      · exact (Option.some.inj runs).symm
      · cases runs
    subst same
    refine ⟨⟨begun record, by rw [look, if_pos rfl], home, rfl⟩, fun j holder at' also => ?_⟩
    exact absurd rfl (active holder (List.mem_of_getElem? at') _ also).2
  · by_cases same : jobId = other
    · rw [look, if_pos same] at stood
      cases stood
      cases queued
    · by_cases inside : other ∈ rest
      · exact inside
      · rw [untouched other inside same] at stood
        obtain ⟨lane', there, waits⟩ := sound.queued other record stood queued
        cases Option.some.inj (found.symm.trans (home ▸ there))
        rw [head] at waits
        exact (List.mem_cons.mp waits).resolve_left (Ne.symm same)
  · by_cases same : jobId = other
    · subst same
      refine ⟨next, memberNext stands next, ?_⟩
      rcases shape with rfl | rfl <;> rfl
    · have inside : other ∉ rest := by
        intro inside
        obtain ⟨k, at'⟩ := List.mem_iff_getElem?.mp inside
        obtain ⟨-, old, -, -, queued, now⟩ := later k other at'
        rw [look, if_neg same, now] at stood
        cases stood
        cases running.symm.trans queued
      rw [untouched other inside same] at stood
      obtain ⟨lane', there, holder, member, held'⟩ := sound.running other record stood running
      cases Option.some.inj (found.symm.trans (home ▸ there))
      refine ⟨holder, memberStands stands member ?_, held'⟩
      rintro rfl
      cases held'
  · rcases List.mem_or_eq_of_mem_set inside with old | same
    · exact Or.inl (sound.finishing lane runtime found other old)
    · rcases shape with rfl | rfl <;> cases same

theorem soundSettle (sound : queue.Sound limits) (found : queue.lanes.get? lane = some runtime)
    (stands : runtime.workers[i]? = some (.finishing jobId)) :
    (({ queue with evictions := queue.evictions ++ [(jobId, .buffer), (jobId, .record)] } : JobQueue).put lane i
      .waiting).Sound limits := by
  have gone := sound.finishing lane runtime found jobId (List.mem_of_getElem? stands)
  have scheduled : ({ queue with
      evictions := queue.evictions ++ [(jobId, .buffer), (jobId, .record)] } : JobQueue).Sound limits :=
    { sound with
      finishing := sound.finishing
      evicted := fun e member => by
        rcases List.mem_append.mp member with old | new
        · exact sound.evicted e old
        · have same : e.1 = jobId := by rcases List.mem_pair.mp new with rfl | rfl <;> rfl
          exact same ▸ gone }
  exact soundPut scheduled found stands ⟨Or.inr rfl, by simp [Worker.held, Worker.active], by simp⟩

theorem soundWork (sound : queue.Sound limits) (ok : queue.work limits lane i act = some queue') :
    queue'.Sound limits := by
  obtain ⟨runtime, worker, found, stands, step⟩ := workOk ok
  cases step with
  | took waits head =>
    subst waits
    exact soundTake sound found stands head
  | went aside goes => exact soundPut (asideSound sound aside) (aside.lanes ▸ found) stands goes
  | finished aside runs outcome => exact soundFinish (asideSound sound aside) (aside.lanes ▸ found) stands runs outcome
  | settled finishing =>
    subst finishing
    exact soundSettle sound found stands

theorem soundEnsureLane (sound : queue.Sound limits) (lane : String) : (queue.ensureLane limits lane).Sound limits := by
  rw [ensureLane]
  split
  · exact sound
  · rename_i absent
    have nothing : ∀ {jobId record}, queue.records.get? jobId = some record → record.lane = lane →
        record.state = .terminal := by
      intro jobId record stood home
      subst home
      cases state : record.state with
      | queued =>
        obtain ⟨runtime, found, -⟩ := sound.queued jobId record stood state
        cases absent.symm.trans found
      | running =>
        obtain ⟨runtime, found, -⟩ := sound.running jobId record stood state
        cases absent.symm.trans found
      | terminal => rfl
    refine Replaced.keeps lane ⟨[], [], List.replicate limits.maxConcurrentRunsPerLane .waiting⟩ ?_ sound
    refine ⟨rfl, sound.keyed, fun _ => id, fun _ => Or.inl rfl, fun _ none some => absurd none some,
      ⟨List.length_replicate, List.nodup_nil, rfl, Nat.zero_le _, by simp, ?_, ?_⟩,
      fun jobId record stood home queued => ?_, fun jobId record stood home running => ?_, fun jobId inside => ?_,
      fun e => Or.inl⟩
    · intro worker member jobId active
      cases List.eq_of_mem_replicate member
      cases active
    · intro j k worker other left right jobId active
      cases List.eq_of_mem_replicate (List.mem_of_getElem? left)
      cases active
    · cases queued.symm.trans (nothing stood home)
    · cases running.symm.trans (nothing stood home)
    · cases List.eq_of_mem_replicate inside

theorem ensureLaneStands (limits : Limits) (queue : JobQueue) (lane : String) :
    ∃ runtime, (queue.ensureLane limits lane).lanes.get? lane = some runtime := by
  rw [ensureLane]
  split
  · exact ⟨_, ‹_›⟩
  · exact ⟨_, Dict.getSetSame _ _ _⟩

@[simp] theorem ensureLaneRecords (limits : Limits) (queue : JobQueue) (lane : String) :
    (queue.ensureLane limits lane).records = queue.records := by
  rw [ensureLane]
  split <;> rfl

@[simp] theorem ensureLaneDrawn (limits : Limits) (queue : JobQueue) (lane : String) :
    (queue.ensureLane limits lane).drawn = queue.drawn := by
  rw [ensureLane]
  split <;> rfl

/-- What a submission does: nothing to a queue that is closed, no more than open the lane of
one that is full, and one job more at the end of its lane otherwise. -/
theorem submitOk (limits : Limits) (queue : JobQueue) (lane : String) (request : WorkflowSubmission) (jobId : String)
    (now : Int) : (queue.submit limits lane request jobId now).1 = queue ∨
    (queue.submit limits lane request jobId now).1 = queue.ensureLane limits lane ∨
    ∃ runtime, (queue.ensureLane limits lane).lanes.get? lane = some runtime ∧
      runtime.queue.length < limits.maxDepthPerLane ∧ (queue.submit limits lane request jobId now).1 =
      { queue.ensureLane limits lane with
        lanes := (queue.ensureLane limits lane).lanes.set lane
          ⟨runtime.queue ++ [jobId], runtime.pending ++ [jobId], runtime.workers⟩
        records := queue.records.set jobId
          ⟨jobId, lane, .queued, some (runtime.pending.length + 1), now, request.scope, none, false⟩
        requests := (queue.ensureLane limits lane).requests.set jobId request
        streams := (queue.ensureLane limits lane).streams.set jobId ⟨[], false⟩
        drawn := jobId :: queue.drawn } := by
  obtain ⟨runtime, found⟩ := ensureLaneStands limits queue lane
  simp only [submit, found]
  split
  · exact Or.inl rfl
  · split
    · exact Or.inr (Or.inl rfl)
    · rename_i room
      exact Or.inr (Or.inr ⟨runtime, rfl, not_le.mp room, by simp⟩)

theorem soundSubmit (sound : queue.Sound limits) (fresh : jobId ∉ queue.drawn) (lane : String)
    (request : WorkflowSubmission) (now : Int) : (queue.submit limits lane request jobId now).1.Sound limits := by
  have opened := soundEnsureLane sound lane
  obtain same | same | ⟨runtime, found, room, same⟩ := submitOk limits queue lane request jobId now
  · rwa [same]
  · rwa [same]
  rw [same]
  have here := opened.lanes lane runtime found
  have absent : queue.records.get? jobId = none := by
    cases stood : queue.records.get? jobId with
    | none => rfl
    | some record => exact absurd (sound.drawn jobId record stood) fresh
  have look : ∀ {record : JobRecord} {other : String}, (queue.records.set jobId record).get? other =
      if jobId = other then some record else queue.records.get? other := Dict.getSet _ _ _ _
  have known : ∀ {other record}, queue.records.get? other = some record → jobId ≠ other := by
    rintro other record stood rfl
    exact fresh (sound.drawn _ record stood)
  have stays : ∀ {other old record}, queue.records.get? other = some old →
      ∃ new, (queue.records.set jobId record).get? other = some new ∧ Kept old new := fun stood =>
    ⟨_, by rw [look, if_neg (known stood), stood], keptRefl _⟩
  refine Replaced.keeps lane ⟨runtime.queue ++ [jobId], runtime.pending ++ [jobId], runtime.workers⟩ ?_ opened
  refine ⟨rfl, Dict.setNodup _ _ sound.keyed, fun other inside => ?_, fun other => ?_, fun other none some => ?_,
    ⟨here.full, ?_, by rw [here.aligned], by simpa using room, fun k other at' => ?_, ?_⟩,
    fun other record stood home queued => ?_, fun other record stood home running => ?_, fun other inside => ?_,
    fun e => Or.inl⟩
  · exact List.mem_cons_of_mem _ (by simpa using inside)
  · by_cases same : jobId = other
    · subst same
      exact Or.inr ⟨_, by rw [look, if_pos rfl], rfl, List.mem_cons_self, fun old stood => by
        simp [absent] at stood⟩
    · exact Or.inl (by rw [look, if_neg same, ensureLaneRecords])
  · by_cases same : jobId = other
    · subst same
      simpa using fresh
    · rw [look, if_neg same] at some
      exact absurd (by simpa using none) some
  · rw [List.nodup_append]
    refine ⟨here.unique, List.nodup_singleton _, fun waits inside other one same => ?_⟩
    cases List.mem_singleton.mp one
    subst same
    obtain ⟨k, at'⟩ := List.mem_iff_getElem?.mp inside
    obtain ⟨record, stood, -⟩ := here.waits k _ at'
    exact known (by simpa using stood) rfl
  · rcases Nat.lt_or_ge k runtime.queue.length with before | after
    · rw [List.getElem?_append_left before] at at'
      obtain ⟨record, stood, home, queued, position⟩ := here.waits k other at'
      rw [ensureLaneRecords] at stood
      exact ⟨record, by rw [look, if_neg (known stood), stood], home, queued, position⟩
    · rw [List.getElem?_append_right after] at at'
      obtain ⟨zero, same⟩ : k - runtime.queue.length = 0 ∧ jobId = other := by
        cases place : k - runtime.queue.length with
        | zero =>
          rw [place] at at'
          exact ⟨rfl, Option.some.inj at'⟩
        | succ n =>
          rw [place] at at'
          cases at'
      subst same
      have last : k = runtime.queue.length := le_antisymm (Nat.sub_eq_zero_iff_le.mp zero) after
      exact ⟨_, by rw [look, if_pos rfl], rfl, rfl, by rw [here.aligned, last]⟩
  · refine crewCongr here.crew fun worker member other runs old stood _ _ => ?_
    exact stays (by simpa using stood)
  · rw [look] at stood
    split at stood
    · rename_i same
      exact List.mem_append_right _ (by simp [same])
    · obtain ⟨other, there, waits⟩ := opened.queued other record (by simpa using stood) queued
      cases Option.some.inj (found.symm.trans (home ▸ there))
      exact List.mem_append_left _ waits
  · rw [look] at stood
    split at stood
    · cases stood
      cases running
    · obtain ⟨other, there, holder⟩ := opened.running other record (by simpa using stood) running
      cases Option.some.inj (found.symm.trans (home ▸ there))
      exact holder
  · exact Or.inl (opened.finishing lane runtime found other inside)

theorem dropBufferBooks (queue : JobQueue) (jobId : String) : Aside queue (queue.dropBuffer jobId) := by
  simp only [dropBuffer]
  split
  · exact asideRefl queue
  · split
    · exact ⟨rfl, rfl, rfl, booksRefl _, rfl, rfl⟩
    · exact ⟨rfl, rfl, rfl, booksRefl _, rfl, rfl⟩
    · rename_i found _
      split
      · exact ⟨rfl, rfl, rfl, booksRefl _, rfl, rfl⟩
      · exact ⟨rfl, rfl, rfl, booksTruncated found true, rfl, rfl⟩

theorem soundDropRecord (sound : queue.Sound limits) (gone : queue.Over jobId) :
    (queue.dropRecord jobId).Sound limits := by
  have look : ∀ {other : String}, (queue.records.erase jobId).get? other =
      if jobId = other then none else queue.records.get? other := Dict.eraseGet sound.keyed _ _
  have found : ∀ {other record}, (queue.records.erase jobId).get? other = some record →
      queue.records.get? other = some record := by
    intro other record stands
    rw [look] at stands
    split at stands
    · cases stands
    · exact stands
  have stillOver : ∀ {other}, queue.Over other → (queue.dropRecord jobId).Over other := fun ended =>
    ⟨ended.1, fun record stands => ended.2 record (found stands)⟩
  refine ⟨eraseKeyed sound.keyed jobId, fun other record stands => sound.drawn other record (found stands),
    fun lane runtime there => laneCongr (sound.lanes lane runtime there) fun other holds record stood home => ?_,
    fun other record stands => sound.queued other record (found stands),
    fun other record stands => sound.running other record (found stands),
    fun lane runtime there other inside => stillOver (sound.finishing lane runtime there other inside),
    fun e inside => stillOver (sound.evicted e inside)⟩
  have apart : jobId ≠ other := by
    rintro rfl
    have here := sound.lanes lane runtime there
    rcases holds with waits | ⟨worker, member, runs⟩
    · obtain ⟨k, at'⟩ := List.mem_iff_getElem?.mp waits
      obtain ⟨old, found', -, queued, -⟩ := here.waits k _ at'
      cases queued.symm.trans (gone.2 old found')
    · obtain ⟨old, found', -, running⟩ := here.crew.runs worker member _ runs
      cases running.symm.trans (gone.2 old found')
  exact ⟨record, by show (queue.records.erase jobId).get? other = _; rw [look, if_neg apart, stood], keptRefl record⟩

theorem soundEvict {retention : Retention} (sound : queue.Sound limits) (ok : queue.evict jobId retention = some queue') :
    queue'.Sound limits := by
  simp only [evict] at ok
  split at ok
  · rename_i scheduled
    have fewer : ({ queue with evictions := queue.evictions.erase (jobId, retention) } : JobQueue).Sound limits :=
      soundBooks sound rfl (booksRefl _) List.erase_subset rfl
    cases retention with
    | buffer =>
      cases ok
      exact asideSound fewer (dropBufferBooks _ _)
    | record =>
      cases ok
      exact soundDropRecord fewer (sound.evicted _ scheduled)
  · cases ok

theorem soundStop (sound : queue.Sound limits) : queue.stop.Sound limits :=
  soundBooks sound rfl (booksRefl _) (List.nil_subset _) rfl

end JobQueue
end Kodezart.Jobs
