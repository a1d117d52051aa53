import Kodezart.JobQueue
import Kodezart.Machine

/-! One job's stream: a bounded replay buffer, and its live fan-out to the readers attached. -/
namespace Kodezart.Jobs
open Machine

/-- Append an event; the oldest frame of a full buffer goes, which is what the answer says. -/
def JobStream.publish (capacity : Nat) (stream : JobStream) (event : AgentEvent) : JobStream × Bool :=
  if stream.buffer.length = capacity then ({ stream with buffer := (stream.buffer ++ [event]).tail }, true)
  else ({ stream with buffer := stream.buffer ++ [event] }, false)

def JobStream.close (stream : JobStream) : JobStream := { stream with closed := true }

def JobStream.discardBuffer (stream : JobStream) : JobStream × Nat :=
  ({ stream with buffer := [] }, stream.buffer.length)

/-- A reader of the stream: what it has been handed, what it still replays, and its queue. -/
inductive Subscriber where
  | opened
  | replaying (received replay : List AgentEvent)
  | live (received replay : List AgentEvent) (queue : List (Option AgentEvent))
  | returned (received : List AgentEvent)
  | left (received : List AgentEvent)
  deriving DecidableEq, Repr

namespace Subscriber

def received : Subscriber → List AgentEvent
  | opened => []
  | replaying received _ => received
  | live received _ _ => received
  | returned received => received
  | left received => received

/-- Only a reader that is registered has a queue. -/
def put (item : Option AgentEvent) : Subscriber → Subscriber
  | live received replay queue => live received replay (queue ++ [item])
  | other => other

def replayed (received : List AgentEvent) : List AgentEvent → Subscriber
  | [] => returned received
  | event :: replay => replaying (received ++ [event]) replay

/-- What a registered reader is handed next; with nothing there it waits. -/
def served (received : List AgentEvent) : List AgentEvent → List (Option AgentEvent) → Option Subscriber
  | event :: replay, queue => some (live (received ++ [event]) replay queue)
  | [], some event :: queue => some (live (received ++ [event]) [] queue)
  | [], none :: _ => some (returned received)
  | [], [] => none

def advance (stream : JobStream) : Subscriber → Option Subscriber
  | opened =>
    if stream.closed then some (replayed [] stream.buffer)
    else some ((served [] stream.buffer []).getD (live [] stream.buffer []))
  | replaying received replay => some (replayed received replay)
  | live received replay queue => served received replay queue
  | returned _ => none
  | left _ => none

end Subscriber

/-- A job as its readers see it: its stream, its record's flag and the readers attached. -/
structure Job where
  stream : JobStream
  truncated : Bool
  subscribers : List Subscriber
  deriving DecidableEq, Repr

inductive JobAct where
  | published (event : AgentEvent)
  | closed
  /-- The buffer's own retention window has passed. -/
  | dropped
  | attached
  | advanced (i : Nat)
  | left (i : Nat)
  deriving DecidableEq, Repr

namespace Job

def new : Job := ⟨⟨[], false⟩, false, []⟩

def next (capacity : Nat) (job : Job) : JobAct → Option Job
  | .published event =>
    some ⟨(job.stream.publish capacity event).1, job.truncated || (job.stream.publish capacity event).2,
      job.subscribers.map (.put (some event))⟩
  | .closed => some ⟨job.stream.close, job.truncated, job.subscribers.map (.put none)⟩
  | .dropped =>
    some ⟨job.stream.discardBuffer.1, job.truncated || job.stream.discardBuffer.2 ≠ 0, job.subscribers⟩
  | .attached => some { job with subscribers := job.subscribers ++ [.opened] }
  | .advanced i => do
    let subscriber ← job.subscribers[i]?
    let subscriber ← subscriber.advance job.stream
    return { job with subscribers := job.subscribers.set i subscriber }
  | .left i => do
    let subscriber ← job.subscribers[i]?
    return { job with subscribers := job.subscribers.set i (.left subscriber.received) }

end Job

/-- The events published, in order. -/
def published (acts : List JobAct) : List AgentEvent :=
  acts.filterMap fun
    | .published event => some event
    | _ => none

def beforeClose (acts : List JobAct) : List AgentEvent := published (acts.takeWhile (· ≠ .closed))

@[simp] theorem publishedAppend (acts later : List JobAct) :
    published (acts ++ later) = published acts ++ published later := List.filterMap_append ..

theorem beforeCloseAppend (acts : List JobAct) (act : JobAct) : beforeClose (acts ++ [act]) =
    if .closed ∈ acts then beforeClose acts else beforeClose acts ++ published [act] := by
  induction acts with
  | nil => cases act <;> rfl
  | cons first acts ih =>
    by_cases closes : first = .closed
    · simp [beforeClose, closes]
    · have rest : ∀ more, beforeClose (first :: more) = published [first] ++ beforeClose more := by
        intro more
        rw [beforeClose, List.takeWhile_cons_of_pos (by simpa using closes)]
        exact publishedAppend [first] _
      rw [List.cons_append, rest, rest, ih]
      have same : JobAct.closed ∈ first :: acts ↔ .closed ∈ acts := by simp [Ne.symm closes]
      simp only [same]
      split
      · rfl
      · rw [List.append_assoc]

theorem beforeClosePrefix (acts : List JobAct) : beforeClose acts <+: published acts :=
  (List.takeWhile_prefix _).filterMap _

section Stream
variable {capacity : Nat} {job job' : Job} {act : JobAct} {acts : List JobAct}

/-- The buffer is the last of what was published, and the flag says whether any of it is gone. -/
def Buffered (acts : List JobAct) (job : Job) : Prop :=
  ∃ gone, published acts = gone ++ job.stream.buffer ∧ (job.truncated = true ↔ gone ≠ [])

/-- A reader's own step moves nothing but the reader. -/
theorem advancedOk {i : Nat} (moved : job.next capacity (.advanced i) = some job') :
    ∃ subscriber next, job.subscribers[i]? = some subscriber ∧ subscriber.advance job.stream = some next ∧
      job' = { job with subscribers := job.subscribers.set i next } := by
  simp only [Job.next, Option.bind_eq_bind, Option.bind_eq_some_iff] at moved
  obtain ⟨subscriber, stands, next, goes, moved⟩ := moved
  cases moved
  exact ⟨subscriber, next, stands, goes, rfl⟩

theorem leftOk {i : Nat} (moved : job.next capacity (.left i) = some job') :
    ∃ subscriber, job.subscribers[i]? = some subscriber ∧
      job' = { job with subscribers := job.subscribers.set i (.left subscriber.received) } := by
  simp only [Job.next, Option.bind_eq_bind, Option.bind_eq_some_iff] at moved
  obtain ⟨subscriber, stands, moved⟩ := moved
  cases moved
  exact ⟨subscriber, stands, rfl⟩

theorem bufferedNext (buffered : Buffered acts job) (moved : job.next capacity act = some job') :
    Buffered (acts ++ [act]) job' := by
  obtain ⟨gone, split, flag⟩ := buffered
  have quiet : published [act] = [] → published (acts ++ [act]) = gone ++ job.stream.buffer := by
    intro silent
    rw [publishedAppend, silent, List.append_nil, split]
  cases act with
  | published event =>
    obtain rfl := Option.some.inj moved
    have one : published [.published event] = [event] := rfl
    simp only [Buffered, publishedAppend, split, one, JobStream.publish]
    split
    · cases buffer : job.stream.buffer with
      | nil => exact ⟨gone ++ [event], by simp, by simp⟩
      | cons oldest rest => exact ⟨gone ++ [oldest], by simp, by simp⟩
    · exact ⟨gone, by simp, by simpa using flag⟩
  | closed =>
    obtain rfl := Option.some.inj moved
    exact ⟨gone, quiet rfl, flag⟩
  | dropped =>
    obtain rfl := Option.some.inj moved
    refine ⟨gone ++ job.stream.buffer, (quiet rfl).trans (List.append_nil _).symm, ?_⟩
    simp only [JobStream.discardBuffer, Bool.or_eq_true, flag, decide_eq_true_eq, ne_eq, List.append_eq_nil_iff,
      List.length_eq_zero_iff]
    tauto
  | attached =>
    obtain rfl := Option.some.inj moved
    exact ⟨gone, quiet rfl, flag⟩
  | advanced i =>
    obtain ⟨_, _, -, -, rfl⟩ := advancedOk moved
    exact ⟨gone, quiet rfl, flag⟩
  | left i =>
    obtain ⟨_, -, rfl⟩ := leftOk moved
    exact ⟨gone, quiet rfl, flag⟩

theorem runBuffered (run : Run (Job.next capacity) Job.new acts job) : Buffered acts job := by
  induction run with
  | start => exact ⟨[], rfl, by simp [Job.new]⟩
  | move run moved ih => exact bufferedNext ih moved

theorem closedNext (moved : job.next capacity act = some job') :
    job'.stream.closed = true ↔ job.stream.closed = true ∨ act = .closed := by
  cases act with
  | published event =>
    obtain rfl := Option.some.inj moved
    simp only [JobStream.publish]
    split <;> simp
  | advanced i =>
    obtain ⟨_, _, -, -, rfl⟩ := advancedOk moved
    simp
  | left i =>
    obtain ⟨_, -, rfl⟩ := leftOk moved
    simp
  | closed =>
    obtain rfl := Option.some.inj moved
    simp [JobStream.close]
  | dropped =>
    obtain rfl := Option.some.inj moved
    simp [JobStream.discardBuffer]
  | attached =>
    obtain rfl := Option.some.inj moved
    simp

theorem runClosed {first : Job} (run : Run (Job.next capacity) first acts job) :
    job.stream.closed = true ↔ first.stream.closed = true ∨ .closed ∈ acts := by
  induction run with
  | start => simp
  | move run moved ih =>
    rw [closedNext moved, ih, List.mem_append, List.mem_singleton, or_assoc, @eq_comm _ JobAct.closed]

end Stream

section Served
variable (first : Job) (acts : List JobAct)

/-- All that a reader whose stream was first advanced in `first` is to be handed. -/
def due : List AgentEvent :=
  if first.stream.closed then first.stream.buffer else first.stream.buffer ++ beforeClose acts

/-- What a reader has and what is still ahead of it come to what it is due. -/
def Served : Subscriber → Prop
  | .opened => False
  | .replaying received replay => first.stream.closed = true ∧ received ++ replay = due first acts
  | .live received replay queue => first.stream.closed = false ∧ ∃ pending,
      received ++ replay ++ pending = due first acts ∧
      if .closed ∈ acts then ∃ late, queue = pending.map some ++ none :: late else queue = pending.map some
  | .returned received => received = due first acts ∧ (first.stream.closed = true ∨ .closed ∈ acts)
  | .left received => received <+: due first acts

variable {first acts} {capacity : Nat} {job job' : Job} {act : JobAct} {i : Nat} {subscriber : Subscriber}

theorem dueAppend (act : JobAct) : due first acts <+: due first (acts ++ [act]) := by
  unfold due
  split
  · exact List.prefix_rfl
  · rw [beforeCloseAppend]
    split
    · exact List.prefix_rfl
    · rw [← List.append_assoc]
      exact List.prefix_append _ _

theorem dueEnded (ended : first.stream.closed = true ∨ .closed ∈ acts) (act : JobAct) :
    due first (acts ++ [act]) = due first acts := by
  unfold due
  split
  · rfl
  · rename_i closed
    rw [beforeCloseAppend, if_pos (ended.resolve_left closed)]

/-- An act that hands a reader nothing and publishes nothing leaves it as it was. -/
theorem servedStill (served : Served first acts subscriber) (quiet : published [act] = []) (going : act ≠ .closed) :
    Served first (acts ++ [act]) subscriber := by
  have same : due first (acts ++ [act]) = due first acts := by
    unfold due
    rw [beforeCloseAppend, quiet]
    simp
  have closes : JobAct.closed ∈ acts ++ [act] ↔ .closed ∈ acts := by simp [Ne.symm going]
  cases subscriber <;> simp only [Served, same, closes] at served ⊢ <;> exact served

theorem servedPut (served : Served first acts subscriber) (event : AgentEvent) :
    Served first (acts ++ [.published event]) (subscriber.put (some event)) := by
  have closes : JobAct.closed ∈ acts ++ [.published event] ↔ .closed ∈ acts := by simp
  have grows : first.stream.closed = false → .closed ∉ acts →
      due first (acts ++ [.published event]) = due first acts ++ [event] := by
    intro going before
    simp [due, going, beforeCloseAppend, before, published]
  cases subscriber with
  | opened => exact served
  | replaying received replay => exact ⟨served.1, served.2.trans (dueEnded (Or.inl served.1) _).symm⟩
  | live received replay queue =>
    obtain ⟨going, pending, split, ahead⟩ := served
    refine ⟨going, ?_⟩
    simp only [closes]
    by_cases ended : .closed ∈ acts
    · rw [if_pos ended] at ahead
      obtain ⟨late, rfl⟩ := ahead
      refine ⟨pending, split.trans (dueEnded (Or.inr ended) _).symm, ?_⟩
      rw [if_pos ended]
      exact ⟨late ++ [some event], by simp⟩
    · rw [if_neg ended] at ahead
      refine ⟨pending ++ [event], ?_, ?_⟩
      · rw [grows going ended, ← split, List.append_assoc (received ++ replay)]
      · rw [if_neg ended, ahead]
        simp
  | returned received => exact ⟨served.1.trans (dueEnded served.2 _).symm, by simpa [closes] using served.2⟩
  | left received => exact served.trans (dueAppend _)

theorem servedClose (served : Served first acts subscriber) :
    Served first (acts ++ [.closed]) (subscriber.put none) := by
  have same : due first (acts ++ [.closed]) = due first acts := by
    unfold due
    rw [beforeCloseAppend]
    simp [published]
  cases subscriber with
  | opened => exact served
  | replaying received replay => exact ⟨served.1, served.2.trans same.symm⟩
  | live received replay queue =>
    obtain ⟨going, pending, split, ahead⟩ := served
    refine ⟨going, pending, split.trans same.symm, ?_⟩
    rw [if_pos (by simp)]
    by_cases ended : .closed ∈ acts
    · rw [if_pos ended] at ahead
      obtain ⟨late, rfl⟩ := ahead
      exact ⟨late ++ [none], by simp⟩
    · rw [if_neg ended] at ahead
      exact ⟨[], by rw [ahead]⟩
  | returned received => exact ⟨served.1.trans same.symm, Or.inr (by simp)⟩
  | left received => exact served.trans (dueAppend _)

theorem servedReceived (served : Served first acts subscriber) : subscriber.received <+: due first acts := by
  cases subscriber with
  | opened => exact List.nil_prefix
  | replaying received replay => exact ⟨replay, served.2⟩
  | live received replay queue =>
    obtain ⟨-, pending, split, -⟩ := served
    exact ⟨replay ++ pending, by rw [← split, List.append_assoc]; rfl⟩
  | returned received => exact ⟨[], by rw [List.append_nil]; exact served.1⟩
  | left received => exact served

/-- A started reader's next step hands it the next thing it is due. -/
theorem servedAdvance {stream : JobStream} {next : Subscriber} (served : Served first acts subscriber)
    (goes : subscriber.advance stream = some next) : Served first acts next := by
  cases subscriber with
  | opened => exact absurd served id
  | replaying received replay =>
    obtain rfl := Option.some.inj goes
    obtain ⟨ended, split⟩ := served
    cases replay with
    | nil => exact ⟨by simpa using split, Or.inl ended⟩
    | cons event replay => exact ⟨ended, by simpa using split⟩
  | live received replay queue =>
    obtain ⟨going, pending, split, ahead⟩ := served
    cases replay with
    | cons event replay =>
      obtain rfl := Option.some.inj goes
      exact ⟨going, pending, by simpa using split, ahead⟩
    | nil =>
      cases pending with
      | nil =>
        by_cases ended : .closed ∈ acts
        · rw [if_pos ended] at ahead
          obtain ⟨late, rfl⟩ := ahead
          obtain rfl := Option.some.inj goes
          exact ⟨by simpa using split, Or.inr ended⟩
        · rw [if_neg ended] at ahead
          subst ahead
          cases goes
      | cons event pending =>
        have head : ∃ queue', queue = some event :: queue' ∧
            if .closed ∈ acts then ∃ late, queue' = pending.map some ++ none :: late
            else queue' = pending.map some := by
          by_cases ended : .closed ∈ acts
          · simp only [ended, if_true] at ahead ⊢
            obtain ⟨late, rfl⟩ := ahead
            exact ⟨_, rfl, late, rfl⟩
          · simp only [ended, if_false] at ahead ⊢
            exact ⟨_, ahead, rfl⟩
        obtain ⟨queue', rfl, ahead'⟩ := head
        obtain rfl := Option.some.inj goes
        exact ⟨going, pending, by simpa using split, ahead'⟩
  | returned received => cases goes
  | left received => cases goes

theorem servedNext (moved : job.next capacity act = some job') (stands : job.subscribers[i]? = some subscriber)
    (served : Served first acts subscriber) :
    ∃ next, job'.subscribers[i]? = some next ∧ Served first (acts ++ [act]) next := by
  cases act with
  | published event =>
    obtain rfl := Option.some.inj moved
    exact ⟨subscriber.put (some event), by simp [stands], servedPut served event⟩
  | closed =>
    obtain rfl := Option.some.inj moved
    exact ⟨subscriber.put none, by simp [stands], servedClose served⟩
  | dropped =>
    obtain rfl := Option.some.inj moved
    exact ⟨subscriber, stands, servedStill served rfl (by simp)⟩
  | attached =>
    obtain rfl := Option.some.inj moved
    have here : i < job.subscribers.length := (List.getElem?_eq_some_iff.mp stands).1
    exact ⟨subscriber, by rw [List.getElem?_append_left here, stands], servedStill served rfl (by simp)⟩
  | advanced j =>
    obtain ⟨other, next, there, goes, rfl⟩ := advancedOk moved
    have still : ∀ same, Served first acts same → Served first (acts ++ [.advanced j]) same :=
      fun same reads => servedStill reads rfl (by simp)
    by_cases here : j = i
    · subst here
      cases stands.symm.trans there
      have inside : j < job.subscribers.length := (List.getElem?_eq_some_iff.mp stands).1
      exact ⟨next, by simp [inside], still _ (servedAdvance served goes)⟩
    · exact ⟨subscriber, by simp [List.getElem?_set_ne here, stands], still _ served⟩
  | left j =>
    obtain ⟨other, there, rfl⟩ := leftOk moved
    have still : ∀ same, Served first acts same → Served first (acts ++ [.left j]) same :=
      fun same reads => servedStill reads rfl (by simp)
    by_cases here : j = i
    · subst here
      cases stands.symm.trans there
      have inside : j < job.subscribers.length := (List.getElem?_eq_some_iff.mp stands).1
      exact ⟨.left subscriber.received, by simp [inside], still (.left _) (servedReceived served)⟩
    · exact ⟨subscriber, by simp [List.getElem?_set_ne here, stands], still _ served⟩

/-- The first step of a reader takes the buffer as it stands, and registers while the stream is open. -/
theorem servedFirst {next : Subscriber} (goes : Subscriber.opened.advance first.stream = some next) :
    Served first [] next := by
  simp only [Subscriber.advance] at goes
  split at goes
  · rename_i ended
    obtain rfl := Option.some.inj goes
    have all : due first [] = first.stream.buffer := if_pos ended
    cases buffer : first.stream.buffer with
    | nil => exact ⟨by rw [all, buffer], Or.inl ended⟩
    | cons event replay => exact ⟨ended, by rw [all, buffer]; rfl⟩
  · rename_i going
    obtain rfl := Option.some.inj goes
    have going' : first.stream.closed = false := by simpa using going
    have all : due first [] = first.stream.buffer := by simp [due, going', beforeClose, published]
    cases buffer : first.stream.buffer with
    | nil => exact ⟨going', [], by rw [all, buffer]; rfl, by simp⟩
    | cons event replay => exact ⟨going', [], by rw [all, buffer]; simp, by simp⟩

theorem runServed {start : Job} {before : List JobAct} (run : Run (Job.next capacity) start acts job)
    (stands : start.subscribers[i]? = some subscriber) (served : Served first before subscriber) :
    ∃ next, job.subscribers[i]? = some next ∧ Served first (before ++ acts) next := by
  induction run with
  | start => exact ⟨subscriber, stands, by simpa using served⟩
  | move run moved ih =>
    obtain ⟨next, here, reads⟩ := ih
    rw [← List.append_assoc]
    exact servedNext moved here reads

/-- Once the stream is closed a reader never waits: each step hands it one more event, or ends it. -/
theorem servedGoes (served : Served first acts subscriber) (ended : first.stream.closed = true ∨ .closed ∈ acts)
    (stays : ∀ received, subscriber ≠ .left received) (stream : JobStream) :
    subscriber = .returned (due first acts) ∨ ∃ next, subscriber.advance stream = some next ∧
      (∀ received, next ≠ .left received) ∧
      (next = .returned (due first acts) ∨ next.received.length = subscriber.received.length + 1) := by
  cases subscriber with
  | opened => exact absurd served id
  | replaying received replay =>
    refine Or.inr ⟨_, rfl, ?_⟩
    cases replay with
    | nil => exact ⟨by simp [Subscriber.replayed], Or.inl (by simpa [Subscriber.replayed] using served.2)⟩
    | cons event replay => exact ⟨by simp [Subscriber.replayed], Or.inr (by simp [Subscriber.replayed, Subscriber.received])⟩
  | live received replay queue =>
    obtain ⟨going, pending, split, ahead⟩ := served
    have closed : .closed ∈ acts := ended.resolve_left (by simp [going])
    rw [if_pos closed] at ahead
    obtain ⟨late, rfl⟩ := ahead
    cases replay with
    | cons event replay => exact Or.inr ⟨_, rfl, by simp, Or.inr (by simp [Subscriber.received])⟩
    | nil =>
      cases pending with
      | nil => exact Or.inr ⟨_, rfl, by simp, Or.inl (by simpa using split)⟩
      | cons event pending => exact Or.inr ⟨_, rfl, by simp, Or.inr (by simp [Subscriber.received])⟩
  | returned received => exact Or.inl (by rw [served.1])
  | left received => exact absurd rfl (stays received)

theorem servedEnds (served : Served first acts subscriber) (ended : first.stream.closed = true ∨ .closed ∈ acts)
    (stays : ∀ received, subscriber ≠ .left received) (stands : job.subscribers[i]? = some subscriber) :
    ∃ n last, Run (Job.next capacity) job (List.replicate n (.advanced i)) last ∧
      last.subscribers[i]? = some (.returned (due first acts)) := by
  obtain ⟨k, ahead⟩ : ∃ k, k = (due first acts).length - subscriber.received.length := ⟨_, rfl⟩
  induction k generalizing acts job subscriber with
  | zero =>
    rcases servedGoes served ended stays job.stream with rfl | ⟨next, goes, -, done | more⟩
    · exact ⟨0, job, .start, stands⟩
    · have inside : i < job.subscribers.length := (List.getElem?_eq_some_iff.mp stands).1
      refine ⟨1, { job with subscribers := job.subscribers.set i next }, ?_, by simp [inside, done]⟩
      exact Run.start.move (by simp [Job.next, stands, goes])
    · have within := (servedReceived (servedAdvance served goes)).length_le
      omega
  | succ k ih =>
    rcases servedGoes served ended stays job.stream with rfl | ⟨next, goes, remains, step⟩
    · exact ⟨0, job, .start, stands⟩
    · have inside : i < job.subscribers.length := (List.getElem?_eq_some_iff.mp stands).1
      have moved : job.next capacity (.advanced i) = some { job with subscribers := job.subscribers.set i next } := by
        simp [Job.next, stands, goes]
      rcases step with done | more
      · exact ⟨1, _, Run.start.move moved, by simp [inside, done]⟩
      · have here : ({ job with subscribers := job.subscribers.set i next } : Job).subscribers[i]? = some next := by
          simp [inside]
        obtain ⟨n, last, run, ends⟩ := ih (servedAdvance served goes) ended remains here (by omega)
        refine ⟨n + 1, last, ?_, ends⟩
        rw [Nat.add_comm, List.replicate_add]
        exact runAppend (Run.start.move moved) run

/-- What a reader whose first step was taken in `first` receives over the acts that follow. -/
structure Receives (capacity : Nat) (first : Job) (before after : List JobAct) (i : Nat) (job : Job) : Prop where
  oldest : ∃ gone later, published before = gone ++ first.stream.buffer ∧
    published (before ++ .advanced i :: after) = gone ++ due first after ++ later
  inOrder : ∀ subscriber, job.subscribers[i]? = some subscriber → subscriber.received <+: due first after
  complete : ∀ received, job.subscribers[i]? = some (.returned received) →
    job.stream.closed = true ∧ received = due first after
  ending : job.stream.closed = true → (∀ received, job.subscribers[i]? ≠ some (.left received)) →
    ∃ n last, Run (Job.next capacity) job (List.replicate n (.advanced i)) last ∧
      last.subscribers[i]? = some (.returned (due first after))

end Served

/-- Over any interleaving each reader is handed the published events in order, from the oldest buffered
at its first step to the last before the close, and the flag is set exactly when a frame is gone. -/
theorem attachGapless {capacity : Nat} {acts : List JobAct} {job : Job}
    (run : Run (Job.next capacity) Job.new acts job) :
    Buffered acts job ∧ ∀ before i after first, acts = before ++ .advanced i :: after →
      Run (Job.next capacity) Job.new before first → first.subscribers[i]? = some .opened →
      Receives capacity first before after i job := by
  refine ⟨runBuffered run, ?_⟩
  rintro before i after first rfl early stands
  obtain ⟨mid, again, rest⟩ := runSplit run
  cases runOnce early again
  obtain ⟨started, step, later⟩ := runSplit (show Run _ _ ([.advanced i] ++ after) _ from rest)
  obtain ⟨subscriber, next, there, goes, rfl⟩ := advancedOk (runSingle step)
  cases stands.symm.trans there
  have inside : i < first.subscribers.length := (List.getElem?_eq_some_iff.mp stands).1
  have opening : (first.subscribers.set i next)[i]? = some next := by simp [inside]
  obtain ⟨subscriber, here, served⟩ := runServed later opening (servedFirst goes)
  rw [List.nil_append] at served
  have closed := runClosed later
  refine ⟨?_, ?_, ?_, ?_⟩
  · obtain ⟨gone, split, -⟩ := runBuffered early
    obtain ⟨late, rest⟩ := beforeClosePrefix after
    have all : published (before ++ .advanced i :: after) = gone ++ first.stream.buffer ++ published after := by
      rw [publishedAppend, split]
      rfl
    by_cases ended : first.stream.closed = true
    · exact ⟨gone, published after, split, by rw [all, due, if_pos ended]⟩
    · exact ⟨gone, late, split, by rw [all, due, if_neg ended, ← rest]; simp⟩
  · intro other same
    cases here.symm.trans same
    exact servedReceived served
  · intro received same
    cases here.symm.trans same
    exact ⟨closed.mpr served.2, served.1⟩
  · intro ended stays
    exact servedEnds served (closed.mp ended) (fun received same => stays received (by rw [here, same])) here

/-- A reader that starts on a full buffer, while the run publishes on and closes. -/
theorem lateReaderGapless : ∃ first job,
    Run (Job.next 1) Job.new [.published (.frame "a"), .published (.frame "b"), .attached] first ∧
    Receives 1 first [.published (.frame "a"), .published (.frame "b"), .attached]
      [.published (.frame "c"), .closed, .advanced 0] 0 job := by
  have early : Run (Job.next 1) Job.new
      ([] ++ [.published (.frame "a")] ++ [.published (.frame "b")] ++ [.attached]) _ :=
    .move (.move (.move .start rfl) rfl) rfl
  have run : Run (Job.next 1) Job.new ([] ++ [.published (.frame "a")] ++ [.published (.frame "b")] ++ [.attached] ++
      [.advanced 0] ++ [.published (.frame "c")] ++ [.closed] ++ [.advanced 0]) _ :=
    .move (.move (.move (.move early rfl) rfl) rfl) rfl
  exact ⟨_, _, early, (attachGapless run).2 _ 0 _ _ rfl early rfl⟩

section Queue
variable {limits : Limits} {queue sent : JobQueue} {jobId : String} {job : Job}

/-- The queue's own part of a job: its stream and its record's flag. -/
def JobQueue.jobRead (queue : JobQueue) (jobId : String) : Option Job := do
  let stream ← queue.streams.get? jobId
  let record ← queue.records.get? jobId
  return ⟨stream, record.truncated, []⟩

theorem jobReadOk : queue.jobRead jobId = some job ↔ ∃ stream record, queue.streams.get? jobId = some stream ∧
    queue.records.get? jobId = some record ∧ job = ⟨stream, record.truncated, []⟩ := by
  simp only [JobQueue.jobRead, Option.bind_eq_bind, Option.bind_eq_some_iff]
  constructor
  · rintro ⟨stream, streams, record, records, same⟩
    exact ⟨stream, record, streams, records, (Option.some.inj same).symm⟩
  · rintro ⟨stream, record, streams, records, rfl⟩
    exact ⟨stream, streams, record, records, rfl⟩

/-- A frame the queue publishes is published on the job's stream. -/
theorem publishJob {event : AgentEvent} {warned : Bool} (stands : queue.jobRead jobId = some job)
    (ok : queue.publish limits jobId event = some (sent, warned)) :
    job.next limits.eventBufferCapacity (.published event) = sent.jobRead jobId := by
  obtain ⟨stream, record, streams, records, rfl⟩ := jobReadOk.mp stands
  refine (jobReadOk.mpr ?_).symm
  simp only [JobQueue.publish, streams, Option.bind_eq_bind, Option.bind_some] at ok
  by_cases full : stream.buffer.length = limits.eventBufferCapacity
  · have some_frame : stream.buffer ≠ [] := by
      intro empty
      have capacious := limits.capacious
      simp [empty] at full
      omega
    have oldest : (stream.buffer ++ [event]).tail = stream.buffer.tail ++ [event] :=
      List.tail_append_of_ne_nil some_frame
    simp only [full, ↓reduceIte, records, Option.bind_some] at ok
    split at ok
    · rename_i warned
      cases ok
      exact ⟨_, record, Dict.getSetSame _ _ _, records, by simp [JobStream.publish, full, oldest, warned]⟩
    · cases ok
      exact ⟨_, _, Dict.getSetSame _ _ _, Dict.getSetSame _ _ _, by simp [JobStream.publish, full, oldest]⟩
  · simp only [full, ↓reduceIte] at ok
    cases ok
    exact ⟨_, record, Dict.getSetSame _ _ _, records, by simp [JobStream.publish, full]⟩

theorem dropBufferJob (capacity : Nat) (stands : queue.jobRead jobId = some job) :
    job.next capacity .dropped = (queue.dropBuffer jobId).jobRead jobId := by
  obtain ⟨stream, record, streams, records, rfl⟩ := jobReadOk.mp stands
  refine (jobReadOk.mpr ?_).symm
  unfold JobQueue.dropBuffer
  simp only [streams, records]
  cases buffer : stream.buffer with
  | nil => exact ⟨_, record, Dict.getSetSame _ _ _, records, by simp [JobStream.discardBuffer, buffer]⟩
  | cons oldest rest =>
    by_cases warned : record.truncated = true
    · simp only [warned, ↓reduceIte]
      exact ⟨_, record, Dict.getSetSame _ _ _, records, by simp [JobStream.discardBuffer, warned]⟩
    · simp only [warned]
      exact ⟨_, _, Dict.getSetSame _ _ _, Dict.getSetSame _ _ _, by simp [JobStream.discardBuffer, buffer]⟩

end Queue
end Kodezart.Jobs
