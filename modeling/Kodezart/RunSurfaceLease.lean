import Kodezart.Machine
import Kodezart.TextLines

/-! One writing job's surface lease: requests settled under repeated cancellation, and the system
of the lease, its one caller and the tracker that answers its requests. -/
namespace Kodezart.RunSurfaceLease
open TextLines

section Lease
variable (Surface Seconds Reply : Type)

inductive Raised where
  | cancelled
  | surfaceLease
  | surfaceLeaseLost (jobId : Text) (surfaces : Finset Surface)
  | valueError (message : Text)
  | failure (name : Text)
  -- outside `Exception`: only a bare handler stops it
  | interrupt (name : Text)

inductive Request where
  | acquire (surfaces : Finset Surface) (holder : Text) (leaseSeconds : Seconds)
  | renew (surfaces : Finset Surface) (holder : Text) (leaseSeconds : Seconds)
  | release (surfaces : Finset Surface) (holder : Text)

abbrev Outcome := Except (Raised Surface) (Option Reply)

/-- What a lease is constructed over. -/
structure Terms where
  jobId : Text
  surfaces : Finset Surface
  leaseSeconds : Seconds
  named : strip jobId ≠ []
  writes : surfaces.Nonempty

end Lease

variable {Surface Seconds Reply : Type}

def Raised.isException : Raised Surface → Bool
  | .cancelled | .interrupt _ => false
  | _ => true

/-- What `finish_owned` ends with on a settled task, after the cancellations it took. -/
def finishOwned (task : Outcome Surface Reply) (cancelled : Bool) : Except (Raised Surface) (Option Reply × Bool) :=
  match task with
  | .ok result => .ok (result, cancelled)
  | .error .cancelled => .error .cancelled
  | .error e => if e.isException && cancelled then .error .cancelled else .error e

def settle (task : Outcome Surface Reply) (cancelled : Bool) : Outcome Surface Reply :=
  match finishOwned task cancelled with
  | .ok (result, false) => .ok result
  | .ok (_, true) => .error .cancelled
  | .error e => .error e

structure Lease where
  entered : Bool
  active : Bool
  deriving DecidableEq, Repr

/-- A stretch of the lease's own code: it ends the call, or sends a request to settle first. -/
inductive Act (Surface Seconds Reply : Type) where
  | finish (lease : Lease) (result : Except (Raised Surface) Unit)
  | request (lease : Lease) (request : Request Surface Seconds) (after : Outcome Surface Reply → Act Surface Seconds Reply)

inductive Op where
  | enter | renew | exit
  deriving DecidableEq, Repr

section Calls
variable (terms : Terms Surface Seconds)

def acquireSurfaces : Request Surface Seconds := .acquire terms.surfaces terms.jobId terms.leaseSeconds
def renewSurfaces : Request Surface Seconds := .renew terms.surfaces terms.jobId terms.leaseSeconds
def releaseSurfaces : Request Surface Seconds := .release terms.surfaces terms.jobId

def leaseLost : Raised Surface := .surfaceLeaseLost terms.jobId terms.surfaces

def release (lease : Lease) (after : Lease → Except (Raised Surface) Unit → Act Surface Seconds Reply) :
    Act Surface Seconds Reply :=
  let lease := { lease with active := false }
  .request lease (releaseSurfaces terms) fun settled => after lease (settled.map fun _ => ())

def afterAcquire (lease : Lease) : Outcome Surface Reply → Act Surface Seconds Reply
  | .ok _ => .finish { lease with active := true } (.ok ())
  | .error .surfaceLease => .finish lease (.error .surfaceLease)
  | .error e => release terms lease fun lease released => .finish lease (released >>= fun _ => .error e)

def enter (lease : Lease) : Act Surface Seconds Reply :=
  if lease.entered then .finish lease (.error (.valueError "a run surface lease may be entered only once".toList))
  else
    let lease := { lease with entered := true }
    .request lease (acquireSurfaces terms) (afterAcquire terms lease)

def afterRenew (lease : Lease) : Outcome Surface Reply → Act Surface Seconds Reply
  | .ok (some _) => .finish { lease with active := true } (.ok ())
  | .ok none => .finish lease (.error (leaseLost terms))
  | .error e => .finish lease (.error e)

def renew (lease : Lease) : Act Surface Seconds Reply :=
  if !lease.active then .finish lease (.error (leaseLost terms))
  else
    let lease := { lease with active := false }
    .request lease (renewSurfaces terms) (afterRenew terms lease)

def exit (lease : Lease) : Act Surface Seconds Reply := release terms lease .finish

def call : Op → Lease → Act Surface Seconds Reply
  | .enter => enter terms
  | .renew => renew terms
  | .exit => exit terms

end Calls

/-- What a run of the system shows, each mark with the number of the call it belongs to. -/
inductive Mark (Surface Seconds Reply : Type) where
  | called (number : Nat) (op : Op)
  | started (number : Nat) (request : Request Surface Seconds)
  | settled (number : Nat) (request : Request Surface Seconds) (outcome : Outcome Surface Reply)
  | finished (number : Nat) (op : Op) (result : Except (Raised Surface) Unit)

/-- A task a request runs in, and how it settled once it has. -/
structure Task (Surface Seconds Reply : Type) where
  number : Nat
  request : Request Surface Seconds
  outcome : Option (Outcome Surface Reply)

/-- The call a caller is in, suspended on the shield around one task. -/
structure Awaiting (Surface Seconds Reply : Type) where
  op : Op
  task : Nat
  cancelled : Bool
  after : Outcome Surface Reply → Act Surface Seconds Reply

structure System (Surface Seconds Reply : Type) where
  lease : Lease
  tasks : List (Task Surface Seconds Reply)
  caller : Option (Awaiting Surface Seconds Reply)
  calls : Nat
  log : List (Mark Surface Seconds Reply)

def fresh : System Surface Seconds Reply := ⟨⟨false, false⟩, [], none, 0, []⟩

/-- The caller runs until it ends its call or waits again. -/
def System.advance (s : System Surface Seconds Reply) (op : Op) : Act Surface Seconds Reply → System Surface Seconds Reply
  | .finish lease result =>
    { s with lease := lease, caller := none, calls := s.calls + 1, log := s.log ++ [.finished s.calls op result] }
  | .request lease request after =>
    { s with
      lease := lease, tasks := s.tasks ++ [⟨s.calls, request, none⟩], caller := some ⟨op, s.tasks.length, false, after⟩,
      log := s.log ++ [.started s.calls request] }

inductive Event (Surface Reply : Type) where
  | call (op : Op)
  | settle (task : Nat) (outcome : Outcome Surface Reply)
  -- a cancellation of the caller is raised at its await
  | interrupt
  -- the awaited task's outcome is
  | resume

def next (terms : Terms Surface Seconds) (s : System Surface Seconds Reply) :
    Event Surface Reply → Option (System Surface Seconds Reply)
  | .call op =>
    match s.caller with
    | some _ => none
    | none =>
      let called : System Surface Seconds Reply := { s with log := s.log ++ [.called s.calls op] }
      some (called.advance op (call terms op s.lease))
  | .settle index outcome =>
    match s.tasks[index]? with
    | some ⟨number, request, none⟩ =>
      some { s with tasks := s.tasks.set index ⟨number, request, some outcome⟩, log := s.log ++ [.settled number request outcome] }
    | _ => none
  | .interrupt => do
    let waiting ← s.caller
    let task ← s.tasks[waiting.task]?
    match task.outcome with
    | none => some { s with caller := some { waiting with cancelled := true } }
    -- a settled task does not suspend the next round of the loop
    | some outcome => some (s.advance waiting.op (waiting.after (settle outcome true)))
  | .resume => do
    let waiting ← s.caller
    let task ← s.tasks[waiting.task]?
    let outcome ← task.outcome
    some (s.advance waiting.op (waiting.after (settle outcome waiting.cancelled)))

end Kodezart.RunSurfaceLease
