import Kodezart.RunSurfaceLease

/-! What every run of a surface lease shows: the requests one call sends one after the other, the
release behind every acquisition, and the end of its renewals. -/
namespace Kodezart.RunSurfaceLease
open Machine

variable {Surface Seconds Reply : Type}

/-- What a call has shown once it has come from one stretch of the lease's code to another. -/
inductive Passes (number : Nat) :
    Act Surface Seconds Reply → List (Mark Surface Seconds Reply) → Act Surface Seconds Reply → Prop where
  | here (act) : Passes number act [] act
  | settled {lease request after marks act} (outcome cancelled) (later : Passes number (after (settle outcome cancelled)) marks act) :
      Passes number (.request lease request after) (.started number request :: .settled number request outcome :: marks) act

theorem Passes.trans {number : Nat} {act middle last : Act Surface Seconds Reply} {marks more : List (Mark Surface Seconds Reply)}
    (first : Passes number act marks middle) (second : Passes number middle more last) :
    Passes number act (marks ++ more) last := by
  induction first with
  | here => exact second
  | settled outcome cancelled later ih => exact .settled outcome cancelled (ih second)

/-- The calls that have ended, with the lease they leave. -/
inductive Trace (terms : Terms Surface Seconds) : Nat → Lease → List (Mark Surface Seconds Reply) → Prop where
  | start : Trace terms 0 ⟨false, false⟩ []
  | call {number lease log op marks lease' result} (trace : Trace terms number lease log)
      (passes : Passes number (call terms op lease) marks (.finish lease' result)) :
      Trace terms (number + 1) lease' (log ++ (.called number op :: (marks ++ [.finished number op result])))

/-- A call under way: what it has shown, the request it waits on, and every earlier task settled. -/
structure Underway (terms : Terms Surface Seconds) (s : System Surface Seconds Reply)
    (closed : List (Mark Surface Seconds Reply)) (lease : Lease) (op : Op) (marks : List (Mark Surface Seconds Reply))
    (request : Request Surface Seconds) (outcome : Option (Outcome Surface Reply)) : Prop where
  trace : Trace terms s.calls lease closed
  waits : ∃ after cancelled done, Passes s.calls (call terms op lease) marks (.request s.lease request after) ∧
    s.caller = some ⟨op, done.length, cancelled, after⟩ ∧ s.tasks = done ++ [⟨s.calls, request, outcome⟩] ∧
    ∀ task ∈ done, task.outcome.isSome
  log : s.log = closed ++ (.called s.calls op :: (marks ++ .started s.calls request ::
    (outcome.map (.settled s.calls request)).toList))

/-- Between calls every task has settled. -/
structure Between (terms : Terms Surface Seconds) (s : System Surface Seconds Reply) : Prop where
  trace : Trace terms s.calls s.lease s.log
  caller : s.caller = none
  quiet : ∀ task ∈ s.tasks, task.outcome.isSome

def Shown (terms : Terms Surface Seconds) (s : System Surface Seconds Reply) : Prop :=
  Between terms s ∨ ∃ closed lease op marks request outcome, Underway terms s closed lease op marks request outcome

/-- Where the caller runs on, it ends its call or waits on one new task. -/
theorem advanceShown {terms : Terms Surface Seconds} {s : System Surface Seconds Reply} {lease : Lease} {op : Op}
    {closed marks : List (Mark Surface Seconds Reply)} {act : Act Surface Seconds Reply}
    (trace : Trace terms s.calls lease closed) (passes : Passes s.calls (call terms op lease) marks act)
    (quiet : ∀ task ∈ s.tasks, task.outcome.isSome) (log : s.log = closed ++ (.called s.calls op :: marks)) :
    Shown terms (s.advance op act) := by
  cases act with
  | finish lease' result =>
    refine .inl ⟨?_, rfl, quiet⟩
    have ended := trace.call passes
    simpa [System.advance, log] using ended
  | request lease' request after =>
    refine .inr ⟨closed, lease, op, marks, request, none, trace, ?_, ?_⟩
    · exact ⟨after, false, s.tasks, passes, rfl, rfl, quiet⟩
    · simp [System.advance, log]

theorem stepShown {terms : Terms Surface Seconds} {s s' : System Surface Seconds Reply} {event : Event Surface Reply}
    (shown : Shown terms s) (moved : next terms s event = some s') : Shown terms s' := by
  rcases shown with between | ⟨closed, lease, op, marks, request, outcome, underway⟩
  · cases event with
    | call op =>
      simp only [next, between.caller, Option.some.injEq] at moved
      subst moved
      exact advanceShown (s := { s with log := s.log ++ [.called s.calls op] }) between.trace (.here _) between.quiet rfl
    | settle index outcome =>
      simp only [next] at moved
      split at moved
      · next number request found =>
        have settled := between.quiet _ (List.mem_of_getElem? found)
        cases settled
      · cases moved
    | interrupt => simp [next, between.caller] at moved
    | resume => simp [next, between.caller] at moved
  · obtain ⟨after, cancelled, done, passes, caller, tasks, quiet⟩ := underway.waits
    have current : s.tasks[done.length]? = some ⟨s.calls, request, outcome⟩ := by simp [tasks]
    have resumed {outcome' : Outcome Surface Reply} (settled : outcome = some outcome') (cancelled' : Bool) :
        Shown terms (s.advance op (after (settle outcome' cancelled'))) := by
      subst settled
      apply advanceShown underway.trace (passes.trans (.settled outcome' cancelled' (.here _)))
      · intro task member
        rw [tasks] at member
        rcases List.mem_append.mp member with early | last
        · exact quiet task early
        · obtain rfl := List.mem_singleton.mp last
          rfl
      · simpa using underway.log
    cases event with
    | call op => simp [next, caller] at moved
    | settle index outcome' =>
      simp only [next] at moved
      split at moved
      · next number request' found =>
        have last : index = done.length := by
          by_contra other
          rw [tasks, List.getElem?_append] at found
          split at found
          · cases quiet _ (List.mem_of_getElem? found)
          · rw [List.getElem?_singleton] at found
            split at found
            · omega
            · cases found
        subst last
        rw [current] at found
        cases found
        cases Option.some.inj moved
        refine .inr ⟨closed, lease, op, marks, request, some outcome', underway.trace, ?_, ?_⟩
        · exact ⟨after, cancelled, done, passes, caller, by simp [tasks], quiet⟩
        · simp [underway.log]
      · cases moved
    | interrupt =>
      simp only [next, caller, current, Option.bind_eq_bind, Option.bind_some] at moved
      cases outcome with
      | none =>
        cases Option.some.inj moved
        refine .inr ⟨closed, lease, op, marks, request, none, underway.trace, ?_, underway.log⟩
        exact ⟨after, true, done, passes, rfl, tasks, quiet⟩
      | some outcome' =>
        cases Option.some.inj moved
        exact resumed rfl true
    | resume =>
      simp only [next, caller, current, Option.bind_eq_bind, Option.bind_some] at moved
      cases outcome with
      | none => cases moved
      | some outcome' =>
        cases Option.some.inj moved
        exact resumed rfl cancelled

theorem runShown {terms : Terms Surface Seconds} {s : System Surface Seconds Reply} {events : List (Event Surface Reply)}
    (run : Run (next terms) fresh events s) : Shown terms s :=
  runKeeps (.inl ⟨.start, rfl, by simp [fresh]⟩) (fun _ _ _ shown moved => stepShown shown moved) run

section Calls
variable {terms : Terms Surface Seconds} {number : Nat} {lease lease' : Lease}
  {marks : List (Mark Surface Seconds Reply)} {result : Except (Raised Surface) Unit}

/-- A request's marks: it is sent, and it settles before anything else of the call. -/
def asked (number : Nat) (request : Request Surface Seconds) (outcome : Outcome Surface Reply) : List (Mark Surface Seconds Reply) :=
  [.started number request, .settled number request outcome]

theorem passesFinished (passes : Passes number (.finish lease' result) marks (.finish lease result')) :
    marks = [] ∧ lease = lease' ∧ result' = result := by
  cases passes
  exact ⟨rfl, rfl, rfl⟩

/-- A release ends whatever started it, with the lease not active. -/
theorem releaseFinishes {after : Lease → Except (Raised Surface) Unit → Act Surface Seconds Reply}
    {last : Except (Raised Surface) Unit → Except (Raised Surface) Unit}
    (ends : ∀ lease released, after lease released = .finish lease (last released))
    (passes : Passes number (release terms lease after) marks (.finish lease' result)) :
    ∃ outcome released, marks = asked number (releaseSurfaces terms) outcome ∧ lease' = { lease with active := false } ∧
      result = last released := by
  cases passes with
  | settled outcome cancelled later =>
    dsimp only at later
    rw [ends] at later
    obtain ⟨rfl, rfl, rfl⟩ := passesFinished later
    exact ⟨outcome, _, rfl, rfl, rfl⟩

/-- How an enter ends: refused for a second entry, refused by the tracker, entered, or withdrawn. -/
inductive Entered (terms : Terms Surface Seconds) (number : Nat) (lease : Lease) :
    List (Mark Surface Seconds Reply) → Lease → Except (Raised Surface) Unit → Prop where
  | again {e} (entered : lease.entered = true) : Entered terms number lease [] lease (.error e)
  | refused {e} (unentered : lease.entered = false) :
      Entered terms number lease (asked number (acquireSurfaces terms) (.error .surfaceLease)) ⟨true, lease.active⟩ (.error e)
  | acquired {outcome} (unentered : lease.entered = false) :
      Entered terms number lease (asked number (acquireSurfaces terms) outcome) ⟨true, true⟩ (.ok ())
  | withdrawn {outcome released e} (unentered : lease.entered = false) :
      Entered terms number lease (asked number (acquireSurfaces terms) outcome ++ asked number (releaseSurfaces terms) released)
        ⟨true, false⟩ (.error e)

theorem settleRefused {outcome : Outcome Surface Reply} {cancelled : Bool}
    (refused : settle outcome cancelled = .error .surfaceLease) : outcome = .error .surfaceLease := by
  unfold settle finishOwned at refused
  cases outcome with
  | ok reply => cases cancelled <;> cases refused
  | error e =>
    cases e with
    | surfaceLease => rfl
    | cancelled => cases refused
    | surfaceLeaseLost _ _ | valueError _ | failure _ => cases cancelled <;> cases refused
    | interrupt _ => cases cancelled <;> cases refused

theorem enterFinishes (passes : Passes number (enter terms lease) marks (.finish lease' result)) :
    Entered terms number lease marks lease' result := by
  unfold enter at passes
  split at passes
  · next entered =>
    obtain ⟨rfl, rfl, rfl⟩ := passesFinished passes
    exact .again entered
  · next unentered =>
    have unentered : lease.entered = false := by simpa using unentered
    cases passes with
    | settled outcome cancelled later =>
      unfold afterAcquire at later
      split at later
      · obtain ⟨rfl, rfl, rfl⟩ := passesFinished later
        exact .acquired unentered
      · next refused =>
        obtain ⟨rfl, rfl, rfl⟩ := passesFinished later
        obtain rfl := settleRefused refused
        exact .refused unentered
      · next e _ _ =>
        obtain ⟨released, shown, rfl, rfl, rfl⟩ :=
          @releaseFinishes Surface Seconds Reply terms number _ lease' _ result _ (fun released => released >>= fun _ => .error e)
            (fun _ _ => rfl) later
        cases shown with
        | error e' => exact .withdrawn unentered
        | ok _ => exact .withdrawn unentered

/-- How a renew ends: refused on an inactive lease, extended, or the end of every renewal. -/
inductive Renewed (terms : Terms Surface Seconds) (number : Nat) (lease : Lease) :
    List (Mark Surface Seconds Reply) → Lease → Except (Raised Surface) Unit → Prop where
  | refused (inactive : lease.active = false) : Renewed terms number lease [] lease (.error (leaseLost terms))
  | extended {outcome} (active : lease.active = true) :
      Renewed terms number lease (asked number (renewSurfaces terms) outcome) lease (.ok ())
  | lapsed {outcome e} (active : lease.active = true) :
      Renewed terms number lease (asked number (renewSurfaces terms) outcome) { lease with active := false } (.error e)

theorem renewFinishes (passes : Passes number (renew terms lease) marks (.finish lease' result)) :
    Renewed terms number lease marks lease' result := by
  unfold renew at passes
  split at passes
  · next inactive =>
    obtain ⟨rfl, rfl, rfl⟩ := passesFinished passes
    exact .refused (by simpa using inactive)
  · next active =>
    have active : lease.active = true := by simpa using active
    cases passes with
    | settled outcome cancelled later =>
      unfold afterRenew at later
      split at later
      · obtain ⟨rfl, rfl, rfl⟩ := passesFinished later
        have same : lease = { lease with active := true } := by rw [← active]
        rw [← same]
        exact .extended active
      · obtain ⟨rfl, rfl, rfl⟩ := passesFinished later
        exact .lapsed active
      · obtain ⟨rfl, rfl, rfl⟩ := passesFinished later
        exact .lapsed active

theorem exitFinishes (passes : Passes number (exit terms lease) marks (.finish lease' result)) :
    ∃ outcome, marks = asked number (releaseSurfaces terms) outcome ∧ lease' = { lease with active := false } := by
  obtain ⟨outcome, _, shown, after, -⟩ := @releaseFinishes Surface Seconds Reply terms number lease lease' marks result .finish id (fun _ _ => rfl) passes
  exact ⟨outcome, shown, after⟩

end Calls

/-- An entry of a joined list stands in its first part or in its second. -/
theorem locate {α : Type*} {first second early late : List α} {x : α} (same : first ++ second = early ++ x :: late) :
    (∃ rest, first = early ++ x :: rest ∧ late = rest ++ second) ∨
      ∃ skipped, early = first ++ skipped ∧ second = skipped ++ x :: late := by
  rcases List.append_eq_append_iff.mp same with ⟨skipped, earlier, later⟩ | ⟨rest, earlier, later⟩
  · exact .inr ⟨skipped, earlier, later⟩
  · cases rest with
    | nil => exact .inr ⟨[], by simpa using earlier.symm, by simpa using later.symm⟩
    | cons head tail =>
      obtain ⟨rfl, rfl⟩ := List.cons.inj later
      exact .inl ⟨tail, earlier, rfl⟩

section Logs
variable {terms : Terms Surface Seconds} {number : Nat} {lease : Lease} {act act' : Act Surface Seconds Reply}
  {log marks : List (Mark Surface Seconds Reply)}

def Mark.isAsked : Mark Surface Seconds Reply → Bool
  | .started _ _ | .settled _ _ _ => true
  | _ => false

theorem passesAsked (passes : Passes number act marks act') : ∀ mark ∈ marks, mark.isAsked := by
  induction passes with
  | here => simp
  | settled outcome cancelled later ih => simpa [Mark.isAsked] using ih

theorem passesStarted (passes : Passes number act marks act') {k : Nat} {request : Request Surface Seconds}
    (member : .started k request ∈ marks) : k = number ∧ ∃ outcome, .settled k request outcome ∈ marks := by
  induction passes with
  | here => cases member
  | settled outcome cancelled later ih =>
    rcases List.mem_cons.mp member with first | rest
    · obtain ⟨rfl, rfl⟩ := Mark.started.inj first
      exact ⟨rfl, outcome, by simp⟩
    · obtain ⟨same, found, settled⟩ := ih ((List.mem_cons.mp rest).resolve_left (by simp))
      exact ⟨same, found, by simp [settled]⟩

theorem traceStarted (trace : Trace terms number lease log) {k : Nat} {request : Request Surface Seconds}
    (member : .started k request ∈ log) : k < number ∧ ∃ outcome, .settled k request outcome ∈ log := by
  induction trace with
  | start => cases member
  | call trace passes ih =>
    rcases List.mem_append.mp member with early | inner
    · obtain ⟨less, outcome, settled⟩ := ih early
      exact ⟨by omega, outcome, List.mem_append_left _ settled⟩
    · obtain ⟨rfl, outcome, settled⟩ := passesStarted passes (by simpa using inner)
      exact ⟨by omega, outcome, List.mem_append_right _ (by simp [settled])⟩

/-- An active lease has been entered, and so has one an acquisition was sent for. -/
theorem traceEntered (trace : Trace terms number lease log) :
    (lease.active → lease.entered) ∧ ∀ k, .started k (acquireSurfaces terms) ∈ log → lease.entered := by
  induction trace with
  | start => simp
  | @call number lease log op marks lease' result trace passes ih =>
    obtain ⟨active, sent⟩ := ih
    cases op with
    | enter =>
      cases enterFinishes passes with
      | again entered => exact ⟨fun _ => entered, fun _ _ => entered⟩
      | refused unentered | acquired unentered | withdrawn unentered => simp
    | renew =>
      cases renewFinishes passes with
      | refused inactive => exact ⟨active, fun k member => sent k (by simpa using member)⟩
      | extended isActive => exact ⟨active, fun _ _ => active isActive⟩
      | lapsed isActive => exact ⟨fun _ => active isActive, fun _ _ => active isActive⟩
    | exit =>
      obtain ⟨outcome, rfl, rfl⟩ := exitFinishes passes
      refine ⟨by simp, fun k member => sent k ?_⟩
      simpa [asked, acquireSurfaces, releaseSurfaces] using member

/-- A mark that ends a call stands in the earlier calls, or it is the last of all. -/
theorem finishedIn {op op' : Op} {result result' : Except (Raised Surface) Unit} {m : Nat} {before after : List (Mark Surface Seconds Reply)}
    (asked : ∀ mark ∈ marks, mark.isAsked)
    (same : log ++ (.called number op' :: (marks ++ [.finished number op' result'])) = before ++ .finished m op result :: after) :
    (∃ later, log = before ++ .finished m op result :: later ∧
        after = later ++ (.called number op' :: (marks ++ [.finished number op' result']))) ∨
      (before = log ++ .called number op' :: marks ∧ after = [] ∧ m = number ∧ op = op' ∧ result = result') := by
  rcases locate same with early | ⟨skipped, earlier, inner⟩
  · exact .inl early
  · right
    rw [← List.cons_append] at inner
    rcases locate inner with ⟨rest, front, -⟩ | ⟨skipped', rfl, last⟩
    · have member : Mark.finished m op result ∈ Mark.called number op' :: marks := by simp [front]
      rcases List.mem_cons.mp member with head | tail
      · cases head
      · cases asked _ tail
    · cases skipped' with
      | nil =>
        obtain ⟨ends, rfl⟩ := List.cons.inj last
        cases ends
        exact ⟨by simpa using earlier, rfl, rfl, rfl, rfl⟩
      | cons head tail => simp at last

/-- At the end of a call every request sent before has settled. -/
theorem finishedSettled (trace : Trace terms number lease log) {op : Op} {result : Except (Raised Surface) Unit} {m : Nat}
    {before after : List (Mark Surface Seconds Reply)} (split : log = before ++ .finished m op result :: after)
    {k : Nat} {request : Request Surface Seconds} (sent : .started k request ∈ before) :
    ∃ outcome, .settled k request outcome ∈ before := by
  induction trace generalizing after with
  | start => simp at split
  | @call number lease log op' marks lease' result' trace passes ih =>
    rcases finishedIn (passesAsked passes) split with ⟨later, early, -⟩ | ⟨rfl, -⟩
    · exact ih early
    · rcases List.mem_append.mp sent with earlier | inner
      · obtain ⟨-, outcome, settled⟩ := traceStarted trace earlier
        exact ⟨outcome, List.mem_append_left _ settled⟩
      · obtain ⟨-, outcome, settled⟩ := passesStarted passes (by simpa using inner)
        exact ⟨outcome, List.mem_append_right _ (by simp [settled])⟩

/-- A release is sent between an acquisition's settling and the end of its failed enter or of an exit. -/
theorem finishedReleased (trace : Trace terms number lease log) {op : Op} {result : Except (Raised Surface) Unit} {m k : Nat}
    {before after : List (Mark Surface Seconds Reply)} (split : log = before ++ .finished m op result :: after)
    (sent : .started k (acquireSurfaces terms) ∈ before)
    (unrefused : .settled k (acquireSurfaces terms) (.error .surfaceLease) ∉ before)
    (ends : op = .exit ∨ m = k ∧ ∃ e, result = .error e) :
    ∃ early outcome late j, before = early ++ .settled k (acquireSurfaces terms) outcome :: late ∧
      .started j (releaseSurfaces terms) ∈ late := by
  induction trace generalizing after with
  | start => simp at split
  | @call number lease log op' marks lease' result' trace passes ih =>
    rcases finishedIn (passesAsked passes) split with ⟨later, early, -⟩ | ⟨rfl, -, rfl, rfl, rfl⟩
    · exact ih early
    · rcases List.mem_append.mp sent with earlier | inner
      · obtain ⟨less, outcome, settled⟩ := traceStarted trace earlier
        obtain rfl : op = .exit := ends.resolve_right fun ⟨same, _⟩ => by omega
        obtain ⟨released, rfl, -⟩ := exitFinishes passes
        obtain ⟨early, late, rfl⟩ := List.append_of_mem settled
        exact ⟨early, outcome, late ++ (.called m .exit :: asked m (releaseSurfaces terms) released), m, by simp, by simp [asked]⟩
      · have shown : .started k (acquireSurfaces terms) ∈ marks := by simpa using inner
        obtain ⟨rfl, -⟩ := passesStarted passes shown
        cases op with
        | enter =>
          obtain ⟨-, e, rfl⟩ := ends.resolve_left (by simp)
          cases enterFinishes passes with
          | again entered => cases shown
          | refused unentered => exact absurd (by simp [asked]) unrefused
          | withdrawn unentered =>
            rename_i outcome released
            exact ⟨log ++ [.called k .enter, .started k (acquireSurfaces terms)], outcome, asked k (releaseSurfaces terms) released, k,
              by simp [asked], by simp [asked]⟩
        | renew =>
          cases renewFinishes passes with
          | refused inactive => cases shown
          | extended active | lapsed active => simp [asked, acquireSurfaces, renewSurfaces] at shown
        | exit =>
          obtain ⟨released, rfl, -⟩ := exitFinishes passes
          simp [asked, acquireSurfaces, releaseSurfaces] at shown

/-- No renew of these marks goes beyond its call: it is refused at once. -/
def RefusesRenewals (terms : Terms Surface Seconds) (marks : List (Mark Surface Seconds Reply)) : Prop :=
  ∀ m early late, marks = early ++ .called m .renew :: late → ∃ rest, late = .finished m .renew (.error (leaseLost terms)) :: rest

/-- Once entered and no longer active, a lease stays so and refuses every renewal. -/
theorem deadCall {op : Op} {lease' : Lease} {result : Except (Raised Surface) Unit} (dead : lease = ⟨true, false⟩)
    (passes : Passes number (call terms op lease) marks (.finish lease' result)) :
    lease' = ⟨true, false⟩ ∧ (op = .renew → marks = [] ∧ result = .error (leaseLost terms)) := by
  subst dead
  cases op with
  | enter =>
    cases enterFinishes passes with
    | again entered => exact ⟨rfl, by simp⟩
    | refused unentered | acquired unentered | withdrawn unentered => cases unentered
  | renew =>
    cases renewFinishes passes with
    | refused inactive => exact ⟨rfl, fun _ => ⟨rfl, rfl⟩⟩
    | extended active | lapsed active => cases active
  | exit =>
    obtain ⟨outcome, -, rfl⟩ := exitFinishes passes
    exact ⟨rfl, by simp⟩

theorem calledIn {op : Op} {m : Nat} {early late : List (Mark Surface Seconds Reply)} (asked : ∀ mark ∈ marks, mark.isAsked)
    (same : (.called number op :: marks) = early ++ .called m .renew :: late) : early = [] ∧ m = number ∧ op = .renew ∧ late = marks := by
  cases early with
  | nil =>
    obtain ⟨head, rfl⟩ := List.cons.inj same
    cases head
    exact ⟨rfl, rfl, rfl, rfl⟩
  | cons first rest =>
    obtain ⟨-, inner⟩ := List.cons.inj same
    cases asked (.called m .renew) (by simp [inner])

theorem refusesMore {op : Op} {result : Except (Raised Surface) Unit} (asked : ∀ mark ∈ marks, mark.isAsked)
    (refuses : RefusesRenewals terms log) (refused : op = .renew → marks = [] ∧ result = .error (leaseLost terms)) :
    RefusesRenewals terms (log ++ (.called number op :: (marks ++ [.finished number op result]))) := by
  intro m early late same
  rcases locate same with ⟨rest, split, rfl⟩ | ⟨skipped, rfl, inner⟩
  · obtain ⟨more, rfl⟩ := refuses m early rest split
    exact ⟨more ++ _, rfl⟩
  · rw [← List.cons_append] at inner
    rcases locate inner with ⟨rest, front, rfl⟩ | ⟨skipped', -, last⟩
    · obtain ⟨-, rfl, rfl, rfl⟩ := calledIn asked front
      obtain ⟨rfl, rfl⟩ := refused rfl
      exact ⟨[], rfl⟩
    · cases skipped' with
      | nil => cases (List.cons.inj last).1
      | cons head tail => simp at last

/-- A renew that failed on an entered lease leaves it for good without a renewal. -/
theorem finishedLapsed (trace : Trace terms number lease log) {e : Raised Surface} {m : Nat}
    {before after : List (Mark Surface Seconds Reply)} (split : log = before ++ .finished m .renew (.error e) :: after)
    (held : .started m (renewSurfaces terms) ∈ before ∨ ∃ k, .started k (acquireSurfaces terms) ∈ before) :
    lease = ⟨true, false⟩ ∧ RefusesRenewals terms after := by
  induction trace generalizing after with
  | start => simp at split
  | @call number lease log op' marks lease' result' trace passes ih =>
    rcases finishedIn (passesAsked passes) split with ⟨later, early, rfl⟩ | ⟨rfl, rfl, rfl, rfl, rfl⟩
    · obtain ⟨dead, refuses⟩ := ih early
      obtain ⟨dead', refused⟩ := deadCall dead passes
      exact ⟨dead', refusesMore (passesAsked passes) refuses refused⟩
    · refine ⟨?_, fun _ early late none' => by simp at none'⟩
      obtain ⟨active, sent⟩ := traceEntered trace
      cases renewFinishes passes with
      | refused inactive =>
        have entered : lease.entered := by
          rcases held with own | ⟨k, acquired⟩
          · have earlier : .started m (renewSurfaces terms) ∈ log := by simpa using own
            exact absurd (traceStarted trace earlier).1 (by omega)
          · exact sent k (by simpa using acquired)
        obtain ⟨_, _⟩ := lease
        simp_all
      | lapsed isActive => rw [active isActive]

end Logs

section Runs
variable {terms : Terms Surface Seconds} {s : System Surface Seconds Reply}

theorem Underway.asked {closed marks : List (Mark Surface Seconds Reply)} {lease : Lease} {op : Op} {request : Request Surface Seconds}
    {outcome : Option (Outcome Surface Reply)} (underway : Underway terms s closed lease op marks request outcome) :
    ∀ mark ∈ marks ++ .started s.calls request :: (outcome.map (.settled s.calls request)).toList, mark.isAsked := by
  obtain ⟨after, cancelled, done, passes, -⟩ := underway.waits
  intro mark member
  rcases List.mem_append.mp member with inner | last
  · exact passesAsked passes mark inner
  · cases outcome with
    | none => simp_all [Mark.isAsked]
    | some outcome =>
      rcases List.mem_cons.mp last with rfl | settled
      · rfl
      · obtain rfl := List.mem_singleton.mp settled
        rfl

/-- The mark that ends a call stands among the ended calls, whatever is under way behind them. -/
theorem endedIn (shown : Shown terms s) {op : Op} {result : Except (Raised Surface) Unit} {m : Nat}
    {before after : List (Mark Surface Seconds Reply)} (split : s.log = before ++ .finished m op result :: after) :
    ∃ lease log later open', Trace terms s.calls lease log ∧ log = before ++ .finished m op result :: later ∧
      after = later ++ open' ∧ (lease = ⟨true, false⟩ → RefusesRenewals terms later → RefusesRenewals terms after) := by
  rcases shown with between | ⟨closed, lease, op', marks, request, outcome, underway⟩
  · exact ⟨s.lease, s.log, after, [], between.trace, split, by simp, fun _ refuses => refuses⟩
  · rw [underway.log] at split
    rcases locate split with ⟨later, early, rfl⟩ | ⟨skipped, -, inner⟩
    · refine ⟨lease, closed, later, _, underway.trace, early, rfl, ?_⟩
      rintro rfl refuses k early' late same
      rcases locate same with ⟨rest, split', rfl⟩ | ⟨skipped, -, inner⟩
      · obtain ⟨more, rfl⟩ := refuses k early' rest split'
        exact ⟨more ++ _, rfl⟩
      · obtain ⟨-, rfl, rfl, -⟩ := calledIn underway.asked inner
        obtain ⟨_, _, _, passes, -⟩ := underway.waits
        cases passes
    · have member : Mark.finished m op result ∈ Mark.called s.calls op' :: (marks ++ .started s.calls request ::
          (outcome.map (.settled s.calls request)).toList) := by simp [inner]
      rcases List.mem_cons.mp member with head | tail
      · cases head
      · cases underway.asked _ tail

theorem quietNone {tasks : List (Task Surface Seconds Reply)} (quiet : ∀ task ∈ tasks, task.outcome.isSome) :
    tasks.filter (·.outcome.isNone) = [] := by
  rw [List.filter_eq_nil_iff]
  intro task member
  have settled := quiet task member
  cases outcome : task.outcome with
  | none => simp [outcome] at settled
  | some _ => simp

/-- In every run at most one request is in flight; every call ends with its requests settled, so a
cancellation reaches the caller only then; a release stands between an acquisition and the end of
its failed enter or of an exit; and a failed renew is the last that asks. -/
theorem leaseHolds {events : List (Event Surface Reply)} (run : Run (next terms) fresh events s) :
    (s.tasks.filter (·.outcome.isNone)).length ≤ 1 ∧
      (∀ before after m op result k, s.log = before ++ .finished m op result :: after →
        .started k (acquireSurfaces terms) ∈ before → .settled k (acquireSurfaces terms) (.error .surfaceLease) ∉ before →
        (op = .exit ∨ m = k ∧ ∃ e, result = .error e) →
        ∃ early outcome late j, before = early ++ .settled k (acquireSurfaces terms) outcome :: late ∧
          .started j (releaseSurfaces terms) ∈ late) ∧
      (∀ before after m e, s.log = before ++ .finished m .renew (.error e) :: after →
        (.started m (renewSurfaces terms) ∈ before ∨ ∃ k, .started k (acquireSurfaces terms) ∈ before) →
        RefusesRenewals terms after) ∧
      ∀ before after m op result, s.log = before ++ .finished m op result :: after →
        ∀ k request, .started k request ∈ before → ∃ outcome, .settled k request outcome ∈ before := by
  have shown := runShown run
  refine ⟨?_, ?_, ?_, ?_⟩
  · rcases shown with between | ⟨closed, lease, op, marks, request, outcome, underway⟩
    · simp [quietNone between.quiet]
    · obtain ⟨after, cancelled, done, -, -, tasks, quiet⟩ := underway.waits
      rw [tasks, List.filter_append, quietNone quiet, List.nil_append]
      exact List.length_filter_le _ _
  · intro before after m op result k split sent unrefused ends
    obtain ⟨lease, log, later, _, trace, early, -⟩ := endedIn shown split
    exact finishedReleased trace early sent unrefused ends
  · intro before after m e split held
    obtain ⟨lease, log, later, _, trace, early, -, carries⟩ := endedIn shown split
    obtain ⟨dead, refuses⟩ := finishedLapsed trace early held
    exact carries dead refuses
  · intro before after m op result split k request sent
    obtain ⟨lease, log, later, _, trace, early, -⟩ := endedIn shown split
    exact finishedSettled trace early sent

end Runs

def laneTerms : Terms Nat Nat where
  jobId := "job-6".toList
  surfaces := {7}
  leaseSeconds := 300
  named := by decide
  writes := Finset.singleton_nonempty 7

def cancelledEnter : List (Event Nat Nat) := [.call .enter, .interrupt, .settle 0 (.ok (some 4)), .interrupt, .settle 1 (.ok none), .resume]

def cancelledLog : List (Mark Nat Nat Nat) :=
  .called 0 .enter :: (asked 0 (acquireSurfaces laneTerms) (.ok (some 4)) ++ asked 0 (releaseSurfaces laneTerms) (.ok none))

theorem cancelledEnterRuns : ∃ s, Run (next laneTerms) fresh cancelledEnter s ∧
    s.log = cancelledLog ++ [.finished 0 .enter (.error .cancelled)] := by
  refine ⟨_, runFolded rfl, ?_⟩
  rfl

theorem cancelledEnterReleases : ∃ early outcome late j,
    cancelledLog = early ++ .settled 0 (acquireSurfaces laneTerms) outcome :: late ∧ .started j (releaseSurfaces laneTerms) ∈ late := by
  obtain ⟨s, run, log⟩ := cancelledEnterRuns
  obtain ⟨-, released, -⟩ := leaseHolds run
  refine released _ [] 0 .enter (.error .cancelled) 0 log ?_ ?_ (.inr ⟨rfl, _, rfl⟩)
  · simp [cancelledLog, asked]
  · simp [cancelledLog, asked, acquireSurfaces, releaseSurfaces]

end Kodezart.RunSurfaceLease
