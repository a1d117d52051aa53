import Mathlib
import Kodezart.DispatchPass
import Kodezart.Selection

/-! Whether the fire a tick started is followed. -/
namespace Kodezart.Dispatch
open Prog FireDispatcher

def Call.follows : Call → Bool
  | .follow _ _ _ _ => true
  | _ => false

/-- A call that neither starts a fire nor follows one. -/
def Call.bystands : Call → Prop
  | .submit _ _ | .follow _ _ _ _ => False
  | _ => True

/-- Whether an exchange carried a reading of the issue. -/
def tells : Exchange Call Reply Raised → BoardIssue → Prop
  | ⟨.readIssue _, .ok issue⟩, winner => issue = winner
  | ⟨.readScopeReady _, .ok ready⟩, winner => ∃ lane ∈ ready.ready, lane.issue = winner
  | _, _ => False

/-- From the acceptance of a job on, every call answers. -/
def quietOnceAccepted : Transcript → Bool
  | [] => true
  | x :: rest => if (acceptedJob x).isSome then x.answered && rest.all Exchange.answered else quietOnceAccepted rest

/-- The job is watched, under the issue whose claim was granted and the state it was last read in before. -/
def Followed (holder job : String) (t : Transcript) : Prop :=
  ∃ (winner : BoardIssue) (reads : Transcript) (claim : Exchange Call Reply Raised) (late : Transcript),
    t = reads ++ claim :: late ∧ (∃ y ∈ reads, tells y winner) ∧ grants winner.key holder claim = true ∧
    ∃ y ∈ late, ∃ visibility, y.call = .follow winner.key job winner.stateName visibility

theorem bystandsUnaccepted {x : Exchange Call Reply Raised} (bystands : x.call.bystands) :
    acceptedJob x = none ∧ x.call.follows = false := by
  obtain ⟨call, answer⟩ := x
  cases call
  case submit => exact bystands.elim
  case follow => exact bystands.elim
  all_goals exact ⟨rfl, rfl⟩

theorem selectsBystands (issueKey : String) (call : Call) (selects : call.selects issueKey) : call.bystands := by
  cases call
  case submit => exact selects.elim
  case follow => exact selects.elim
  all_goals trivial

section Submissions
variable {α β : Type} (told : α → Option String) {told' : β → Option String}

/-- Where the one submission of a program stands in its run, and whether its result tells of it. -/
inductive Submits : Transcript → Except Raised α → Prop where
  | idle {t : Transcript} {out : Except Raised α} (unaccepted : ∀ x ∈ t, acceptedJob x = none)
      (untold : ∀ a, out = .ok a → told a = none) : Submits t out
  | fired {before after : Transcript} {x : Exchange Call Reply Raised} {job : String} {a : α}
      (fresh : ∀ y ∈ before, acceptedJob y = none) (accepted : acceptedJob x = some job)
      (answered : x.answered = true) (rest : ∀ y ∈ after, acceptedJob y = none ∧ y.answered = true)
      (tells : told a = some job) : Submits (before ++ x :: after) (.ok a)
  | cut {before after : Transcript} {x : Exchange Call Reply Raised} {job : String} {raised : Raised}
      (fresh : ∀ y ∈ before, acceptedJob y = none) (accepted : acceptedJob x = some job)
      (rest : ∀ y ∈ after, acceptedJob y = none) (broken : ∃ y ∈ x :: after, y.answered = false) :
      Submits (before ++ x :: after) (.error raised)

variable {told} in
theorem submitsLater {early t : Transcript} {out : Except Raised α} (fresh : ∀ x ∈ early, acceptedJob x = none)
    (rest : Submits told t out) : Submits told (early ++ t) out := by
  cases rest with
  | idle unaccepted untold =>
    refine .idle (fun x member => ?_) untold
    rcases List.mem_append.mp member with first | second
    · exact fresh x first
    · exact unaccepted x second
  | @fired before after x job a fresh' accepted answered rest tells =>
    rw [← List.append_assoc]
    refine .fired (fun y member => ?_) accepted answered rest tells
    rcases List.mem_append.mp member with first | second
    · exact fresh y first
    · exact fresh' y second
  | @cut before after x job raised fresh' accepted rest broken =>
    rw [← List.append_assoc]
    refine .cut (fun y member => ?_) accepted rest broken
    rcases List.mem_append.mp member with first | second
    · exact fresh y first
    · exact fresh' y second

theorem submitsNothing {p : Program β} (asks : p.Asks Call.bystands) {t : Transcript} {out : Except Raised β}
    (went : Goes Answers p () t () out) (untold : ∀ b, out = .ok b → told' b = none) : Submits told' t out :=
  .idle (fun x member => (bystandsUnaccepted (goesAllowed asks went x member)).1) untold

theorem submitsAfter {p : Program α} {f : α → Program β} (asks : p.Asks Call.bystands)
    (rest : ∀ a t out, Goes Answers (f a) () t () out → Submits told' t out) {t : Transcript}
    {out : Except Raised β} (went : Goes Answers (p >>= f) () t () out) : Submits told' t out := by
  rcases goesBind _ _ went with ⟨raised, rfl, first⟩ | ⟨a, _, early, late, first, second, rfl⟩
  · exact .idle (fun x member => (bystandsUnaccepted (goesAllowed asks first x member)).1) fun _ same => nomatch same
  · exact submitsLater (fun x member => (bystandsUnaccepted (goesAllowed asks first x member)).1) (rest a _ _ second)

theorem submitsCall {call : Call} {f : Reply call → Program β} {t : Transcript} {out : Except Raised β}
    (went : Goes Answers (ask call >>= f) () t () out) (bystands : call.bystands)
    (rest : ∀ answer t out, Goes Answers (f answer) () t () out → Submits told' t out) : Submits told' t out :=
  submitsAfter ((asksRequest call).mpr bystands) rest went

/-- What follows a submission, and starts nothing of its own, keeps what is told of it. -/
theorem submitsThen {p : Program α} {f : α → Program β}
    (first : ∀ t out, Goes Answers p () t () out → Submits told t out) (plain : ∀ a, (f a).Plain)
    (asks : ∀ a, (f a).Asks Call.bystands)
    (same : ∀ a t b, Goes Answers (f a) () t () (.ok b) → told' b = told a) {t : Transcript}
    {out : Except Raised β} (went : Goes Answers (p >>= f) () t () out) : Submits told' t out := by
  rcases goesBind _ _ went with ⟨raised, rfl, failed⟩ | ⟨a, _, early, late, submitted, finished, rfl⟩
  · cases first _ _ failed with
    | idle unaccepted untold => exact .idle unaccepted fun _ same => nomatch same
    | cut fresh accepted rest broken => exact .cut fresh accepted rest broken
  · have bystands := fun x member => (bystandsUnaccepted (goesAllowed (asks a) finished x member)).1
    cases first _ _ submitted with
    | idle unaccepted untold =>
      refine .idle (fun x member => ?_) fun b ended => ?_
      · rcases List.mem_append.mp member with early | late
        · exact unaccepted x early
        · exact bystands x late
      · subst ended
        rw [same a late b finished, untold a rfl]
    | @fired before after x job _ fresh accepted answered rest tells =>
      rw [List.append_assoc, List.cons_append]
      rcases goesPlain (plain a) finished with ⟨b, rfl, fine⟩ | ⟨raised, first, call, rfl, rfl, fine⟩
      · refine .fired fresh accepted answered (fun y member => ?_) ((same a late b finished).trans tells)
        rcases List.mem_append.mp member with early | later
        · exact rest y early
        · exact ⟨bystands y later, fine y later⟩
      · refine .cut fresh accepted (fun y member => ?_) ⟨⟨call, .error raised⟩, by simp, rfl⟩
        rcases List.mem_append.mp member with early | later
        · exact (rest y early).1
        · exact bystands y later

end Submissions

section Passes
variable {d : FireDispatcher} {t : Transcript}

/-- The job a report of an enqueued fire names. -/
def firedJob (report : DispatchReport) : Option String :=
  if report.outcome = .fireEnqueued then report.jobId else none

theorem submitFireSubmits {winner : BoardIssue} {spec : BaseSpec} {context : FireContext}
    {out : Except Raised Jobs.JobRecord} (went : Goes Answers (d.submitFire winner spec context) () t () out) :
    Submits (fun record => some record.jobId) t out := by
  refine submitsCall went trivial fun _ t out sent => ?_
  refine submitsThen (fun record : Jobs.JobRecord => some record.jobId) (fun t out asked => ?_) (fun record => ?_)
    (fun record => ?_) (fun record t b finished => ?_) sent
  · obtain ⟨-, rfl⟩ := goesRequest asked
    cases out with
    | ok record => exact @Submits.fired _ _ [] [] _ _ _ (by simp) rfl rfl (by simp) rfl
    | error raised =>
      cases taken : raised.job with
      | none => exact .idle (by simp [acceptedJob, taken]) fun _ same => nomatch same
      | some job => exact @Submits.cut _ _ [] [] _ _ _ (by simp) taken (by simp) ⟨_, List.mem_cons_self, rfl⟩
  · exact plainBind (plainRequest _) fun _ => plainBind (plainRequest _) fun _ => trivial
  · exact asksCall trivial fun _ => asksCall trivial fun _ => trivial
  · cases goesAsked finished with
    | answered _ finished =>
    cases goesAsked finished with
    | answered _ finished =>
    obtain ⟨-, -, same⟩ := goesRet finished
    cases same
    rfl

theorem enqueueSubmits {winner : BoardIssue} {spec : BaseSpec} {out : Except Raised (Jobs.JobRecord × Option BaseSpec)}
    (went : Goes Answers (d.enqueue winner spec) () t () out) : Submits (fun fired => some fired.1.jobId) t out := by
  refine submitsCall went trivial fun context t out went => ?_
  refine submitsCall went trivial fun recorded t out went => ?_
  refine submitsAfter (noteSupersededAsks (by trivial) _) (fun _ t out went => ?_) went
  refine submitsThen (fun record : Jobs.JobRecord => some record.jobId) (fun t out => submitFireSubmits)
    ?_ ?_ (fun record t fired finished => ?_) went
  · exact fun _ => trivial
  · exact fun _ => trivial
  · obtain ⟨-, -, same⟩ := goesRet finished
    cases same
    rfl

theorem resolveBaseBystands {winner : BoardIssue} : (d.resolveBase winner).Asks Call.bystands :=
  asksCall trivial fun _ => asksCall trivial fun _ =>
    asksCall trivial fun _ => (asksRequest _).mpr trivial

theorem baseUnresolvedBystands {winner : BoardIssue} {message : String} :
    (d.baseUnresolved winner message).Asks Call.bystands :=
  asksCall trivial fun _ => asksCall trivial fun _ =>
    asksCall trivial fun _ => (asksRequest _).mpr trivial

variable {winner : BoardIssue} {rows : List IssueSnapshot} {exclusions : List IssueExclusion}
  {eligibleKeys tied criterionKeys : List String} {out : Except Raised DispatchReport}

theorem fireSubmits (went : Goes Answers (d.fire winner rows exclusions eligibleKeys tied criterionKeys) () t () out) :
    Submits firedJob t out := by
  refine submitsAfter (asksAttempt resolveBaseBystands) (fun resolved t out went => ?_) went
  cases resolved with
  | error raised =>
    obtain ⟨failure, landed, job⟩ := raised
    cases failure with
    | baseResolution message =>
      refine submitsNothing (asksBind baseUnresolvedBystands fun _ => asksPure _) went fun report ended => ?_
      subst ended
      rcases goesBind (d.baseUnresolved winner message) _ went with ⟨_, same, _⟩ | ⟨_, _, _, _, _, finished, _⟩
      · cases same
      · obtain ⟨-, -, same⟩ := goesRet finished
        cases same
        rfl
    | cancelled => exact submitsNothing (asksRaise _) went fun report ended => nomatch (goesRaise went).2.2.symm.trans ended
    | other message => exact submitsNothing (asksRaise _) went fun report ended => nomatch (goesRaise went).2.2.symm.trans ended
  | ok spec =>
    refine submitsThen (fun fired : Jobs.JobRecord × Option BaseSpec => some fired.1.jobId) (fun t out => enqueueSubmits)
      ?_ ?_ (fun fired t report finished => ?_) went
    · exact fun _ => trivial
    · exact fun _ => trivial
    · obtain ⟨-, -, same⟩ := goesRet finished
      cases same
      rfl

theorem launchSubmits (went : Goes Answers (d.launch winner rows exclusions eligibleKeys tied criterionKeys) () t () out) :
    Submits firedJob t out := by
  refine submitsCall went trivial fun claim t out went => ?_
  split at went
  · refine submitsNothing (by exact asksCall trivial fun _ => asksPure _) went fun report ended => ?_
    subst ended
    cases goesAsked went with
    | answered _ finished =>
      obtain ⟨-, -, same⟩ := goesRet finished
      cases same
      rfl
  · exact fireSubmits went

theorem claimAndEnqueueSubmits {selection : Selection} {eligible : List BoardIssue}
    (went : Goes Answers (d.claimAndEnqueue selection eligible rows exclusions) () t () out) : Submits firedJob t out := by
  refine submitsCall went trivial fun winner t out went => ?_
  refine submitsAfter (liveBlockerAsks fun _ => trivial)
    (fun blocking t out went => ?_) went
  cases blocking with
  | none => exact launchSubmits went
  | some blocker =>
    refine submitsNothing (by exact asksCall trivial fun _ => asksCall trivial fun _ => asksPure _) went
      fun report ended => ?_
    subst ended
    cases goesAsked went with
    | answered _ remembered =>
    cases goesAsked remembered with
    | answered _ finished =>
    obtain ⟨-, -, same⟩ := goesRet finished
    cases same
    rfl

theorem boardSubmits (went : Goes Answers d.runPass () t () out) : Submits firedJob t out := by
  refine submitsAfter (surveyAsks (fun _ => trivial) (fun _ => trivial) selectsBystands)
    (fun survey t out went => ?_) went
  unfold actOn at went
  split at went
  · refine submitsNothing (by exact asksCall trivial fun _ => asksPure _) went fun report ended => ?_
    subst ended
    cases goesAsked went with
    | answered _ finished =>
      obtain ⟨-, -, same⟩ := goesRet finished
      cases same
      rfl
  · refine submitsCall went trivial fun _ t out went => ?_
    exact claimAndEnqueueSubmits went

theorem offerSubmits {d : ScopeDispatcher} (lanes : List ReadyLane)
    (went : Goes Answers (d.offer rows eligibleKeys lanes exclusions) () t () out) : Submits firedJob t out := by
  induction lanes generalizing exclusions t out with
  | nil =>
    refine submitsNothing (asksPure _) went fun report ended => ?_
    obtain ⟨-, -, same⟩ := goesRet went
    cases same.symm.trans ended
    rfl
  | cons lane lanes ih =>
    refine submitsAfter (asksMono (selectsBystands lane.issue.key) standingAsks) (fun exclusion t out went => ?_) went
    cases exclusion with
    | none => exact launchSubmits went
    | some exclusion => exact ih went

theorem scopeSubmits {d : ScopeDispatcher} (went : Goes Answers d.runPass () t () out) : Submits firedJob t out := by
  refine submitsCall went trivial fun ready t out went => ?_
  refine submitsAfter (asksOfExcept _) (fun rows t out went => ?_) went
  refine submitsCall went trivial fun _ t out went => ?_
  exact offerSubmits _ went

/-- A report of an enqueued fire names the issue whose claim was granted, read before it was. -/
def Reported (holder : String) (t : Transcript) (report : DispatchReport) : Prop :=
  ∃ (winner : BoardIssue) (reads : Transcript) (claim : Exchange Call Reply Raised) (late : Transcript),
    t = reads ++ claim :: late ∧ (∃ y ∈ reads, tells y winner) ∧ grants winner.key holder claim = true ∧
    report.claimedIssueKey = some winner.key ∧ report.claimedStateName = some winner.stateName ∧ report.jobId.isSome

theorem reportedLater {holder : String} {report : DispatchReport} (early : Transcript) (late : Reported holder t report) :
    Reported holder (early ++ t) report := by
  obtain ⟨winner, reads, claim, late, rfl, ⟨y, member, told⟩, rest⟩ := late
  exact ⟨winner, early ++ reads, claim, late, by simp, ⟨y, List.mem_append_right _ member, told⟩, rest⟩

theorem fireReports {report : DispatchReport}
    (went : Goes Answers (d.fire winner rows exclusions eligibleKeys tied criterionKeys) () t () (.ok report))
    (fired : report.outcome = .fireEnqueued) :
    report.claimedIssueKey = some winner.key ∧ report.claimedStateName = some winner.stateName ∧ report.jobId.isSome := by
  rcases goesBind _ _ went with ⟨_, same, _⟩ | ⟨resolved, _, _, _, _, acted, _⟩
  · cases same
  · cases resolved with
    | error raised =>
      obtain ⟨failure, landed, job⟩ := raised
      cases failure with
      | baseResolution message =>
        rcases goesBind (d.baseUnresolved winner message) _ acted with ⟨_, same, _⟩ | ⟨_, _, _, _, _, finished, _⟩
        · cases same
        · cases (goesRet finished).2.2
          cases fired
      | cancelled => cases (goesRaise acted).2.2
      | other message => cases (goesRaise acted).2.2
    | ok spec =>
      rcases goesBind (d.enqueue winner spec) _ acted with ⟨_, same, _⟩ | ⟨_, _, _, _, _, finished, _⟩
      · cases same
      · cases (goesRet finished).2.2
        exact ⟨rfl, rfl, rfl⟩

theorem launchReports {report : DispatchReport}
    (went : Goes Answers (d.launch winner rows exclusions eligibleKeys tied criterionKeys) () t () (.ok report))
    (fired : report.outcome = .fireEnqueued) :
    ∃ claim late, t = claim :: late ∧ grants winner.key d.holder claim = true ∧
      report.claimedIssueKey = some winner.key ∧ report.claimedStateName = some winner.stateName ∧ report.jobId.isSome := by
  cases goesAsked went with
  | @answered claim _ _ late _ _ acted =>
    split at acted
    · cases goesAsked acted with
      | answered _ finished =>
        cases (goesRet finished).2.2
        cases fired
    · rename_i granted
      exact ⟨_, late, rfl, by simpa [grants] using granted, fireReports acted fired⟩

theorem claimAndEnqueueReports {selection : Selection} {eligible : List BoardIssue} {report : DispatchReport}
    (went : Goes Answers (d.claimAndEnqueue selection eligible rows exclusions) () t () (.ok report))
    (fired : report.outcome = .fireEnqueued) : Reported d.holder t report := by
  cases goesAsked went with
  | @answered winner _ _ _ _ _ went =>
    rcases goesBind (liveBlockerOf winner) _ went with ⟨_, same, _⟩ | ⟨blocking, _, early, late, _, acted, rfl⟩
    · cases same
    · cases blocking with
      | some blocker =>
        cases goesAsked acted with
        | answered _ remembered =>
        cases goesAsked remembered with
        | answered _ finished =>
        cases (goesRet finished).2.2
        cases fired
      | none =>
        obtain ⟨claim, late, rfl, granted, told⟩ := launchReports acted fired
        exact ⟨winner, _ :: early, claim, late, rfl, ⟨_, List.mem_cons_self, rfl⟩, granted, told⟩

theorem boardReports {report : DispatchReport} (went : Goes Answers d.runPass () t () (.ok report))
    (fired : report.outcome = .fireEnqueued) : Reported d.holder t report := by
  rcases goesBind _ _ went with ⟨_, same, _⟩ | ⟨survey, _, _, _, _, acted, rfl⟩
  · cases same
  refine reportedLater _ ?_
  unfold actOn at acted
  split at acted
  · cases goesAsked acted with
    | answered _ finished =>
    cases (goesRet finished).2.2
    cases fired
  · cases goesAsked acted with
    | answered _ claimed => exact reportedLater [_] (claimAndEnqueueReports claimed fired)

theorem offerReports {d : ScopeDispatcher} {report : DispatchReport} (lanes : List ReadyLane)
    (went : Goes Answers (d.offer rows eligibleKeys lanes exclusions) () t () (.ok report))
    (fired : report.outcome = .fireEnqueued) :
    ∃ lane ∈ lanes, ∃ between claim late, t = between ++ claim :: late ∧
      grants lane.issue.key d.dispatcher.holder claim = true ∧ report.claimedIssueKey = some lane.issue.key ∧
      report.claimedStateName = some lane.issue.stateName ∧ report.jobId.isSome := by
  induction lanes generalizing exclusions t with
  | nil =>
    cases (goesRet went).2.2
    cases fired
  | cons lane lanes ih =>
    rcases goesBind _ _ went with ⟨_, same, _⟩ | ⟨exclusion, _, early, late, _, acted, rfl⟩
    · cases same
    cases exclusion with
    | none =>
      obtain ⟨claim, late, rfl, told⟩ := launchReports acted fired
      exact ⟨lane, List.mem_cons_self, early, claim, late, rfl, told⟩
    | some exclusion =>
      obtain ⟨other, member, between, claim, later, rfl, told⟩ := ih acted
      exact ⟨other, List.mem_cons_of_mem _ member, early ++ between, claim, later, by simp, told⟩

theorem scopeReports {d : ScopeDispatcher} {report : DispatchReport} (went : Goes Answers d.runPass () t () (.ok report))
    (fired : report.outcome = .fireEnqueued) : Reported d.dispatcher.holder t report := by
  cases goesAsked went with
  | @answered ready _ _ _ _ _ read =>
  rcases goesBind _ _ read with ⟨_, same, _⟩ | ⟨rows, _, early, _, _, acted, rfl⟩
  · cases same
  cases goesAsked acted with
  | @answered _ _ _ _ _ _ offered =>
  obtain ⟨lane, member, between, claim, late, rfl, told⟩ := offerReports _ offered fired
  exact ⟨lane.issue, ⟨.readScopeReady d.ref, .ok ready⟩ :: (early ++ ⟨.log "scope_walk_ready", .ok ()⟩ :: between),
    claim, late, by simp, ⟨⟨.readScopeReady d.ref, .ok ready⟩, List.mem_cons_self, lane, member, rfl⟩, told⟩

end Passes

section Watch
variable {producer : DispatchProducer} {pass : GatedDispatchPass} {holder : String} {t early late : Transcript}

theorem producerSubmits {out : Except Raised DispatchReport} (went : Goes Answers producer.runPass () t () out) :
    Submits firedJob t out := by
  cases producer with
  | board d => exact boardSubmits went
  | scope d => exact scopeSubmits went

theorem producerReports {report : DispatchReport} (went : Goes Answers producer.runPass () t () (.ok report))
    (fired : report.outcome = .fireEnqueued) : Reported producer.holder t report := by
  cases producer with
  | board d => exact boardReports went fired
  | scope d => exact scopeReports went fired

/-- How a stretch of a tick stands to the fire it may have started. -/
inductive Watch (holder : String) (t : Transcript) : Prop where
  | idle (unaccepted : ∀ x ∈ t, acceptedJob x = none)
  | followed {job : String} (only : ∀ x ∈ t, ∀ other, acceptedJob x = some other → other = job)
      (watched : Followed holder job t) (quiet : quietOnceAccepted t = true)
  | lost {x : Exchange Call Reply Raised} (member : x ∈ t) (accepted : acceptedJob x ≠ none)
      (unfollowed : ∀ x ∈ t, x.call.follows = false) (loud : quietOnceAccepted t = false)

theorem quietUnaccepted (unaccepted : ∀ x ∈ t, acceptedJob x = none) : quietOnceAccepted t = true := by
  induction t with
  | nil => rfl
  | cons x t ih =>
    simp only [List.mem_cons, forall_eq_or_imp] at unaccepted
    simp [quietOnceAccepted, unaccepted.1, ih unaccepted.2]

theorem watchIff (watch : Watch holder t) :
    (∀ x ∈ t, ∀ job, acceptedJob x = some job → Followed holder job t) ↔ quietOnceAccepted t = true := by
  cases watch with
  | idle unaccepted =>
    refine iff_of_true (fun x member job accepted => ?_) (quietUnaccepted unaccepted)
    cases (unaccepted x member).symm.trans accepted
  | followed only watched quiet =>
    refine iff_of_true (fun x member other accepted => ?_) quiet
    rwa [only x member other accepted]
  | @lost x member accepted unfollowed loud =>
    refine iff_of_false (fun followed => ?_) (by simp [loud])
    obtain ⟨job, same⟩ := Option.ne_none_iff_exists'.mp accepted
    obtain ⟨winner, reads, claim, late, rfl, _, _, y, held, visibility, follow⟩ := followed x member job same
    have := unfollowed y (by simp [held])
    rw [follow] at this
    cases this

theorem quietFrom {before after : Transcript} {x : Exchange Call Reply Raised} {job : String}
    (fresh : ∀ y ∈ before, acceptedJob y = none) (accepted : acceptedJob x = some job) :
    quietOnceAccepted (before ++ x :: after) = (x.answered && after.all Exchange.answered) := by
  induction before with
  | nil => simp [quietOnceAccepted, accepted]
  | cons y before ih =>
    simp only [List.mem_cons, forall_eq_or_imp] at fresh
    simp [quietOnceAccepted, fresh.1, ih fresh.2]

theorem quietThen (answered : ∀ x ∈ late, x.answered = true) (unaccepted : ∀ x ∈ late, acceptedJob x = none) :
    quietOnceAccepted (t ++ late) = quietOnceAccepted t := by
  induction t with
  | nil => simpa [quietOnceAccepted] using quietUnaccepted unaccepted
  | cons x t ih =>
    have fine : late.all Exchange.answered = true := List.all_eq_true.mpr answered
    simp [quietOnceAccepted, ih, fine]

theorem quietLater (unaccepted : ∀ x ∈ early, acceptedJob x = none) :
    quietOnceAccepted (early ++ t) = quietOnceAccepted t := by
  induction early with
  | nil => rfl
  | cons x early ih =>
    simp only [List.mem_cons, forall_eq_or_imp] at unaccepted
    simp [quietOnceAccepted, unaccepted.1, ih unaccepted.2]

theorem followedWithin {job : String} (watched : Followed holder job t) : Followed holder job (early ++ t ++ late) := by
  obtain ⟨winner, reads, claim, later, rfl, ⟨y, told, tells⟩, granted, z, held, follow⟩ := watched
  exact ⟨winner, early ++ reads, claim, later ++ late, by simp, ⟨y, List.mem_append_right _ told, tells⟩, granted,
    z, List.mem_append_left _ held, follow⟩

/-- Calls before and after that neither start nor follow a fire, the later ones answered, leave the watch. -/
theorem watchWithin (early late : Transcript) (before : ∀ x ∈ early, x.call.bystands) (after : ∀ x ∈ late, x.call.bystands ∧ x.answered = true)
    (watch : Watch holder t) : Watch holder (early ++ t ++ late) := by
  have fresh := fun x member => (bystandsUnaccepted (before x member)).1
  have done := fun x member => (bystandsUnaccepted (after x member).1).1
  have same : quietOnceAccepted (early ++ t ++ late) = quietOnceAccepted t := by
    rw [quietThen (fun x member => (after x member).2) done, quietLater fresh]
  cases watch with
  | idle unaccepted =>
    refine .idle fun x member => ?_
    simp only [List.mem_append] at member
    rcases member with (first | middle) | last
    exacts [fresh x first, unaccepted x middle, done x last]
  | followed only watched quiet =>
    refine .followed (fun x member other accepted => ?_) (followedWithin watched) (same.trans quiet)
    simp only [List.mem_append] at member
    rcases member with (first | middle) | last
    · cases (fresh x first).symm.trans accepted
    · exact only x middle other accepted
    · cases (done x last).symm.trans accepted
  | @lost x member accepted unfollowed loud =>
    refine .lost (x := x) (by simp [member]) accepted (fun y held => ?_) (same.trans loud)
    simp only [List.mem_append] at held
    rcases held with (first | middle) | last
    exacts [(bystandsUnaccepted (before y first)).2, unfollowed y middle, (bystandsUnaccepted (after y last).1).2]

def Unfollowing (call : Call) : Prop := call.follows = false

theorem bystandsUnfollowing (call : Call) (bystands : call.bystands) : Unfollowing call := by
  cases call
  case follow => exact bystands.elim
  all_goals rfl

theorem launchUnfollowing {d : FireDispatcher} {winner : BoardIssue} {rows : List IssueSnapshot}
    {exclusions : List IssueExclusion} {eligibleKeys tied criterionKeys : List String} :
    (d.launch winner rows exclusions eligibleKeys tied criterionKeys).Asks Unfollowing := by
  refine asksCall rfl fun claim => ?_
  split
  · exact asksCall rfl fun _ => trivial
  refine asksBind (asksMono bystandsUnfollowing (asksAttempt resolveBaseBystands)) fun resolved => ?_
  cases resolved with
  | error raised =>
    obtain ⟨failure, landed, job⟩ := raised
    cases failure with
    | baseResolution message => exact asksBind (asksMono bystandsUnfollowing baseUnresolvedBystands) fun _ => trivial
    | cancelled => trivial
    | other message => trivial
  | ok spec =>
    refine asksBind ?_ fun _ => trivial
    refine asksCall rfl fun _ => ?_
    refine asksCall rfl fun recorded => ?_
    refine asksBind (noteSupersededAsks (by rfl) _) fun _ => asksBind ?_ fun _ => trivial
    refine asksCall rfl fun _ => ?_
    refine asksCall rfl fun _ => ?_
    refine asksCall rfl fun _ => ?_
    exact asksCall rfl fun _ => trivial

theorem selectsUnfollowing (issueKey : String) (call : Call) (selects : call.selects issueKey) : Unfollowing call :=
  bystandsUnfollowing call (selectsBystands issueKey call selects)

theorem boardUnfollowing {d : FireDispatcher} : d.runPass.Asks Unfollowing := by
  refine asksBind (surveyAsks (fun _ => rfl) (fun _ => rfl) selectsUnfollowing) fun survey => ?_
  unfold actOn
  split
  · exact asksCall rfl fun _ => trivial
  · refine asksCall rfl fun _ => ?_
    refine asksCall rfl fun winner => ?_
    refine asksBind (liveBlockerAsks fun _ => rfl) fun blocking => ?_
    cases blocking with
    | none => exact launchUnfollowing
    | some blocker =>
      exact asksCall rfl fun _ => asksCall rfl fun _ => trivial

theorem offerUnfollowing {d : ScopeDispatcher} {rows : List IssueSnapshot} {eligibleKeys : List String}
    {exclusions : List IssueExclusion} (lanes : List ReadyLane) :
    (d.offer rows eligibleKeys lanes exclusions).Asks Unfollowing := by
  induction lanes generalizing exclusions with
  | nil => trivial
  | cons lane lanes ih =>
    refine asksBind (asksMono (selectsUnfollowing lane.issue.key) standingAsks) fun exclusion => ?_
    cases exclusion with
    | none => exact launchUnfollowing
    | some exclusion => exact ih

theorem producerUnfollowing : producer.runPass.Asks Unfollowing := by
  cases producer with
  | board d => exact boardUnfollowing
  | scope d =>
    refine asksCall rfl fun ready => asksBind (asksOfExcept _) fun rows => ?_
    exact asksCall rfl fun _ => offerUnfollowing _

theorem watchFireAsks {report : DispatchReport} : (ask (.log "dispatch_pass_completed") >>= fun _ =>
    GatedDispatchPass.watchFire report).Asks fun call => ∀ answer, acceptedJob ⟨call, answer⟩ = none := by
  refine asksBind (by simp [acceptedJob]) fun _ => ?_
  unfold GatedDispatchPass.watchFire
  split
  · trivial
  · split
    · simp [acceptedJob]
    · trivial

theorem dispatchWatch {out : Except Raised Unit} (went : Goes Answers pass.dispatch () t () out) :
    Watch pass.dispatcher.holder t := by
  rcases goesBind _ _ went with ⟨raised, rfl, failed⟩ | ⟨report, _, ran, late, passed, acted, rfl⟩
  · cases producerSubmits failed with
    | idle unaccepted untold => exact .idle unaccepted
    | @cut before after x job _ fresh accepted rest broken =>
      refine .lost (x := x) (by simp) (by simp [accepted]) (goesAllowed producerUnfollowing failed) ?_
      obtain ⟨y, member, refused⟩ := broken
      rw [quietFrom fresh accepted, Bool.and_eq_false_iff]
      rcases List.mem_cons.mp member with rfl | later
      · exact .inl refused
      · exact .inr (List.all_eq_false.mpr ⟨y, later, by simp [refused]⟩)
  · cases producerSubmits passed with
    | idle unaccepted untold =>
      refine .idle fun x member => ?_
      rcases List.mem_append.mp member with first | second
      · exact unaccepted x first
      · exact goesAllowed watchFireAsks acted x second x.answer
    | @fired before after x job _ fresh accepted answered rest told =>
      have fired : report.outcome = .fireEnqueued := by
        by_contra other
        simp [firedJob, other] at told
      have named : report.jobId = some job := by simpa [firedJob, fired] using told
      obtain ⟨winner, reads, claim, between, same, tells, granted, key, state, -⟩ := producerReports passed fired
      cases goesAsked acted with
      | refused =>
        refine .lost (x := x) (by simp) (by simp [accepted]) (fun y member => ?_) ?_
        · rcases List.mem_append.mp member with first | last
          · exact goesAllowed producerUnfollowing passed y first
          · rw [List.mem_singleton.mp last]
            rfl
        · rw [List.append_assoc, List.cons_append, quietFrom fresh accepted]
          simp [Exchange.answered, Except.isOk, Except.toBool]
      | answered _ watched =>
        have follows : GatedDispatchPass.watchFire report =
            ask (.follow winner.key job winner.stateName report.claimedVisibility) := by
          simp [GatedDispatchPass.watchFire, fired, key, state, named]
        rw [follows] at watched
        obtain ⟨_, rfl⟩ := goesRequest watched
        have told : (⟨.follow winner.key job winner.stateName report.claimedVisibility, out⟩ :
            Exchange Call Reply Raised).answered = true := by
          rcases answersEach watched _ List.mem_cons_self with awaited | answered
          · cases awaited
          · exact answered
        refine @Watch.followed _ _ job (fun y member other started => ?_) ?_ ?_
        · simp only [List.append_assoc, List.cons_append, List.mem_append, List.mem_cons, List.not_mem_nil,
            or_false] at member
          rcases member with first | rfl | later | rfl | rfl
          · cases (fresh y first).symm.trans started
          · exact Option.some.inj (started.symm.trans accepted)
          · cases (rest y later).1.symm.trans started
          · cases started
          · cases started
        · let follow : Exchange Call Reply Raised :=
            ⟨.follow winner.key job winner.stateName report.claimedVisibility, out⟩
          refine ⟨winner, reads, claim, between ++ [⟨.log "dispatch_pass_completed", .ok ()⟩, follow], ?_, tells, granted,
            follow, by simp, _, rfl⟩
          rw [same]
          simp [follow]
        · rw [List.append_assoc, List.cons_append, quietFrom fresh accepted, answered]
          have fine : after.all Exchange.answered = true := List.all_eq_true.mpr fun y member => (rest y member).2
          simpa [fine, Exchange.answered, Except.isOk, Except.toBool] using told

theorem tickWatch {out : Except Raised PassRun} (went : Goes Answers pass.tick () t () out) :
    Watch pass.dispatcher.holder t := by
  have dispatched {t : Transcript} {out : Except Raised PassRun}
      (went : Goes Answers (pass.dispatch >>= fun _ => pure .ran) () t () out) : Watch pass.dispatcher.holder t := by
    rcases goesBind _ _ went with ⟨_, _, failed⟩ | ⟨_, _, early, late, ran, finished, rfl⟩
    · exact dispatchWatch failed
    · obtain ⟨rfl, -, -⟩ := goesRet finished
      simpa using dispatchWatch ran
  unfold GatedDispatchPass.tick at went
  split at went
  · cases goesAsked went with
    | refused => exact .idle (by simp [acceptedJob])
    | answered _ asked =>
      split at asked
      · have asks : (ask (.log "dispatch_pass_skipped_no_delta") >>= fun _ => pure .skipped : Program PassRun).Asks
            Call.bystands := asksCall trivial fun _ => trivial
        refine .idle fun x member => ?_
        rcases List.mem_cons.mp member with rfl | later
        · rfl
        · exact (bystandsUnaccepted (goesAllowed asks asked x later)).1
      · simpa using watchWithin [_] [] (by simp [Call.bystands]) (by simp) (dispatched asked)
  · exact dispatched went

/-- Every job the queue took on in a tick is followed, under the claimed issue and the state read
before its claim, exactly when from the acceptance on no call of the tick fails. -/
theorem followedIff {out : Except Raised PassRun} (went : Goes Answers pass.run () t () out) :
    (∀ x ∈ t, ∀ job, acceptedJob x = some job → Followed pass.dispatcher.holder job t) ↔
    quietOnceAccepted t = true := by
  refine watchIff ?_
  rcases goesBind _ _ went with ⟨_, _, failed⟩ | ⟨ended, _, ticked, late, tried, finished, rfl⟩
  · obtain ⟨_, same, _⟩ := goesAttempt failed
    cases same
  · obtain ⟨ended, same, tick⟩ := goesAttempt tried
    cases same
    have watch := tickWatch tick
    have closing : ∀ x ∈ late, x.call.bystands ∧ x.answered = true := by
      cases ended with
      | ok done =>
        obtain ⟨rfl, -, -⟩ := goesRet finished
        simp
      | error raised =>
        have asks : (pass.rearm >>= fun _ => raise raised : Program PassRun).Asks
            fun call => call.bystands ∧ call.awaited = false := by
          refine asksBind ?_ fun _ => trivial
          unfold GatedDispatchPass.rearm
          split <;> simp [Call.bystands, Call.awaited]
        intro x member
        obtain ⟨bystands, sync⟩ := goesAllowed asks finished x member
        refine ⟨bystands, (answersEach finished x member).resolve_left ?_⟩
        simp [sync]
    exact watchWithin [] late (by simp) closing watch

end Watch

section Scripted

/-- A board with one issue to fire, and a queue with room. -/
def quietBoard : (call : Call) → Except Raised (Reply call)
  | .scanIssues _ => .ok [waiting]
  | .readIssue _ => .ok waiting
  | .activeClaim _ => .ok none
  | .openDeliveryExists _ _ => .ok false
  | .submit lane _ => .ok ⟨"job-5", lane, .queued, some 1, 0, none, none, false⟩
  | other => fullQueue other

/-- The same, with the tick cut off where the enqueued fire is logged. -/
def cutAtLog : (call : Call) → Except Raised (Reply call)
  | .log event => if event = "dispatch_fire_enqueued" then .error { failure := .cancelled } else .ok ()
  | other => quietBoard other

def ticked (script : (call : Call) → Except Raised (Reply call)) : Transcript × Unit × Except Raised PassRun :=
  (GatedDispatchPass.run ⟨false, .board launcher⟩).play (answering script) ()

theorem tickedGoes (script : (call : Call) → Except Raised (Reply call)) :
    Goes Answers (GatedDispatchPass.run ⟨false, .board launcher⟩) () (ticked script).1 () (ticked script).2.2 :=
  playGoes (answering script) (answeringTaken script) _ ()

theorem quietTickFollows : (∃ x ∈ (ticked quietBoard).1, acceptedJob x = some "job-5") ∧
    ∀ x ∈ (ticked quietBoard).1, ∀ job, acceptedJob x = some job →
      Followed launcher.holder job (ticked quietBoard).1 :=
  ⟨by decide, (followedIff (tickedGoes quietBoard)).mpr (by decide)⟩

theorem cutTickLosesFire :
    Goes Answers (GatedDispatchPass.run ⟨false, .board launcher⟩) () (ticked cutAtLog).1 () (ticked cutAtLog).2.2 ∧
    (∃ x ∈ (ticked cutAtLog).1, acceptedJob x = some "job-5") ∧ ∀ x ∈ (ticked cutAtLog).1, x.call.follows = false :=
  ⟨tickedGoes cutAtLog, by decide, by decide⟩

end Scripted
end Kodezart.Dispatch
