import Mathlib
import Kodezart.Selection

/-! What a launch leaves of the claim it was granted. -/
namespace Kodezart.Dispatch
open Prog FireDispatcher

/-- Awaited calls answer or raise as they will; the ones made between awaits answer. -/
def Answers (_ : Unit) (call : Call) (answer : Except Raised (Reply call)) (_ : Unit) : Prop :=
  call.awaited ∨ answer.isOk

theorem answersEach {α : Type} {p : Program α} {t : Transcript} {out : Except Raised α}
    (went : Goes Answers p () t () out) : ∀ x ∈ t, x.call.awaited = true ∨ x.answered = true :=
  goesEach (fun _ _ _ _ taken => taken) went

section Marks

def grants (issueKey holder : String) : Exchange Call Reply Raised → Bool
  | ⟨.claimIssue key claimant _, .ok claim⟩ => key = issueKey && claimant = holder && claim.status = .granted
  | _ => false

def releases (issueKey holder : String) : Exchange Call Reply Raised → Bool
  | ⟨.releaseClaim key claimant, .ok _⟩ => key = issueKey && claimant = holder
  | ⟨.releaseClaim key claimant, .error raised⟩ => key = issueKey && claimant = holder && raised.landed
  | _ => false

/-- The job the queue took on, whether or not the submission returned. -/
def acceptedJob : Exchange Call Reply Raised → Option String
  | ⟨.submit _ _, .ok record⟩ => some record.jobId
  | ⟨.submit _ _, .error raised⟩ => raised.job
  | _ => none

def baseFails : Exchange Call Reply Raised → Bool
  | ⟨.ensureAvailable _, .error ⟨.baseResolution _, _, _⟩⟩ => true
  | ⟨.resolve _ _ _ _ _, .error ⟨.baseResolution _, _, _⟩⟩ => true
  | _ => false

/-- What ends a granted claim's wait: a job on the queue, or the claim given back. -/
def settles (issueKey holder : String) (x : Exchange Call Reply Raised) : Bool :=
  (acceptedJob x).isSome || releases issueKey holder x

def afterGrant (issueKey holder : String) (t : Transcript) : Transcript :=
  (t.dropWhile fun x => !grants issueKey holder x).tail

/-- Up to the exchange that settles the claim, no call fails but the base's own. -/
def onlyTheBaseFails (issueKey holder : String) : Transcript → Bool
  | [] => true
  | x :: rest => settles issueKey holder x ||
    ((x.answered || baseFails x) && onlyTheBaseFails issueKey holder rest)

end Marks

section Settling
variable {issueKey holder : String} {t early late : Transcript} {x : Exchange Call Reply Raised}

theorem settledIff : ((∀ x ∈ t, acceptedJob x = none) → ∃ x ∈ t, releases issueKey holder x = true) ↔
    t.any (settles issueKey holder) = true := by
  simp only [List.any_eq_true, settles, Bool.or_eq_true, Option.isSome_iff_ne_none]
  constructor
  · intro released
    by_cases accepted : ∃ x ∈ t, acceptedJob x ≠ none
    · obtain ⟨x, member, job⟩ := accepted
      exact ⟨x, member, .inl job⟩
    · push Not at accepted
      obtain ⟨x, member, back⟩ := released accepted
      exact ⟨x, member, .inr back⟩
  · rintro ⟨x, member, job | back⟩ none_accepted
    · exact absurd (none_accepted x member) job
    · exact ⟨x, member, back⟩

theorem answeredFirst (fine : x.answered = true) :
    onlyTheBaseFails issueKey holder (x :: t) = (settles issueKey holder x || onlyTheBaseFails issueKey holder t) := by
  simp [onlyTheBaseFails, fine]

theorem refusedLast {call : Call} {raised : Raised} (no_base : baseFails ⟨call, .error raised⟩ = false) :
    onlyTheBaseFails issueKey holder [⟨call, .error raised⟩] = settles issueKey holder ⟨call, .error raised⟩ := by
  simp [onlyTheBaseFails, Exchange.answered, Except.isOk, Except.toBool, no_base]

/-- A settling exchange counts wherever it stands behind calls that all went well. -/
theorem settledBehind (fine : ∀ x ∈ early, (x.answered || baseFails x) = true) :
    onlyTheBaseFails issueKey holder (early ++ late) =
      (early.any (settles issueKey holder) || onlyTheBaseFails issueKey holder late) := by
  induction early with
  | nil => rfl
  | cons x early ih =>
    simp only [List.mem_cons, forall_eq_or_imp] at fine
    simp [onlyTheBaseFails, fine.1, ih fine.2, Bool.or_assoc]

/-- The condition and the outcome agree about what is left of a run. -/
def Agrees (issueKey holder : String) (t : Transcript) : Prop :=
  onlyTheBaseFails issueKey holder t = t.any (settles issueKey holder)

theorem agreesCons (fine : x.answered = true) (rest : Agrees issueKey holder t) :
    Agrees issueKey holder (x :: t) := by
  rw [Agrees, answeredFirst fine, rest, List.any_cons]

theorem agreesSettled (settled : settles issueKey holder x = true) : Agrees issueKey holder (x :: t) := by
  simp [Agrees, onlyTheBaseFails, settled]

theorem agreesRefused {call : Call} {raised : Raised} (no_base : baseFails ⟨call, .error raised⟩ = false) :
    Agrees issueKey holder [⟨call, .error raised⟩] := by
  rw [Agrees, refusedLast no_base]
  simp

theorem agreesAppend (fine : ∀ x ∈ early, x.answered = true) (rest : Agrees issueKey holder late) :
    Agrees issueKey holder (early ++ late) := by
  induction early with
  | nil => exact rest
  | cons x early ih =>
    simp only [List.mem_cons, forall_eq_or_imp] at fine
    exact agreesCons fine.1 (ih fine.2)

end Settling

section Launch
variable {d : FireDispatcher} {winner : BoardIssue} {t : Transcript}

theorem submitAgrees {spec : BaseSpec} {context : FireContext} {out : Except Raised Jobs.JobRecord}
    (went : Goes Answers (d.submitFire winner spec context) () t () out) : Agrees winner.key d.holder t := by
  cases goesAsked went with
  | refused => exact agreesRefused rfl
  | answered _ went =>
  refine agreesCons rfl ?_
  cases goesAsked went with
  | refused => exact agreesRefused rfl
  | answered _ went => exact agreesSettled rfl

/-- From the assembly on, a failing call leaves the claim unless the job was taken on. -/
theorem enqueueAgrees {spec : BaseSpec} {out : Except Raised (Jobs.JobRecord × Option BaseSpec)}
    (went : Goes Answers (d.enqueue winner spec) () t () out) : Agrees winner.key d.holder t := by
  cases goesAsked went with
  | refused => exact agreesRefused rfl
  | answered _ went =>
  refine agreesCons rfl ?_
  cases goesAsked went with
  | refused => exact agreesRefused rfl
  | answered _ went =>
  refine agreesCons rfl ?_
  have asks (superseded) : (noteSuperseded superseded).Asks fun call => call = .log "dispatch_base_superseded" :=
    noteSupersededAsks (by rfl) superseded
  have plain (superseded) : (noteSuperseded superseded).Plain := by
    unfold noteSuperseded
    split <;> simp
  rcases goesBind _ _ went with ⟨raised, _, noted⟩ | ⟨_, _, early, late, noted, sent, rfl⟩
  · rcases goesPlain (plain _) noted with ⟨_, ended, _⟩ | ⟨e, early, c, _, rfl, fine⟩
    · cases ended
    · have logged : c = _ := goesAllowed (asks _) noted ⟨c, .error e⟩ (by simp)
      subst logged
      exact agreesAppend fine (agreesRefused rfl)
  · rcases goesPlain (plain _) noted with ⟨_, _, fine⟩ | ⟨e, early, c, ended, _⟩
    · refine agreesAppend fine ?_
      rcases goesBind _ _ sent with ⟨_, _, submitted⟩ | ⟨_, _, before, after, submitted, ended, rfl⟩
      · exact submitAgrees submitted
      · obtain ⟨rfl, -, -⟩ := goesRet ended
        simpa using submitAgrees submitted
    · cases ended

theorem giveBackAgrees {message : String} {out : Except Raised Unit}
    (went : Goes Answers (d.baseUnresolved winner message) () t () out) : Agrees winner.key d.holder t := by
  cases goesAsked went with
  | refused => exact agreesRefused rfl
  | answered _ went => exact agreesSettled (by simp [settles, releases])

theorem resolveBaseAsks : (d.resolveBase winner).Asks fun call =>
    (∀ issueKey holder answer, settles issueKey holder ⟨call, answer⟩ = false) ∧
      (call.awaited → ∀ message landed job, baseFails ⟨call, .error ⟨.baseResolution message, landed, job⟩⟩ = true) := by
  refine asksBind (by simp [settles, acceptedJob, releases, baseFails]) fun _ => ?_
  refine asksBind (by simp [settles, acceptedJob, releases, Call.awaited]) fun _ => ?_
  refine asksBind (by simp [settles, acceptedJob, releases, Call.awaited]) fun _ => ?_
  simp [settles, acceptedJob, releases, baseFails]

theorem resolveBasePlain : (d.resolveBase winner).Plain :=
  plainBind (plainRequest _) fun _ => plainBind (plainRequest _) fun _ => plainBind (plainRequest _) fun _ => plainRequest _

theorem baseFailsFailure {call : Call} {raised : Raised} (base : baseFails ⟨call, .error raised⟩ = true) :
    ∃ message, raised.failure = .baseResolution message := by
  obtain ⟨failure, landed, job⟩ := raised
  cases failure with
  | baseResolution message => exact ⟨message, rfl⟩
  | cancelled => cases call <;> cases base
  | other message => cases call <;> cases base

/-- The claim's way through a launch that was granted it. -/
theorem grantedAgrees {rows : List IssueSnapshot} {exclusions : List IssueExclusion}
    {eligibleKeys tied criterionKeys : List String} {out : Except Raised DispatchReport}
    (went : Goes Answers (d.fire winner rows exclusions eligibleKeys tied criterionKeys) () t () out) :
    Agrees winner.key d.holder t := by
  rcases goesBind _ _ went with ⟨_, _, resolved⟩ | ⟨_, _, early, late, resolved, acted, rfl⟩
  · obtain ⟨_, caught, _⟩ := goesAttempt resolved
    cases caught
  · obtain ⟨x, caught, resolved⟩ := goesAttempt resolved
    cases caught
    have quiet : early.any (settles winner.key d.holder) = false := by
      rw [List.any_eq_false]
      intro x member
      simp [(goesAllowed resolveBaseAsks resolved x member).1 _ _ x.answer]
    rcases goesPlain resolveBasePlain resolved with ⟨spec, rfl, fine⟩ | ⟨raised, before, call, rfl, rfl, fine⟩
    · rcases goesBind _ _ acted with ⟨_, _, sent⟩ | ⟨_, _, sending, after, sent, ended, rfl⟩
      · exact agreesAppend fine (enqueueAgrees sent)
      · obtain ⟨rfl, -, -⟩ := goesRet ended
        rw [List.append_nil]
        exact agreesAppend fine (enqueueAgrees sent)
    · have last : (⟨call, .error raised⟩ : Exchange Call Reply Raised) ∈ before ++ [⟨call, .error raised⟩] := by simp
      have awaited : call.awaited = true := by
        simpa [Exchange.answered, Except.isOk, Except.toBool] using answersEach resolved _ last
      have base := (goesAllowed resolveBaseAsks resolved _ last).2 awaited
      have uncaught (other : ∀ message, raised.failure ≠ .baseResolution message) :
          Agrees winner.key d.holder (before ++ [⟨call, .error raised⟩]) := by
        refine agreesAppend fine (agreesRefused (Bool.eq_false_iff.mpr fun caught => ?_))
        obtain ⟨message, same⟩ := baseFailsFailure caught
        exact other message same
      obtain ⟨failure, landed, job⟩ := raised
      cases failure with
      | cancelled =>
        obtain ⟨rfl, -, -⟩ := goesRaise acted
        simpa using uncaught (by simp)
      | other message =>
        obtain ⟨rfl, -, -⟩ := goesRaise acted
        simpa using uncaught (by simp)
      | baseResolution message =>
        have given : Agrees winner.key d.holder late := by
          rcases goesBind (d.baseUnresolved winner message) _ acted with
            ⟨_, _, gave⟩ | ⟨_, _, gave, after, given, ended, rfl⟩
          · exact giveBackAgrees gave
          · obtain ⟨rfl, -, -⟩ := goesRet ended
            simpa using giveBackAgrees given
        have through : ∀ x ∈ before ++ [⟨call, .error ⟨.baseResolution message, landed, job⟩⟩],
            (x.answered || baseFails x) = true := by
          intro x member
          rcases List.mem_append.mp member with early | same
          · simp [fine x early]
          · rw [List.mem_singleton.mp same, base message landed job, Bool.or_true]
        rw [Agrees, settledBehind through, given]
        simp [List.any_append, Bool.or_assoc]

end Launch

/-- A launch that was granted the claim and started nothing has given it back exactly when no
call failed on the way, up to the job's acceptance or the release, but the base's own. -/
theorem claimReleasedIff {d : FireDispatcher} {winner : BoardIssue} {rows : List IssueSnapshot}
    {exclusions : List IssueExclusion} {eligibleKeys tied criterionKeys : List String} {t : Transcript}
    {out : Except Raised DispatchReport}
    (went : Goes Answers (d.launch winner rows exclusions eligibleKeys tied criterionKeys) () t () out) :
    ((∃ x ∈ t, grants winner.key d.holder x = true) → (∀ x ∈ t, acceptedJob x = none) →
      ∃ x ∈ t, releases winner.key d.holder x = true) ↔
    onlyTheBaseFails winner.key d.holder (afterGrant winner.key d.holder t) = true := by
  cases goesAsked went with
  | refused => simp [afterGrant, grants, onlyTheBaseFails]
  | @answered claim mid _ rest _ _ went =>
    have head : acceptedJob ⟨.claimIssue winner.key d.holder d.claimLeaseSeconds, .ok claim⟩ = none ∧
        releases winner.key d.holder ⟨.claimIssue winner.key d.holder d.claimLeaseSeconds, .ok claim⟩ = false :=
      ⟨rfl, rfl⟩
    by_cases granted : claim.status = .granted
    · rw [if_neg (by simp [granted])] at went
      have first : grants winner.key d.holder
          ⟨.claimIssue winner.key d.holder d.claimLeaseSeconds, .ok claim⟩ = true := by simp [grants, granted]
      have agrees := grantedAgrees went
      simp only [afterGrant, List.dropWhile_cons, first, Bool.not_true, Bool.false_eq_true, if_false, List.tail_cons,
        List.mem_cons, exists_eq_or_imp, forall_eq_or_imp, head, true_and, true_or, forall_true_left, false_or]
      rw [settledIff, agrees]
    · rw [if_pos granted] at went
      have lost : ∀ x ∈ rest, grants winner.key d.holder x = false := by
        have asks : (ask (.log "dispatch_claim_lost") >>= fun _ => pure
            { outcome := .claimLost, snapshot := rows, exclusions, eligible := eligibleKeys,
              tiedCandidates := tied, criterionKeys } : Program DispatchReport).Asks
            fun call => call = .log "dispatch_claim_lost" :=
          asksCall rfl fun _ => trivial
        intro x member
        obtain ⟨call, answer⟩ := x
        cases goesAllowed asks went _ member
        rfl
      have first : grants winner.key d.holder
          ⟨.claimIssue winner.key d.holder d.claimLeaseSeconds, .ok claim⟩ = false := by simp [grants, granted]
      have unheard : (rest.dropWhile fun x => !grants winner.key d.holder x) = [] :=
        List.dropWhile_eq_nil_iff.mpr fun x member => by simp [lost x member]
      have nobody : ¬ ∃ x ∈ rest, grants winner.key d.holder x = true := by simpa using lost
      simp [afterGrant, first, unheard, nobody, onlyTheBaseFails]

section Scripted

/-- What the calls between awaits answer where nothing is remembered. -/
def localReply : (call : Call) → Option (Reply call)
  | .draw tied => some (tied.headD "")
  | .workspaceId => some "workspace"
  | .now => some 0
  | .holding => some none
  | .beginCooldown _ => some 0
  | .recall _ => some none
  | .remember _ _ => some ()
  | .forget _ => some ()
  | .jobOf _ => some none
  | .noteJob _ _ => some ()
  | .initiativesOf _ => some none
  | .noteInitiatives _ _ => some ()
  | .rearm => some ()
  | .follow _ _ _ _ => some ()
  | _ => none

def answering (script : (call : Call) → Except Raised (Reply call)) (_ : Unit) (call : Call) :
    Except Raised (Reply call) × Unit :=
  ((localReply call).elim (script call) .ok, ())

theorem answeringTaken (script : (call : Call) → Except Raised (Reply call)) (s : Unit) (call : Call) :
    Answers s call (answering script s call).1 (answering script s call).2 := by
  cases call
  all_goals first | exact .inl rfl | exact .inr rfl

def absent : Raised := { failure := .other "no answer" }

def launcher : FireDispatcher :=
  { operation := ⟨[("board", {})], ["repo"]⟩, repoUrl := "repo", lane := "fires", holder := "host",
    claimLeaseSeconds := 900, queryPageSize := 50, trunk := "trunk", integrationWorkspaceDir := "workspaces" }

def waiting : BoardIssue :=
  { issueKey := ⟨"KOD-85", by decide⟩, priority := .high, stateKind := .unstarted, teamKey := some ⟨"board", by decide⟩,
    createdAt := 0, stateName := "Todo", queueStates := [.approved], updatedAt := 7 }

def trunkSpec : BaseSpec := ⟨[], ⟨"trunk", by decide⟩, none⟩

/-- Every call answers as a working board's would, up to the queue, which is full. -/
def fullQueue : (call : Call) → Except Raised (Reply call)
  | .claimIssue key holder _ => .ok ⟨key, .granted, holder, 900, none⟩
  | .ensureAvailable _ => .ok "cache"
  | .resolve _ _ _ _ _ => .ok trunkSpec
  | .assemble _ _ => .ok ⟨⟨"KOD-85", by decide⟩, "", []⟩
  | .readBaseSpec _ => .ok none
  | .recordBaseSpec _ _ => .ok ()
  | .submit _ _ => .error { failure := .other "lane 'fires' is at capacity" }
  | .log _ => .ok ()
  | _ => .error absent

/-- The same with a base that does not resolve. -/
def missingBase : (call : Call) → Except Raised (Reply call)
  | .resolve _ _ _ _ _ => .error { failure := .baseResolution "KOD-84 has no ref" }
  | .releaseClaim _ _ => .ok ()
  | .readIssue _ => .ok waiting
  | other => fullQueue other

/-- A launch alone with a world that answers by a script. -/
def launched (script : (call : Call) → Except Raised (Reply call)) :
    Transcript × Unit × Except Raised DispatchReport :=
  (launcher.launch waiting [] [] [] [] []).play (answering script) ()

theorem launchedGoes (script : (call : Call) → Except Raised (Reply call)) :
    Goes Answers (launcher.launch waiting [] [] [] [] []) () (launched script).1 () (launched script).2.2 :=
  playGoes (answering script) (answeringTaken script) _ ()

theorem unresolvedReleases : ∃ x ∈ (launched missingBase).1, releases waiting.key launcher.holder x = true :=
  (claimReleasedIff (launchedGoes missingBase)).mpr (by decide) (by decide) (by decide)

theorem fullQueueKeepsClaim :
    Goes Answers (launcher.launch waiting [] [] [] [] []) () (launched fullQueue).1 () (launched fullQueue).2.2 ∧
    (∃ x ∈ (launched fullQueue).1, grants waiting.key launcher.holder x = true) ∧
    (∀ x ∈ (launched fullQueue).1, acceptedJob x = none) ∧
    ¬ ∃ x ∈ (launched fullQueue).1, releases waiting.key launcher.holder x = true :=
  ⟨launchedGoes fullQueue, by decide, by decide, by decide⟩

end Scripted
end Kodezart.Dispatch
