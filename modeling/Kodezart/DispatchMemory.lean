import Mathlib
import Kodezart.Selection

/-! What a dispatcher remembers of an issue over any number of passes, on a board whose
timestamps move only under the dispatcher's own writes. -/
namespace Kodezart.Dispatch
open Prog FireDispatcher

structure World where
  updated : String → Int
  remembered : String → Option RememberedExclusion
  jobs : String → Option String

/-- What a call may answer: a reading carries the timestamp the issue has, a draw is one of the
tied, and the memory tells what it holds. -/
def Tells (w : World) : (call : Call) → Except Raised (Reply call) → Prop
  | .scanIssues _, .ok issues => ∀ issue ∈ issues, issue.updatedAt = w.updated issue.key
  | .readIssue key, .ok issue => issue.key = key ∧ issue.updatedAt = w.updated key
  | .draw tied, .ok key => key ∈ tied
  | .recall key, answer => answer = .ok (w.remembered key)
  | .jobOf key, answer => answer = .ok (w.jobs key)
  | other, answer => other.awaited ∨ answer.isOk

/-- What a call leaves: a write moves the timestamp of the issue it is made on, and no other. -/
def Leaves (w w' : World) : Call → Prop
  | .remember key exclusion => w' = { w with remembered := Function.update w.remembered key (some exclusion) }
  | .forget key => w' = { w with remembered := Function.update w.remembered key none }
  | .noteJob key jobId => w' = { w with jobs := Function.update w.jobs key (some jobId) }
  | .claimIssue key _ _ | .releaseClaim key _ | .recordBaseSpec key _ | .resolve key _ _ _ _ =>
    ∃ moved, w' = { w with updated := Function.update w.updated key moved }
  | _ => w' = w

def Still (w : World) (call : Call) (answer : Except Raised (Reply call)) (w' : World) : Prop :=
  Tells w call answer ∧ Leaves w w' call

/-- A call that leaves the memory and the timestamp of an issue as they are, and does not claim it. -/
def Call.spares (issueKey : String) : Call → Prop
  | .remember key _ | .forget key | .claimIssue key _ _ | .releaseClaim key _ | .recordBaseSpec key _
  | .resolve key _ _ _ _ | .noteJob key _ => key ≠ issueKey
  | _ => True

def Claims (issueKey : String) (t : Transcript) : Prop :=
  ∃ x ∈ t, ∃ holder leaseSeconds, x.call = .claimIssue issueKey holder leaseSeconds

section Memory
variable {issueKey : String} {w w' : World} {t early late : Transcript} {α : Type}

theorem stillSpares {call : Call} {answer : Except Raised (Reply call)} (spares : call.spares issueKey)
    (took : Still w call answer w') :
    w'.remembered issueKey = w.remembered issueKey ∧ w'.updated issueKey = w.updated issueKey := by
  obtain ⟨-, left⟩ := took
  cases call
  case remember key exclusion =>
    subst left
    exact ⟨Function.update_of_ne (Ne.symm spares) _ _, rfl⟩
  case forget key =>
    subst left
    exact ⟨Function.update_of_ne (Ne.symm spares) _ _, rfl⟩
  case noteJob key jobId =>
    subst left
    exact ⟨rfl, rfl⟩
  case claimIssue key holder leaseSeconds =>
    obtain ⟨moved, rfl⟩ := left
    exact ⟨rfl, Function.update_of_ne (Ne.symm spares) _ _⟩
  case releaseClaim key holder =>
    obtain ⟨moved, rfl⟩ := left
    exact ⟨rfl, Function.update_of_ne (Ne.symm spares) _ _⟩
  case recordBaseSpec key spec =>
    obtain ⟨moved, rfl⟩ := left
    exact ⟨rfl, Function.update_of_ne (Ne.symm spares) _ _⟩
  case resolve key repoPath workspace trunk now =>
    obtain ⟨moved, rfl⟩ := left
    exact ⟨rfl, Function.update_of_ne (Ne.symm spares) _ _⟩
  all_goals
    cases (show w' = w from left)
    exact ⟨rfl, rfl⟩

/-- A stretch that leaves an issue's memory and timestamp, and makes no claim on it. -/
structure Spared (issueKey : String) (w : World) (t : Transcript) (w' : World) : Prop where
  remembered : w'.remembered issueKey = w.remembered issueKey
  updated : w'.updated issueKey = w.updated issueKey
  unclaimed : ¬ Claims issueKey t

theorem sparedNil : Spared issueKey w [] w := ⟨rfl, rfl, by simp [Claims]⟩

theorem claimsAppend : Claims issueKey (early ++ late) ↔ Claims issueKey early ∨ Claims issueKey late := by
  simp [Claims, or_and_right, exists_or]

theorem sparedAppend {mid : World} (first : Spared issueKey w early mid) (second : Spared issueKey mid late w') :
    Spared issueKey w (early ++ late) w' :=
  ⟨second.remembered.trans first.remembered, second.updated.trans first.updated, fun claims =>
    (claimsAppend.mp claims).elim first.unclaimed second.unclaimed⟩

theorem goesSpared {p : Program α} {out : Except Raised α} (asks : p.Asks (Call.spares issueKey))
    (went : Goes Still p w t w' out) : Spared issueKey w t w' := by
  have kept : w'.remembered issueKey = w.remembered issueKey ∧ w'.updated issueKey = w.updated issueKey :=
    goesKeepsAsking (fun s => s.remembered issueKey = w.remembered issueKey ∧
        s.updated issueKey = w.updated issueKey) asks
      (fun s call answer s' spares same took => by
        obtain ⟨remembered, updated⟩ := stillSpares spares took
        exact ⟨remembered.trans same.1, updated.trans same.2⟩) ⟨rfl, rfl⟩ went
  refine ⟨kept.1, kept.2, ?_⟩
  rintro ⟨x, member, holder, leaseSeconds, claim⟩
  have spares := goesAllowed asks went x member
  rw [claim] at spares
  exact spares rfl

theorem tookSpared {call : Call} {answer : Except Raised (Reply call)} (spares : call.spares issueKey)
    (took : Still w call answer w') : Spared issueKey w [⟨call, answer⟩] w' := by
  obtain ⟨remembered, updated⟩ := stillSpares spares took
  refine ⟨remembered, updated, ?_⟩
  rintro ⟨x, member, holder, leaseSeconds, claim⟩
  cases List.mem_singleton.mp member
  cases (show call = _ from claim)
  exact spares rfl

theorem selectsSpares {other : String} (different : other ≠ issueKey) (call : Call) (selects : call.selects other) :
    call.spares issueKey := by
  cases call
  case forget key =>
    cases (show key = other from selects)
    exact different
  case remember => exact selects.elim
  case claimIssue => exact selects.elim
  case releaseClaim => exact selects.elim
  case recordBaseSpec => exact selects.elim
  case resolve => exact selects.elim
  case noteJob => exact selects.elim
  all_goals trivial

end Memory

/-- A memory of the issue that no move of its own and no blocker has lifted. -/
def Remembers (issueKey : String) (w : World) : Prop :=
  ∃ exclusion, w.remembered issueKey = some exclusion ∧ w.updated issueKey ≤ exclusion.updatedAt ∧
    exclusion.clause ≠ .liveBlocker

section Exclusion
variable {d : FireDispatcher} {issue : BoardIssue} {issueKey : String} {w w' : World} {t : Transcript}
  {teamKeys : List String}

theorem remembersSpared (spared : Spared issueKey w t w') (remembers : Remembers issueKey w) :
    Remembers issueKey w' := by
  obtain ⟨exclusion, held, current, clause⟩ := remembers
  exact ⟨exclusion, spared.remembered.trans held, spared.updated ▸ current, clause⟩

theorem memoryExcludes (remembers : Remembers issue.key w) (read : issue.updatedAt = w.updated issue.key)
    {out : Except Raised (Option IssueExclusion)} (went : Goes Still (memoryExclusion issue) w t w' out) :
    Spared issue.key w t w' ∧ ∃ exclusion, out = .ok (some exclusion) := by
  obtain ⟨exclusion, held, current, clause⟩ := remembers
  cases goesAsked went with
  | refused took => cases took.1
  | @answered reply mid _ rest _ took stood =>
    have same : reply = some exclusion := (Except.ok.inj took.1).trans held
    have stands : memoryStands issue exclusion = pure true := by
      rw [memoryStands, if_pos (read ▸ current), stillStands, if_pos clause]
    subst same
    have left : mid = w := took.2
    subst left
    change Goes Still (memoryStands issue exclusion >>= _) _ _ _ _ at stood
    rw [stands] at stood
    obtain ⟨rfl, rfl, rfl⟩ := goesRet stood
    exact ⟨⟨rfl, rfl, by simp [Claims]⟩, _, rfl⟩

/-- A remembered issue is excluded, by its memory or by its team before that. -/
theorem excludeRemembers (remembers : Remembers issue.key w) (read : issue.updatedAt = w.updated issue.key)
    {out : Except Raised (Option IssueExclusion)} (went : Goes Still (d.exclude issue teamKeys) w t w' out) :
    Spared issue.key w t w' ∧ out ≠ .ok none := by
  unfold FireDispatcher.exclude firstExclusion teamExclusion at went
  split at went
  · rcases goesBind (memoryExclusion issue) _ went with ⟨_, _, failed⟩ | ⟨found, _, early, late, excluded, ended, rfl⟩
    · obtain ⟨_, _, same⟩ := memoryExcludes remembers read failed
      cases same
    · obtain ⟨spared, exclusion, same⟩ := memoryExcludes remembers read excluded
      cases same
      obtain ⟨rfl, rfl, rfl⟩ := goesRet ended
      exact ⟨by simpa using spared, by simp⟩
  · obtain ⟨rfl, rfl, rfl⟩ := goesRet went
    exact ⟨sparedNil, by simp⟩

theorem excludeSpares (remembers : Remembers issueKey w)
    (read : issue.key = issueKey → issue.updatedAt = w.updated issueKey)
    {out : Except Raised (Option IssueExclusion)} (went : Goes Still (d.exclude issue teamKeys) w t w' out) :
    Spared issueKey w t w' ∧ (out = .ok none → issue.key ≠ issueKey) := by
  by_cases same : issue.key = issueKey
  · subst same
    obtain ⟨spared, excluded⟩ := excludeRemembers remembers (read rfl) went
    exact ⟨spared, fun ended => absurd ended excluded⟩
  · exact ⟨goesSpared (asksMono (selectsSpares same) excludeAsks) went, fun _ => same⟩

theorem siftSpares (issues : List BoardIssue) (remembers : Remembers issueKey w)
    (read : ∀ issue ∈ issues, issue.key = issueKey → issue.updatedAt = w.updated issueKey)
    {out : Except Raised (List BoardIssue × List IssueExclusion)} (went : Goes Still (d.sift teamKeys issues) w t w' out) :
    Spared issueKey w t w' ∧ ∀ sifted, out = .ok sifted → ∀ issue ∈ sifted.1, issue.key ≠ issueKey := by
  induction issues generalizing w w' t out with
  | nil =>
    obtain ⟨rfl, rfl, rfl⟩ := goesRet went
    refine ⟨sparedNil, ?_⟩
    rintro sifted ⟨⟩
    simp
  | cons issue issues ih =>
    simp only [List.mem_cons, forall_eq_or_imp] at read
    rcases goesBind _ _ went with ⟨_, rfl, failed⟩ | ⟨exclusion, mid, early, late, asked, sifted, rfl⟩
    · exact ⟨(excludeSpares remembers read.1 failed).1, fun _ same => nomatch same⟩
    · obtain ⟨first, other⟩ := excludeSpares remembers read.1 asked
      have still := remembersSpared first remembers
      have same (entry) (member : entry ∈ issues) (key : entry.key = issueKey) : entry.updatedAt = mid.updated issueKey :=
        (read.2 entry member key).trans first.updated.symm
      rcases goesBind _ _ sifted with ⟨_, rfl, failed⟩ | ⟨rest, mid', before, after, ranked, ended, rfl⟩
      · exact ⟨sparedAppend first (ih still same failed).1, fun _ same => nomatch same⟩
      · obtain ⟨second, apart⟩ := ih still same ranked
        obtain ⟨eligible, exclusions⟩ := rest
        cases exclusion with
        | some exclusion =>
          obtain ⟨rfl, rfl, rfl⟩ := goesRet ended
          refine ⟨sparedAppend first (by simpa using second), ?_⟩
          rintro sifted ⟨⟩
          exact apart (eligible, exclusions) rfl
        | none =>
          obtain ⟨rfl, rfl, rfl⟩ := goesRet ended
          refine ⟨sparedAppend first (by simpa using second), ?_⟩
          rintro sifted ⟨⟩
          simpa using ⟨other rfl, apart (eligible, exclusions) rfl⟩

theorem scanTells (keys : List String) {out : Except Raised (List BoardIssue)}
    (went : Goes Still (d.scan keys) w t w' out) :
    w' = w ∧ ∀ issues, out = .ok issues → ∀ issue ∈ issues, issue.updatedAt = w.updated issue.key := by
  induction keys generalizing w' t out with
  | nil =>
    obtain ⟨rfl, rfl, rfl⟩ := goesRet went
    refine ⟨rfl, ?_⟩
    rintro issues ⟨⟩
    simp
  | cons key keys ih =>
    cases goesAsked went with
    | refused took => exact ⟨took.2, fun _ same => nomatch same⟩
    | @answered found mid _ rest _ took scanned =>
      have left : mid = w := took.2
      subst left
      rcases goesBind _ _ scanned with ⟨_, rfl, failed⟩ | ⟨more, mid', early, late, listed, ended, rfl⟩
      · exact ⟨(ih failed).1, fun _ same => nomatch same⟩
      · obtain ⟨same, told⟩ := ih listed
        obtain ⟨rfl, rfl, rfl⟩ := goesRet ended
        refine ⟨same, ?_⟩
        rintro issues ⟨⟩ issue member
        rcases List.mem_append.mp member with first | later
        · exact took.1 issue first
        · exact told more rfl issue later

theorem teamKeysStill {out : Except Raised (List String)} (went : Goes Still d.teamKeys w t w' out) : w' = w ∧ t = [] := by
  unfold FireDispatcher.teamKeys at went
  split at went
  · obtain ⟨rfl, rfl, -⟩ := goesRet went
    exact ⟨rfl, rfl⟩
  · obtain ⟨rfl, rfl, -⟩ := goesRaise went
    exact ⟨rfl, rfl⟩

/-- The winner is one of the eligible. -/
theorem selectFrom {issues : List BoardIssue} {out : Except Raised (Option Selection)}
    (went : Goes Still (selectTopRanked issues) w t w' out) {selection : Selection} (selected : out = .ok (some selection)) :
    ∃ issue ∈ issues, issue.key = selection.winnerKey := by
  have member (key : String) (top : key ∈ topRanked issues) : ∃ issue ∈ issues, issue.key = key := by
    obtain ⟨issue, listed, same, -⟩ := topRankedMember top
    exact ⟨issue, listed, same⟩
  unfold selectTopRanked at went
  split at went
  · cases (goesRet went).2.2.symm.trans selected
  · rename_i key top
    cases (goesRet went).2.2.symm.trans selected
    exact member key (by simp [top])
  · cases goesAsked went with
    | refused took => cases selected
    | answered took ended =>
      cases (goesRet ended).2.2.symm.trans selected
      exact member _ took.1

theorem surveySpares (remembers : Remembers issueKey w) {out : Except Raised Survey}
    (went : Goes Still d.survey w t w' out) :
    Spared issueKey w t w' ∧ ∀ survey selection, out = .ok survey → survey.selection = some selection →
      selection.winnerKey ≠ issueKey := by
  rcases goesBind _ _ went with ⟨_, rfl, failed⟩ | ⟨keys, mid, early, late, found, scanned, rfl⟩
  · obtain ⟨rfl, rfl⟩ := teamKeysStill failed
    exact ⟨sparedNil, fun _ _ same => nomatch same⟩
  obtain ⟨rfl, rfl⟩ := teamKeysStill found
  rcases goesBind _ _ scanned with ⟨_, rfl, failed⟩ | ⟨snapshot, mid', early', late', scan, sifted, rfl⟩
  · exact ⟨goesSpared (scanAsks (fun _ => trivial) keys) failed, fun _ _ same => nomatch same⟩
  obtain ⟨rfl, told⟩ := scanTells keys scan
  have first : Spared issueKey mid' early' mid' := goesSpared (scanAsks (fun _ => trivial) keys) scan
  have read (issue) (member : issue ∈ snapshot) (same : issue.key = issueKey) :
      issue.updatedAt = mid'.updated issueKey := same ▸ told snapshot rfl issue member
  rcases goesBind _ _ sifted with ⟨_, rfl, failed⟩ | ⟨⟨eligible, exclusions⟩, ranked, before, after, sift, selected, rfl⟩
  · exact ⟨sparedAppend sparedNil (sparedAppend first (siftSpares snapshot remembers read failed).1), fun _ _ same => nomatch same⟩
  obtain ⟨second, apart⟩ := siftSpares snapshot remembers read sift
  have third : Spared issueKey ranked after w' :=
    goesSpared (asksBind (selectAsks (fun _ => trivial) eligible) fun _ => asksPure _) selected
  refine ⟨sparedAppend sparedNil (sparedAppend first (sparedAppend second third)), ?_⟩
  rintro survey selection rfl chosen
  rcases goesBind _ _ selected with ⟨_, same, _⟩ | ⟨selection', _, _, _, select, ended, _⟩
  · cases same
  cases (goesRet ended).2.2
  obtain ⟨issue, member, same⟩ := selectFrom select (congrArg Except.ok chosen)
  exact same ▸ apart (eligible, exclusions) rfl issue member

variable {winner : BoardIssue} {rows : List IssueSnapshot} {exclusions : List IssueExclusion}
  {eligibleKeys tied criterionKeys : List String}

theorem baseUnresolvedAsks {message : String} (different : winner.key ≠ issueKey) :
    (d.baseUnresolved winner message).Asks (Call.spares issueKey) :=
  asksCall different fun _ => asksCall trivial fun _ =>
    asksCall different fun _ => (asksRequest _).mpr trivial

theorem resolveBaseSpares (different : winner.key ≠ issueKey) : (d.resolveBase winner).Asks (Call.spares issueKey) :=
  asksCall trivial fun _ => asksCall trivial fun _ =>
    asksCall trivial fun _ => (asksRequest _).mpr different

theorem enqueueAsks {spec : BaseSpec} (different : winner.key ≠ issueKey) :
    (d.enqueue winner spec).Asks (Call.spares issueKey) := by
  refine asksCall trivial fun context => asksCall trivial fun recorded => ?_
  refine asksBind (noteSupersededAsks trivial _) fun _ => asksBind ?_ fun _ => trivial
  exact asksCall different fun _ => asksCall trivial fun _ =>
    asksCall different fun _ => asksCall trivial fun _ => trivial

theorem launchAsks (different : winner.key ≠ issueKey) :
    (d.launch winner rows exclusions eligibleKeys tied criterionKeys).Asks (Call.spares issueKey) := by
  refine asksCall different fun claim => ?_
  split
  · exact asksCall trivial fun _ => trivial
  refine asksBind (asksAttempt (resolveBaseSpares different)) fun resolved => ?_
  cases resolved with
  | error raised =>
    obtain ⟨failure, landed, job⟩ := raised
    cases failure with
    | baseResolution message => exact asksBind (baseUnresolvedAsks different) fun _ => trivial
    | cancelled => trivial
    | other message => trivial
  | ok spec => exact asksBind (enqueueAsks different) fun _ => trivial

theorem claimAndEnqueueSpares {selection : Selection} {eligible : List BoardIssue}
    (different : selection.winnerKey ≠ issueKey) {out : Except Raised DispatchReport}
    (went : Goes Still (d.claimAndEnqueue selection eligible rows exclusions) w t w' out) : Spared issueKey w t w' := by
  cases goesAsked went with
  | refused took => exact tookSpared (by trivial) took
  | @answered winner mid _ rest _ took acted =>
    have same : winner.key = selection.winnerKey := took.1.1
    have apart : winner.key ≠ issueKey := same ▸ different
    refine sparedAppend (tookSpared (by trivial) took) (goesSpared (asksBind (liveBlockerAsks fun _ => trivial) ?_) acted)
    intro blocking
    cases blocking with
    | none => exact launchAsks apart
    | some blocker =>
      exact asksCall apart fun _ => asksCall trivial fun _ => trivial

/-- A pass leaves what is remembered of an issue, and launches nothing on it. -/
theorem passSpares (remembers : Remembers issueKey w) {out : Except Raised DispatchReport}
    (went : Goes Still d.runPass w t w' out) : Spared issueKey w t w' := by
  rcases goesBind _ _ went with ⟨_, rfl, failed⟩ | ⟨survey, mid, early, late, surveyed, acted, rfl⟩
  · exact (surveySpares remembers failed).1
  obtain ⟨first, chosen⟩ := surveySpares remembers surveyed
  refine sparedAppend first ?_
  unfold actOn at acted
  split at acted
  · refine goesSpared ?_ acted
    exact asksCall trivial fun _ => asksPure _
  · rename_i selection found
    cases goesAsked acted with
    | refused took => exact tookSpared (by trivial) took
    | answered took claimed =>
      exact sparedAppend (tookSpared (by trivial) took) (claimAndEnqueueSpares (chosen survey selection rfl found) claimed)

end Exclusion

section Unresolved
variable {d : FireDispatcher} {winner : BoardIssue} {key : String} {w w' : World} {t : Transcript}
  {rows : List IssueSnapshot} {exclusions : List IssueExclusion} {eligibleKeys tied criterionKeys : List String}
  {report : DispatchReport}

theorem baseUnresolvedRemembers {message : String} (went : Goes Still (d.baseUnresolved winner message) w t w' (.ok ())) :
    Remembers winner.key w' := by
  cases goesAsked went with
  | answered _ reading =>
  cases goesAsked reading with
  | @answered refreshed read _ _ _ took storing =>
  cases goesAsked storing with
  | @answered _ kept _ _ _ stored logging =>
  have left : kept = _ := stored.2
  have same : read = _ := took.2
  obtain ⟨logged, -⟩ := goesRequest logging
  obtain rfl : w' = kept := logged.2
  refine ⟨⟨refreshed.updatedAt, .baseUnresolved, message⟩, by simp [left], ?_, by simp⟩
  simp [left, same, took.1.2]

theorem launchRemembers
    (went : Goes Still (d.launch winner rows exclusions eligibleKeys tied criterionKeys) w t w' (.ok report))
    (unresolved : report.outcome = .baseUnresolved) :
    report.claimedIssueKey = some winner.key ∧ Remembers winner.key w' := by
  cases goesAsked went with
  | answered _ claimed =>
  split at claimed
  · cases goesAsked claimed with
    | answered _ ended =>
    cases (goesRet ended).2.2
    cases unresolved
  rcases goesBind _ _ claimed with ⟨_, same, _⟩ | ⟨resolved, _, _, _, _, acted, _⟩
  · cases same
  cases resolved with
  | error raised =>
    obtain ⟨failure, landed, job⟩ := raised
    cases failure with
    | baseResolution message =>
      rcases goesBind (d.baseUnresolved winner message) _ acted with ⟨_, same, _⟩ | ⟨_, _, _, _, gave, ended, _⟩
      · cases same
      · obtain ⟨-, rfl, same⟩ := goesRet ended
        cases same
        exact ⟨rfl, baseUnresolvedRemembers gave⟩
    | cancelled => cases (goesRaise acted).2.2
    | other message => cases (goesRaise acted).2.2
  | ok spec =>
    rcases goesBind (d.enqueue winner spec) _ acted with ⟨_, same, _⟩ | ⟨_, _, _, _, _, ended, _⟩
    · cases same
    · cases (goesRet ended).2.2
      cases unresolved

/-- A pass that reports an unresolved base has remembered the issue it was of. -/
theorem passRemembers (went : Goes Still d.runPass w t w' (.ok report)) (unresolved : report.outcome = .baseUnresolved)
    (claimed : report.claimedIssueKey = some key) : Remembers key w' := by
  rcases goesBind _ _ went with ⟨_, same, _⟩ | ⟨survey, _, _, _, _, acted, _⟩
  · cases same
  unfold actOn at acted
  split at acted
  · cases goesAsked acted with
    | answered _ ended =>
    cases (goesRet ended).2.2
    cases unresolved
  cases goesAsked acted with
  | answered _ chosen =>
  cases goesAsked chosen with
  | @answered winner _ _ _ _ _ read =>
  rcases goesBind (liveBlockerOf winner) _ read with ⟨_, same, _⟩ | ⟨blocking, _, _, _, _, decided, _⟩
  · cases same
  cases blocking with
  | some blocker =>
    cases goesAsked decided with
    | answered _ noted =>
    cases goesAsked noted with
    | answered _ ended =>
    cases (goesRet ended).2.2
    cases unresolved
  | none =>
    obtain ⟨named, remembers⟩ := launchRemembers decided unresolved
    cases named.symm.trans claimed
    exact remembers

end Unresolved

section Outcome
variable {d : FireDispatcher} {issueKey key : String} {outcome : RunOutcome} {failureClass : Option String}
  {w w' : World} {t : Transcript}

theorem rateLimitLeaves {out : Except Raised Unit} (went : Goes Still (noteRateLimit failureClass) w t w' out) : w' = w := by
  unfold noteRateLimit at went
  split at went
  · cases goesAsked went with
    | refused took => exact took.2
    | answered took logged =>
      obtain ⟨logged, -⟩ := goesRequest logged
      exact logged.2.trans took.2
  · exact (goesRet went).2.1

theorem rateLimitSpares {out : Except Raised Unit} (went : Goes Still (noteRateLimit failureClass) w t w' out) :
    Spared issueKey w t w' := by
  refine goesSpared ?_ went
  unfold noteRateLimit
  split
  · exact asksCall trivial fun _ => (asksRequest _).mpr trivial
  · trivial

/-- What a run's end leaves of its issue: nothing new, or a memory read after the failure. -/
theorem recordLeaves {out : Except Raised Unit} (went : Goes Still (recordRunOutcome key outcome failureClass) w t w' out) :
    (Spared key w t w' ∨ Remembers key w' ∧ ¬ Claims key t) ∧
    (outcome ≠ .completed → w.jobs key ≠ none → out = .ok () → Remembers key w') := by
  unfold recordRunOutcome at went
  split at went
  · rename_i completed
    obtain ⟨rfl, rfl, rfl⟩ := goesRet went
    exact ⟨.inl sparedNil, fun failed => absurd completed failed⟩
  rcases goesBind _ _ went with ⟨_, rfl, failed⟩ | ⟨_, mid, early, late, limited, asked, rfl⟩
  · exact ⟨.inl (rateLimitSpares failed), fun _ _ same => nomatch same⟩
  have first : Spared key w early mid := rateLimitSpares limited
  obtain rfl := rateLimitLeaves limited
  cases goesAsked asked with
  | refused took => cases took.1
  | @answered job owned _ rest _ took acted =>
  have told : job = mid.jobs key := Except.ok.inj took.1
  obtain rfl : owned = mid := took.2
  have second : Spared key owned (early ++ [⟨.jobOf key, .ok job⟩]) owned :=
    sparedAppend first (tookSpared (by trivial) took)
  rw [List.append_cons]
  split at acted
  · rename_i absent
    obtain ⟨rfl, rfl, rfl⟩ := goesRet acted
    refine ⟨.inl (by simpa using second), fun _ fired => absurd ?_ fired⟩
    rw [← told]
    exact Option.isNone_iff_eq_none.mp absent
  cases goesAsked acted with
  | refused took => exact ⟨.inl (sparedAppend second (tookSpared (by trivial) took)), fun _ _ same => nomatch same⟩
  | @answered refreshed read _ noted _ took storing =>
  obtain rfl : read = owned := took.2
  have third : Spared key read [⟨.readIssue key, .ok refreshed⟩] read := tookSpared (by trivial) took
  have current : refreshed.updatedAt = read.updated key := took.1.2
  cases goesAsked storing with
  | refused took => rcases took.1 with awaited | answered <;> contradiction
  | @answered _ kept _ logged _ took logging =>
  have left : kept = _ := took.2
  have remembers : Remembers key kept := by
    refine ⟨⟨refreshed.updatedAt, .runFailed, failureClass.getD outcome.value⟩, ?_, ?_, by simp⟩
    · simp [left]
    · simp [left, current]
  obtain ⟨logged', ending⟩ := goesRequest logging
  obtain rfl : w' = kept := logged'.2
  subst ending
  refine ⟨.inr ⟨remembers, ?_⟩, fun _ _ _ => remembers⟩
  rw [claimsAppend, not_or]
  exact ⟨second.unclaimed, by simp [Claims]⟩

theorem recordKeeps (remembers : Remembers issueKey w) {out : Except Raised Unit}
    (went : Goes Still (recordRunOutcome key outcome failureClass) w t w' out) :
    Remembers issueKey w' ∧ ¬ Claims issueKey t := by
  by_cases same : key = issueKey
  · subst same
    rcases (recordLeaves went).1 with spared | kept
    · exact ⟨remembersSpared spared remembers, spared.unclaimed⟩
    · exact kept
  · have spared : Spared issueKey w t w' := by
      refine goesSpared ?_ went
      unfold recordRunOutcome
      split
      · trivial
      refine asksBind ?_ fun _ => asksCall trivial fun job => ?_
      · unfold noteRateLimit
        split
        · exact asksCall trivial fun _ => (asksRequest _).mpr trivial
        · trivial
      · split
        · trivial
        · exact asksCall trivial fun _ => asksCall same fun _ =>
            (asksRequest _).mpr trivial
    exact ⟨remembersSpared spared remembers, spared.unclaimed⟩

end Outcome

section Dropping
variable {d : FireDispatcher} {issue : BoardIssue} {issueKey : String} {w w' : World} {t early late : Transcript}
  {exclusion : RememberedExclusion} {teamKeys : List String}

/-- A reading in which the blocker a blocked winner was remembered for is no longer open. -/
def BlockerClosed (exclusion : RememberedExclusion) (t : Transcript) : Prop :=
  exclusion.clause = .liveBlocker ∧ ∃ blocker, ⟨.readIssue exclusion.detail, .ok blocker⟩ ∈ t ∧ clauseOpen blocker = false

/-- What lifts a memory: the issue has moved past it, or its blocker has closed. -/
def Lifted (exclusion : RememberedExclusion) (updatedAt : Int) (t : Transcript) : Prop :=
  exclusion.updatedAt < updatedAt ∨ BlockerClosed exclusion t

theorem stillStandsTells {out : Except Raised Bool} (went : Goes Still (stillStands exclusion) w t w' out) :
    w' = w ∧ ∀ stands, out = .ok stands → (stands = false ↔ BlockerClosed exclusion t) := by
  unfold stillStands at went
  split at went
  · rename_i other
    obtain ⟨rfl, rfl, rfl⟩ := goesRet went
    exact ⟨rfl, by rintro stands ⟨⟩; simp [BlockerClosed, other]⟩
  · rename_i same
    cases goesAsked went with
    | refused took => exact ⟨took.2, fun _ same => nomatch same⟩
    | @answered blocker mid _ _ _ took ended =>
      obtain ⟨rfl, rfl, rfl⟩ := goesRet ended
      refine ⟨took.2, ?_⟩
      rintro stands ⟨⟩
      simp [BlockerClosed, not_not.mp same]

theorem memoryStandsTells {out : Except Raised Bool} (went : Goes Still (memoryStands issue exclusion) w t w' out) :
    w' = w ∧ ∀ stands, out = .ok stands → (stands = false ↔ Lifted exclusion issue.updatedAt t) := by
  unfold memoryStands at went
  split at went
  · rename_i current
    obtain ⟨same, told⟩ := stillStandsTells went
    refine ⟨same, fun stands ended => (told stands ended).trans ?_⟩
    simp [Lifted, not_lt.mpr current]
  · rename_i moved
    obtain ⟨rfl, rfl, rfl⟩ := goesRet went
    exact ⟨rfl, by rintro stands ⟨⟩; simp [Lifted, not_le.mp moved]⟩

theorem closedWithin (closed : BlockerClosed exclusion t) : BlockerClosed exclusion (early ++ t ++ late) := by
  obtain ⟨clause, blocker, member, shut⟩ := closed
  exact ⟨clause, blocker, by simp [member], shut⟩

theorem liftedWithin {updatedAt : Int} (early late : Transcript) (lifted : Lifted exclusion updatedAt t) :
    Lifted exclusion updatedAt (early ++ t ++ late) :=
  lifted.imp_right closedWithin

theorem liftedRecall {updatedAt : Int} {key : String} {answer : Except Raised (Option RememberedExclusion)} :
    Lifted exclusion updatedAt (⟨.recall key, answer⟩ :: t) ↔ Lifted exclusion updatedAt t := by
  simp [Lifted, BlockerClosed]

/-- Asked about an issue it remembers, the dispatcher drops the memory exactly when it is lifted. -/
theorem memoryDrops (held : w.remembered issue.key = some exclusion) {out : Except Raised (Option IssueExclusion)}
    (went : Goes Still (memoryExclusion issue) w t w' out) :
    (w'.remembered issue.key = some exclusion ∨ w'.remembered issue.key = none ∧ Lifted exclusion issue.updatedAt t) ∧
    ∀ result, out = .ok result → (w'.remembered issue.key = none ↔ Lifted exclusion issue.updatedAt t) := by
  cases goesAsked went with
  | refused took => cases took.1
  | @answered reply mid _ rest _ took consulted =>
  have told : reply = some exclusion := (Except.ok.inj took.1).trans held
  obtain rfl : mid = w := took.2
  subst told
  rcases goesBind (memoryStands issue exclusion) _ consulted with
    ⟨_, rfl, failed⟩ | ⟨stands, asked, early, late, stood, decided, rfl⟩
  · obtain ⟨rfl, -⟩ := memoryStandsTells failed
    exact ⟨.inl held, fun _ same => nomatch same⟩
  obtain ⟨rfl, told⟩ := memoryStandsTells stood
  have lifted := told stands rfl
  cases stands with
  | true =>
    obtain ⟨rfl, rfl, rfl⟩ := goesRet decided
    rw [List.append_nil]
    refine ⟨.inl held, fun _ _ => ?_⟩
    rw [liftedRecall, ← lifted, held]
    simp
  | false =>
    have gone : Lifted exclusion issue.updatedAt (⟨.recall issue.key, .ok (some exclusion)⟩ :: (early ++ late)) :=
      liftedRecall.mpr (liftedWithin [] late (lifted.mp rfl))
    cases goesAsked decided with
    | refused forgot => rcases forgot.1 with awaited | answered <;> contradiction
    | @answered _ after _ _ _ forgot ended =>
      have left : after = _ := forgot.2
      obtain ⟨rfl, rfl, rfl⟩ := goesRet ended
      have dropped : w'.remembered issue.key = none := by simp [left]
      exact ⟨.inr ⟨dropped, gone⟩, fun _ _ => iff_of_true dropped gone⟩

/-- What becomes of a memory over a stretch: it stands, or it is gone, and then it was lifted. -/
def Dropped (issueKey : String) (exclusion : RememberedExclusion) (updatedAt : Int) (t : Transcript) (w' : World) : Prop :=
  w'.remembered issueKey = some exclusion ∨ w'.remembered issueKey = none ∧ Lifted exclusion updatedAt t

theorem droppedThen {updatedAt : Int} {mid : World} (first : Dropped issueKey exclusion updatedAt early mid)
    (second : Spared issueKey mid late w') : Dropped issueKey exclusion updatedAt (early ++ late) w' := by
  rcases first with kept | ⟨gone, lifted⟩
  · exact .inl (second.remembered.trans kept)
  · exact .inr ⟨second.remembered.trans gone, liftedWithin [] late lifted⟩

theorem excludeDrops (held : w.remembered issue.key = some exclusion) {out : Except Raised (Option IssueExclusion)}
    (went : Goes Still (d.exclude issue teamKeys) w t w' out) : Dropped issue.key exclusion issue.updatedAt t w' := by
  have others : (firstExclusion [backoffExclusion issue, d.scopeExclusion issue, d.routeExclusion issue,
      approvalExclusion issue, openExclusion issue, blockerExclusion issue, inFlightExclusion issue,
      d.deliveryExclusion issue]).Asks (Call.spares issue.key) := by
    have different : issue.key ++ "." ≠ issue.key := by simp
    refine asksMono (selectsSpares different) (firstAsks fun clause member => ?_)
    simp only [List.mem_cons, List.not_mem_nil, or_false] at member
    rcases member with rfl | rfl | rfl | rfl | rfl | rfl | rfl | rfl
    exacts [backoffAsks, scopeAsks, routeAsks, approvalAsks, openAsks, blockerAsks, inFlightAsks, deliveryAsks]
  unfold FireDispatcher.exclude firstExclusion teamExclusion at went
  split at went
  · rcases goesBind (memoryExclusion issue) _ went with
      ⟨_, rfl, failed⟩ | ⟨found, mid, early, late, asked, decided, rfl⟩
    · exact (memoryDrops held failed).1
    · refine droppedThen (memoryDrops held asked).1 ?_
      cases found with
      | some excluded =>
        obtain ⟨rfl, rfl, -⟩ := goesRet decided
        exact sparedNil
      | none => exact goesSpared others decided
  · obtain ⟨rfl, rfl, -⟩ := goesRet went
    exact .inl held

theorem selectsLeaves {key : String} {call : Call} {answer : Except Raised (Reply call)} (selects : call.selects key)
    (took : Still w call answer w') :
    w'.updated = w.updated ∧ (w.remembered issueKey = none → w'.remembered issueKey = none) := by
  obtain ⟨-, left⟩ := took
  cases call
  case forget forgotten =>
    subst left
    refine ⟨rfl, fun absent => ?_⟩
    by_cases same : forgotten = issueKey
    · subst same
      exact Function.update_self _ _ _
    · rw [← absent]
      exact Function.update_of_ne (Ne.symm same) _ _
  case remember => exact selects.elim
  case noteJob => exact selects.elim
  case claimIssue => exact selects.elim
  case releaseClaim => exact selects.elim
  case recordBaseSpec => exact selects.elim
  case resolve => exact selects.elim
  all_goals
    cases (show w' = w from left)
    exact ⟨rfl, id⟩

theorem excludeLeaves (issueKey : String) {out : Except Raised (Option IssueExclusion)}
    (went : Goes Still (d.exclude issue teamKeys) w t w' out) :
    w'.updated = w.updated ∧ (w.remembered issueKey = none → w'.remembered issueKey = none) := by
  refine goesKeepsAsking (fun s => s.updated = w.updated ∧ (w.remembered issueKey = none → s.remembered issueKey = none))
    excludeAsks (fun s call answer s' selects kept took => ?_) ⟨rfl, id⟩ went
  obtain ⟨updated, absent⟩ := selectsLeaves selects took
  exact ⟨updated.trans kept.1, fun gone => absent (kept.2 gone)⟩

/-- An issue's decision lifts or leaves a memory of any issue. -/
theorem excludeDropped (first : Dropped issueKey exclusion (w.updated issueKey) early w)
    (read : issue.key = issueKey → issue.updatedAt = w.updated issueKey) {out : Except Raised (Option IssueExclusion)}
    (went : Goes Still (d.exclude issue teamKeys) w t w' out) :
    Dropped issueKey exclusion (w.updated issueKey) (early ++ t) w' := by
  rcases first with kept | ⟨gone, lifted⟩
  · by_cases same : issue.key = issueKey
    · subst same
      rcases excludeDrops kept went with still | ⟨dropped, lifted⟩
      · exact .inl still
      · exact .inr ⟨dropped, by simpa [read rfl] using liftedWithin early [] lifted⟩
    · exact .inl ((goesSpared (asksMono (selectsSpares same) excludeAsks) went).remembered.trans kept)
  · exact .inr ⟨(excludeLeaves issueKey went).2 gone, liftedWithin [] t lifted⟩

theorem siftDropped (issues : List BoardIssue) (first : Dropped issueKey exclusion (w.updated issueKey) early w)
    (read : ∀ issue ∈ issues, issue.key = issueKey → issue.updatedAt = w.updated issueKey)
    {out : Except Raised (List BoardIssue × List IssueExclusion)} (went : Goes Still (d.sift teamKeys issues) w t w' out) :
    Dropped issueKey exclusion (w.updated issueKey) (early ++ t) w' := by
  induction issues generalizing w early w' t out with
  | nil =>
    obtain ⟨rfl, rfl, -⟩ := goesRet went
    simpa using first
  | cons issue issues ih =>
    simp only [List.mem_cons, forall_eq_or_imp] at read
    rcases goesBind _ _ went with ⟨_, rfl, failed⟩ | ⟨excluded, mid, asked, late, decided, sifted, rfl⟩
    · exact excludeDropped first read.1 failed
    · have second := excludeDropped first read.1 decided
      have same : mid.updated = w.updated := (excludeLeaves issueKey decided).1
      rw [← same] at second read ⊢
      rcases goesBind _ _ sifted with ⟨_, rfl, failed⟩ | ⟨⟨eligible, exclusions⟩, mid', before, after, rest, ended, rfl⟩
      · simpa using ih second read.2 failed
      · have third := ih second read.2 rest
        cases excluded with
        | some excluded =>
          obtain ⟨rfl, rfl, -⟩ := goesRet ended
          simpa using third
        | none =>
          obtain ⟨rfl, rfl, -⟩ := goesRet ended
          simpa using third

theorem surveyDropped (held : w.remembered issueKey = some exclusion) {out : Except Raised Survey}
    (went : Goes Still d.survey w t w' out) : Dropped issueKey exclusion (w.updated issueKey) t w' := by
  rcases goesBind _ _ went with ⟨_, rfl, failed⟩ | ⟨keys, mid, none_yet, rest, found, scanned, rfl⟩
  · obtain ⟨rfl, rfl⟩ := teamKeysStill failed
    exact .inl held
  obtain ⟨rfl, rfl⟩ := teamKeysStill found
  rcases goesBind _ _ scanned with ⟨_, rfl, failed⟩ | ⟨snapshot, mid', listed, late', scan, sifted, rfl⟩
  · obtain ⟨rfl, -⟩ := scanTells keys failed
    exact .inl held
  obtain ⟨rfl, told⟩ := scanTells keys scan
  have read (entry) (member : entry ∈ snapshot) (same : entry.key = issueKey) :
      entry.updatedAt = mid'.updated issueKey := same ▸ told snapshot rfl entry member
  have first : Dropped issueKey exclusion (mid'.updated issueKey) ([] ++ listed) mid' := .inl held
  rcases goesBind _ _ sifted with ⟨_, rfl, failed⟩ | ⟨⟨eligible, exclusions⟩, mid'', before, after, sift, selected, rfl⟩
  · simpa using siftDropped snapshot first read failed
  · have spared : Spared issueKey mid'' after w' :=
      goesSpared (asksBind (selectAsks (fun _ => trivial) eligible) fun _ => asksPure _) selected
    simpa using droppedThen (siftDropped snapshot first read sift) spared

/-- A call other than the dropping of a memory. -/
def Call.keeps : Call → Prop
  | .forget _ => False
  | _ => True

theorem stillKeeps {call : Call} {answer : Except Raised (Reply call)} (keeps : call.keeps)
    (took : Still w call answer w') (held : w.remembered issueKey ≠ none) : w'.remembered issueKey ≠ none := by
  obtain ⟨-, left⟩ := took
  cases call
  case remember key noted =>
    subst left
    by_cases same : key = issueKey
    · subst same
      simp
    · simpa [Function.update_of_ne (Ne.symm same)] using held
  case forget => exact keeps.elim
  case noteJob =>
    subst left
    exact held
  case claimIssue =>
    obtain ⟨moved, rfl⟩ := left
    exact held
  case releaseClaim =>
    obtain ⟨moved, rfl⟩ := left
    exact held
  case recordBaseSpec =>
    obtain ⟨moved, rfl⟩ := left
    exact held
  case resolve =>
    obtain ⟨moved, rfl⟩ := left
    exact held
  all_goals
    cases (show w' = w from left)
    exact held

theorem launchKeepsMemory {winner : BoardIssue} {rows : List IssueSnapshot} {exclusions : List IssueExclusion}
    {eligibleKeys tied criterionKeys : List String} :
    (d.launch winner rows exclusions eligibleKeys tied criterionKeys).Asks Call.keeps := by
  refine asksCall trivial fun claim => ?_
  split
  · exact asksCall trivial fun _ => trivial
  refine asksBind (asksAttempt ?_) fun resolved => ?_
  · exact asksCall trivial fun _ => asksCall trivial fun _ =>
      asksCall trivial fun _ => (asksRequest _).mpr trivial
  cases resolved with
  | error raised =>
    obtain ⟨failure, landed, job⟩ := raised
    cases failure with
    | baseResolution message =>
      refine asksBind ?_ fun _ => trivial
      exact asksCall trivial fun _ => asksCall trivial fun _ =>
        asksCall trivial fun _ => (asksRequest _).mpr trivial
    | cancelled => trivial
    | other message => trivial
  | ok spec =>
    refine asksBind ?_ fun _ => trivial
    refine asksCall trivial fun context => asksCall trivial fun recorded => ?_
    refine asksBind (noteSupersededAsks trivial _) fun _ => asksBind ?_ fun _ => trivial
    exact asksCall trivial fun _ => asksCall trivial fun _ =>
      asksCall trivial fun _ => asksCall trivial fun _ => trivial

theorem actOnKeepsMemory {survey : Survey} : (d.actOn survey).Asks Call.keeps := by
  unfold actOn
  split
  · exact asksCall trivial fun _ => trivial
  · refine asksCall trivial fun _ => asksCall trivial fun winner => ?_
    refine asksBind (liveBlockerAsks fun _ => trivial) fun blocking => ?_
    cases blocking with
    | none => exact launchKeepsMemory
    | some blocker => exact asksCall trivial fun _ => asksCall trivial fun _ => trivial

/-- A pass after which a memory is gone had found it lifted. -/
theorem passDrops (held : w.remembered issueKey = some exclusion) {out : Except Raised DispatchReport}
    (went : Goes Still d.runPass w t w' out) (gone : w'.remembered issueKey = none) :
    Lifted exclusion (w.updated issueKey) t := by
  rcases goesBind _ _ went with ⟨_, rfl, failed⟩ | ⟨survey, mid, early, late, surveyed, acted, rfl⟩
  · rcases surveyDropped held failed with kept | ⟨-, lifted⟩
    · cases gone.symm.trans kept
    · exact lifted
  · rcases surveyDropped held surveyed with kept | ⟨-, lifted⟩
    · have still : w'.remembered issueKey ≠ none :=
        goesKeepsAsking (fun s => s.remembered issueKey ≠ none) actOnKeepsMemory
          (fun s call answer s' keeps held took => stillKeeps keeps took held) (by simp [kept]) acted
      exact absurd gone still
    · exact liftedWithin [] late lifted

end Dropping

section Parked

def parked : BoardIssue :=
  { issueKey := ⟨"KOD-103", by decide⟩, priority := .high, stateKind := .unstarted, teamKey := some ⟨"fleet", by decide⟩,
    createdAt := 0, stateName := "Todo", queueStates := [.approved], updatedAt := 0 }

def parkedDispatcher : FireDispatcher :=
  { operation := ⟨[("fleet", {})], ["repo"]⟩, repoUrl := "repo", lane := "fires", holder := "host",
    claimLeaseSeconds := 900, queryPageSize := 50, trunk := "trunk", integrationWorkspaceDir := "workspaces" }

/-- A board of one issue, on which the reads of it and the log answer, and nothing else does. -/
def parkedAnswers (w : World) : (call : Call) → Except Raised (Reply call) × World
  | .scanIssues _ => (.ok [{ parked with updatedAt := w.updated parked.key }], w)
  | .readIssue key =>
    (if key = parked.key then .ok { parked with updatedAt := w.updated parked.key } else .error { failure := .cancelled }, w)
  | .recall key => (.ok (w.remembered key), w)
  | .jobOf key => (.ok (w.jobs key), w)
  | .remember key exclusion => (.ok (), { w with remembered := Function.update w.remembered key (some exclusion) })
  | .forget key => (.ok (), { w with remembered := Function.update w.remembered key none })
  | .noteJob key jobId => (.ok (), { w with jobs := Function.update w.jobs key (some jobId) })
  | .draw _ => (.ok parked.key, w)
  | .log _ | .noteInitiatives _ _ | .rearm | .follow _ _ _ _ => (.ok (), w)
  | .holding | .initiativesOf _ => (.ok none, w)
  | .workspaceId => (.ok "", w)
  | .now | .beginCooldown _ => (.ok 0, w)
  | _ => (.error { failure := .cancelled }, w)

def Call.parkedFine : Call → Bool
  | .draw tied => parked.key ∈ tied
  | _ => true

theorem parkedStill (w : World) (call : Call) (fine : call.parkedFine = true) :
    Still w call (parkedAnswers w call).1 (parkedAnswers w call).2 := by
  have unmoved (key : String) : ∃ moved, w = { w with updated := Function.update w.updated key moved } :=
    ⟨w.updated key, by rw [Function.update_eq_self]⟩
  cases call
  case readIssue key =>
    by_cases same : key = parked.key
    · subst same
      exact ⟨⟨rfl, rfl⟩, rfl⟩
    · simp only [parkedAnswers, if_neg same]
      exact ⟨.inl rfl, rfl⟩
  case scanIssues query =>
    refine ⟨fun issue member => ?_, rfl⟩
    rw [List.mem_singleton.mp member]
    rfl
  case draw tied =>
    have held : parked.key ∈ tied := of_decide_eq_true fine
    exact ⟨held, rfl⟩
  case claimIssue key _ _ => exact ⟨.inl rfl, unmoved key⟩
  case releaseClaim key _ => exact ⟨.inl rfl, unmoved key⟩
  case recordBaseSpec key _ => exact ⟨.inl rfl, unmoved key⟩
  case resolve key _ _ _ _ => exact ⟨.inl rfl, unmoved key⟩
  all_goals
    refine ⟨?_, rfl⟩
    first
    | rfl
    | exact .inr rfl
    | exact .inl rfl

/-- The one pass over the board of one issue. -/
def parkedPass (w : World) : Transcript × World × Except Raised DispatchReport :=
  parkedDispatcher.runPass.play parkedAnswers w

theorem parkedGoes {α : Type} (p : Program α) (w : World)
    (each : ∀ x ∈ (p.play parkedAnswers w).1, x.call.parkedFine = true) :
    Goes Still p w (p.play parkedAnswers w).1 (p.play parkedAnswers w).2.1 (p.play parkedAnswers w).2.2 :=
  playGoesWhere parkedAnswers parkedStill p w each

def movedSince : World :=
  ⟨fun _ => 7, Function.update (fun _ => none) parked.key (some ⟨3, .runFailed, "failed"⟩), fun _ => none⟩

theorem movedDrops : Lifted ⟨3, .runFailed, "failed"⟩ 7 (parkedPass movedSince).1 :=
  have held : movedSince.remembered parked.key = some ⟨3, .runFailed, "failed"⟩ := by simp [movedSince]
  passDrops held (parkedGoes _ movedSince (by decide)) (by decide +kernel)

end Parked

/-- One pass of the dispatcher, or the news of a run's end reaching it. -/
inductive Episode where
  | pass (start last : World) (t : Transcript) (out : Except Raised DispatchReport)
  | recorded (start last : World) (t : Transcript) (issueKey : String) (outcome : RunOutcome)
      (failureClass : Option String) (out : Except Raised Unit)

namespace Episode

def start : Episode → World
  | .pass start _ _ _ => start
  | .recorded start _ _ _ _ _ _ => start

def last : Episode → World
  | .pass _ last _ _ => last
  | .recorded _ last _ _ _ _ _ => last

def transcript : Episode → Transcript
  | .pass _ _ t _ => t
  | .recorded _ _ t _ _ _ _ => t

/-- The episode is a run of the dispatcher's code. -/
def Went (d : FireDispatcher) : Episode → Prop
  | .pass start last t out => Goes Still d.runPass start t last out
  | .recorded start last t issueKey outcome failureClass out =>
    Goes Still (recordRunOutcome issueKey outcome failureClass) start t last out

/-- The episode that a failure of the issue ends: its base reported unresolved, or the end of a run
this dispatcher had fired recorded as not completed. -/
def Fails (issueKey : String) : Episode → Prop
  | .pass _ _ _ out => ∃ report, out = .ok report ∧ report.outcome = .baseUnresolved ∧
      report.claimedIssueKey = some issueKey
  | .recorded start _ _ key outcome _ out => key = issueKey ∧ outcome ≠ .completed ∧ start.jobs key ≠ none ∧ out = .ok ()

end Episode

/-- Episodes one after another, each in the world the one before left. -/
def History (d : FireDispatcher) : World → List Episode → Prop
  | _, [] => True
  | w, episode :: rest => episode.start = w ∧ episode.Went d ∧ History d episode.last rest

section Histories
variable {d : FireDispatcher} {issueKey : String} {w : World}

theorem episodeKeeps {episode : Episode} (remembers : Remembers issueKey episode.start) (went : episode.Went d) :
    Remembers issueKey episode.last ∧ ¬ Claims issueKey episode.transcript := by
  cases episode with
  | pass start last t out =>
    have spared := passSpares remembers went
    exact ⟨remembersSpared spared remembers, spared.unclaimed⟩
  | recorded start last t key outcome failureClass out => exact recordKeeps remembers went

theorem historyKeeps (episodes : List Episode) (remembers : Remembers issueKey w) (history : History d w episodes) :
    ∀ episode ∈ episodes, ¬ Claims issueKey episode.transcript := by
  induction episodes generalizing w with
  | nil => simp
  | cons episode rest ih =>
    obtain ⟨rfl, went, following⟩ := history
    obtain ⟨kept, unclaimed⟩ := episodeKeeps remembers went
    simpa using ⟨unclaimed, ih kept following⟩

theorem failsRemembers {episode : Episode} (fails : episode.Fails issueKey) (went : episode.Went d) :
    Remembers issueKey episode.last := by
  cases episode with
  | pass start last t out =>
    obtain ⟨report, rfl, unresolved, claimed⟩ := fails
    exact passRemembers went unresolved claimed
  | recorded start last t key outcome failureClass out =>
    obtain ⟨rfl, failed, fired, rfl⟩ := fails
    exact (recordLeaves went).2 failed fired rfl

def parkedBefore : World := ⟨fun _ => 7, fun _ => none, Function.update (fun _ => none) parked.key (some "job-7")⟩

def parkedRecord : Transcript × World × Except Raised Unit :=
  (recordRunOutcome parked.key .failed none).play parkedAnswers parkedBefore

def parkedFailure : Episode :=
  .recorded parkedBefore parkedRecord.2.1 parkedRecord.1 parked.key .failed none parkedRecord.2.2

def parkedAfter : Episode :=
  .pass parkedRecord.2.1 (parkedPass parkedRecord.2.1).2.1 (parkedPass parkedRecord.2.1).1 (parkedPass parkedRecord.2.1).2.2

end Histories
end Kodezart.Dispatch
