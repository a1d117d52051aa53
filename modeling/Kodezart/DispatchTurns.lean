import Mathlib
import Kodezart.DispatchBoard

/-! Passes over a still board: the winner of each is ranked no lower than any candidate, and
once a pass has acted on it, it is out of the way of the rest. -/
namespace Kodezart.Dispatch
open Prog FireDispatcher

namespace Board

def snapshot (b : Board) (w : BoardWorld) (teamKeys : List String) : List BoardIssue :=
  teamKeys.flatMap fun teamKey => b.listed w (some teamKey)

theorem snapshotEntry {b : Board} {w : BoardWorld} {teamKeys : List String} {issue : BoardIssue}
    (member : issue ∈ b.snapshot w teamKeys) :
    ∃ face, b.face issue.key = some face ∧ issue = face.stamped (w.updated issue.key) := by
  obtain ⟨teamKey, _, listed⟩ := List.mem_flatMap.mp member
  obtain ⟨key, _, entry⟩ := List.mem_filterMap.mp listed
  obtain ⟨face, found, rfl⟩ := Option.map_eq_some_iff.mp entry
  obtain ⟨source, onBoard, rfl⟩ := Option.map_eq_some_iff.mp found
  obtain rfl : source.key = key := b.keyed _ _ onBoard
  exact ⟨_, found, rfl⟩

/-- Another world lists the same issues, each at its own instant. -/
theorem snapshotStamped {b : Board} {w : BoardWorld} (w' : BoardWorld) {teamKeys : List String} {issue : BoardIssue}
    (member : issue ∈ b.snapshot w teamKeys) : issue.stamped (w'.updated issue.key) ∈ b.snapshot w' teamKeys := by
  obtain ⟨teamKey, scanned, listed⟩ := List.mem_flatMap.mp member
  obtain ⟨key, inside, entry⟩ := List.mem_filterMap.mp listed
  obtain ⟨face, found, rfl⟩ := Option.map_eq_some_iff.mp entry
  obtain ⟨source, onBoard, rfl⟩ := Option.map_eq_some_iff.mp found
  obtain rfl : source.key = key := b.keyed _ _ onBoard
  exact List.mem_flatMap.mpr ⟨teamKey, scanned, List.mem_filterMap.mpr ⟨_, inside, Option.map_eq_some_iff.mpr ⟨_, found, rfl⟩⟩⟩

end Board

section Survey
variable {b : Board} {d : FireDispatcher} {teamKeys : List String} {w w' : BoardWorld} {t : Transcript}

theorem siftYields (issues : List BoardIssue) (read : ∀ issue ∈ issues, issue.updatedAt = w.updated issue.key) :
    Yields (Calm b) (d.sift teamKeys issues) w fun sifted w' =>
      (∀ issue ∈ issues, Admitted b d teamKeys w issue → issue ∈ sifted.1) ∧
      (∀ issue ∈ sifted.1, issue ∈ issues ∧ Fit b d teamKeys issue ∧ ¬ Spent b w issue.key) ∧
      ∀ key, Kept b key w w' := by
  induction issues generalizing w with
  | nil => exact yieldsPure ⟨by simp, by simp, fun key => apartKept (apartRefl w)⟩
  | cons issue issues ih =>
    simp only [List.mem_cons, forall_eq_or_imp] at read
    have decided : Yields (Calm b) (d.exclude issue teamKeys) w fun exclusion w' =>
        ((Admitted b d teamKeys w issue → exclusion = none) ∧
          (exclusion = none → Fit b d teamKeys issue ∧ ¬ Spent b w issue.key)) ∧ ∀ key, Kept b key w w' := by
      intro t w' out went
      obtain ⟨exclusion, same, held⟩ := excludeYields read.1 _ _ _ went
      exact ⟨exclusion, same, held, fun key => excludeKept read.1 key went⟩
    refine yieldsBind decided fun exclusion w₁ ⟨⟨lets, only⟩, kept⟩ => ?_
    have still (entry) (member : entry ∈ issues) : entry.updatedAt = w₁.updated entry.key :=
      (read.2 entry member).trans (kept entry.key).updated.symm
    refine yieldsBind (ih still) fun ⟨eligible, exclusions⟩ w₂ ⟨passes, chosen, after⟩ => ?_
    have rest (entry) (member : entry ∈ issues) (admitted : Admitted b d teamKeys w entry) : entry ∈ eligible :=
      passes entry member (admittedKept (kept entry.key) admitted)
    have each (entry) (member : entry ∈ eligible) :
        entry ∈ issue :: issues ∧ Fit b d teamKeys entry ∧ ¬ Spent b w entry.key := by
      obtain ⟨listed, fit, unspent⟩ := chosen entry member
      exact ⟨.tail _ listed, fit, mt (spentKept (kept entry.key)).mpr unspent⟩
    have since (key : String) : Kept b key w w₂ := keptTrans (kept key) (after key)
    cases exclusion with
    | some exclusion =>
      refine yieldsPure ⟨?_, each, since⟩
      rintro entry (_ | ⟨_, member⟩) admitted
      · cases lets admitted
      · exact rest entry member admitted
    | none =>
      refine yieldsPure ⟨?_, ?_, since⟩
      · rintro entry (_ | ⟨_, member⟩) admitted
        · exact .head _
        · exact .tail _ (rest entry member admitted)
      · rintro entry (_ | ⟨_, member⟩)
        · exact ⟨.head _, only rfl⟩
        · exact each entry member

theorem scanYields (teamKeys : List String) :
    Yields (Calm b) (d.scan teamKeys) w fun issues w' => issues = b.snapshot w teamKeys ∧ w' = w := by
  induction teamKeys with
  | nil => exact yieldsPure ⟨rfl, rfl⟩
  | cons teamKey teamKeys ih =>
    have listed (query : Gate.IssueQuery) :
        Yields (Calm b) (ask (.scanIssues query)) w fun issues w' => issues = b.listed w query.teamKey ∧ w' = w :=
      yieldsRequest fun _ _ ⟨told, left⟩ => ⟨_, told, rfl, left⟩
    refine yieldsBind (listed _) fun found w₁ ⟨same, left⟩ => ?_
    subst same left
    refine yieldsBind ih fun more w₂ ⟨same, left⟩ => ?_
    subst same left
    exact yieldsPure ⟨rfl, rfl⟩

theorem selectYields {issues : List BoardIssue} (some_issue : issues ≠ []) :
    Yields (Calm b) (selectTopRanked issues) w fun selection w' => w' = w ∧
      ∃ chosen, selection = some chosen ∧ chosen.winnerKey ∈ topRanked issues := by
  have top := topRankedSome some_issue
  unfold selectTopRanked
  split
  · rename_i empty
    exact absurd empty top
  · rename_i key single
    exact yieldsPure ⟨rfl, _, rfl, by simp [single]⟩
  · have drawn : Yields (Calm b) (ask (.draw (topRanked issues))) w fun key w' => key ∈ topRanked issues ∧ w' = w :=
      yieldsRequest fun _ _ ⟨⟨key, member, same⟩, left⟩ => ⟨key, same, member, left⟩
    refine yieldsBind drawn fun key w₁ ⟨member, left⟩ => ?_
    subst left
    exact yieldsPure ⟨rfl, _, rfl, member⟩

/-- The winner among the candidates: listed, itself a candidate, and ranked no lower than the rest. -/
def Wins (b : Board) (d : FireDispatcher) (teamKeys : List String) (w : BoardWorld) (winnerKey : String) : Prop :=
  ∃ winner ∈ b.snapshot w teamKeys, winner.key = winnerKey ∧ Fit b d teamKeys winner ∧ ¬ Spent b w winnerKey ∧
    ∀ issue ∈ b.snapshot w teamKeys, Admitted b d teamKeys w issue → rankKey winner ≤ rankKey issue

theorem surveyYields {candidate : BoardIssue} (scanned : d.operation.teamKeysForRepo d.repoUrl = .ok teamKeys)
    (listed : candidate ∈ b.snapshot w teamKeys) (admitted : Admitted b d teamKeys w candidate) :
    Yields (Calm b) d.survey w fun survey w' => (∀ key, Kept b key w w') ∧
      ∃ chosen, survey.selection = some chosen ∧ Wins b d teamKeys w chosen.winnerKey := by
  have named : Yields (Calm b) d.teamKeys w fun keys w' => keys = teamKeys ∧ w' = w := by
    unfold FireDispatcher.teamKeys
    rw [scanned]
    exact yieldsPure ⟨rfl, rfl⟩
  refine yieldsBind named fun keys w₁ ⟨same, left⟩ => ?_
  subst same left
  refine yieldsBind (scanYields keys) fun issues w₂ ⟨same, left⟩ => ?_
  subst same left
  have read (issue) (member : issue ∈ b.snapshot w₂ keys) : issue.updatedAt = w₂.updated issue.key := by
    obtain ⟨face, -, same⟩ := Board.snapshotEntry member
    exact congrArg BoardIssue.updatedAt same
  refine yieldsBind (siftYields _ read) fun ⟨eligible, exclusions⟩ w₃ ⟨passes, chosen, kept⟩ => ?_
  have some_eligible : eligible ≠ [] := List.ne_nil_of_mem (passes candidate listed admitted)
  refine yieldsBind (selectYields some_eligible) fun selection w₄ ⟨left, selected, same, top⟩ => ?_
  subst left same
  refine yieldsPure ⟨kept, selected, rfl, ?_⟩
  obtain ⟨winner, member, named, highest⟩ := topRankedMember top
  obtain ⟨onBoard, fit, unspent⟩ := chosen winner member
  exact ⟨winner, onBoard, named, fit, named ▸ unspent, fun issue inside let_by => highest issue (passes issue inside let_by)⟩

end Survey

section Acting
variable {b : Board} {d : FireDispatcher} {w w' : BoardWorld} {t : Transcript} {winner : BoardIssue} {key : String}
  {rows : List IssueSnapshot} {exclusions : List IssueExclusion} {eligibleKeys tied criterionKeys : List String}

/-- A call that gives back no claim on the issue. -/
def Call.holds (key : String) : Call → Prop
  | .releaseClaim released _ => released ≠ key
  | _ => True

theorem calmHolds {call : Call} {answer : Except Raised (Reply call)} (holds : call.holds key)
    (took : Calm b w call answer w') (held : w.held key = true) : w'.held key = true := by
  obtain ⟨-, left⟩ := took
  cases call
  case claimIssue claimed holder leaseSeconds =>
    obtain ⟨moved, rfl⟩ := left
    by_cases same : claimed = key
    · subst same
      exact Function.update_self _ _ _
    · exact (Function.update_of_ne (Ne.symm same) _ _).trans held
  case releaseClaim released holder =>
    obtain ⟨moved, rfl⟩ := left
    exact (Function.update_of_ne (Ne.symm holds) _ _).trans held
  case remember =>
    subst left
    exact held
  case forget =>
    subst left
    exact held
  case noteJob =>
    subst left
    exact held
  case recordBaseSpec =>
    obtain ⟨moved, rfl⟩ := left
    exact held
  case resolve =>
    obtain ⟨moved, rfl⟩ := left
    exact held
  case jobRecord =>
    subst left
    exact held
  all_goals
    cases (show w' = w from left)
    exact held

theorem goesHolds {α : Type} {p : Program α} {out : Except Raised α} (asks : p.Asks (Call.holds key))
    (held : w.held key = true) (went : Goes (Calm b) p w t w' out) : w'.held key = true :=
  goesKeepsAsking (fun s => s.held key = true) asks (fun _ _ _ _ holds kept took => calmHolds holds took kept) held went

theorem resolveBaseHolds : (d.resolveBase winner).Asks (Call.holds key) :=
  asksCall trivial fun _ => asksCall trivial fun _ =>
    asksCall trivial fun _ => (asksRequest _).mpr trivial

theorem enqueueHolds {spec : BaseSpec} : (d.enqueue winner spec).Asks (Call.holds key) := by
  refine asksCall trivial fun context => asksCall trivial fun recorded => ?_
  refine asksBind (noteSupersededAsks trivial _) fun _ => asksBind ?_ fun _ => trivial
  exact asksCall trivial fun _ => asksCall trivial fun _ =>
    asksCall trivial fun _ => asksCall trivial fun _ => trivial

/-- The base of an unresolvable issue fails to resolve whatever is asked on the way. -/
theorem resolveBaseFails (unresolvable : b.resolvable winner.key = false) {out : Except Raised BaseSpec}
    (went : Goes (Calm b) (d.resolveBase winner) w t w' out) : BaseFailed out := by
  cases goesAsked went with
  | refused took =>
    rcases took.1 with answered | ⟨raised, message, same, failed⟩
    · cases answered
    · cases same
      exact ⟨_, message, rfl, failed⟩
  | answered _ made =>
  cases goesAsked made with
  | refused took => cases took.1
  | answered _ timed =>
  cases goesAsked timed with
  | refused took => cases took.1
  | answered _ resolved => exact (goesRequest resolved).1.1 unresolvable

theorem logYields (event : String) : Yields (Calm b) (ask (.log event)) w fun _ w' => w' = w :=
  yieldsMono (answersYields fun _ => id) fun _ _ took => took.2

theorem rememberYields (exclusion : RememberedExclusion) :
    Yields (Calm b) (ask (.remember key exclusion)) w fun _ w' =>
      w' = { w with remembered := Function.update w.remembered key (some exclusion) } :=
  yieldsMono (answersYields fun _ => id) fun _ _ took => took.2

/-- A memory taken off the board as it is stands there. -/
theorem rememberedStands (b : Board) (exclusion : RememberedExclusion) (current : w.updated key = exclusion.updatedAt)
    (blocker : exclusion.clause = .liveBlocker → ∀ blocker, b.issues exclusion.detail = some blocker → clauseOpen blocker = true) :
    Standing b { w with remembered := Function.update w.remembered key (some exclusion) } key :=
  ⟨exclusion, Function.update_self _ _ _, current.le, blocker⟩

theorem baseUnresolvedYields {message : String} :
    Yields (Calm b) (d.baseUnresolved winner message) w fun _ w' => Standing b w' winner.key := by
  refine yieldsBind (answersYields fun _ => id) fun _ w₁ _ => ?_
  refine yieldsBind (readYields winner.key) fun refreshed w₂ ⟨read, left⟩ => ?_
  subst left
  obtain ⟨issue, -, rfl⟩ := Option.map_eq_some_iff.mp read
  refine yieldsBind (rememberYields _) fun _ w₃ left => ?_
  subst left
  refine yieldsMono (logYields _) fun _ w₄ left => ?_
  subst left
  exact rememberedStands _ _ rfl (by simp)

/-- Whatever comes of a granted claim, the issue is out of the way after. -/
theorem fireSpends (held : w.held winner.key = true) {out : Except Raised DispatchReport}
    (went : Goes (Calm b) (d.fire winner rows exclusions eligibleKeys tied criterionKeys) w t w' out) :
    Spent b w' winner.key ∧ (b.resolvable winner.key = false → Standing b w' winner.key) := by
  rcases goesBind (d.resolveBase winner).attempt _ went with
    ⟨_, _, failed⟩ | ⟨resolved, mid, early, late, attempted, acted, rfl⟩
  · obtain ⟨_, same, _⟩ := goesAttempt failed
    cases same
  obtain ⟨_, same, ran⟩ := goesAttempt attempted
  cases same
  have still := goesHolds resolveBaseHolds held ran
  have failed := fun unresolvable => resolveBaseFails (d := d) unresolvable ran
  cases resolved with
  | error raised =>
    obtain ⟨failure, landed, job⟩ := raised
    cases failure with
    | baseResolution message =>
      have standing : Standing b w' winner.key := by
        obtain ⟨_, -, standing⟩ := yieldsBind baseUnresolvedYields (fun _ w₁ standing =>
          show Yields (Calm b) (pure _) w₁ fun _ w₂ => Standing b w₂ winner.key from yieldsPure standing) _ _ _ acted
        exact standing
      exact ⟨.inl standing, fun _ => standing⟩
    | cancelled =>
      obtain ⟨-, rfl, -⟩ := goesRaise acted
      refine ⟨.inr still, fun unresolvable => ?_⟩
      obtain ⟨_, _, same, impossible⟩ := failed unresolvable
      cases same
      cases impossible
    | other message =>
      obtain ⟨-, rfl, -⟩ := goesRaise acted
      refine ⟨.inr still, fun unresolvable => ?_⟩
      obtain ⟨_, _, same, impossible⟩ := failed unresolvable
      cases same
      cases impossible
  | ok spec =>
    have kept : w'.held winner.key = true := by
      rcases goesBind (d.enqueue winner spec) _ acted with ⟨_, _, refused⟩ | ⟨_, _, _, _, ran, told, _⟩
      · exact goesHolds enqueueHolds still refused
      · obtain ⟨_, rfl, _⟩ := goesRet told
        exact goesHolds enqueueHolds still ran
    refine ⟨.inr kept, fun unresolvable => ?_⟩
    obtain ⟨_, _, same, _⟩ := failed unresolvable
    cases same

/-- The issue can come to nothing: a blocker of it is open, or its base never resolves. -/
def Stuck (b : Board) (key : String) : Prop :=
  (∃ issue, b.issues key = some issue ∧ ¬ b.Unblocked (blockerKeys issue)) ∨ b.resolvable key = false

def Clear (b : Board) (key : String) : Prop := ∀ issue, b.issues key = some issue → b.Unblocked (blockerKeys issue)

/-- A pass has acted on its winner: no other issue is touched, and this one is spent. -/
structure Turn (b : Board) (key : String) (w : BoardWorld) (t : Transcript) (w' : BoardWorld) : Prop where
  others : ∀ other, other ≠ key → Kept b other w w'
  spent : Spent b w' key
  standing : Stuck b key → Standing b w' key
  claims : Clear b key → Claims key t

/-- A winner found blocked is remembered so. -/
theorem blockedTurn (winner : BoardIssue) {blocker : String} {report : DispatchReport} {out : Except Raised DispatchReport}
    (read : winner.updatedAt = w.updated winner.key)
    (opens : ∀ issue, b.issues blocker = some issue → clauseOpen issue = true) (blocked : ¬ Clear b winner.key)
    (went : Goes (Calm b) (do
      ask (.remember winner.key ⟨winner.updatedAt, .liveBlocker, blocker⟩)
      ask (.log "dispatch_winner_blocked")
      return report) w t w' out) : Turn b winner.key w t w' := by
  have left : Yields (Calm b) (do
      ask (.remember winner.key ⟨winner.updatedAt, .liveBlocker, blocker⟩)
      ask (.log "dispatch_winner_blocked")
      return report) w fun _ w' => w' = { w with
        remembered := Function.update w.remembered winner.key (some ⟨winner.updatedAt, .liveBlocker, blocker⟩) } := by
    refine yieldsBind (rememberYields _) fun _ w₁ same => ?_
    subst same
    refine yieldsBind (logYields _) fun _ w₂ same => ?_
    subst same
    exact yieldsPure rfl
  obtain ⟨_, -, rfl⟩ := left _ _ _ went
  have standing := rememberedStands b ⟨winner.updatedAt, .liveBlocker, blocker⟩ read.symm fun _ => opens
  refine ⟨fun other different => apartKept (goesApart ?_ went), .inl standing, fun _ => standing, fun clear => absurd clear blocked⟩
  exact asksCall different.symm fun _ => asksCall trivial fun _ => trivial

theorem launchTurn (winner : BoardIssue) {out : Except Raised DispatchReport} (unblocked : Clear b winner.key)
    (went : Goes (Calm b) (d.launch winner rows exclusions eligibleKeys tied criterionKeys) w t w' out) :
    Turn b winner.key w t w' := by
  have others : ∀ other, other ≠ winner.key → Kept b other w w' := fun other different =>
    apartKept (goesApart (launchAsks different.symm) went)
  cases goesAsked went with
  | refused took =>
    obtain ⟨_, same, _⟩ := took.1
    cases same
  | @answered claim mid _ rest _ took fired =>
    obtain ⟨⟨granted, same, status⟩, moved, left⟩ := took
    cases same
    have held : mid.held winner.key = true := by
      rw [left]
      exact Function.update_self _ _ _
    obtain ⟨spent, standing⟩ := fireSpends held ((if_neg (not_not.mpr status)) ▸ fired)
    refine ⟨others, spent, fun stuck => ?_, fun _ => ⟨_, List.mem_cons_self .., _, _, rfl⟩⟩
    rcases stuck with ⟨issue, onBoard, blocked⟩ | unresolvable
    · exact absurd (unblocked issue onBoard) blocked
    · exact standing unresolvable

/-- What a pass does once it has its winner. -/
theorem winnerTurn {selection : Selection} {eligible : List BoardIssue} {out : Except Raised DispatchReport}
    (went : Goes (Calm b) (d.claimAndEnqueue selection eligible rows exclusions) w t w' out) :
    Turn b selection.winnerKey w t w' := by
  obtain ⟨winnerKey, tied⟩ := selection
  cases goesAsked went with
  | refused took =>
    obtain ⟨_, same, _⟩ := took.1
    cases same
  | @answered winner mid _ rest _ took acted =>
    obtain ⟨⟨found, same, read⟩, left⟩ := took
    cases same
    cases (show mid = w from left)
    obtain ⟨issue, onBoard, rfl⟩ := Option.map_eq_some_iff.mp read
    obtain rfl : issue.key = winnerKey := b.keyed _ _ onBoard
    have clearIff : Clear b issue.key ↔ b.Unblocked (blockerKeys issue) := by simp [Clear, onBoard]
    rcases goesBind _ _ acted with ⟨_, _, failed⟩ | ⟨blocking, between, early, late, looked, acted, rfl⟩
    · obtain ⟨_, same, _⟩ := liveBlockerYields _ _ _ failed
      cases same
    · obtain ⟨_, same, left, unblocked, opens⟩ := liveBlockerYields _ _ _ looked
      cases same
      cases left
      have turn : Turn b issue.key w late w' := by
        cases blocking with
        | none => exact launchTurn (issue.stamped (w.updated issue.key)) (clearIff.mpr (unblocked.mp rfl)) acted
        | some blocker =>
          refine blockedTurn (issue.stamped (w.updated issue.key)) rfl (opens blocker rfl) (fun clear => ?_) acted
          cases unblocked.mpr (clearIff.mp clear)
      obtain ⟨others, spent, standing, claims⟩ := turn
      refine ⟨others, spent, standing, fun clear => ?_⟩
      obtain ⟨x, member, claimed⟩ := claims clear
      exact ⟨x, List.mem_cons_of_mem _ (List.mem_append_right _ member), claimed⟩

/-- A pass over a board with a candidate acts on a winner ranked no lower than it. -/
theorem passTurn {teamKeys : List String} {candidate : BoardIssue} {out : Except Raised DispatchReport}
    (scanned : d.operation.teamKeysForRepo d.repoUrl = .ok teamKeys) (listed : candidate ∈ b.snapshot w teamKeys)
    (admitted : Admitted b d teamKeys w candidate) (went : Goes (Calm b) d.runPass w t w' out) :
    ∃ key, Wins b d teamKeys w key ∧ Turn b key w t w' := by
  rcases goesBind _ _ went with ⟨_, _, failed⟩ | ⟨survey, mid, early, late, surveyed, acted, rfl⟩
  · obtain ⟨_, same, _⟩ := surveyYields scanned listed admitted _ _ _ failed
    cases same
  · obtain ⟨_, same, kept, chosen, selected, wins⟩ := surveyYields scanned listed admitted _ _ _ surveyed
    cases same
    refine ⟨chosen.winnerKey, wins, ?_⟩
    unfold actOn at acted
    rw [selected] at acted
    cases goesAsked acted with
    | refused took => cases took.1
    | @answered _ between _ rest _ took claimed =>
      cases (show between = mid from took.2)
      obtain ⟨others, spent, standing, claims⟩ := winnerTurn claimed
      refine ⟨fun other different => keptTrans (kept other) (others other different), spent, standing, fun clear => ?_⟩
      obtain ⟨x, member, claimed⟩ := claims clear
      exact ⟨x, List.mem_append_right _ (List.mem_cons_of_mem _ member), claimed⟩

end Acting

section Passes
variable {b : Board} {d : FireDispatcher} {teamKeys : List String} {w w' : BoardWorld} {candidate : BoardIssue}

/-- Passes one after another over the board. -/
inductive Passes (b : Board) (d : FireDispatcher) : BoardWorld → List Transcript → BoardWorld → Prop where
  | none (w : BoardWorld) : Passes b d w [] w
  | more {w mid w' : BoardWorld} {t : Transcript} {ts : List Transcript} {out : Except Raised DispatchReport}
      (went : Goes (Calm b) d.runPass w t mid out) (rest : Passes b d mid ts w') : Passes b d w (t :: ts) w'

theorem stampedSame {issue : BoardIssue} (member : issue ∈ b.snapshot w teamKeys)
    (same : w'.updated issue.key = w.updated issue.key) : issue ∈ b.snapshot w' teamKeys := by
  have listed := Board.snapshotStamped w' member
  obtain ⟨face, -, stamped⟩ := Board.snapshotEntry member
  have alike : issue.stamped (w'.updated issue.key) = issue := by
    rw [same]
    generalize issue.key = key at stamped
    subst stamped
    rfl
  rwa [alike] at listed

/-- A candidate with no open blocker is claimed once the candidates ranked no lower have had a pass each. -/
theorem neverStarved {ts : List Transcript} (passes : Passes b d w ts w')
    (scanned : d.operation.teamKeysForRepo d.repoUrl = .ok teamKeys) (listed : candidate ∈ b.snapshot w teamKeys)
    (admitted : Admitted b d teamKeys w candidate) (clear : Clear b candidate.key) (rivals : List String)
    (covered : ∀ issue ∈ b.snapshot w teamKeys, Fit b d teamKeys issue → ¬ Spent b w issue.key →
      rankKey issue ≤ rankKey candidate → issue.key ≠ candidate.key → issue.key ∈ rivals)
    (many : rivals.length < ts.length) :
    ∃ early t late, ts = early ++ t :: late ∧ early.length ≤ rivals.length ∧ Claims candidate.key t := by
  induction passes generalizing rivals with
  | none w => cases many
  | @more w mid w' t ts out went rest ih =>
    obtain ⟨key, ⟨winner, onBoard, named, fit, unspent, top⟩, turn⟩ := passTurn scanned listed admitted went
    by_cases mine : key = candidate.key
    · exact ⟨[], t, ts, rfl, Nat.zero_le _, mine ▸ turn.claims (mine ▸ clear)⟩
    · have kept := turn.others candidate.key (Ne.symm mine)
      have rival : key ∈ rivals := named ▸ covered winner onBoard fit (named ▸ unspent) (top candidate listed admitted)
        (named ▸ mine)
      have fewer := List.length_erase_of_mem rival
      have some_rival : 0 < rivals.length := List.length_pos_of_mem rival
      have covered' : ∀ issue ∈ b.snapshot mid teamKeys, Fit b d teamKeys issue → ¬ Spent b mid issue.key →
          rankKey issue ≤ rankKey candidate → issue.key ≠ candidate.key → issue.key ∈ rivals.erase key := by
        intro issue inside fits open_still ranked other
        have apart : issue.key ≠ key := fun same => open_still (same ▸ turn.spent)
        have before := covered (issue.stamped (w.updated issue.key)) (Board.snapshotStamped w inside) (fitStamped fits)
          (mt (spentKept (turn.others issue.key apart)).mpr open_still) ranked other
        exact (List.mem_erase_of_ne apart).mpr before
      have more : (rivals.erase key).length < ts.length := by
        simp only [List.length_cons] at many
        omega
      obtain ⟨early, won, late, rfl, soon, claims⟩ :=
        ih (stampedSame listed kept.updated) (admittedKept kept admitted) (rivals.erase key) covered' more
      refine ⟨t :: early, won, late, rfl, ?_, claims⟩
      simp only [List.length_cons]
      omega

/-- The board of one approved issue, whose base fails to resolve. -/
def parkedBoard : Board where
  issues key := if key = parked.key then some parked else none
  keyed key issue found := by
    split at found
    · rename_i same
      cases found
      exact same.symm
    · cases found
  listing team := if team = some "fleet" then [parked.key] else []
  edges _ := []
  claims _ := none
  recorded _ := none
  initiatives _ := []
  delivered _ := false
  resolvable _ := false

def parkedWorld : BoardWorld := ⟨⟨fun _ => 0, fun _ => none, fun _ => none⟩, fun _ => false, fun _ => false⟩

def boardAnswers (b : Board) (w : BoardWorld) : (call : Call) → Except Raised (Reply call) × BoardWorld
  | .scanIssues query => (.ok (b.listed w query.teamKey), w)
  | .readIssue key =>
    match b.read w key with
    | some issue => (.ok issue, w)
    | none => (.error { failure := .cancelled }, w)
  | .activeClaim key => (.ok (if w.held key then some ⟨key, .granted, "host", 900, none⟩ else b.claims key), w)
  | .openDeliveryExists _ key => (.ok (b.delivered key), w)
  | .recall key => (.ok (w.remembered key), w)
  | .jobOf key => (.ok (w.jobs key), w)
  | .remember key exclusion => (.ok (), { w with remembered := Function.update w.remembered key (some exclusion) })
  | .claimIssue key holder _ => (.ok ⟨key, .granted, holder, 900, none⟩,
      { w with updated := Function.update w.updated key (w.updated key + 1), held := Function.update w.held key true })
  | .releaseClaim key _ => (.ok (),
      { w with updated := Function.update w.updated key (w.updated key + 1), held := Function.update w.held key false })
  | .ensureAvailable _ => (.error { failure := .baseResolution "no clone" }, w)
  | .holding => (.ok none, w)
  | .log _ => (.ok (), w)
  | _ => (.error { failure := .cancelled }, w)

def Call.answeredOn (b : Board) : Call → Bool
  | .readIssue key => (b.issues key).isSome
  | .scanIssues _ | .activeClaim _ | .openDeliveryExists _ _ | .recall _ | .jobOf _ | .remember _ _ | .claimIssue _ _ _
  | .releaseClaim _ _ | .ensureAvailable _ | .holding | .log _ => true
  | _ => false

theorem boardCalm (b : Board) (w : BoardWorld) (call : Call) (fine : call.answeredOn b = true) :
    Calm b w call (boardAnswers b w call).1 (boardAnswers b w call).2 := by
  cases call
  case readIssue key =>
    cases found : b.read w key with
    | none => simp_all [Board.read, Call.answeredOn]
    | some issue =>
      simp only [boardAnswers, found]
      exact ⟨⟨issue, rfl, found⟩, rfl⟩
  case activeClaim key =>
    refine ⟨⟨_, rfl, ?_⟩, rfl⟩
    split <;> simp_all
  case claimIssue key holder _ => exact ⟨⟨_, rfl, rfl⟩, _, rfl⟩
  case releaseClaim key holder => exact ⟨rfl, _, rfl⟩
  case ensureAvailable url => exact ⟨.inr ⟨_, _, rfl, rfl⟩, rfl⟩
  all_goals
    first
    | exact ⟨rfl, rfl⟩
    | cases fine

def parkedTurn : Transcript × BoardWorld × Except Raised DispatchReport :=
  parkedDispatcher.runPass.play (boardAnswers parkedBoard) parkedWorld

theorem parkedClaimed : Claims parked.key parkedTurn.1 := by
  have went : Passes parkedBoard parkedDispatcher parkedWorld [parkedTurn.1] parkedTurn.2.1 :=
    .more (playGoesWhere _ (boardCalm parkedBoard) _ parkedWorld (by decide)) (.none _)
  have listed : parked ∈ parkedBoard.snapshot parkedWorld ["fleet"] := List.mem_singleton.mpr rfl
  have admitted : Admitted parkedBoard parkedDispatcher ["fleet"] parkedWorld parked := {
    fit := {
      team := by decide
      inScope := .inl (by decide)
      route := .inl (by decide)
      approved := by decide
      unfinished := by decide
      unblocked := by simp [Board.Unblocked, blockerKeys, Tracker.blockerKeys, parked]
      unclaimed := rfl
      undelivered := rfl }
    unspent := by simp [Spent, Standing, parkedWorld]
    idle := by simp [Idle, parkedWorld] }
  have clear : Clear parkedBoard parked.key := by simp [Clear, parkedBoard, Board.Unblocked, blockerKeys, Tracker.blockerKeys, parked]
  have alone : ∀ issue ∈ parkedBoard.snapshot parkedWorld ["fleet"], Fit parkedBoard parkedDispatcher ["fleet"] issue →
      ¬ Spent parkedBoard parkedWorld issue.key → rankKey issue ≤ rankKey parked → issue.key ≠ parked.key → issue.key ∈ [] :=
    fun issue member _ _ _ other => absurd (congrArg BoardIssue.key (List.mem_singleton.mp member)) other
  obtain ⟨early, t, late, same, -, claims⟩ := neverStarved went rfl listed admitted clear [] alone (by simp)
  cases early with
  | nil =>
    cases same
    exact claims
  | cons first rest => simp at same

end Passes
end Kodezart.Dispatch
