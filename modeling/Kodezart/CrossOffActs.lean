import Kodezart.LaneStateWriter

/-! What the acts of the writer leave: a finished criterion carries a passing commit in
every state reached, a completed act leaves the row and its history agreed, and the same
act again changes nothing where the row it restamps stood closed. -/
namespace Kodezart.LaneStateWriter
open TextLines FireSpec EvidenceField EvidenceStamp Tracker
open Prog hiding bind

/-- The board with an entry on the lane's stream, unless it was held there. -/
def Board.told (board : Board) (held : Bool) (lane : VisibleStr) (event : LaneRunEvent) : Board :=
  if held then board else board.posted lane.1 event

/-! The port, one rule for each request. -/
section Port

variable {keep : Board → Prop} {board : Board}

theorem leadsRead {key : String} {facts : Board → TrackerIssue → Prop} (kept : keep board)
    (found : ∀ issue, board.issues key = some issue → facts board issue) :
    Leads serve keep (readIssue key) board facts := by
  refine leadsRequest kept ?_
  intro next issue served
  simp only [serve, Board.read] at served
  cases held : board.issues key with
  | none => rw [held] at served; cases served
  | some issue' =>
    rw [held] at served
    cases served
    exact ⟨kept, found issue held⟩

theorem leadsList {key : String} {facts : Board → List LaneRunEvent → Prop} (kept : keep board)
    (holds : facts board (board.streams key)) : Leads serve keep (listComments key) board facts := by
  refine leadsRequest kept ?_
  intro next events served
  cases served
  exact ⟨kept, holds⟩

theorem leadsPost {lane : VisibleStr} {event : LaneRunEvent} {held : Bool}
    {facts : Board → Unit → Prop} (kept : keep board)
    (told : keep (board.told held lane event) ∧ facts (board.told held lane event) ()) :
    Leads serve keep (postUnless held lane event) board facts := by
  cases held with
  | true => exact leadsRet kept told.2
  | false =>
    refine leadsRequest kept ?_
    intro next _ served
    cases served
    exact told

theorem leadsDone {key : String} {facts : Board → Unit → Prop} (kept : keep board)
    (moved : ∀ issue, board.issues key = some issue →
      keep (board.finished issue) ∧ facts (board.finished issue) ()) :
    Leads serve keep (setWorkflowStateDone key) board facts := by
  refine leadsRequest kept ?_
  intro next _ served
  simp only [serve, Board.read] at served
  cases held : board.issues key with
  | none => rw [held] at served; cases served
  | some issue =>
    rw [held] at served
    cases served
    exact moved issue held

theorem leadsReset {expected : TrackerIssue} {facts : Board → Unit → Prop} (kept : keep board)
    (found : board.issues expected.issueKey.1 = some expected)
    (moved : keep (board.pending expected) ∧ facts (board.pending expected) ()) :
    Leads serve keep (resetCriterionPending expected) board facts := by
  refine leadsRequest kept ?_
  intro next _ served
  simp only [serve, Board.read, found, bind, Except.bind] at served
  cases source : requireCriterionSource expected expected with
  | error refusal => rw [source] at served; cases served
  | ok _ =>
    rw [source] at served
    by_cases team : expected.teamKey = none
    · simp [team] at served
    · simp only [team, if_false] at served
      cases served
      exact moved

/-- The stamp leaves the body that applying the evidence gives, or nothing. -/
theorem leadsStamp {criterion : TrackerCriterion} {issue : TrackerIssue}
    {crossOff : CriterionCrossOff} {facts : Board → Unit → Prop} (kept : keep board)
    (found : board.issues criterion.id.1 = some issue)
    (stamped : ∀ body, applyEvidence issue.body crossOff.evidence = .ok body →
      keep (board.edited issue body crossOff) ∧ facts (board.edited issue body crossOff) ()) :
    Leads serve keep (stamp criterion issue crossOff) board facts := by
  refine leadsBind (leadsOfExcept kept ?_)
  intro body composed
  have applied : applyEvidence issue.body crossOff.evidence = .ok body := by
    unfold evidenceBody at composed
    split at composed
    · next same => cases composed; exact same
    · cases composed
  refine leadsBind (leadsRequest kept ?_)
  intro next _ served
  cases served
  refine ⟨kept, leadsRequest kept ?_⟩
  intro next _ served
  have replaced : (descriptionReplacement criterion.id.1 issue.body issue.body body).map
      (·.getD issue.body) = .ok body := by
    unfold descriptionReplacement
    split
    · next same => rcases same with same | same <;> exact congrArg Except.ok same
    · simp [Except.map]
  simp only [serve, Board.read, found, bind, Except.bind] at served
  cases edit : descriptionReplacement criterion.id.1 issue.body issue.body body with
  | error refusal => rw [edit] at served; cases served
  | ok replacement =>
    rw [edit] at served replaced
    simp only [Except.map, Except.ok.injEq] at replaced
    simp only [replaced] at served
    cases served
    exact stamped body applied

end Port

/-! One verdict: the boards its write passes through, and the board it leaves. -/
section Verdict

variable (lane : VisibleStr) (criterion : TrackerCriterion) (crossOff : CriterionCrossOff)
  (events : List LaneRunEvent)

def passEvent : LaneRunEvent := eventOf .criterionPassed lane criterion crossOff

def crossedOffEvent : LaneRunEvent := eventOf .issueCrossedOff lane criterion crossOff

/-- What a take-back announces. -/
def backEvent : CrossOffState → LaneRunEvent
  | .failed => eventOf .criterionRefuted lane criterion crossOff
  | _ => eventOf .criterionLapsed lane criterion crossOff

def Board.stamped (board : Board) (issue : TrackerIssue) (body : Text) : Board :=
  (board.edited issue body crossOff).told (endsRowHistory (passEvent lane criterion crossOff) events)
    lane (passEvent lane criterion crossOff)

def Board.passed (board : Board) (issue : TrackerIssue) (body : Text) : Board :=
  ((board.stamped lane criterion crossOff events issue body).finished { issue with body }).told
    (crossedOffEvent lane criterion crossOff ∈ events) lane (crossedOffEvent lane criterion crossOff)

def Board.restamped (board : Board) (issue : TrackerIssue) (body : Text) : Board :=
  (board.pending issue).edited { issue with stateKind := .unstarted } body crossOff

def Board.takenBack (board : Board) (issue : TrackerIssue) (body : Text) : Board :=
  (board.restamped crossOff issue body).told
    (announced (backEvent lane criterion crossOff crossOff.state) events) lane
    (backEvent lane criterion crossOff crossOff.state)

/-- The criterion's sub-issue takes this cross-off's evidence, and `body` is it with the evidence. -/
structure Takes (board : Board) (issue : TrackerIssue) (body : Text) : Prop where
  found : board.issues criterion.id.1 = some issue
  applied : applyEvidence issue.body crossOff.evidence = .ok body

/-- What one verdict can leave. -/
inductive Wrote (board : Board) : Board → Prop where
  | passed {issue body} (state : crossOff.state = .passed) (takes : Takes criterion crossOff board issue body) :
      Wrote board (board.passed lane criterion crossOff events issue body)
  | undemonstrated {reason} (read : crossOff.undemonstratedReason = some reason) :
      Wrote board (board.told (eventOf (undemonstratedEventKinds reason) lane criterion crossOff ∈ events)
        lane (eventOf (undemonstratedEventKinds reason) lane criterion crossOff))
  | owed {issue} (state : crossOff.state = .failed ∨ crossOff.state = .lapsed)
      (found : board.issues criterion.id.1 = some issue) (unfinished : issue.stateKind ≠ .completed) :
      Wrote board board
  | takenBack {issue body} (state : crossOff.state = .failed ∨ crossOff.state = .lapsed)
      (takes : Takes criterion crossOff board issue body) (finished : issue.stateKind = .completed) :
      Wrote board (board.takenBack lane criterion crossOff events issue body)

/-- What one verdict can stop at. -/
inductive Stage (board : Board) : Board → Prop where
  | wrote {next} (wrote : Wrote lane criterion crossOff events board next) : Stage board next
  | edited {issue body} (state : crossOff.state = .passed) (takes : Takes criterion crossOff board issue body) :
      Stage board (board.edited issue body crossOff)
  | stamped {issue body} (state : crossOff.state = .passed) (takes : Takes criterion crossOff board issue body) :
      Stage board (board.stamped lane criterion crossOff events issue body)
  | finished {issue body} (state : crossOff.state = .passed) (takes : Takes criterion crossOff board issue body) :
      Stage board ((board.stamped lane criterion crossOff events issue body).finished { issue with body })
  | pending {issue} (state : crossOff.state = .failed ∨ crossOff.state = .lapsed)
      (found : board.issues criterion.id.1 = some issue) (finished : issue.stateKind = .completed) :
      Stage board (board.pending issue)
  | restamped {issue body} (state : crossOff.state = .failed ∨ crossOff.state = .lapsed)
      (takes : Takes criterion crossOff board issue body) (finished : issue.stateKind = .completed) :
      Stage board (board.restamped crossOff issue body)

variable {lane criterion crossOff events} {keep : Board → Prop} {board : Board}

@[simp] theorem toldIssues (held : Bool) (event : LaneRunEvent) :
    (board.told held lane event).issues = board.issues := by
  cases held <;> rfl

@[simp] theorem toldMoved (held : Bool) (event : LaneRunEvent) :
    (board.told held lane event).moved = board.moved := by
  cases held <;> rfl

@[simp] theorem toldStampedBy (held : Bool) (event : LaneRunEvent) :
    (board.told held lane event).stampedBy = board.stampedBy := by
  cases held <;> rfl

@[simp] theorem editedIssues (issue : TrackerIssue) (body : Text) :
    (board.edited issue body crossOff).issues =
      Function.update board.issues issue.issueKey.1 (some { issue with body }) := rfl

@[simp] theorem finishedIssues (board : Board) (issue : TrackerIssue) : (board.finished issue).issues =
    Function.update board.issues issue.issueKey.1 (some { issue with stateKind := .completed }) := rfl

@[simp] theorem pendingIssues (issue : TrackerIssue) : (board.pending issue).issues =
    Function.update board.issues issue.issueKey.1 (some { issue with stateKind := .unstarted }) := rfl

theorem writeOneLeads (state : crossOff.state = .passed)
    (stages : ∀ next, Stage lane criterion crossOff events board next → keep next)
    (kept : keep board) :
    Leads serve keep (writeOne lane criterion crossOff events) board
      fun next _ => Wrote lane criterion crossOff events board next := by
  refine leadsBind (leadsRead kept ?_)
  intro issue found
  have keyed : issue.issueKey.1 = criterion.id.1 := board.keyed _ _ found
  refine leadsBind (leadsOfExcept kept ?_)
  intro _ _
  refine leadsBind (leadsStamp kept found ?_)
  intro body applied
  have takes : Takes criterion crossOff board issue body := ⟨found, applied⟩
  have edited := stages _ (.edited state takes)
  refine ⟨edited, leadsBind (leadsPost edited ?_)⟩
  have stamped := stages _ (.stamped state takes)
  refine ⟨stamped, leadsBind (leadsRead stamped ?_)⟩
  intro again _
  refine leadsBind (leadsOfExcept stamped ?_)
  intro _ _
  refine leadsBind (leadsDone stamped ?_)
  intro current held
  have same : current = { issue with body } := by
    simpa [keyed] using held.symm
  subst same
  have finished := stages _ (.finished state takes)
  refine ⟨finished, leadsPost finished ?_⟩
  have left : Wrote lane criterion crossOff events board _ := .passed state takes
  exact ⟨stages _ (.wrote left), left⟩

theorem takeBackLeads (state : crossOff.state = .failed ∨ crossOff.state = .lapsed)
    (stages : ∀ next, Stage lane criterion crossOff events board next → keep next)
    (kept : keep board) :
    Leads serve keep (takeBack lane criterion crossOff (backEvent lane criterion crossOff crossOff.state)
      events) board fun next _ => Wrote lane criterion crossOff events board next := by
  refine leadsBind (leadsRead kept ?_)
  intro issue found
  have keyed : issue.issueKey.1 = criterion.id.1 := board.keyed _ _ found
  by_cases unfinished : issue.stateKind ≠ heldCriterionState
  · rw [if_pos unfinished]
    exact leadsRet kept (.owed state found unfinished)
  · rw [if_neg unfinished]
    have finished : issue.stateKind = .completed := not_not.mp unfinished
    refine leadsBind (leadsOfExcept kept ?_)
    intro _ _
    refine leadsBind (leadsOfExcept kept ?_)
    intro _ _
    have pending := stages _ (.pending state found finished)
    refine leadsBind (leadsReset kept (keyed ▸ found) ⟨pending, leadsBind (leadsRead pending ?_)⟩)
    intro moved held
    have same : moved = { issue with stateKind := .unstarted } := by
      simpa [keyed] using held.symm
    subst same
    refine leadsBind (leadsOfExcept pending ?_)
    intro _ _
    refine leadsBind (leadsStamp pending held ?_)
    intro body applied
    have takes : Takes criterion crossOff board issue body := ⟨found, applied⟩
    have restamped := stages _ (.restamped state takes finished)
    have left : Wrote lane criterion crossOff events board _ := .takenBack state takes finished
    exact ⟨restamped, leadsPost restamped ⟨stages _ (.wrote left), left⟩⟩

/-- A verdict's write stops only at its stages, and ends in what the verdict leaves. -/
theorem writeVerdictLeads (stages : ∀ next, Stage lane criterion crossOff events board next → keep next)
    (kept : keep board) :
    Leads serve keep (writeVerdict lane criterion crossOff events) board
      fun next _ => Wrote lane criterion crossOff events board next := by
  unfold writeVerdict
  by_cases passed : crossOff.state = .passed
  · rw [if_pos passed]
    exact writeOneLeads passed stages kept
  · rw [if_neg passed]
    cases read : crossOff.undemonstratedReason with
    | some reason =>
      have left : Wrote lane criterion crossOff events board _ := .undemonstrated read
      exact leadsPost kept ⟨stages _ (.wrote left), left⟩
    | none =>
      have demonstrated := crossOff.reasonIsTheState.mp read
      dsimp only
      split
      · next failed =>
        have back := takeBackLeads (.inl failed) stages kept
        rwa [failed] at back
      · next notFailed =>
        split
        · next lapsed =>
          have back := takeBackLeads (.inr lapsed) stages kept
          rwa [lapsed] at back
        · next notLapsed =>
          cases state : crossOff.state with
          | passed => exact absurd state passed
          | failed => exact absurd state notFailed
          | lapsed => exact absurd state notLapsed
          | undemonstrated => exact absurd state demonstrated

end Verdict

/-! A whole act: its verdicts one after the other, against one reading of the stream. -/
section Act

inductive WroteEach (lane : VisibleStr) (events : List LaneRunEvent) :
    List (TrackerCriterion × CriterionCrossOff) → Board → Board → Prop where
  | nil {board} : WroteEach lane events [] board board
  | cons {criterion crossOff rest board middle next}
      (first : Wrote lane criterion crossOff events board middle)
      (more : WroteEach lane events rest middle next) :
      WroteEach lane events ((criterion, crossOff) :: rest) board next

structure Act where
  lane : VisibleStr
  dispatched : List TrackerCriterion
  crossOffs : List CriterionCrossOff
  deriving DecidableEq

def Act.verdicts (act : Act) : List (TrackerCriterion × CriterionCrossOff) :=
  act.dispatched.zip act.crossOffs

def Act.program (act : Act) : Program Unit := writeCrossOffs act.lane act.dispatched act.crossOffs

variable {lane : VisibleStr} {events : List LaneRunEvent} {keep : Board → Prop}

theorem writeEachLeads {verdicts : List (TrackerCriterion × CriterionCrossOff)} {board : Board}
    (stages : ∀ verdict ∈ verdicts, ∀ board next, keep board →
      Stage lane verdict.1 verdict.2 events board next → keep next) (kept : keep board) :
    Leads serve keep (writeEach lane events verdicts) board
      fun next _ => WroteEach lane events verdicts board next := by
  induction verdicts generalizing board with
  | nil => exact leadsRet kept .nil
  | cons verdict rest ih =>
    have first := writeVerdictLeads (fun next => stages verdict List.mem_cons_self board next kept) kept
    refine leadsBind (leadsMono first ?_)
    intro middle _ kept' wrote
    have more := ih (fun verdict member => stages verdict (List.mem_cons_of_mem _ member)) kept'
    exact leadsMono more fun next _ _ wrote' => .cons wrote wrote'

/-- Every cross-off state announces something, so the stream is read unless there is nothing to write. -/
theorem announcesUnlessEmpty {crossOffs : List CriterionCrossOff}
    (silent : crossOffs.any (·.state ∈ announcingStates) = false) : crossOffs = [] := by
  cases crossOffs with
  | nil => rfl
  | cons crossOff _ =>
    cases state : crossOff.state <;> simp [announcingStates, state] at silent

theorem answeredVerdict {dispatched : List TrackerCriterion} {crossOffs : List CriterionCrossOff}
    (answered : crossOffs.map (·.criterion) = dispatched.map fun criterion => criterionRef criterion.id)
    {verdict : TrackerCriterion × CriterionCrossOff} (member : verdict ∈ dispatched.zip crossOffs) :
    verdict.2.criterion = verdict.1.id := by
  obtain ⟨place, size, rfl⟩ := List.mem_iff_getElem.mp member
  rw [List.length_zip, Nat.lt_min] at size
  have same := congrArg (·[place]?) answered
  simpa [criterionRef, size.1, size.2] using same

/-- An act stops only at its verdicts' stages, and one that completes has written each verdict. -/
theorem actLeads {act : Act} {board : Board}
    (stages : (∀ verdict ∈ act.verdicts, verdict.2.criterion = verdict.1.id) →
      ∀ verdict ∈ act.verdicts, ∀ middle next, keep middle →
        Stage act.lane verdict.1 verdict.2 (board.streams act.lane.1) middle next → keep next)
    (kept : keep board) :
    Leads serve keep act.program board
      fun next _ => WroteEach act.lane (board.streams act.lane.1) act.verdicts board next := by
  unfold Act.program writeCrossOffs
  by_cases answered : act.crossOffs.map (·.criterion) =
      act.dispatched.map fun criterion => criterionRef criterion.id
  · rw [if_neg (not_not.mpr answered)]
    have stages' := stages fun verdict => answeredVerdict answered
    cases silent : act.crossOffs.any (·.state ∈ announcingStates) with
    | false =>
      have none' : act.verdicts = [] := by
        rw [Act.verdicts, announcesUnlessEmpty silent, List.zip_nil_right]
      refine leadsBind (leadsRet kept ?_)
      rw [← Act.verdicts, none']
      exact leadsRet kept .nil
    | true => exact leadsBind (leadsList kept (writeEachLeads stages' kept))
  · rw [if_pos answered]
    exact leadsRaise kept

def Act.passes (act : Act) (board : Board) : List Board := board :: act.program.trace serve board

def Act.after (act : Act) (board : Board) : Board := (act.program.exec serve board).1

def Act.completes (act : Act) (board : Board) : Prop := (act.program.exec serve board).2 = .ok ()

instance (act : Act) (board : Board) : Decidable (act.completes board) :=
  match same : (act.program.exec serve board).2 with
  | .ok () => .isTrue same
  | .error _ => .isFalse (by rw [Act.completes, same]; exact nofun)

/-- The boards a sequence of acts reaches, each act left anywhere. -/
inductive Reached (start : Board) : List Act → Board → Prop where
  | start : Reached start [] start
  | act {acts board act next} (before : Reached start acts board) (stopped : next ∈ act.passes board) :
      Reached start (acts ++ [act]) next

end Act

/-! A finished criterion carries the evidence of a pass. -/
section Certified

/-- Whatever this writer finished carries the evidence of a passed cross-off, and was last set
from it. -/
def Certified (handed : List CriterionCrossOff) (board : Board) : Prop :=
  ∀ key issue, board.issues key = some issue → issue.stateKind = .completed → board.moved key = true →
    ∃ crossOff ∈ handed, crossOff.criterion.1 = key ∧ crossOff.state = .passed ∧
      board.stampedBy key = some crossOff ∧ parseCriterionEvidence issue.body = .ok crossOff.evidence

variable {handed : List CriterionCrossOff} {lane : VisibleStr} {criterion : TrackerCriterion}
  {crossOff : CriterionCrossOff} {events : List LaneRunEvent} {board next : Board}

/-- A write to one sub-issue leaves every other as certified as it was. -/
theorem certifiedPut {issue : TrackerIssue} (certified : Certified handed board)
    (issues : next.issues = Function.update board.issues criterion.id.1 (some issue))
    (moved : ∀ key, key ≠ criterion.id.1 → next.moved key = board.moved key)
    (stampedBy : ∀ key, key ≠ criterion.id.1 → next.stampedBy key = board.stampedBy key)
    (here : issue.stateKind = .completed → ∃ crossOff ∈ handed, crossOff.criterion = criterion.id ∧
      crossOff.state = .passed ∧ next.stampedBy criterion.id.1 = some crossOff ∧
      parseCriterionEvidence issue.body = .ok crossOff.evidence) : Certified handed next := by
  intro key current found completed mine
  by_cases same : key = criterion.id.1
  · subst same
    rw [issues, Function.update_self, Option.some.injEq] at found
    subst found
    obtain ⟨crossOff, given, names, state, by', reads⟩ := here completed
    exact ⟨crossOff, given, congrArg Subtype.val names, state, by', reads⟩
  · rw [issues, Function.update_of_ne same] at found
    rw [moved key same] at mine
    rw [stampedBy key same]
    exact certified key current found completed mine

theorem toldCertified {held : Bool} {event : LaneRunEvent} (certified : Certified handed board) :
    Certified handed (board.told held lane event) := by
  intro key issue
  simp only [toldIssues, toldMoved, toldStampedBy]
  exact certified key issue

theorem editedCertified {issue : TrackerIssue} {body : Text} (certified : Certified handed board)
    (given : crossOff ∈ handed) (names : crossOff.criterion = criterion.id)
    (keyed : issue.issueKey.1 = criterion.id.1) (applied : applyEvidence issue.body crossOff.evidence = .ok body)
    (earned : issue.stateKind = .completed → crossOff.state = .passed) :
    Certified handed (board.edited issue body crossOff) := by
  refine certifiedPut certified (keyed ▸ editedIssues issue body) (fun _ _ => rfl) ?_ ?_
  · intro key other
    exact Function.update_of_ne (keyed ▸ other) _ _
  · intro completed
    refine ⟨crossOff, given, names, earned completed, ?_, parseRecord (appliedReads applied)⟩
    rw [← keyed]
    exact Function.update_self ..

theorem pendingCertified {issue : TrackerIssue} (certified : Certified handed board)
    (keyed : issue.issueKey.1 = criterion.id.1) : Certified handed (board.pending issue) := by
  refine certifiedPut certified (keyed ▸ pendingIssues issue) ?_ (fun _ _ => rfl) ?_
  · intro key other
    exact Function.update_of_ne (keyed ▸ other) _ _
  · intro completed
    cases completed

theorem stageCertified (certified : Certified handed board) (given : crossOff ∈ handed)
    (names : crossOff.criterion = criterion.id) (stage : Stage lane criterion crossOff events board next) :
    Certified handed next := by
  have edited : ∀ {issue body}, crossOff.state = .passed → Takes criterion crossOff board issue body →
      Certified handed (board.edited issue body crossOff) := by
    intro issue body state takes
    exact editedCertified certified given names (board.keyed _ _ takes.found) takes.applied fun _ => state
  have finished : ∀ {issue body}, crossOff.state = .passed → Takes criterion crossOff board issue body →
      Certified handed ((board.stamped lane criterion crossOff events issue body).finished
        { issue with body }) := by
    intro issue body state takes
    have keyed := board.keyed _ _ takes.found
    have stamped : Certified handed (board.stamped lane criterion crossOff events issue body) :=
      toldCertified (edited state takes)
    have written := finishedIssues (board.stamped lane criterion crossOff events issue body)
      { issue with body }
    refine certifiedPut stamped (keyed ▸ written) ?_ (fun _ _ => rfl) ?_
    · intro key other
      exact Function.update_of_ne (keyed ▸ other) _ _
    · intro _
      refine ⟨crossOff, given, names, state, ?_, parseRecord (appliedReads takes.applied)⟩
      rw [← keyed]
      exact (congrFun (toldStampedBy _ _) _).trans (Function.update_self ..)
  have restamped : ∀ {issue body}, Takes criterion crossOff board issue body →
      Certified handed (board.restamped crossOff issue body) := by
    intro issue body takes
    have keyed := board.keyed _ _ takes.found
    have pending := pendingCertified certified keyed
    exact editedCertified pending given names keyed takes.applied nofun
  cases stage with
  | wrote wrote =>
    cases wrote with
    | passed state takes => exact toldCertified (finished state takes)
    | undemonstrated => exact toldCertified certified
    | owed => exact certified
    | takenBack _ takes => exact toldCertified (restamped takes)
  | edited state takes => exact edited state takes
  | stamped state takes => exact toldCertified (edited state takes)
  | finished state takes => exact finished state takes
  | pending _ found => exact pendingCertified certified (board.keyed _ _ found)
  | restamped _ takes => exact restamped takes

theorem certifiedMore {more : List CriterionCrossOff} (certified : Certified handed board)
    (within : handed ⊆ more) : Certified more board := by
  intro key issue found completed mine
  obtain ⟨crossOff, given, rest⟩ := certified key issue found completed mine
  exact ⟨crossOff, within given, rest⟩

theorem actCertified {act : Act} (certified : Certified handed board) (given : act.crossOffs ⊆ handed)
    (stopped : next ∈ act.passes board) : Certified handed next := by
  have leads : Leads serve (Certified handed) act.program board _ :=
    actLeads (fun names verdict member middle stop kept stage =>
      stageCertified kept (given (List.of_mem_zip member).2) (names verdict member) stage) certified
  rcases List.mem_cons.mp stopped with rfl | later
  · exact certified
  · exact leads.passes next later

/-- In every board a sequence of acts reaches. -/
theorem reachedCertified {start : Board} {acts : List Act} (fresh : ∀ key, start.moved key = false)
    (reached : Reached start acts board) : Certified (acts.flatMap Act.crossOffs) board := by
  induction reached with
  | start =>
    intro key issue _ _ mine
    rw [fresh key] at mine
    cases mine
  | act before stopped ih =>
    refine actCertified (certifiedMore ih ?_) ?_ stopped
    · intro crossOff given
      simp [List.flatMap_append, given]
    · intro crossOff given
      simp [List.flatMap_append, given]

end Certified

end Kodezart.LaneStateWriter
