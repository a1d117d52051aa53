import Kodezart.CrossOffActs

/-! What a completed act leaves of each verdict, whatever its other verdicts write: the row
and its history agree, and the same act again changes nothing where the rows stood set off. -/
namespace Kodezart.LaneStateWriter
open TextLines FireSpec EvidenceField EvidenceStamp Tracker
open Prog hiding bind

section Frame

variable {lane : VisibleStr} {events : List LaneRunEvent} {criterion : TrackerCriterion}
  {crossOff : CriterionCrossOff} {ids more : List CriterionId} {board middle next start : Board}

/-- Only these criteria are written about: their sub-issues, and entries about them on the
lane's stream. -/
structure Frame (lane : VisibleStr) (ids : List CriterionId) (board next : Board) : Prop where
  issues : ∀ id ∉ ids, next.issues id.1 = board.issues id.1
  stream : ∃ added, next.streams lane.1 = board.streams lane.1 ++ added ∧
    ∀ entry ∈ added, ∃ id ∈ ids, entry.subjectKey = some id

theorem frameRefl (ids : List CriterionId) : Frame lane ids board board :=
  ⟨fun _ _ => rfl, [], by simp, by simp⟩

theorem frameTrans (first : Frame lane ids board middle) (second : Frame lane more middle next) :
    Frame lane (ids ++ more) board next := by
  obtain ⟨added, appended, about⟩ := first.stream
  obtain ⟨added', appended', about'⟩ := second.stream
  refine ⟨?_, added ++ added', by rw [appended', appended, List.append_assoc], ?_⟩
  · intro id apart
    simp only [List.mem_append, not_or] at apart
    rw [second.issues id apart.2, first.issues id apart.1]
  · intro entry member
    rcases List.mem_append.mp member with early | late
    · obtain ⟨id, inside, same⟩ := about entry early
      exact ⟨id, List.mem_append_left _ inside, same⟩
    · obtain ⟨id, inside, same⟩ := about' entry late
      exact ⟨id, List.mem_append_right _ inside, same⟩

theorem frameKeeps (frame : Frame lane ids board next) {entry : LaneRunEvent}
    (member : entry ∈ board.streams lane.1) : entry ∈ next.streams lane.1 := by
  obtain ⟨added, appended, _⟩ := frame.stream
  rw [appended]
  exact List.mem_append_left _ member

/-- The row history of a criterion nothing is written about. -/
theorem frameHistory (frame : Frame lane ids board next) {id : CriterionId} (apart : id ∉ ids) :
    rowHistory (next.streams lane.1) (some id) = rowHistory (board.streams lane.1) (some id) := by
  obtain ⟨added, appended, about⟩ := frame.stream
  have others : rowHistory added (some id) = [] := by
    refine rowHistoryOthers ?_
    intro entry member same
    obtain ⟨other, inside, subject⟩ := about entry member
    rw [subject, Option.some.injEq] at same
    exact apart (same ▸ inside)
  rw [appended, rowHistoryAppend, others, List.append_nil]

theorem frameEnds (frame : Frame lane ids board next) {event : LaneRunEvent} {id : CriterionId}
    (subject : event.subjectKey = some id) (apart : id ∉ ids) :
    endsRowHistory event (next.streams lane.1) = endsRowHistory event (board.streams lane.1) := by
  rw [endsRowHistory, endsRowHistory, subject, frameHistory frame apart]

theorem framePut (issue : TrackerIssue) (keyed : issue.issueKey.1 = criterion.id.1)
    (issues : next.issues = Function.update board.issues issue.issueKey.1 (some issue))
    (streams : next.streams = board.streams) : Frame lane [criterion.id] board next := by
  refine ⟨?_, [], by simp [streams], by simp⟩
  intro id apart
  rw [issues, keyed, Function.update_of_ne]
  intro same
  exact apart (List.mem_singleton.mpr (Subtype.ext same))

theorem frameTold (frame : Frame lane [criterion.id] board next) {held : Bool} {event : LaneRunEvent}
    (subject : event.subjectKey = some criterion.id) :
    Frame lane [criterion.id] board (next.told held lane event) := by
  cases held with
  | true => exact frame
  | false =>
    obtain ⟨added, appended, about⟩ := frame.stream
    refine ⟨frame.issues, added ++ [event], ?_, ?_⟩
    · rw [← List.append_assoc, ← appended]
      exact Function.update_self ..
    · intro entry member
      rcases List.mem_append.mp member with early | late
      · exact about entry early
      · exact ⟨criterion.id, by simp, by rw [List.mem_singleton.mp late, subject]⟩

theorem backSubject (state : CrossOffState) :
    (backEvent lane criterion crossOff state).subjectKey = some criterion.id := by
  cases state <;> rfl

/-- A verdict writes about its own criterion. -/
theorem wroteFrame (wrote : Wrote lane criterion crossOff events board next) :
    Frame lane [criterion.id] board next := by
  cases wrote with
  | @passed issue body state takes =>
    have keyed := board.keyed _ _ takes.found
    have edited : Frame lane [criterion.id] board (board.edited issue body crossOff) :=
      framePut { issue with body } keyed rfl rfl
    have stamped : Frame lane [criterion.id] board (board.stamped lane criterion crossOff events issue body) :=
      frameTold edited rfl
    have finished : Frame lane [criterion.id] board
        ((board.stamped lane criterion crossOff events issue body).finished { issue with body }) := by
      refine ⟨?_, stamped.stream⟩
      intro id apart
      rw [finishedIssues, keyed, Function.update_of_ne, stamped.issues id apart]
      intro same
      exact apart (List.mem_singleton.mpr (Subtype.ext same))
    exact frameTold finished rfl
  | undemonstrated => exact frameTold (frameRefl _) rfl
  | owed => exact frameRefl _
  | @takenBack issue body state takes finished =>
    have keyed := board.keyed _ _ takes.found
    refine frameTold ?_ (backSubject _)
    refine framePut { issue with body, stateKind := .unstarted } keyed ?_ rfl
    simp [Board.restamped]

theorem wroteEachFrame {verdicts : List (TrackerCriterion × CriterionCrossOff)}
    (wrote : WroteEach lane events verdicts board next) :
    Frame lane (verdicts.map (·.1.id)) board next := by
  induction wrote with
  | nil => exact frameRefl _
  | cons first _ ih => exact frameTrans (wroteFrame first) ih

end Frame

/-! One verdict between the start and the end of its act. -/
section Left

variable {lane : VisibleStr} {criterion : TrackerCriterion} {crossOff : CriterionCrossOff}
  {events : List LaneRunEvent} {board middle next start final : Board}

/-- The row of a criterion names the commit its last row-write entry does, and that entry is of
this kind. -/
def RowAgrees (lane : VisibleStr) (kind : RunEventKind) (id : CriterionId) (board : Board) : Prop :=
  ∃ issue evidence, board.issues id.1 = some issue ∧ parseCriterionEvidence issue.body = .ok evidence ∧
    (rowHistory (board.streams lane.1) (some id)).getLast? =
      some ⟨kind, lane, some id, some evidence.gradedSha.named⟩

inductive Left (lane : VisibleStr) (criterion : TrackerCriterion) (crossOff : CriterionCrossOff)
    (start final : Board) : Prop where
  | passed {issue body} (state : crossOff.state = .passed)
      (takes : Takes criterion crossOff start issue body)
      (leaves : final.issues criterion.id.1 = some { issue with body, stateKind := .completed })
      (history : endsRowHistory (passEvent lane criterion crossOff) (final.streams lane.1))
      (account : crossedOffEvent lane criterion crossOff ∈ final.streams lane.1)
  | undemonstrated (state : crossOff.state = .undemonstrated)
      (read : ∀ reason, crossOff.undemonstratedReason = some reason →
        eventOf (undemonstratedEventKinds reason) lane criterion crossOff ∈ final.streams lane.1)
  | owed {issue} (state : crossOff.state = .failed ∨ crossOff.state = .lapsed)
      (found : start.issues criterion.id.1 = some issue) (unfinished : issue.stateKind ≠ .completed)
      (leaves : final.issues criterion.id.1 = some issue)
  | takenBack {issue body} (state : crossOff.state = .failed ∨ crossOff.state = .lapsed)
      (takes : Takes criterion crossOff start issue body)
      (leaves : final.issues criterion.id.1 = some { issue with body, stateKind := .unstarted })
      (history : crossOff.state = .failed →
        endsRowHistory (backEvent lane criterion crossOff .failed) (final.streams lane.1))

theorem toldKeeps (board : Board) {event entry : LaneRunEvent} {held : Bool} (member : entry ∈ board.streams lane.1) :
    entry ∈ (board.told held lane event).streams lane.1 := by
  cases held with
  | true => exact member
  | false => simp [Board.told, Board.posted, member]

theorem toldMember {event : LaneRunEvent} (within : events ⊆ board.streams lane.1) :
    event ∈ (board.told (event ∈ events) lane event).streams lane.1 := by
  by_cases held : event ∈ events
  · simpa [Board.told, held] using within held
  · simp [Board.told, held, Board.posted]

/-- An entry told unless the history ends at it is what the history ends at. -/
theorem toldEnds (board : Board) {event : LaneRunEvent} (row : event.kind ∈ evidenceRowWrites)
    (same : endsRowHistory event events = endsRowHistory event (board.streams lane.1)) :
    endsRowHistory event ((board.told (endsRowHistory event events) lane event).streams lane.1) := by
  rw [same]
  cases held : endsRowHistory event (board.streams lane.1) with
  | true => simpa [Board.told] using held
  | false =>
    have own : rowHistory [event] event.subjectKey = [event] := by simp [rowHistory, row]
    simp [Board.told, Board.posted, endsRowHistory, rowHistoryAppend, own]

theorem toldKeepsEnds {event other : LaneRunEvent} {held : Bool}
    (notRow : other.kind ∉ evidenceRowWrites) :
    endsRowHistory event ((board.told held lane other).streams lane.1) =
      endsRowHistory event (board.streams lane.1) := by
  cases held with
  | true => rfl
  | false =>
    have none' : rowHistory [other] event.subjectKey = [] := by simp [rowHistory, notRow]
    simp [Board.told, Board.posted, endsRowHistory, rowHistoryAppend, none']

theorem undemonstratedState {reason : UndemonstratedReason}
    (read : crossOff.undemonstratedReason = some reason) : crossOff.state = .undemonstrated := by
  by_contra other
  have none' := crossOff.reasonIsTheState.mpr other
  rw [read] at none'
  cases none'

variable {done later : List CriterionId}

/-- What a verdict wrote is what its act leaves, its own criterion written by no other verdict. -/
theorem leftWrote (before : Frame lane done start board) (early : criterion.id ∉ done)
    (wrote : Wrote lane criterion crossOff (start.streams lane.1) board middle)
    (after : Frame lane later middle final) (late : criterion.id ∉ later) :
    Left lane criterion crossOff start final := by
  have within : start.streams lane.1 ⊆ board.streams lane.1 := fun entry => frameKeeps before
  have found : board.issues criterion.id.1 = start.issues criterion.id.1 := before.issues _ early
  have leaves : final.issues criterion.id.1 = middle.issues criterion.id.1 := after.issues _ late
  cases wrote with
  | @passed issue body state takes =>
    have keyed := board.keyed _ _ takes.found
    refine .passed state ⟨found ▸ takes.found, takes.applied⟩ ?_ ?_ ?_
    · rw [leaves, ← keyed]
      simp [Board.passed]
    · rw [frameEnds after rfl late, Board.passed, toldKeepsEnds (by simp [crossedOffEvent, eventOf,
        evidenceRowWrites])]
      exact toldEnds (board.edited issue body crossOff)
        (by simp [passEvent, eventOf, evidenceRowWrites]) (frameEnds before rfl early).symm
    · refine frameKeeps after (toldMember ?_)
      intro entry member
      exact toldKeeps (board.edited issue body crossOff) (within member)
  | @undemonstrated reason read =>
    refine .undemonstrated (undemonstratedState read) ?_
    intro other same
    rw [read, Option.some.injEq] at same
    subst same
    exact frameKeeps after (toldMember within)
  | @owed issue state held unfinished => exact .owed state (found ▸ held) unfinished (leaves.trans held)
  | @takenBack issue body state takes finished =>
    have keyed := board.keyed _ _ takes.found
    refine .takenBack state ⟨found ▸ takes.found, takes.applied⟩ ?_ ?_
    · rw [leaves, ← keyed]
      simp [Board.takenBack, Board.restamped]
    · intro failed
      have row : (backEvent lane criterion crossOff .failed).kind ∈ evidenceRowWrites := by
        simp [backEvent, eventOf, evidenceRowWrites]
      rw [frameEnds after rfl late, Board.takenBack, failed, announced, if_pos row]
      exact toldEnds (board.restamped crossOff issue body) row (frameEnds before rfl early).symm

theorem leftEach {verdicts : List (TrackerCriterion × CriterionCrossOff)}
    (before : Frame lane done start board) (wrote : WroteEach lane (start.streams lane.1) verdicts board final)
    (distinct : (done ++ verdicts.map (·.1.id)).Nodup) :
    ∀ verdict ∈ verdicts, Left lane verdict.1 verdict.2 start final := by
  induction wrote generalizing done with
  | nil => simp
  | @cons criterion crossOff rest board middle next first more ih =>
    simp only [List.map_cons] at distinct
    have early : criterion.id ∉ done := fun inside =>
      (List.nodup_append.mp distinct).2.2 _ inside _ List.mem_cons_self rfl
    have late : criterion.id ∉ rest.map (·.1.id) :=
      (List.nodup_cons.mp (List.nodup_append.mp distinct).2.1).1
    intro verdict member
    rcases List.mem_cons.mp member with rfl | inside
    · exact leftWrote before early first (wroteEachFrame more) late
    · refine ih (frameTrans before (wroteFrame first)) ?_ verdict inside
      rwa [List.append_assoc]

theorem verdictIds (dispatched : List TrackerCriterion) (crossOffs : List CriterionCrossOff) :
    ((dispatched.zip crossOffs).map (·.1.id)).Sublist (dispatched.map (·.id)) := by
  induction dispatched generalizing crossOffs with
  | nil => simp
  | cons criterion rest ih =>
    cases crossOffs with
    | nil => simp
    | cons _ crossOffs => exact (ih crossOffs).cons_cons criterion.id

/-- What a completed act leaves, verdict by verdict. -/
theorem actLeft {act : Act} (completes : act.completes board)
    (distinct : (act.dispatched.map (·.id)).Nodup) :
    ∀ verdict ∈ act.verdicts, Left act.lane verdict.1 verdict.2 board (act.after board) := by
  have leads : Leads serve (fun _ => True) act.program board fun next _ =>
      WroteEach act.lane (board.streams act.lane.1) act.verdicts board next :=
    actLeads (fun _ _ _ _ _ _ _ => trivial) trivial
  exact leftEach (frameRefl []) (leads.ends () completes)
    ((verdictIds act.dispatched act.crossOffs).nodup distinct)

theorem leftRowAgrees (left : Left lane criterion crossOff start final) :
    (crossOff.state = .passed → RowAgrees lane .criterionPassed criterion.id final) ∧
      (crossOff.state = .failed → (∃ issue, start.issues criterion.id.1 = some issue ∧
          issue.stateKind = .completed) → RowAgrees lane .criterionRefuted criterion.id final) := by
  cases left with
  | passed state takes leaves history =>
    refine ⟨fun _ => ?_, fun failed => ?_⟩
    · exact ⟨_, _, leaves, parseRecord (appliedReads takes.applied), of_decide_eq_true history⟩
    · rw [state] at failed
      cases failed
  | undemonstrated state =>
    exact ⟨fun passed => (by rw [state] at passed; cases passed),
      fun failed => (by rw [state] at failed; cases failed)⟩
  | owed state found unfinished =>
    refine ⟨fun passed => ?_, fun _ finished => ?_⟩
    · rw [passed] at state
      rcases state with state | state <;> cases state
    · obtain ⟨issue, held, completed⟩ := finished
      rw [found, Option.some.injEq] at held
      exact absurd (held ▸ completed) unfinished
  | takenBack state takes leaves history =>
    refine ⟨fun passed => ?_, fun failed _ => ?_⟩
    · rw [passed] at state
      rcases state with state | state <;> cases state
    · exact ⟨_, _, leaves, parseRecord (appliedReads takes.applied), of_decide_eq_true (history failed)⟩

end Left

/-! The same act again. -/
section Again

variable {lane : VisibleStr} {criterion : TrackerCriterion} {crossOff : CriterionCrossOff}
  {act : Act} {board middle next start final : Board}

structure Unchanged (board next : Board) : Prop where
  issues : next.issues = board.issues
  streams : next.streams = board.streams

/-- Whatever is passed through when the act is run again from where it ended stands as it did. -/
def Repeats (act : Act) (board : Board) : Prop :=
  ∀ next ∈ act.passes (act.after board), Unchanged (act.after board) next

/-- The rows the act's passes are stamped on are set off. -/
def RowsSetOff (act : Act) (board : Board) : Prop :=
  ∀ verdict ∈ act.verdicts, verdict.2.state = .passed →
    ∀ issue, board.issues verdict.1.id.1 = some issue → RowSetOff issue.body

theorem putUnchanged (issue : TrackerIssue) (unchanged : Unchanged board middle)
    (found : middle.issues issue.issueKey.1 = some issue)
    (issues : next.issues = Function.update middle.issues issue.issueKey.1 (some issue))
    (streams : next.streams = middle.streams) : Unchanged board next := by
  refine ⟨?_, streams.trans unchanged.streams⟩
  rw [issues, ← found, Function.update_eq_self, unchanged.issues]

theorem toldUnchanged {event : LaneRunEvent} {held : Bool} (unchanged : Unchanged board middle)
    (stands : held = true) : Unchanged board (middle.told held lane event) := by
  subst stands
  exact unchanged

/-- A pass as its act left it: its row, its state and its two entries. -/
structure PassStands (lane : VisibleStr) (criterion : TrackerCriterion) (crossOff : CriterionCrossOff)
    (board : Board) : Prop where
  row : ∀ issue body, Takes criterion crossOff board issue body →
    body = issue.body ∧ issue.stateKind = .completed
  history : endsRowHistory (passEvent lane criterion crossOff) (board.streams lane.1)
  account : crossedOffEvent lane criterion crossOff ∈ board.streams lane.1

theorem leftPassStands (left : Left lane criterion crossOff start final) (state : crossOff.state = .passed)
    (setOff : ∀ issue, start.issues criterion.id.1 = some issue → RowSetOff issue.body) :
    PassStands lane criterion crossOff final := by
  cases left with
  | @passed issue body _ takes leaves history account =>
    refine ⟨?_, history, account⟩
    intro current again takes'
    have same := takes'.found
    rw [leaves, Option.some.injEq] at same
    have applied := takes'.applied
    rw [← same] at applied ⊢
    exact ⟨restamped (setOff issue takes.found) takes.applied applied, rfl⟩
  | undemonstrated other => rw [state] at other; cases other
  | owed other => rw [state] at other; rcases other with other | other <;> cases other
  | takenBack other => rw [state] at other; rcases other with other | other <;> cases other

theorem leftUnfinished (left : Left lane criterion crossOff start final)
    (state : crossOff.state = .failed ∨ crossOff.state = .lapsed) {issue : TrackerIssue}
    (found : final.issues criterion.id.1 = some issue) : issue.stateKind ≠ .completed := by
  cases left with
  | passed other => rw [other] at state; rcases state with state | state <;> cases state
  | undemonstrated other => rw [other] at state; rcases state with state | state <;> cases state
  | owed _ _ unfinished leaves =>
    rw [leaves, Option.some.injEq] at found
    exact found ▸ unfinished
  | takenBack _ _ leaves =>
    rw [leaves, Option.some.injEq] at found
    rw [← found]
    exact nofun

theorem leftRead (left : Left lane criterion crossOff start final) {reason : UndemonstratedReason}
    (read : crossOff.undemonstratedReason = some reason) :
    eventOf (undemonstratedEventKinds reason) lane criterion crossOff ∈ final.streams lane.1 := by
  have state := undemonstratedState read
  cases left with
  | passed other => rw [state] at other; cases other
  | undemonstrated _ stands => exact stands reason read
  | owed other => rw [state] at other; rcases other with other | other <;> cases other
  | takenBack other => rw [state] at other; rcases other with other | other <;> cases other

section Standing

variable (stands : PassStands lane criterion crossOff final) (unchanged : Unchanged final middle)
  {issue : TrackerIssue} {body : Text} (takes : Takes criterion crossOff middle issue body)
include stands unchanged takes

theorem passSame : body = issue.body ∧ issue.stateKind = .completed :=
  stands.row issue body ⟨unchanged.issues ▸ takes.found, takes.applied⟩

theorem editedUnchanged : Unchanged final (middle.edited issue body crossOff) := by
  obtain ⟨same, _⟩ := passSame stands unchanged takes
  subst same
  exact putUnchanged issue unchanged (middle.keyed _ _ takes.found ▸ takes.found) (editedIssues _ _) rfl

theorem stampedUnchanged :
    Unchanged final (middle.stamped lane criterion crossOff (final.streams lane.1) issue body) :=
  toldUnchanged (editedUnchanged stands unchanged takes) stands.history

theorem finishedUnchanged :
    Unchanged final ((middle.stamped lane criterion crossOff (final.streams lane.1) issue body).finished
      { issue with body }) := by
  obtain ⟨same, completed⟩ := passSame stands unchanged takes
  have whole : { issue with body, stateKind := .completed } = issue := by
    rw [same, ← completed]
  have stamped := stampedUnchanged stands unchanged takes
  refine putUnchanged issue stamped ?_ ?_ rfl
  · rw [stamped.issues, ← unchanged.issues, middle.keyed _ _ takes.found, takes.found]
  · rw [finishedIssues, whole]

theorem passedUnchanged :
    Unchanged final (middle.passed lane criterion crossOff (final.streams lane.1) issue body) :=
  toldUnchanged (finishedUnchanged stands unchanged takes) (decide_eq_true stands.account)

end Standing

theorem stageUnchanged (left : Left lane criterion crossOff start final)
    (setOff : crossOff.state = .passed → ∀ issue, start.issues criterion.id.1 = some issue →
      RowSetOff issue.body)
    (unchanged : Unchanged final middle)
    (stage : Stage lane criterion crossOff (final.streams lane.1) middle next) :
    Unchanged final next := by
  have unfinished : (crossOff.state = .failed ∨ crossOff.state = .lapsed) → ∀ {issue : TrackerIssue},
      middle.issues criterion.id.1 = some issue → issue.stateKind ≠ .completed := by
    intro state issue found
    rw [unchanged.issues] at found
    exact leftUnfinished left state found
  cases stage with
  | wrote wrote =>
    cases wrote with
    | passed state takes => exact passedUnchanged (leftPassStands left state (setOff state)) unchanged takes
    | undemonstrated read => exact toldUnchanged unchanged (decide_eq_true (leftRead left read))
    | owed => exact unchanged
    | takenBack state takes finished => exact absurd finished (unfinished state takes.found)
  | edited state takes => exact editedUnchanged (leftPassStands left state (setOff state)) unchanged takes
  | stamped state takes => exact stampedUnchanged (leftPassStands left state (setOff state)) unchanged takes
  | finished state takes => exact finishedUnchanged (leftPassStands left state (setOff state)) unchanged takes
  | pending state found finished => exact absurd finished (unfinished state found)
  | restamped state takes finished => exact absurd finished (unfinished state takes.found)

theorem completedRepeats (completes : act.completes board)
    (distinct : (act.dispatched.map (·.id)).Nodup) (setOff : RowsSetOff act board) :
    Repeats act board := by
  have left := actLeft completes distinct
  have leads : Leads serve (Unchanged (act.after board)) act.program (act.after board) _ :=
    actLeads (fun _ verdict member middle next unchanged stage =>
      stageUnchanged (left verdict member) (setOff verdict member) unchanged stage) ⟨rfl, rfl⟩
  intro next stopped
  rcases List.mem_cons.mp stopped with rfl | later
  · exact ⟨rfl, rfl⟩
  · exact leads.passes next later

end Again

/-- What the writer finished carries the evidence of a pass in every board reached; a completed
act's rows agree with their history, and the act again changes nothing where they were set off. -/
theorem writesConsistent {start board : Board} {acts : List Act}
    (fresh : ∀ key, start.moved key = false) (reached : Reached start acts board) :
    Certified (acts.flatMap Act.crossOffs) board ∧
      ∀ act, act.completes board → (act.dispatched.map (·.id)).Nodup →
        (∀ verdict ∈ act.verdicts,
          (verdict.2.state = .passed →
            RowAgrees act.lane .criterionPassed verdict.1.id (act.after board)) ∧
          (verdict.2.state = .failed →
            (∃ issue, board.issues verdict.1.id.1 = some issue ∧ issue.stateKind = .completed) →
            RowAgrees act.lane .criterionRefuted verdict.1.id (act.after board))) ∧
        (RowsSetOff act board → Repeats act board) := by
  refine ⟨reachedCertified fresh reached, ?_⟩
  intro act completes distinct
  refine ⟨?_, completedRepeats completes distinct⟩
  intro verdict member
  exact leftRowAgrees (actLeft completes distinct verdict member)

def laneOne : VisibleStr := ⟨"KOD-30", by decide⟩

def criterionOne : TrackerCriterion := ⟨⟨"KOD-31", by decide⟩, ⟨"c", by decide⟩⟩

def issueOne (body : Text) : TrackerIssue :=
  { issueKey := ⟨"KOD-31", by decide⟩
    body
    priority := .medium
    stateKind := .unstarted
    issueLabels := ["criterion"]
    parentKey := some ⟨"KOD-30", by decide⟩
    teamKey := some ⟨"KOD", by decide⟩
    createdAt := 0 }

def boardOf (body : Text) : Board :=
  { issues := fun key => if key = "KOD-31" then some (issueOne body) else none
    keyed := by
      intro key issue found
      split at found
      · next same => cases found; exact same.symm
      · cases found
    streams := fun _ => [] }

def actOf (state : CrossOffState) (demonstrated : state ≠ .undemonstrated) : Act :=
  { lane := laneOne
    dispatched := [criterionOne]
    crossOffs := [{ criterion := criterionOne.id
                    state
                    evidence := plainPointer
                    reasonIsTheState := by simp [demonstrated]
                    pathsNamed := cheapNamesNothing }] }

def passAct : Act := actOf .passed nofun

def failAct : Act := actOf .failed nofun

def bareBody : Text := "**Check:** c\n".toList

theorem cleanRowsSetOff : RowsSetOff passAct (boardOf cleanBody) := by
  have rows : ∃ row ∈ criterionRows cleanBody, row.label = .Evidence ∧
      behindComment cleanBody row = false ∧
      (reading {} (contents (cleanBody.drop row.ends))).1 = [] := by decide
  intro verdict member _ issue found
  rcases List.mem_singleton.mp member with rfl
  cases found
  exact rows

set_option maxRecDepth 4000 in
theorem passRefutedAgain :
    Certified passAct.crossOffs (passAct.after (boardOf cleanBody)) ∧
      RowAgrees laneOne .criterionPassed criterionOne.id (passAct.after (boardOf cleanBody)) ∧
      Repeats passAct (boardOf cleanBody) ∧
      RowAgrees laneOne .criterionRefuted criterionOne.id
        (failAct.after (passAct.after (boardOf cleanBody))) := by
  have reached' : Reached (boardOf cleanBody) [] (boardOf cleanBody) := .start
  have reached : Reached (boardOf cleanBody) [passAct] (passAct.after (boardOf cleanBody)) :=
    .act reached' (execReached _ _)
  have passed := (writesConsistent (fun _ => rfl) reached').2 passAct (by decide) (by decide)
  obtain ⟨certified, acts⟩ := writesConsistent (fun _ => rfl) reached
  have refuted := acts failAct (by decide) (by decide)
  exact ⟨certified, (passed.1 _ List.mem_cons_self).1 rfl, passed.2 cleanRowsSetOff,
    (refuted.1 _ List.mem_cons_self).2 rfl (by decide)⟩

set_option maxRecDepth 4000 in
/-- A body without an Evidence row has one appended, and the same act again sets it off by a line. -/
theorem appendedRowGrows : Reached (boardOf bareBody) [] (boardOf bareBody) ∧
    passAct.completes (boardOf bareBody) ∧ (passAct.dispatched.map (·.id)).Nodup ∧
    ¬ Repeats passAct (boardOf bareBody) := by
  refine ⟨.start, by decide, by decide, ?_⟩
  intro repeats
  have same := (repeats (passAct.after (passAct.after (boardOf bareBody))) (execReached _ _)).issues
  have grown : ((passAct.after (passAct.after (boardOf bareBody))).issues "KOD-31").map (·.body) ≠
      ((passAct.after (boardOf bareBody)).issues "KOD-31").map (·.body) := by decide
  exact grown (by rw [same])

end Kodezart.LaneStateWriter
