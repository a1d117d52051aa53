import Mathlib
import Kodezart.TallyRecord

/-! The stall a lane's one record measures, against the lane's own history: which
criteria were last read open, and what it had recorded when one of them was read closed. -/
namespace Kodezart.RunShape
open Tracker Gap

structure LaneHistory where
  /-- The criteria whose last reading was open. -/
  lastOpen : List String
  /-- The shas recorded at the latest tick that read one of them closed, none before it. -/
  since : List String
  /-- That tick left a criterion owing or found a raise standing. -/
  kept : Bool
  deriving DecidableEq, Repr

/-- A lane never read before stands at everything owed, nothing done. -/
def LaneHistory.start (tick : LaneTick) : LaneHistory := ⟨keysOf tick.roster, [], true⟩

def LaneHistory.moved (history : LaneHistory) (tick : LaneTick) : Bool := history.lastOpen.any (closedAt tick)

def LaneHistory.after (history : LaneHistory) (standing : Bool) (tick : LaneTick) : LaneHistory :=
  ⟨history.lastOpen.filter (· ∉ keysOf tick.criteria) ++ keysOf tick.gap,
    if history.moved tick then tick.commits else history.since,
    if history.moved tick then tick.gap ≠ [] ∨ standing else history.kept⟩

/-- A lane between ticks: the record at its tally address, and what its ticks have read. -/
structure Lane where
  stored : Option RunAlarm
  history : Option LaneHistory
  deriving DecidableEq, Repr

def Lane.new : Lane := ⟨none, none⟩

def Lane.read (lane : Lane) (tick : LaneTick) : LaneHistory := lane.history.getD (LaneHistory.start tick)

section Ticks
variable (readKey : Identity → Option NodeSessionKey) (scopeKey laneKey : Identity)

def standing (stored : Option RunAlarm) : Bool := alarmRaised readKey stored = .ok true

/-- One tick stores what it composes; a tick that refuses reads and writes nothing. -/
def ticked (lane : Lane) (tick : LaneTick) : Option Lane :=
  match nextTallyRecord readKey scopeKey laneKey lane.stored tick with
  | .error _ => none
  | .ok written =>
    some ⟨written.or lane.stored, some ((lane.read tick).after (standing readKey lane.stored) tick)⟩

/-- What the claim reads off a lane after a tick. -/
def Measures (lane : Lane) (tick : LaneTick) : Prop :=
  alarmRaised readKey lane.stored = .ok (decide (tick.gap ≠ [] ∧
    tick.maxCommitsWithoutClosure < distinctNew tick.commits (lane.read tick).since))

/-- The ticks the record keeps up with. Where the lane owes or a raise stands, a criterion
the anchor lists open is read closed exactly when one last read open is; and where it owes,
the latest tick that closed one left another owing or cleared a raise, or is this tick. -/
def Measured (lane : Lane) (tick : LaneTick) : Prop :=
  (tick.gap ≠ [] ∨ standing readKey lane.stored = true →
    ((lane.read tick).moved tick = true ↔ ∃ anchor, anchored readKey lane.stored tick.roster = .ok anchor ∧
      (texts anchor.openKeys).any (closedAt tick) = true)) ∧
  (tick.gap ≠ [] → (lane.read tick).kept = true ∨ (lane.read tick).moved tick = true)

/-- The record was composed by a tick, and anchors where the history restarted. -/
structure Synced (lane : Lane) : Prop where
  record : ∀ record, lane.stored = some record → ∃ anchor latest closed bound headSha raisedBy,
    Sane anchor latest closed ∧
      record = composed scopeKey laneKey anchor latest closed bound headSha raisedBy
  restart : ∀ tick roster anchor, (lane.read tick).kept = true →
    anchored readKey lane.stored roster = .ok anchor → texts anchor.commits = (lane.read tick).since

variable {readKey scopeKey laneKey} {lane lane' : Lane} {tick : LaneTick}

theorem laneStartCommits {roster : List TrackerIssue} {anchor : LaneTally} (ok : laneStart roster = .ok anchor) :
    anchor.commits = [] := by
  simp only [laneStart, bindOk] at ok
  obtain ⟨keys, -, same⟩ := ok
  cases same
  rfl

theorem syncedNew : Synced readKey scopeKey laneKey Lane.new := by
  refine ⟨?_, ?_⟩
  · intro record absurd
    cases absurd
  · intro tick roster anchor _ anchoring
    rw [laneStartCommits anchoring]
    rfl

theorem readAfter (history : LaneHistory) (stored : Option RunAlarm) (later : LaneTick) :
    (Lane.mk stored (some history)).read later = history := rfl

theorem afterMoved {history : LaneHistory} {stands : Bool} (moved : history.moved tick = true) :
    (history.after stands tick).since = tick.commits ∧
      (history.after stands tick).kept = decide (tick.gap ≠ [] ∨ stands = true) := by
  simp [LaneHistory.after, moved]

theorem afterStill {history : LaneHistory} {stands : Bool} (still : history.moved tick = false) :
    (history.after stands tick).since = history.since ∧ (history.after stands tick).kept = history.kept := by
  simp [LaneHistory.after, still]

/-- Where the record is read, the anchor's closures are the history's. -/
theorem measuredCloses {anchor latest : LaneTally} {closed : List Identity} (measured : Measured readKey lane tick)
    (anchoring : anchored readKey lane.stored tick.roster = .ok anchor) (read : Read tick anchor latest closed)
    (asked : tick.gap ≠ [] ∨ standing readKey lane.stored = true) :
    (lane.read tick).moved tick = true ↔ closed ≠ [] := by
  rw [measured.1 asked, closedReads read, anchoring]
  simp

/-- A tick the record keeps up with leaves a synced lane, and a record that measures. -/
theorem tickedKeeps (synced : Synced readKey scopeKey laneKey lane) (measured : Measured readKey lane tick)
    (moved : ticked readKey scopeKey laneKey lane tick = some lane') :
    Synced readKey scopeKey laneKey lane' ∧ Measures readKey lane' tick := by
  simp only [ticked] at moved
  split at moved
  · cases moved
  rename_i written answered
  cases moved
  obtain ⟨storedRaised, anchor, latest, closed, headSha, raised, anchoring, read, rfl⟩ := nextTallyOk answered
  have stands : standing readKey lane.stored = storedRaised := by simp [standing, raised]
  have closes := measuredCloses measured anchoring read
  have owes := owingReads read
  have anchorSince : (lane.read tick).kept = true → texts anchor.commits = (lane.read tick).since :=
    fun kept => synced.restart tick tick.roster anchor kept anchoring
  have quiet : tick.gap = [] → stalled anchor latest closed tick.maxCommitsWithoutClosure = false := by
    intro none
    have closedOut : latest.openKeys = [] := not_not.mp (mt owes.mp (not_not.mpr none))
    simp [stalled, closedOut]
  -- what the record says now is what the history measures
  have measures : stalled anchor latest closed tick.maxCommitsWithoutClosure = decide (tick.gap ≠ [] ∧
      tick.maxCommitsWithoutClosure < distinctNew tick.commits
        ((lane.read tick).after (standing readKey lane.stored) tick).since) := by
    by_cases owing : tick.gap = []
    · simp [quiet owing, owing]
    · have asked := closes (Or.inl owing)
      cases still : (lane.read tick).moved tick with
      | true =>
        have some := asked.mp still
        simp [stalled, some, (afterMoved still).1, distinctNewSelf]
      | false =>
        have none : closed = [] := by simpa [still] using asked
        have kept : (lane.read tick).kept = true := by simpa [still] using measured.2 owing
        simp [stalled, none, owes.mpr owing, owing, (afterStill still).1, read.recorded, anchorSince kept]
  -- the anchor the record carries on is where the history restarted
  have restarts : ((lane.read tick).after (standing readKey lane.stored) tick).kept = true →
      (stalled anchor latest closed tick.maxCommitsWithoutClosure ≠ storedRaised ∨
        (closed ≠ [] ∧ latest.openKeys ≠ []) →
        texts (if closed ≠ [] then latest else anchor).commits =
          ((lane.read tick).after (standing readKey lane.stored) tick).since) ∧
      (¬ (stalled anchor latest closed tick.maxCommitsWithoutClosure ≠ storedRaised ∨
        (closed ≠ [] ∧ latest.openKeys ≠ [])) →
        (lane.read tick).kept = true ∧ (lane.read tick).moved tick = false) := by
    intro kept
    cases still : (lane.read tick).moved tick with
    | true =>
      rw [(afterMoved still).2, decide_eq_true_eq] at kept
      have some := (closes kept).mp still
      refine ⟨fun _ => by rw [if_pos some, read.recorded, (afterMoved still).1], fun unwritten => ?_⟩
      obtain ⟨same, idle⟩ := not_or.mp unwritten
      by_cases owing : tick.gap = []
      · have raisedBefore : storedRaised = true := by simpa [owing, stands] using kept
        rw [quiet owing, raisedBefore] at same
        exact absurd Bool.false_ne_true same
      · exact absurd ⟨some, owes.mpr owing⟩ idle
    | false =>
      rw [(afterStill still).2] at kept
      refine ⟨fun written => ?_, fun _ => ⟨kept, rfl⟩⟩
      have none : closed = [] := by
        by_contra some
        by_cases asked : tick.gap ≠ [] ∨ standing readKey lane.stored = true
        · simp [(closes asked).mpr some] at still
        · obtain ⟨owing, before⟩ := not_or.mp asked
          have before : storedRaised = false := by simpa [stands] using before
          rcases written with turned | ⟨-, open'⟩
          · exact turned (by rw [quiet (not_not.mp owing), before])
          · exact owing (owes.mp open')
      rw [if_neg (not_not.mpr none), (afterStill still).1, anchorSince kept]
  by_cases writes : stalled anchor latest closed tick.maxCommitsWithoutClosure ≠ storedRaised ∨
      (closed ≠ [] ∧ latest.openKeys ≠ [])
  · rw [if_pos writes, Option.some_or]
    refine ⟨⟨?_, ?_⟩, ?_⟩
    · rintro record ⟨⟩
      exact ⟨anchor, latest, closed, _, headSha, _, read.sane, rfl⟩
    · intro later roster next kept anchoring'
      simp only [anchored, anchorComposed read.sane] at anchoring'
      cases anchoring'
      exact (restarts kept).1 writes
    · exact (raisedComposed read.sane).trans (congrArg Except.ok measures)
  · rw [if_neg writes, Option.none_or]
    refine ⟨⟨synced.record, ?_⟩, ?_⟩
    · intro later roster next kept anchoring'
      obtain ⟨before, still⟩ := (restarts kept).2 writes
      have same := synced.restart tick roster next before anchoring'
      exact same.trans (afterStill still).1.symm
    · have same : stalled anchor latest closed tick.maxCommitsWithoutClosure = storedRaised :=
        not_not.mp (not_or.mp writes).1
      exact raised.trans (congrArg Except.ok (same.symm.trans measures))

/-- Over every run the record keeps up with, the record after each tick replays to a raise
exactly where the lane owes and has recorded more since its latest closure than the bound. -/
theorem stallMeasured {ticks : List LaneTick}
    (run : Machine.Run (ticked readKey scopeKey laneKey) Lane.new (ticks ++ [tick]) lane)
    (measured : ∀ before t after mid, ticks ++ [tick] = before ++ t :: after →
      Machine.Run (ticked readKey scopeKey laneKey) Lane.new before mid → Measured readKey mid t) :
    Measures readKey lane tick := by
  generalize same : ticks ++ [tick] = events at run
  cases run with
  | start => simp at same
  | @move early mid _ last run moved =>
    obtain ⟨rfl, tail⟩ := List.append_inj' same rfl
    cases tail
    have synced : Synced readKey scopeKey laneKey mid := by
      refine Machine.runKeepsWhile syncedNew
        (fun s e s' synced allowed moved => (tickedKeeps synced allowed moved).1) run ?_
      intro before t after mid' split early
      exact measured before t (after ++ [tick]) mid' (by simp [split]) early
    exact (tickedKeeps synced (measured ticks tick [] mid rfl run) moved).2

end Ticks

section Samples

def sampleCriterion (stateKind : WorkflowStateKind) : TrackerIssue where
  issueKey := ⟨"KOD-60", by decide⟩
  priority := .none
  stateKind := stateKind
  issueLabels := ["criterion"]
  createdAt := 0

def sampleTick (stateKind : WorkflowStateKind) (commits : List String) : LaneTick where
  roster := [sampleCriterion stateKind]
  gap := [sampleCriterion stateKind].filter owes
  criteria := [sampleCriterion stateKind]
  commits := commits
  headSha := "head"
  maxCommitsWithoutClosure := 0
  raisedBy := ⟨"supervisor", by decide⟩

def noSessions : Identity → Option NodeSessionKey := fun _ => none

def sampleScope : Identity := ⟨"KOD-61", by decide⟩
def sampleLane : Identity := ⟨"KOD-62", by decide⟩

abbrev sampleTicked := ticked noSessions sampleScope sampleLane

theorem stallMeasuredSample : ∃ lane, Machine.Run sampleTicked Lane.new [sampleTick .started ["c1"]] lane ∧
    Measures noSessions lane (sampleTick .started ["c1"]) := by
  obtain ⟨lane, moved⟩ : ∃ lane, sampleTicked Lane.new (sampleTick .started ["c1"]) = some lane := ⟨_, rfl⟩
  have run : Machine.Run sampleTicked Lane.new ([] ++ [sampleTick .started ["c1"]]) lane := .move .start moved
  refine ⟨lane, run, stallMeasured run ?_⟩
  intro before t after mid split early
  cases before with
  | cons head rest => simp at split
  | nil =>
    obtain ⟨rfl, rfl⟩ : sampleTick .started ["c1"] = t ∧ [] = after := by simpa using split
    rw [Machine.runNil early]
    refine ⟨fun _ => ⟨?_, ?_⟩, fun _ => Or.inl rfl⟩
    · intro moved
      cases moved
    · rintro ⟨anchor, anchoring, closes⟩
      cases anchoring
      cases closes

/-- A lane that closed its one criterion and sees it open again is raised over commits it
had recorded before the closure. -/
theorem reopenedLaneRaised : ¬ ∀ ticks tick lane, Machine.Run sampleTicked Lane.new (ticks ++ [tick]) lane →
    Measures noSessions lane tick := by
  intro claim
  have first : sampleTicked Lane.new (sampleTick .started []) =
      some ⟨none, some ⟨["KOD-60"], [], true⟩⟩ := by rfl
  have second : sampleTicked ⟨none, some ⟨["KOD-60"], [], true⟩⟩ (sampleTick .completed ["c1"]) =
      some ⟨none, some ⟨[], ["c1"], false⟩⟩ := by rfl
  obtain ⟨record, third, raised⟩ : ∃ record,
      sampleTicked ⟨none, some ⟨[], ["c1"], false⟩⟩ (sampleTick .started ["c1"]) =
        some ⟨some record, some ⟨["KOD-60"], ["c1"], false⟩⟩ ∧
      alarmRaised noSessions (some record) = .ok true := ⟨_, rfl, rfl⟩
  have run := (Machine.Run.start.move first).move second
  have measures := claim _ _ _ (run.move third)
  have none : distinctNew (sampleTick .started ["c1"]).commits ["c1"] = 0 := distinctNewSelf _
  rw [Measures, raised] at measures
  simp [Lane.read, none] at measures

end Samples
end Kodezart.RunShape
