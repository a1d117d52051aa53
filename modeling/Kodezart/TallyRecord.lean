import Mathlib
import Kodezart.Fallible
import Kodezart.StreamSignals

/-! What the one alarm record at a lane's tally address says next, and the stall it
measures against the lane's own history. -/
namespace Kodezart.RunShape
open Tracker Gap
open TextLines (strip)

/-- One tick's two criterion-identity readings, as sets without repeats. -/
structure SubtreeTick where
  previouslyOpen : List String
  currentlyClosed : List String
  deriving DecidableEq, Repr

def keysOf (criteria : List TrackerIssue) : List String := criteria.map fun issue => issue.issueKey.val

def criterionKeys (criteria : List TrackerIssue) (reading : String) : Except Refusal (List String) :=
  if ∃ criterion ∈ criteria, isCriterion criterion = false then
    .error (.valueError s!"the {reading} reading holds a non-criterion sub-issue")
  else if ¬ (keysOf criteria).Nodup then
    .error (.valueError s!"a criterion identity repeats in the {reading} reading")
  else .ok (keysOf criteria)

def observeTick (previouslyOpen : List String) (subtreeCriteria openCriteria : List TrackerIssue) :
    Except Refusal SubtreeTick := do
  let present ← criterionKeys subtreeCriteria "subtree"
  let stillOpen ← criterionKeys openCriteria "open"
  if ∃ key ∈ stillOpen, key ∉ present then
    .error (.valueError "an open criterion is absent from the subtree reading")
  else if ¬ previouslyOpen.Nodup then
    .error (.valueError "a criterion identity repeats in the previous reading")
  else if ∃ key ∈ previouslyOpen, strip key.toList = [] then
    .error (.valueError "a criterion identity must be nonempty")
  else .ok ⟨previouslyOpen, present.filter (· ∉ stillOpen)⟩

def closedPreviousWork (tick : SubtreeTick) : List String :=
  tick.previouslyOpen.filter (· ∈ tick.currentlyClosed)

def identities (values : List String) : Except Refusal (List Identity) := values.mapM identity

/-- `sorted(keys)` -/
def sortedKeys (keys : List String) : List String := sortBy id keys

section Record
variable (readKey : Identity → Option NodeSessionKey)

def anchorOf (record : RunAlarm) : Except Refusal LaneTally := do
  let _ ← alarmRaised readKey (some record)
  match record.readings with
  | [anchorReading, latestReading, closedReading, _] =>
    let closed ← readAlarmValue closedReading AlarmEvidence.references? record.signal
    if closed ≠ [] then readAlarmValue latestReading AlarmEvidence.tally? record.signal
    else readAlarmValue anchorReading AlarmEvidence.tally? record.signal
  | _ => .error (.valueError "not enough values to unpack")

def laneStart (roster : List TrackerIssue) : Except Refusal LaneTally := do
  return ⟨← identities (sortedKeys (keysOf roster)), []⟩

/-- What a tick reads of a lane: its roster and gap, the scope's criteria, and its record. -/
structure LaneTick where
  roster : List TrackerIssue
  gap : List TrackerIssue
  criteria : List TrackerIssue
  commits : List String
  headSha : String
  maxCommitsWithoutClosure : Nat
  raisedBy : Identity
  deriving DecidableEq, Repr

def tallyReading (sourceRef : Identity) (value : AlarmEvidence) (atSha : Identity) : AlarmReading :=
  ⟨sourceRef, value, some atSha⟩

def tallyReadings (laneKey : Identity) (anchor latest : LaneTally) (closed : List Identity)
    (maxCommitsWithoutClosure : Nat) (headSha : Identity) : List AlarmReading :=
  [tallyReading laneKey (.tally anchor) headSha, tallyReading laneKey (.tally latest) headSha,
    tallyReading laneKey (.references closed) headSha,
    tallyReading commitsWithoutClosureBound (.count maxCommitsWithoutClosure) headSha]

def anchored (stored : Option RunAlarm) (roster : List TrackerIssue) : Except Refusal LaneTally :=
  match stored with
  | some record => anchorOf readKey record
  | none => laneStart roster

/-- What the address should hold after the tick, or nothing to write. -/
def nextTallyRecord (scopeKey laneKey : Identity) (stored : Option RunAlarm) (tick : LaneTick) :
    Except Refusal (Option RunAlarm) := do
  let storedRaised ← alarmRaised readKey stored
  let anchor ← anchored readKey stored tick.roster
  let observed ← observeTick (texts anchor.openKeys) tick.criteria tick.gap
  let closed ← identities (sortedKeys (closedPreviousWork observed))
  let latest : LaneTally := ⟨← identities (sortedKeys (keysOf tick.gap)), ← identities tick.commits⟩
  let headSha ← identity tick.headSha
  let readings := tallyReadings laneKey anchor latest closed tick.maxCommitsWithoutClosure headSha
  let raiseNow ← laneTallyUnmoved scopeKey laneKey readings headSha tick.raisedBy
  let desired := raiseNow.getD ⟨.lane scopeKey laneKey, .tallyUnmoved, readings, none, headSha, tick.raisedBy⟩
  if raiseNow.isSome ≠ storedRaised then return some desired
  else if closed ≠ [] ∧ latest.openKeys ≠ [] then return some desired
  else return none

/-- A reading that raises: the lane owes, closed none of what the anchor owed, and has
recorded more new shas than the bound. -/
def stalled (anchor latest : LaneTally) (closed : List Identity) (maxCommitsWithoutClosure : Nat) : Bool :=
  latest.openKeys ≠ [] ∧ closed = [] ∧
    maxCommitsWithoutClosure < distinctNew (texts latest.commits) (texts anchor.commits)

/-- The readings the lane arm accepts. -/
structure Sane (anchor latest : LaneTally) (closed : List Identity) : Prop where
  anchorDistinct : anchor.openKeys.Nodup
  latestDistinct : latest.openKeys.Nodup
  closedDistinct : closed.Nodup
  owed : ∀ key ∈ closed, key ∈ anchor.openKeys
  ended : ∀ key ∈ closed, key ∉ latest.openKeys

/-- The record a tick composes of its readings. -/
def composed (scopeKey laneKey : Identity) (anchor latest : LaneTally) (closed : List Identity)
    (maxCommitsWithoutClosure : Nat) (headSha raisedBy : Identity) : RunAlarm :=
  ⟨.lane scopeKey laneKey, .tallyUnmoved,
    tallyReadings laneKey anchor latest closed maxCommitsWithoutClosure headSha,
    if stalled anchor latest closed maxCommitsWithoutClosure then
      some ⟨commitsWithoutClosureBound, maxCommitsWithoutClosure,
        distinctNew (texts latest.commits) (texts anchor.commits)⟩
    else none, headSha, raisedBy⟩

variable {readKey} {scopeKey laneKey : Identity} {anchor latest : LaneTally} {closed : List Identity}
  {bound : Nat} {headSha raisedBy : Identity} {tick : LaneTick} {stored : Option RunAlarm}

theorem tallyComposed (sane : Sane anchor latest closed) :
    laneTallyUnmoved scopeKey laneKey (tallyReadings laneKey anchor latest closed bound headSha) headSha raisedBy =
      .ok (if stalled anchor latest closed bound then
        some (composed scopeKey laneKey anchor latest closed bound headSha raisedBy) else none) := by
  have notNew : ¬ ∃ key ∈ closed, key ∉ anchor.openKeys := by simpa using sane.owed
  have notStill : ¬ ∃ key ∈ closed, key ∈ latest.openKeys := by simpa using sane.ended
  simp only [laneTallyUnmoved, tallyReadings, tallyReading, readAlarmValue, AlarmEvidence.tally?,
    AlarmEvidence.references?, AlarmEvidence.count?, bind, Except.bind, List.find?, ne_eq, not_true_eq_false,
    decide_false, if_false, sane.anchorDistinct, sane.latestDistinct, sane.closedDistinct, notNew, notStill]
  by_cases owes : latest.openKeys = []
  · simp [owes, stalled]
  · by_cases quiet : closed = []
    · by_cases many : bound < distinctNew (texts latest.commits) (texts anchor.commits)
      · simp [owes, quiet, many, stalled, composed, tallyReadings, tallyReading]
      · simp [owes, quiet, many, stalled]
    · simp [quiet, stalled]

/-- A composed record replays to what it was composed as. -/
theorem raisedComposed (sane : Sane anchor latest closed) :
    alarmRaised readKey (some (composed scopeKey laneKey anchor latest closed bound headSha raisedBy)) =
      .ok (stalled anchor latest closed bound) := by
  have replay : laneTallyUnmoved scopeKey laneKey (tallyReadings laneKey anchor latest closed bound headSha)
      headSha raisedBy = .ok _ := tallyComposed sane
  simp only [alarmRaised, fold, composed, replay, bind, Except.bind]
  by_cases raised : stalled anchor latest closed bound = true <;> simp [raised, pure, Except.pure]

/-- A record that saw a closure anchors at its own reading, any other at its anchor. -/
theorem anchorComposed (sane : Sane anchor latest closed) :
    anchorOf readKey (composed scopeKey laneKey anchor latest closed bound headSha raisedBy) =
      .ok (if closed ≠ [] then latest else anchor) := by
  rw [anchorOf, raisedComposed sane]
  by_cases quiet : closed = [] <;>
    simp [composed, tallyReadings, tallyReading, readAlarmValue, AlarmEvidence.references?, AlarmEvidence.tally?,
      bind, Except.bind, quiet]

theorem identitiesOk {values : List String} {ids : List Identity} (ok : identities values = .ok ids) :
    texts ids = values := by
  induction values generalizing ids with
  | nil =>
    cases ok
    rfl
  | cons value values ih =>
    simp only [identities, List.mapM_cons, bindOk] at ok
    obtain ⟨id, head, rest, tail, same⟩ := ok
    cases same
    have here : id.val = value := by
      simp only [identity] at head
      split at head
      · cases head
        rfl
      · cases head
    exact congrArg₂ List.cons here (ih tail)

theorem textsInjective : Function.Injective (Subtype.val : Identity → String) := Subtype.val_injective

theorem memTexts {ids : List Identity} {id : Identity} : id.val ∈ texts ids ↔ id ∈ ids :=
  List.mem_map_of_injective textsInjective

theorem textsNodup {ids : List Identity} : (texts ids).Nodup ↔ ids.Nodup :=
  List.nodup_map_iff textsInjective

def closedAt (tick : LaneTick) (key : String) : Bool := key ∈ keysOf tick.criteria ∧ key ∉ keysOf tick.gap

/-- What a tick that answers has read. -/
structure Read (tick : LaneTick) (anchor latest : LaneTally) (closed : List Identity) : Prop where
  sane : Sane anchor latest closed
  owing : ∀ key, key ∈ texts latest.openKeys ↔ key ∈ keysOf tick.gap
  recorded : texts latest.commits = tick.commits
  ended : ∀ key, key ∈ texts closed ↔
    key ∈ texts anchor.openKeys ∧ key ∈ keysOf tick.criteria ∧ key ∉ keysOf tick.gap

theorem observeTickOk {previouslyOpen : List String} {criteria gap : List TrackerIssue} {observed : SubtreeTick}
    (ok : observeTick previouslyOpen criteria gap = .ok observed) :
    previouslyOpen.Nodup ∧ (keysOf gap).Nodup ∧
      observed = ⟨previouslyOpen, (keysOf criteria).filter (· ∉ keysOf gap)⟩ := by
  have keys : ∀ {rows reading present}, criterionKeys rows reading = .ok present →
      present = keysOf rows ∧ (keysOf rows).Nodup := by
    intro rows reading present ok
    simp only [criterionKeys] at ok
    split at ok
    · cases ok
    · split at ok
      · cases ok
      · rename_i distinct
        cases ok
        exact ⟨rfl, not_not.mp distinct⟩
  simp only [observeTick, bindOk] at ok
  obtain ⟨present, subtree, stillOpen, opened, ok⟩ := ok
  obtain ⟨rfl, -⟩ := keys subtree
  obtain ⟨rfl, distinct⟩ := keys opened
  split at ok
  · cases ok
  · split at ok
    · cases ok
    · rename_i once
      split at ok
      · cases ok
      · cases ok
        exact ⟨not_not.mp once, distinct, rfl⟩

@[simp] theorem memSortedKeys {key : String} {keys : List String} : key ∈ sortedKeys keys ↔ key ∈ keys :=
  memSortBy

theorem sortedKeysNodup {keys : List String} : (sortedKeys keys).Nodup ↔ keys.Nodup :=
  (sortByPerm id keys).nodup_iff

/-- What a tick has read, once its readings are identities. -/
theorem tickReads {observed : SubtreeTick} {openKeys commits : List Identity}
    (ticked : observeTick (texts anchor.openKeys) tick.criteria tick.gap = .ok observed)
    (closing : identities (sortedKeys (closedPreviousWork observed)) = .ok closed)
    (opening : identities (sortedKeys (keysOf tick.gap)) = .ok openKeys)
    (committing : identities tick.commits = .ok commits) : Read tick anchor ⟨openKeys, commits⟩ closed := by
  obtain ⟨once, distinct, rfl⟩ := observeTickOk ticked
  have closedTexts := identitiesOk closing
  have openTexts := identitiesOk opening
  have owing : ∀ key, key ∈ texts openKeys ↔ key ∈ keysOf tick.gap := by
    intro key
    rw [openTexts, memSortedKeys]
  have ended : ∀ key, key ∈ texts closed ↔
      key ∈ texts anchor.openKeys ∧ key ∈ keysOf tick.criteria ∧ key ∉ keysOf tick.gap := by
    intro key
    rw [closedTexts, memSortedKeys]
    simp [closedPreviousWork]
  refine ⟨⟨textsNodup.mp once, ?_, ?_, ?_, ?_⟩, owing, identitiesOk committing, ended⟩
  · rw [← textsNodup, openTexts, sortedKeysNodup]
    exact distinct
  · rw [← textsNodup, closedTexts, sortedKeysNodup]
    exact once.filter _
  · intro key member
    exact memTexts.mp ((ended key.val).mp (memTexts.mpr member)).1
  · intro key member still
    exact ((ended key.val).mp (memTexts.mpr member)).2.2 ((owing key.val).mp (memTexts.mpr still))

/-- A tick that answers writes the record its readings compose, or leaves the address:
it writes where the answer changed, and where the lane moved and still owes. -/
theorem nextTallyOk {next : Option RunAlarm} (ok : nextTallyRecord readKey scopeKey laneKey stored tick = .ok next) :
    ∃ storedRaised anchor latest closed headSha, alarmRaised readKey stored = .ok storedRaised ∧
      anchored readKey stored tick.roster = .ok anchor ∧ Read tick anchor latest closed ∧
      next = if stalled anchor latest closed tick.maxCommitsWithoutClosure ≠ storedRaised ∨
          (closed ≠ [] ∧ latest.openKeys ≠ []) then
        some (composed scopeKey laneKey anchor latest closed tick.maxCommitsWithoutClosure headSha tick.raisedBy)
      else none := by
  simp only [nextTallyRecord, bindOk] at ok
  obtain ⟨storedRaised, raised, anchor, anchoring, observed, ticked, closed, closing, openKeys, opening, commits,
    committing, headSha, -, raiseNow, raising, ok⟩ := ok
  have read := tickReads ticked closing opening committing
  refine ⟨storedRaised, anchor, ⟨openKeys, commits⟩, closed, headSha, raised, anchoring, read, ?_⟩
  rw [tallyComposed read.sane] at raising
  have desired : raiseNow.getD ⟨.lane scopeKey laneKey, .tallyUnmoved, tallyReadings laneKey anchor
      ⟨openKeys, commits⟩ closed tick.maxCommitsWithoutClosure headSha, none, headSha, tick.raisedBy⟩ =
      composed scopeKey laneKey anchor ⟨openKeys, commits⟩ closed tick.maxCommitsWithoutClosure headSha
        tick.raisedBy ∧
      raiseNow.isSome = stalled anchor ⟨openKeys, commits⟩ closed tick.maxCommitsWithoutClosure := by
    cases raising
    cases still : stalled anchor ⟨openKeys, commits⟩ closed tick.maxCommitsWithoutClosure <;>
      simp [composed, still]
  rw [desired.1, desired.2] at ok
  split at ok
  · rename_i turned
    cases ok
    rw [if_pos (Or.inl turned)]
  · rename_i same
    split at ok
    · rename_i moved
      cases ok
      rw [if_pos (Or.inr moved)]
    · rename_i still
      cases ok
      rw [if_neg (not_or.mpr ⟨same, still⟩)]

theorem closedReads {anchor latest : LaneTally} {closed : List Identity} (read : Read tick anchor latest closed) :
    closed ≠ [] ↔ (texts anchor.openKeys).any (closedAt tick) = true := by
  have same : ∀ key, key ∈ texts closed ↔ key ∈ texts anchor.openKeys ∧ closedAt tick key = true := by
    intro key
    rw [read.ended]
    simp [closedAt]
  rw [List.any_eq_true]
  constructor
  · intro some
    obtain ⟨key, member⟩ := List.exists_mem_of_ne_nil closed some
    exact ⟨key.val, (same key.val).mp (memTexts.mpr member)⟩
  · rintro ⟨key, found⟩
    obtain ⟨id, member, -⟩ := List.mem_map.mp ((same key).mpr found)
    exact List.ne_nil_of_mem member

theorem owingReads {anchor latest : LaneTally} {closed : List Identity} (read : Read tick anchor latest closed) :
    latest.openKeys ≠ [] ↔ tick.gap ≠ [] := by
  have empty : texts latest.openKeys = [] ↔ keysOf tick.gap = [] := by
    simp only [List.eq_nil_iff_forall_not_mem, read.owing]
  rw [texts, keysOf, List.map_eq_nil_iff, List.map_eq_nil_iff] at empty
  exact not_congr empty

theorem distinctNewSelf (commits : List String) : distinctNew commits commits = 0 := by
  simp [distinctNew]

/-- A tick's answer is a matter of its anchor and of what it reads. -/
theorem stalledReads {anchor latest : LaneTally} {closed : List Identity} (read : Read tick anchor latest closed)
    (bound : Nat) : stalled anchor latest closed bound = decide (tick.gap ≠ [] ∧
      (texts anchor.openKeys).any (closedAt tick) = false ∧
        bound < distinctNew tick.commits (texts anchor.commits)) := by
  have quiet : closed = [] ↔ (texts anchor.openKeys).any (closedAt tick) = false := by
    rw [← Bool.not_eq_true, ← closedReads read, not_not]
  rw [stalled, read.recorded]
  simp only [owingReads read, quiet]

/-- A lane's own open criteria are not closed, so an anchor at its reading sees no closure. -/
theorem latestQuiet {anchor latest : LaneTally} {closed : List Identity} (read : Read tick anchor latest closed) :
    (texts latest.openKeys).any (closedAt tick) = false := by
  rw [List.any_eq_false]
  intro key member
  simp [closedAt, (read.owing key).mp member]

/-- Unchanged facts compose the record that already stands. -/
theorem nextTallySettles {written again : Option RunAlarm}
    (ok : nextTallyRecord readKey scopeKey laneKey stored tick = .ok written)
    (ok' : nextTallyRecord readKey scopeKey laneKey (written.or stored) tick = .ok again) : again = none := by
  obtain ⟨raised, anchor, latest, closed, headSha, stands, anchoring, read, rfl⟩ := nextTallyOk ok
  obtain ⟨raised', anchor', latest', closed', headSha', stands', anchoring', read', rfl⟩ := nextTallyOk ok'
  refine if_neg ?_
  by_cases writes : stalled anchor latest closed tick.maxCommitsWithoutClosure ≠ raised ∨
      (closed ≠ [] ∧ latest.openKeys ≠ [])
  · rw [if_pos writes, Option.some_or] at stands' anchoring'
    cases (raisedComposed read.sane).symm.trans stands'
    cases (anchorComposed read.sane).symm.trans anchoring'
    by_cases quiet : closed = []
    · -- nothing closed: the record keeps its anchor, and the same readings replay
      rw [if_neg (not_not.mpr quiet)] at read' ⊢
      have still : closed' = [] := by
        by_contra some
        exact (closedReads read).mpr ((closedReads read').mp some) quiet
      have same : stalled anchor latest' closed' tick.maxCommitsWithoutClosure =
          stalled anchor latest closed tick.maxCommitsWithoutClosure :=
        (stalledReads read' _).trans (stalledReads read _).symm
      exact not_or.mpr ⟨not_not.mpr same, fun moved => moved.1 still⟩
    · -- something closed: the record anchors at its own reading, from which nothing moved
      rw [if_pos quiet] at read' ⊢
      have still : closed' = [] := by
        by_contra some
        have seen := (closedReads read').mp some
        rw [latestQuiet read] at seen
        cases seen
      have none : stalled anchor latest closed tick.maxCommitsWithoutClosure = false := by
        simp [stalled, quiet]
      have calm : stalled latest latest' closed' tick.maxCommitsWithoutClosure = false := by
        simp [stalledReads read', read.recorded, distinctNewSelf]
      exact not_or.mpr ⟨not_not.mpr (calm.trans none.symm), fun moved => moved.1 still⟩
  · rw [if_neg writes, Option.none_or] at stands' anchoring'
    cases stands.symm.trans stands'
    cases anchoring.symm.trans anchoring'
    rw [closedReads read', owingReads read', stalledReads read']
    rw [closedReads read, owingReads read, stalledReads read] at writes
    exact writes

end Record
end Kodezart.RunShape
