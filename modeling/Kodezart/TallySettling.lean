import Kodezart.TallyHistory

/-! A tally tick taken again over the record it wrote. -/
namespace Kodezart.RunShape
open Tracker Gap
open TextLines (strip isSpace)

section Settling
variable (readKey : Identity → Option NodeSessionKey) (scopeKey laneKey : Identity)
  (stored : Option RunAlarm) (tick : LaneTick)

/-- What was written reads back, and the same facts with it stored write nothing. -/
def Settles (written : Option RunAlarm) : Prop :=
  (∀ record, written = some record → ∃ raised, alarmRaised readKey (some record) = .ok raised) ∧
    nextTallyRecord readKey scopeKey laneKey (written.or stored) tick = .ok none

/-- No key the gap holds is all spaces to `str.strip`, or nothing the anchor held open has closed. -/
def Rereads : Prop :=
  (∀ key ∈ keysOf tick.gap, strip key.toList ≠ []) ∨
    ∀ anchor, anchored readKey stored tick.roster = .ok anchor →
      (texts anchor.openKeys).any (closedAt tick) = false

variable {readKey scopeKey laneKey stored tick} {written : Option RunAlarm}

theorem identitiesTotal {values : List String} (visibles : ∀ value ∈ values, visible value) :
    ∃ ids, identities values = .ok ids := by
  induction values with
  | nil => exact ⟨[], rfl⟩
  | cons value values ih =>
    obtain ⟨ids, rest⟩ := ih fun other inside => visibles other (List.mem_cons_of_mem _ inside)
    have head : identity value = .ok ⟨value, visibles value List.mem_cons_self⟩ :=
      dif_pos (visibles value List.mem_cons_self)
    refine ⟨⟨value, visibles value List.mem_cons_self⟩ :: ids, ?_⟩
    simp only [identities, List.mapM_cons, bindOk]
    exact ⟨_, head, ids, rest, rfl⟩

/-- A tick answers wherever its previous reading is read, once its own facts have been. -/
theorem nextTallyAgain {anchor : LaneTally} {other : Option RunAlarm} {raised : Bool}
    (ok : nextTallyRecord readKey scopeKey laneKey stored tick = .ok written)
    (stands : alarmRaised readKey other = .ok raised)
    (anchoring : anchored readKey other tick.roster = .ok anchor)
    (distinct : anchor.openKeys.Nodup) :
    (∃ again, nextTallyRecord readKey scopeKey laneKey other tick = .ok again) ↔
      ∀ key ∈ texts anchor.openKeys, strip key.toList ≠ [] := by
  have first := ok
  simp only [nextTallyRecord, bindOk] at first
  obtain ⟨_, -, _, -, _, ticked, _, -, openKeys, opening, commits, committing, headSha, head, -⟩ := first
  simp only [observeTick, bindOk] at ticked
  obtain ⟨present, subtree, stillOpen, opened, within⟩ := ticked
  have inside : ¬ ∃ key ∈ stillOpen, key ∉ present := by
    intro outside
    rw [if_pos outside] at within
    cases within
  have observes : observeTick (texts anchor.openKeys) tick.criteria tick.gap =
      if ∃ key ∈ texts anchor.openKeys, strip key.toList = [] then
        .error (.valueError "a criterion identity must be nonempty")
      else .ok ⟨texts anchor.openKeys, present.filter (· ∉ stillOpen)⟩ := by
    have once : (texts anchor.openKeys).Nodup := textsNodup.mpr distinct
    simp only [observeTick, subtree, opened, bind, Except.bind, inside, once, not_true_eq_false, if_false]
  constructor
  · rintro ⟨again, ok'⟩ key member blank
    simp only [nextTallyRecord, bindOk] at ok'
    obtain ⟨_, -, anchor', anchoring', observed, ticked', -⟩ := ok'
    cases anchoring.symm.trans anchoring'
    rw [observes, if_pos ⟨key, member, blank⟩] at ticked'
    cases ticked'
  · intro named
    have blankless : ¬ ∃ key ∈ texts anchor.openKeys, strip key.toList = [] := by
      simpa only [not_exists, not_and] using named
    rw [if_neg blankless] at observes
    have identified : ∀ value ∈ sortedKeys
        (closedPreviousWork ⟨texts anchor.openKeys, present.filter (· ∉ stillOpen)⟩), visible value := by
      intro value member
      rw [memSortedKeys, closedPreviousWork, List.mem_filter] at member
      obtain ⟨id, _, rfl⟩ := List.mem_map.mp member.1
      exact id.property
    obtain ⟨closed, closing⟩ := identitiesTotal identified
    have read := tickReads observes closing opening committing
    obtain ⟨raiseNow, raising⟩ : ∃ raiseNow, laneTallyUnmoved scopeKey laneKey (tallyReadings laneKey anchor
        ⟨openKeys, commits⟩ closed tick.maxCommitsWithoutClosure headSha) headSha tick.raisedBy = .ok raiseNow :=
      ⟨_, tallyComposed read.sane⟩
    simp only [nextTallyRecord, stands, anchoring, observes, closing, opening, committing, head, raising,
      bind, Except.bind]
    split
    · exact ⟨_, rfl⟩
    · split <;> exact ⟨_, rfl⟩

/-- The record a tick writes reads back, and the tick taken again over it writes nothing, exactly
where a key the anchor moves on to is no blank to `str.strip`. -/
theorem settlesIff (ok : nextTallyRecord readKey scopeKey laneKey stored tick = .ok written) :
    Settles readKey scopeKey laneKey stored tick written ↔ Rereads readKey stored tick := by
  obtain ⟨raised, anchor, latest, closed, headSha, stands, anchoring, read, rfl⟩ := nextTallyOk ok
  have named : ∀ key ∈ texts anchor.openKeys, strip key.toList ≠ [] :=
    (nextTallyAgain ok stands anchoring read.sane.anchorDistinct).mp ⟨_, ok⟩
  have settles : ∀ again, nextTallyRecord readKey scopeKey laneKey
      ((if stalled anchor latest closed tick.maxCommitsWithoutClosure ≠ raised ∨
          (closed ≠ [] ∧ latest.openKeys ≠ []) then
        some (composed scopeKey laneKey anchor latest closed tick.maxCommitsWithoutClosure headSha tick.raisedBy)
      else none).or stored) tick = .ok again → again = none := fun again => nextTallySettles ok
  have rereads : Rereads readKey stored tick ↔ closed ≠ [] → ∀ key ∈ texts latest.openKeys, strip key.toList ≠ [] := by
    have gap : (∀ key ∈ texts latest.openKeys, strip key.toList ≠ []) ↔
        ∀ key ∈ keysOf tick.gap, strip key.toList ≠ [] :=
      forall_congr' fun key => by rw [read.owing]
    rw [gap, closedReads read]
    constructor
    · rintro (solid | still) moved
      · exact solid
      · rw [still anchor anchoring] at moved
        cases moved
    · intro solid
      by_cases moved : (texts anchor.openKeys).any (closedAt tick) = true
      · exact Or.inl (solid moved)
      · refine Or.inr fun other anchoring' => ?_
        cases anchoring.symm.trans anchoring'
        simpa using moved
  rw [rereads]
  by_cases writes : stalled anchor latest closed tick.maxCommitsWithoutClosure ≠ raised ∨
      (closed ≠ [] ∧ latest.openKeys ≠ [])
  · rw [if_pos writes] at settles ⊢
    have reads : alarmRaised readKey (some (composed scopeKey laneKey anchor latest closed
        tick.maxCommitsWithoutClosure headSha tick.raisedBy)) =
        .ok (stalled anchor latest closed tick.maxCommitsWithoutClosure) := raisedComposed read.sane
    have distinct : (if closed ≠ [] then latest else anchor).openKeys.Nodup := by
      split
      · exact read.sane.latestDistinct
      · exact read.sane.anchorDistinct
    have again := nextTallyAgain ok reads (anchorComposed read.sane) distinct
    have quiet : (∀ key ∈ texts (if closed ≠ [] then latest else anchor).openKeys, strip key.toList ≠ []) ↔
        (closed ≠ [] → ∀ key ∈ texts latest.openKeys, strip key.toList ≠ []) := by
      by_cases moved : closed = []
      · simpa [moved] using named
      · simp [moved]
    rw [← quiet, ← again]
    constructor
    · exact fun settled => ⟨none, settled.2⟩
    · rintro ⟨next, ok'⟩
      cases settles next ok'
      exact ⟨fun record same => ⟨_, by cases same; exact reads⟩, ok'⟩
  · rw [if_neg writes] at ok ⊢
    refine iff_of_true ⟨?_, ?_⟩ fun moved key member => ?_
    · intro record wrote
      cases wrote
    · rwa [Option.none_or]
    · obtain ⟨id, inside, _⟩ := List.mem_map.mp member
      exact absurd (Or.inr ⟨moved, List.ne_nil_of_mem inside⟩) writes

end Settling

section Samples

theorem startedTickSettles : ∃ written,
    nextTallyRecord noSessions sampleScope sampleLane none (sampleTick .started ["c1"]) = .ok written ∧
    (Settles noSessions sampleScope sampleLane none (sampleTick .started ["c1"]) written ↔
      Rereads noSessions none (sampleTick .started ["c1"])) := by
  obtain ⟨written, ok⟩ : ∃ written,
      nextTallyRecord noSessions sampleScope sampleLane none (sampleTick .started ["c1"]) = .ok written := ⟨_, rfl⟩
  exact ⟨written, ok, settlesIff ok⟩

/-- A criterion whose key is the one character U+001C. -/
def separatorCriterion : TrackerIssue :=
  { sampleCriterion .started with issueKey := ⟨String.singleton (Char.ofNat 0x1c), by decide⟩ }

def separatorTick : LaneTick :=
  { sampleTick .completed ["c1"] with
    gap := [separatorCriterion]
    criteria := [sampleCriterion .completed, separatorCriterion] }

/-- The tick that reads the first criterion closed writes a record whose own reading it then refuses. -/
theorem separatorKeyRefused : ¬ ∀ stored tick written,
    nextTallyRecord noSessions sampleScope sampleLane stored tick = .ok written →
    Settles noSessions sampleScope sampleLane stored tick written := by
  intro always
  obtain ⟨record, ok, again⟩ : ∃ record,
      nextTallyRecord noSessions sampleScope sampleLane none separatorTick = .ok (some record) ∧
      nextTallyRecord noSessions sampleScope sampleLane (some record) separatorTick =
        .error (.valueError "a criterion identity must be nonempty") := ⟨_, rfl, rfl⟩
  have settled := (always none separatorTick _ ok).2
  rw [Option.some_or, again] at settled
  cases settled

end Samples
end Kodezart.RunShape
