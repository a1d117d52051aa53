import Mathlib
import Kodezart.TallyRecord

/-! Every alarm one lane's observation composes at that lane's addresses, and the
transition its event stream still owes for a record. -/
namespace Kodezart.RunShape
open Tracker Gap

/-- What the walk reads of a lane this tick. -/
inductive LaneStanding where
  | ready (roster gap : List TrackerIssue)
  | waiting
  | finished
  deriving DecidableEq, Repr

def observedAlarms : List AlarmSignal :=
  [.tallyUnmoved, .tallyRegressed, .lapseUndischarged, .compositionSubstituted]

abbrev Address := AlarmSubject × AlarmSignal

def RunAlarm.address (record : RunAlarm) : Address := (record.subject, record.signal)

def storedAlarm (records : List RunAlarm) (subject : AlarmSubject) (signal : AlarmSignal) : Option RunAlarm :=
  records.find? fun record => record.subject = subject ∧ record.signal = signal

/-- The value a signal is spelled with. -/
def AlarmSignal.value : AlarmSignal → Identity
  | .tallyUnmoved => ⟨"tally_unmoved", by decide⟩
  | .tallyRegressed => ⟨"tally_regressed", by decide⟩
  | .lapseUndischarged => ⟨"lapse_undischarged", by decide⟩
  | .escalationAgeing => ⟨"escalation_ageing", by decide⟩
  | .writeBackMissing => ⟨"write_back_missing", by decide⟩
  | .surfaceContended => ⟨"surface_contended", by decide⟩
  | .recordSuperseded => ⟨"record_superseded", by decide⟩
  | .compositionSubstituted => ⟨"composition_substituted", by decide⟩
  | .barrenTickWithDiffGrowth => ⟨"barren_tick_with_diff_growth", by decide⟩
  | .commitsAheadOfRecord => ⟨"commits_ahead_of_record", by decide⟩
  | .rulingsOutpaceClosures => ⟨"rulings_outpace_closures", by decide⟩
  | .structuralWriteUncrossesMilestone => ⟨"structural_write_uncrosses_milestone", by decide⟩

/-- What one call of the observation is given, and the lane's recorded run it reads. -/
structure Observation where
  scopeKey : Identity
  standing : LaneStanding
  criteria : List TrackerIssue
  commits : List String
  headSha : Identity
  maxCommitsWithoutClosure : Nat
  raisedBy : Identity
  deriving DecidableEq, Repr

section Compose
variable (readKey : Identity → Option NodeSessionKey)

def nextAlarmRecord (stored : Option RunAlarm) (observed : RunAlarm) : Except Refusal (Option RunAlarm) := do
  if (← alarmRaised readKey stored) = (← alarmRaised readKey (some observed)) then return none
  else return some observed

/-- This tick's answer at one address, raised or quiet. -/
def composedAlarm (signal : AlarmSignal) (subject : AlarmSubject) (readings : List AlarmReading)
    (raisedAtSha raisedBy : Identity) : Except Refusal RunAlarm := do
  let raised ← fold readKey signal subject readings raisedAtSha raisedBy
  return raised.getD ⟨subject, signal, readings, none, raisedAtSha, raisedBy⟩

/-- One address of an observation: what it should hold next, given what it holds. -/
structure Ask where
  subject : AlarmSubject
  signal : AlarmSignal
  answer : Option RunAlarm → Except Refusal (Option RunAlarm)

def Ask.address (ask : Ask) : Address := (ask.subject, ask.signal)

def alarmAsk (signal : AlarmSignal) (subject : AlarmSubject) (readings : List AlarmReading)
    (raisedAtSha raisedBy : Identity) : Ask :=
  ⟨subject, signal, fun stored => do
    nextAlarmRecord readKey stored (← composedAlarm readKey signal subject readings raisedAtSha raisedBy)⟩

def tallyAsk (laneKey : Identity) (observation : Observation) (roster gap : List TrackerIssue) : Ask :=
  ⟨.lane observation.scopeKey laneKey, .tallyUnmoved, fun stored =>
    nextTallyRecord readKey observation.scopeKey laneKey stored
      ⟨roster, gap, observation.criteria, observation.commits, observation.headSha.val,
        observation.maxCommitsWithoutClosure, observation.raisedBy⟩⟩

def laneTally (laneKey : Identity) (observation : Observation) : List Ask :=
  match observation.standing with
  | .ready roster gap => [tallyAsk readKey laneKey observation roster gap]
  | .finished => [tallyAsk readKey laneKey observation [] []]
  | .waiting => []

def projected (event : LaneRunEvent) : RunEventProjection := ⟨event.kind, event.subjectKey⟩

def sessionOpenings (events : List LaneRunEvent) : List RunEventProjection :=
  (events.filter fun event => event.kind = .nodeSessionStarted).map projected

def laneSubstituted (laneKey : Identity) (observation : Observation) (openings : List RunEventProjection) : Ask :=
  alarmAsk readKey .compositionSubstituted (.lane observation.scopeKey laneKey)
    [tallyReading laneKey (.runEvents openings) observation.headSha] observation.headSha observation.raisedBy

/-- `isinstance(standing, Ready)` -/
def LaneStanding.rederived : LaneStanding → Bool
  | .ready _ _ => true
  | _ => false

/-- Both signals of one criterion the lane accounted for. -/
def criterionAsks (laneKey memberId : Identity) (stateKind : WorkflowStateKind) (parentKey : Identity)
    (observation : Observation) (projections : List RunEventProjection) : List Ask :=
  let subject := .criterion observation.scopeKey parentKey memberId (some laneKey)
  let account := projections.filter fun projection => projection.subjectKey = some memberId
  let state := tallyReading memberId (.state stateKind) observation.headSha
  let stream := tallyReading laneKey (.runEvents account) observation.headSha
  let presence := tallyReading laneKey (.presence observation.standing.rederived) observation.headSha
  [alarmAsk readKey .tallyRegressed subject [state, stream] observation.headSha observation.raisedBy,
    alarmAsk readKey .lapseUndischarged subject [state, stream, presence] observation.headSha
      observation.raisedBy]

/-- The criteria of the scope, the last of a key standing. -/
def knownCriterion (criteria : List TrackerIssue) (memberId : Identity) : Option TrackerIssue :=
  (Dict.build (fun issue => issue.issueKey.val) criteria).get? memberId.val

/-- The asks of one accounted member, or the refusal of its address. -/
def memberAsks (laneKey : Identity) (observation : Observation) (projections : List RunEventProjection)
    (memberId : Identity) : List (Except Refusal Ask) :=
  match knownCriterion observation.criteria memberId with
  | none => []
  | some criterion =>
    match criterion.parentKey with
    | none => []
    | some parentKey =>
      match identity parentKey.val with
      | .error e => [.error e]
      | .ok parentKey =>
        (criterionAsks readKey laneKey memberId criterion.stateKind parentKey observation projections).map .ok

def accounts (events : List LaneRunEvent) : List RunEventProjection :=
  (events.filter fun event => event.kind ∈ accountKinds ∧ event.subjectKey ≠ none).map projected

/-- The members the stream accounts for, each once, in key order. -/
def accountedMembers (projections : List RunEventProjection) : List Identity :=
  sortBy Subtype.val (projections.filterMap RunEventProjection.subjectKey).dedup

/-- Every address the observation owns, in the order it is composed. -/
def laneAsks (laneKey : Identity) (observation : Observation) (events : List LaneRunEvent) :
    List (Except Refusal Ask) :=
  (laneTally readKey laneKey observation).map .ok ++
    .ok (laneSubstituted readKey laneKey observation (sessionOpenings events)) ::
    (accountedMembers (accounts events)).flatMap (memberAsks readKey laneKey observation (accounts events))

def answered (stored : List RunAlarm) : List (Except Refusal Ask) → Except Refusal (List RunAlarm)
  | [] => .ok []
  | ask :: asks => do
    let ask ← ask
    let written ← ask.answer (storedAlarm stored ask.subject ask.signal)
    return written.toList ++ (← answered stored asks)

/-- What every address the observation owns should hold after the tick. -/
def laneAlarmRecords (laneKey : Identity) (observation : Observation) (stored : List RunAlarm)
    (events : List LaneRunEvent) : Except Refusal (List RunAlarm) :=
  answered stored (laneAsks readKey laneKey observation events)

/-- The stream's whole vocabulary for one alarm. -/
def transitionKinds : List RunEventKind := [.runAlarmRaised, .runAlarmCleared]

/-- The last of the stream's transition entries under a key. -/
def lastSpoken (key : Identity) (events : List LaneRunEvent) : Option LaneRunEvent :=
  (events.filter fun event => event.kind ∈ transitionKinds ∧ event.subjectKey = some key).getLast?

/-- The transition event a lane's stream still owes for a record of a lane subject. -/
def alarmEventDue (record : RunAlarm) (events : List LaneRunEvent) : Except Refusal (Option LaneRunEvent) :=
  match record.subject with
  | .lane _ laneKey => do
    let raised ← alarmRaised readKey (some record)
    let owed : LaneRunEvent := ⟨if raised then .runAlarmRaised else .runAlarmCleared, laneKey,
      some record.signal.value, none⟩
    match lastSpoken record.signal.value events with
    | none => return if raised then some owed else none
    | some last => return if decide (last.kind = .runAlarmRaised) = raised then none else some owed
  | _ => .error (.valueError "an alarm transition event is keyed to a lane")

/-- The records at the observing scope's own addresses, this tick's answer where it has one. -/
def announceable (scopeKey laneKey : Identity) (stored desired : List RunAlarm) : List RunAlarm :=
  (Dict.update [] (((stored ++ desired).filter fun record =>
    record.subject = .lane scopeKey laneKey ∧ record.signal ∈ observedAlarms).map fun record =>
      (record.signal, record))).values

/-- An answer stays at its own address, and a second asking over it writes nothing. -/
structure Settling (ask : Ask) : Prop where
  addressed : ∀ stored record, ask.answer stored = .ok (some record) →
    record.subject = ask.subject ∧ record.signal = ask.signal
  settles : ∀ stored written again, ask.answer stored = .ok written → ask.answer (written.or stored) = .ok again →
    again = none

variable {readKey} {signal : AlarmSignal} {subject : AlarmSubject} {readings : List AlarmReading}
  {raisedAtSha raisedBy laneKey : Identity} {observation : Observation}

theorem unboundedAddress {raised : Bool} {record : RunAlarm}
    (found : unbounded raised subject signal readings raisedAtSha raisedBy = some record) :
    record.subject = subject ∧ record.signal = signal := by
  simp only [unbounded] at found
  split at found
  · cases found
    exact ⟨rfl, rfl⟩
  · cases found

/-- The folds without a bound raise at the address they are asked at. -/
theorem foldAddress {record : RunAlarm} (unboundedFold : signal ≠ .tallyUnmoved)
    (ok : fold readKey signal subject readings raisedAtSha raisedBy = .ok (some record)) :
    record.subject = subject ∧ record.signal = signal := by
  cases signal with
  | tallyUnmoved => exact absurd rfl unboundedFold
  | tallyRegressed =>
    simp only [fold, tallyRegressed] at ok
    split at ok
    · obtain ⟨read, -, same⟩ := bindOk.mp ok
      exact unboundedAddress (Except.ok.inj same)
    · cases ok
  | lapseUndischarged =>
    simp only [fold, lapseUndischarged] at ok
    split at ok
    · obtain ⟨read, -, rest⟩ := bindOk.mp ok
      split at rest
      · cases rest
      · obtain ⟨rederived, -, same⟩ := bindOk.mp rest
        exact unboundedAddress (Except.ok.inj same)
    · cases ok
  | compositionSubstituted =>
    simp only [fold, compositionSubstituted] at ok
    split at ok
    · split at ok
      · split at ok
        · cases ok
        · obtain ⟨projections, -, rest⟩ := bindOk.mp ok
          obtain ⟨opened, -, same⟩ := bindOk.mp rest
          exact unboundedAddress (Except.ok.inj same)
      · cases ok
    · cases ok
  | _ => cases subject <;> cases ok

theorem composedAddress {record : RunAlarm} (unboundedFold : signal ≠ .tallyUnmoved)
    (ok : composedAlarm readKey signal subject readings raisedAtSha raisedBy = .ok record) :
    record.subject = subject ∧ record.signal = signal := by
  simp only [composedAlarm, bindOk] at ok
  obtain ⟨raised, folded, same⟩ := ok
  cases same
  cases raised with
  | none => exact ⟨rfl, rfl⟩
  | some record => exact foldAddress unboundedFold folded

theorem nextAlarmOk {stored written : Option RunAlarm} {observed : RunAlarm}
    (ok : nextAlarmRecord readKey stored observed = .ok written) :
    ∃ before now, alarmRaised readKey stored = .ok before ∧ alarmRaised readKey (some observed) = .ok now ∧
      written = if before = now then none else some observed := by
  simp only [nextAlarmRecord, bindOk] at ok
  obtain ⟨before, stands, now, reads, ok⟩ := ok
  refine ⟨before, now, stands, reads, ?_⟩
  split at ok
  · rename_i same
    cases ok
    rw [if_pos same]
  · rename_i turned
    cases ok
    rw [if_neg turned]

theorem alarmAskSettling (unboundedFold : signal ≠ .tallyUnmoved) :
    Settling (alarmAsk readKey signal subject readings raisedAtSha raisedBy) := by
  constructor
  · intro stored record ok
    obtain ⟨observed, composing, next⟩ := bindOk.mp ok
    obtain ⟨before, now, -, -, same⟩ := nextAlarmOk next
    split at same
    · cases same
    · cases same
      exact composedAddress unboundedFold composing
  · intro stored written again ok ok'
    obtain ⟨observed, composing, next⟩ := bindOk.mp ok
    obtain ⟨observed', composing', next'⟩ := bindOk.mp ok'
    cases composing.symm.trans composing'
    obtain ⟨before, now, stands, reads, rfl⟩ := nextAlarmOk next
    obtain ⟨before', now', stands', reads', rfl⟩ := nextAlarmOk next'
    cases reads.symm.trans reads'
    refine if_pos ?_
    by_cases same : before = now
    · rw [if_pos same, Option.none_or] at stands'
      cases stands.symm.trans stands'
      exact same
    · rw [if_neg same, Option.some_or] at stands'
      exact Except.ok.inj (stands'.symm.trans reads)

theorem tallyAskSettling {roster gap : List Tracker.TrackerIssue} :
    Settling (tallyAsk readKey laneKey observation roster gap) := by
  constructor
  · intro stored record ok
    obtain ⟨storedRaised, anchor, latest, closed, headSha, -, -, -, same⟩ := nextTallyOk ok
    split at same
    · cases same
      exact ⟨rfl, rfl⟩
    · cases same
  · intro stored written again ok ok'
    exact nextTallySettles ok ok'

variable {events : List LaneRunEvent} {projections : List RunEventProjection}

theorem laneAsksSettling {ask : Ask} (member : .ok ask ∈ laneAsks readKey laneKey observation events) :
    Settling ask := by
  simp only [laneAsks, List.mem_append, List.mem_cons, List.mem_map, List.mem_flatMap] at member
  rcases member with ⟨own, inside, same⟩ | same | ⟨memberId, -, inside⟩
  · cases same
    simp only [laneTally] at inside
    split at inside
    · cases List.mem_singleton.mp inside
      exact tallyAskSettling
    · cases List.mem_singleton.mp inside
      exact tallyAskSettling
    · cases inside
  · cases same
    exact alarmAskSettling (by simp)
  · simp only [memberAsks] at inside
    split at inside
    · cases inside
    · split at inside
      · cases inside
      · split at inside
        · cases List.mem_singleton.mp inside
        · obtain ⟨own, asked, same⟩ := List.mem_map.mp inside
          cases same
          simp only [criterionAsks, List.mem_cons, List.not_mem_nil, or_false] at asked
          rcases asked with rfl | rfl
          · exact alarmAskSettling (by simp)
          · exact alarmAskSettling (by simp)

/-- A member's asks are addressed to it, under one of the two criterion signals each. -/
theorem memberAsksSubject {memberId : Identity} {ask : Ask}
    (member : .ok ask ∈ memberAsks readKey laneKey observation projections memberId) :
    ∃ issueId, ask.subject = .criterion observation.scopeKey issueId memberId (some laneKey) := by
  simp only [memberAsks] at member
  split at member
  · cases member
  · split at member
    · cases member
    · split at member
      · cases List.mem_singleton.mp member
      · obtain ⟨own, asked, same⟩ := List.mem_map.mp member
        cases same
        simp only [criterionAsks, List.mem_cons, List.not_mem_nil, or_false] at asked
        rcases asked with rfl | rfl <;> exact ⟨_, rfl⟩

/-- Two asks at different addresses, where both can be asked. -/
def Apart (one other : Except Refusal Ask) : Prop :=
  ∀ ask ask', one = .ok ask → other = .ok ask' → ask.address ≠ ask'.address

theorem accountedOnce : (accountedMembers projections).Nodup :=
  (sortByPerm _ _).nodup_iff.mpr (List.nodup_dedup _)

theorem laneAsksApart : (laneAsks readKey laneKey observation events).Pairwise Apart := by
  have lanes : ∀ {ask}, ask ∈ laneTally readKey laneKey observation →
      ask.address = (.lane observation.scopeKey laneKey, .tallyUnmoved) := by
    intro ask member
    simp only [laneTally] at member
    split at member
    · cases List.mem_singleton.mp member
      rfl
    · cases List.mem_singleton.mp member
      rfl
    · cases member
  have criteria : ∀ {ask projections}, .ok ask ∈ (accountedMembers projections).flatMap
      (memberAsks readKey laneKey observation projections) → ∀ scope lane, ask.subject ≠ .lane scope lane := by
    intro ask projections member scope lane
    obtain ⟨memberId, -, inside⟩ := List.mem_flatMap.mp member
    obtain ⟨issueId, same⟩ := memberAsksSubject inside
    simp [same]
  rw [laneAsks, List.pairwise_append, List.pairwise_cons]
  refine ⟨?_, ⟨?_, ?_⟩, ?_⟩
  · simp only [laneTally]
    split <;> simp
  · rintro other member ask ask' same rfl same'
    cases same
    have subject := congrArg Prod.fst same'
    exact criteria member _ _ subject.symm
  · rw [List.pairwise_flatMap]
    constructor
    · intro memberId _
      simp only [memberAsks]
      split
      · exact .nil
      · split
        · exact .nil
        · split
          · simp
          · simp [criterionAsks, Apart, alarmAsk, Ask.address]
    · refine accountedOnce.imp ?_
      rintro memberId memberId' different one asked other asked' ask ask' rfl rfl same
      obtain ⟨issueId, subject⟩ := memberAsksSubject asked
      obtain ⟨issueId', subject'⟩ := memberAsksSubject asked'
      have equal := congrArg Prod.fst same
      simp only [Ask.address, subject, subject', AlarmSubject.criterion.injEq] at equal
      exact different equal.2.2.1
  · rintro one inside other member ask ask' rfl rfl same
    obtain ⟨own, asked, equal⟩ := List.mem_map.mp inside
    cases equal
    rw [lanes asked] at same
    rcases List.mem_cons.mp member with here | later
    · cases here
      cases congrArg Prod.snd same
    · exact criteria later _ _ (congrArg Prod.fst same).symm

/-- What the observation writes at each address it asks at is that address's answer. -/
structure Answers (stored : List RunAlarm) (asks : List (Except Refusal Ask)) (desired : List RunAlarm) : Prop where
  distinct : (desired.map RunAlarm.address).Nodup
  asked : ∀ record ∈ desired, ∃ ask, .ok ask ∈ asks ∧ record.address = ask.address
  answer : ∀ ask, .ok ask ∈ asks → ∃ written, ask.answer (storedAlarm stored ask.subject ask.signal) = .ok written ∧
    ∀ record, record ∈ desired ∧ record.address = ask.address ↔ written = some record

theorem answeredOk {stored desired : List RunAlarm} {asks : List (Except Refusal Ask)}
    (settling : ∀ ask, .ok ask ∈ asks → Settling ask) (apart : asks.Pairwise Apart)
    (ok : answered stored asks = .ok desired) : Answers stored asks desired := by
  induction asks generalizing desired with
  | nil =>
    cases ok
    exact ⟨.nil, by simp, by simp⟩
  | cons head asks ih =>
    simp only [answered, bindOk] at ok
    obtain ⟨ask, rfl, written, own, rest, later, same⟩ := ok
    cases same
    obtain ⟨others, apart⟩ := List.pairwise_cons.mp apart
    have answers := ih (fun ask member => settling ask (List.mem_cons_of_mem _ member)) apart later
    have addressed : ∀ record, written = some record → record.address = ask.address := by
      rintro record rfl
      obtain ⟨subject, signal⟩ := (settling ask List.mem_cons_self).addressed _ _ own
      exact Prod.ext subject signal
    have elsewhere : ∀ record ∈ rest, record.address ≠ ask.address := by
      intro record member same
      obtain ⟨other, asked, equal⟩ := answers.asked record member
      exact others _ asked ask other rfl rfl (same.symm.trans equal)
    refine ⟨?_, ?_, ?_⟩
    · rw [List.map_append, List.nodup_append]
      refine ⟨by cases written <;> simp, answers.distinct, ?_⟩
      rintro _ first _ later same
      obtain ⟨record, inside, rfl⟩ := List.mem_map.mp first
      obtain ⟨record', inside', rfl⟩ := List.mem_map.mp later
      exact elsewhere record' inside' (same.symm.trans (addressed record (Option.mem_toList.mp inside)))
    · intro record member
      rcases List.mem_append.mp member with here | there
      · exact ⟨ask, List.mem_cons_self, addressed record (Option.mem_toList.mp here)⟩
      · obtain ⟨other, asked, same⟩ := answers.asked record there
        exact ⟨other, List.mem_cons_of_mem _ asked, same⟩
    · intro other member
      rcases List.mem_cons.mp member with here | there
      · cases here
        refine ⟨written, own, fun record => ?_⟩
        rw [List.mem_append, Option.mem_toList]
        constructor
        · rintro ⟨here | there, same⟩
          · exact here
          · exact absurd same (elsewhere record there)
        · intro found
          exact ⟨Or.inl found, addressed record found⟩
      · obtain ⟨written', answer, iff⟩ := answers.answer other there
        refine ⟨written', answer, fun record => ?_⟩
        rw [← iff, List.mem_append, Option.mem_toList]
        constructor
        · rintro ⟨first | later, same⟩
          · exact absurd ((addressed record first).symm.trans same) (others _ there ask other rfl rfl)
          · exact ⟨later, same⟩
        · rintro ⟨later, same⟩
          exact ⟨Or.inr later, same⟩

theorem answeredNothing {stored desired : List RunAlarm} {asks : List (Except Refusal Ask)}
    (nothing : ∀ ask written, .ok ask ∈ asks → ask.answer (storedAlarm stored ask.subject ask.signal) = .ok written →
      written = none)
    (ok : answered stored asks = .ok desired) : desired = [] := by
  induction asks generalizing desired with
  | nil =>
    cases ok
    rfl
  | cons head asks ih =>
    simp only [answered, bindOk] at ok
    obtain ⟨ask, rfl, written, own, rest, later, same⟩ := ok
    cases same
    have none := nothing ask written List.mem_cons_self own
    have quiet := ih (fun ask written member => nothing ask written (List.mem_cons_of_mem _ member)) later
    rw [none, quiet]
    rfl

end Compose
end Kodezart.RunShape
