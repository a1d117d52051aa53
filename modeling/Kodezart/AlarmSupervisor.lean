import Mathlib
import Kodezart.LaneAlarms

/-! Observations of one lane by any number of scopes: the records each writes at its own
addresses, and the transition events all of them post on the lane's one stream. -/
namespace Kodezart.RunShape

inductive Write where
  | record (alarm : RunAlarm)
  | post (record : RunAlarm) (event : LaneRunEvent)
  deriving DecidableEq, Repr

/-- A lane's carrier, and the record each transition of the stream was posted for. -/
structure Carrier where
  records : Dict Address RunAlarm
  events : List LaneRunEvent
  posted : List (Address × RunEventKind)
  deriving DecidableEq, Repr

def Carrier.wrote (carrier : Carrier) : Write → Carrier
  | .record alarm => { carrier with records := carrier.records.set alarm.address alarm }
  | .post record event => { carrier with
      events := carrier.events ++ [event]
      posted := carrier.posted ++ [(record.address, event.kind)] }

section Observe
variable (readKey : Identity → Option NodeSessionKey) (laneKey : Identity)

/-- The transitions owed for the records, in order, up to the first that refuses. -/
def announcements (events : List LaneRunEvent) : List RunAlarm → List (RunAlarm × LaneRunEvent) × Option Refusal
  | [] => ([], none)
  | record :: records =>
    match alarmEventDue readKey record events with
    | .error e => ([], some e)
    | .ok due =>
      let (posts, refused) := announcements events records
      ((due.map fun event => (record, event)).toList ++ posts, refused)

/-- The writes of one whole observation, and the refusal that cuts it short, if one does. -/
def observeLane (carrier : Carrier) (observation : Observation) : List Write × Option Refusal :=
  match laneAlarmRecords readKey laneKey observation carrier.records.values carrier.events with
  | .error e => ([], some e)
  | .ok desired =>
    let (posts, refused) := announcements readKey carrier.events
      (announceable observation.scopeKey laneKey carrier.records.values desired)
    (desired.map .record ++ posts.map fun post => .post post.1 post.2, refused)

inductive Happening where
  /-- An observation that stops after so many of its writes. -/
  | tick (observation : Observation) (writes : Nat)
  /-- Another party's entry on the stream. -/
  | heard (event : LaneRunEvent)
  deriving DecidableEq, Repr

/-- The entries only an observation posts. -/
def announces (event : LaneRunEvent) : Bool :=
  event.kind ∈ transitionKinds ∧ event.subjectKey ∈ observedAlarms.map fun signal => some signal.value

def Carrier.next (carrier : Carrier) : Happening → Option Carrier
  | .tick observation writes =>
    some (((observeLane readKey laneKey carrier observation).1.take writes).foldl Carrier.wrote carrier)
  | .heard event => if announces event then none else some { carrier with events := carrier.events ++ [event] }

/-- A tick no refusal and no interruption cuts short. -/
def Full (carrier : Carrier) (observation : Observation) (writes : Nat) : Prop :=
  (observeLane readKey laneKey carrier observation).2 = none ∧
    (observeLane readKey laneKey carrier observation).1.length ≤ writes

/-- A tick that posts nothing over another scope's word: every transition posted before
under a signal it posts under was posted for the same record. -/
def Alone (carrier : Carrier) : Happening → Bool
  | .tick observation _ => (observeLane readKey laneKey carrier observation).1.all fun write =>
      match write with
      | .record _ => true
      | .post record _ => carrier.posted.all fun post => post.1.2 ≠ record.signal ∨ post.1 = record.address
  | .heard _ => true

/-- The carrier's steps, those alone that meet the condition. -/
def Carrier.nextAlone (carrier : Carrier) (happening : Happening) : Option Carrier :=
  if Alone readKey laneKey carrier happening then carrier.next readKey laneKey happening else none

/-- What the stream last said under a record's key is what the record replays to. -/
def Agrees (record : RunAlarm) (events : List LaneRunEvent) : Prop :=
  alarmEventDue readKey record events = .ok none

end Observe

def turned (kind : RunEventKind) : RunEventKind :=
  if kind = .runAlarmRaised then .runAlarmCleared else .runAlarmRaised

/-- Raised and cleared in turn, `kind` first. -/
def alternating : RunEventKind → List RunEventKind → Bool
  | _, [] => true
  | kind, head :: rest => head = kind ∧ alternating (turned kind) rest

def Carrier.postedFor (carrier : Carrier) (address : Address) : List RunEventKind :=
  (carrier.posted.filter fun post => post.1 = address).map Prod.snd

/-- Each record stands once, at its own address. -/
structure Addressed (records : Dict Address RunAlarm) : Prop where
  distinct : records.keys.Nodup
  addressed : ∀ e ∈ records, e.2.address = e.1

/-- A carrier before its first observation: any records, and a stream none has spoken on. -/
structure Fresh (carrier : Carrier) : Prop where
  records : Addressed carrier.records
  silent : ∀ event ∈ carrier.events, announces event = false
  unposted : carrier.posted = []

section Records
variable {records : Dict Address RunAlarm}

theorem addressedSet (addressed : Addressed records) (record : RunAlarm) :
    Addressed (records.set record.address record) := by
  refine ⟨Dict.setNodup _ _ addressed.distinct, fun e member => ?_⟩
  rcases Dict.setMember member with old | rfl
  · exact addressed.addressed e old
  · rfl

abbrev entered (alarms : List RunAlarm) : List (Address × RunAlarm) := alarms.map fun record => (record.address, record)

theorem addressedUpdate (addressed : Addressed records) (alarms : List RunAlarm) :
    Addressed (records.update (entered alarms)) := by
  induction alarms generalizing records with
  | nil => exact addressed
  | cons record alarms ih => exact ih (addressedSet addressed record)

/-- The record read at an address is the one standing there. -/
theorem storedFound (addressed : Addressed records) (subject : AlarmSubject) (signal : AlarmSignal) :
    storedAlarm records.values subject signal = records.get? (subject, signal) := by
  have own : ∀ record, record ∈ records.values ↔ records.get? record.address = some record := by
    intro record
    constructor
    · intro member
      obtain ⟨e, inside, rfl⟩ := List.mem_map.mp member
      rw [addressed.addressed e inside]
      exact Dict.getOfMember addressed.distinct inside
    · intro found
      exact List.mem_map.mpr ⟨_, Dict.getMember found, rfl⟩
  cases stored : storedAlarm records.values subject signal with
  | some record =>
    have same := List.find?_some stored
    simp only [decide_eq_true_eq] at same
    have found := (own record).mp (List.mem_of_find?_eq_some stored)
    rw [RunAlarm.address, same.1, same.2] at found
    exact found.symm
  | none =>
    cases found : records.get? (subject, signal) with
    | none => rfl
    | some record =>
      have inside := Dict.getMember found
      have same : record.subject = subject ∧ record.signal = signal := by
        simpa [RunAlarm.address] using addressed.addressed _ inside
      have absent := List.find?_eq_none.mp stored record (List.mem_map.mpr ⟨_, inside, rfl⟩)
      simp [same] at absent

end Records

section Writes
variable (carrier : Carrier)

theorem wroteRecords (alarms : List RunAlarm) : (alarms.map Write.record).foldl Carrier.wrote carrier =
    { carrier with records := carrier.records.update (entered alarms) } := by
  induction alarms generalizing carrier with
  | nil => rfl
  | cons record alarms ih => exact ih _

theorem wrotePosts (posts : List (RunAlarm × LaneRunEvent)) :
    (posts.map fun post => Write.post post.1 post.2).foldl Carrier.wrote carrier =
      { carrier with
        events := carrier.events ++ posts.map Prod.snd
        posted := carrier.posted ++ posts.map fun post => (post.1.address, post.2.kind) } := by
  induction posts generalizing carrier with
  | nil => simp
  | cons post posts ih =>
    rw [List.map_cons, List.foldl_cons, ih]
    simp [Carrier.wrote]

end Writes

section Speech
variable {readKey : Identity → Option NodeSessionKey} {events : List LaneRunEvent} {record : RunAlarm}
  {event : LaneRunEvent}

theorem valueInjective : Function.Injective AlarmSignal.value := by
  intro one other same
  cases one <;> cases other <;> first | rfl | exact absurd same (by decide)

theorem lastSpokenConcat (key : Identity) (events : List LaneRunEvent) (event : LaneRunEvent) :
    lastSpoken key (events ++ [event]) =
      if event.kind ∈ transitionKinds ∧ event.subjectKey = some key then some event else lastSpoken key events := by
  by_cases speaks : event.kind ∈ transitionKinds ∧ event.subjectKey = some key <;>
    simp [lastSpoken, List.filter_append, speaks]

/-- What an owed transition says, and over which last word. -/
theorem dueOk (ok : alarmEventDue readKey record events = .ok (some event)) :
    ∃ raised, alarmRaised readKey (some record) = .ok raised ∧
      event.kind = (if raised then .runAlarmRaised else .runAlarmCleared) ∧
      event.subjectKey = some record.signal.value ∧
      (∀ last, lastSpoken record.signal.value events = some last → decide (last.kind = .runAlarmRaised) ≠ raised) ∧
      (lastSpoken record.signal.value events = none → raised = true) := by
  simp only [alarmEventDue] at ok
  split at ok
  · obtain ⟨raised, replays, ok⟩ := bindOk.mp ok
    refine ⟨raised, replays, ?_⟩
    split at ok
    · rename_i silent
      cases raised with
      | false => simp [pure, Except.pure] at ok
      | true =>
        cases ok
        exact ⟨rfl, rfl, by simp [silent], fun _ => rfl⟩
    · rename_i last spoken
      split at ok
      · cases ok
      · rename_i turned
        cases ok
        exact ⟨rfl, rfl, by simpa [spoken] using turned, by simp [spoken]⟩
  · cases ok

end Speech

section Turn
variable {readKey : Identity → Option NodeSessionKey} {laneKey : Identity} {carrier carrier' : Carrier}
  {observation : Observation} {writes : Nat} {events : List LaneRunEvent} {stored desired records : List RunAlarm}

/-- A carrier with transitions posted on its stream. -/
def Carrier.spoke (carrier : Carrier) (posts : List (RunAlarm × LaneRunEvent)) : Carrier :=
  { carrier with
    events := carrier.events ++ posts.map Prod.snd
    posted := carrier.posted ++ posts.map fun post => (post.1.address, post.2.kind) }

/-- Transitions owed on a stream, each for a record of its own. -/
structure Owed (readKey : Identity → Option NodeSessionKey) (events : List LaneRunEvent) (records : List RunAlarm)
    (posts : List (RunAlarm × LaneRunEvent)) : Prop where
  ordered : (posts.map Prod.fst).Sublist records
  due : ∀ post ∈ posts, alarmEventDue readKey post.1 events = .ok (some post.2)

theorem announcementsOwed (readKey : Identity → Option NodeSessionKey) (events : List LaneRunEvent)
    (records : List RunAlarm) : Owed readKey events records (announcements readKey events records).1 := by
  induction records with
  | nil => exact ⟨.slnil, by simp [announcements]⟩
  | cons record records ih =>
    simp only [announcements]
    split
    · exact ⟨List.nil_sublist _, by simp⟩
    · rename_i due owes
      cases due with
      | none => exact ⟨ih.ordered.cons _, ih.due⟩
      | some event =>
        refine ⟨ih.ordered.cons_cons _, fun post member => ?_⟩
        rcases List.mem_cons.mp member with rfl | later
        · exact owes
        · exact ih.due post later

/-- Announcements no refusal cuts short leave out no record that owes a transition. -/
theorem announcementsFull (full : (announcements readKey events records).2 = none) {record : RunAlarm}
    (member : record ∈ records) : alarmEventDue readKey record events = .ok none ∨
      ∃ event, (record, event) ∈ (announcements readKey events records).1 := by
  induction records with
  | nil => cases member
  | cons head records ih =>
    simp only [announcements] at full ⊢
    split at full
    · cases full
    · rename_i due owes
      rcases List.mem_cons.mp member with rfl | later
      · cases due with
        | none => exact Or.inl owes
        | some event => exact Or.inr ⟨event, List.mem_cons_self⟩
      · refine (ih full later).imp_right ?_
        rintro ⟨event, posted⟩
        exact ⟨event, List.mem_append_right _ posted⟩

section Announceable
variable {scopeKey : Identity}

abbrev spoken (scopeKey laneKey : Identity) (records : List RunAlarm) : List (AlarmSignal × RunAlarm) :=
  (records.filter fun record => record.subject = .lane scopeKey laneKey ∧ record.signal ∈ observedAlarms).map
    fun record => (record.signal, record)

theorem announceableMember {record : RunAlarm} (member : record ∈ announceable scopeKey laneKey stored desired) :
    record ∈ stored ++ desired ∧ record.subject = .lane scopeKey laneKey ∧ record.signal ∈ observedAlarms := by
  obtain ⟨e, inside, rfl⟩ := List.mem_map.mp member
  have source : e ∈ spoken scopeKey laneKey (stored ++ desired) :=
    Dict.updateMember inside |>.resolve_left (by simp)
  obtain ⟨record, kept, rfl⟩ := List.mem_map.mp source
  simpa only [List.mem_filter, decide_eq_true_eq] using kept

/-- One record is announced for each signal. -/
theorem announceableOnce : ((announceable scopeKey laneKey stored desired).map RunAlarm.signal).Nodup := by
  have same : (announceable scopeKey laneKey stored desired).map RunAlarm.signal =
      Dict.keys (Dict.update [] (spoken scopeKey laneKey (stored ++ desired))) := by
    rw [announceable, Dict.values, Dict.keys, List.map_map]
    refine List.map_congr_left fun e inside => ?_
    have source := Dict.updateMember inside |>.resolve_left (by simp)
    obtain ⟨record, -, rfl⟩ := List.mem_map.mp source
    rfl
  rw [same]
  exact Dict.updateNodup _ List.nodup_nil

theorem spokenOnce (once : (records.map RunAlarm.address).Nodup) :
    (Dict.keys (spoken scopeKey laneKey records)).Nodup := by
  have addresses : (Dict.keys (spoken scopeKey laneKey records)).map
      (fun signal => (AlarmSubject.lane scopeKey laneKey, signal)) =
      (records.filter fun record => record.subject = .lane scopeKey laneKey ∧
        record.signal ∈ observedAlarms).map RunAlarm.address := by
    simp only [Dict.keys, spoken, List.map_map]
    refine List.map_congr_left fun record member => ?_
    have kept := (List.mem_filter.mp member).2
    simp only [decide_eq_true_eq] at kept
    exact Prod.ext kept.1.symm rfl
  exact List.Nodup.of_map _ (addresses ▸ once.sublist (List.filter_sublist.map _))

theorem addressesDistinct {records : Dict Address RunAlarm} (addressed : Addressed records) :
    (records.values.map RunAlarm.address).Nodup := by
  have same : records.values.map RunAlarm.address = records.keys := by
    simp only [Dict.values, Dict.keys, List.map_map]
    exact List.map_congr_left addressed.addressed
  exact same ▸ addressed.distinct

/-- What stands at one of the observation's own addresses after its writes is announced. -/
theorem announceableStanding (addressed : Addressed carrier.records) (once : (desired.map RunAlarm.address).Nodup)
    {signal : AlarmSignal} (observed : signal ∈ observedAlarms) {record : RunAlarm}
    (found : (carrier.records.update (entered desired)).get? (.lane scopeKey laneKey, signal) = some record) :
    record ∈ announceable scopeKey laneKey carrier.records.values desired := by
  have own : record.address = (.lane scopeKey laneKey, signal) :=
    (addressedUpdate addressed desired).addressed _ (Dict.getMember found)
  have subject : record.subject = .lane scopeKey laneKey := congrArg Prod.fst own
  have named : record.signal = signal := congrArg Prod.snd own
  have inside : ∀ {records : List RunAlarm}, record ∈ records → (signal, record) ∈ spoken scopeKey laneKey records :=
    fun member => List.mem_map.mpr ⟨record, List.mem_filter.mpr ⟨member, by simp [subject, named, observed]⟩,
      by rw [named]⟩
  suffices spoke : (Dict.update [] (spoken scopeKey laneKey (carrier.records.values ++ desired))).get? signal =
      some record from List.mem_map.mpr ⟨_, Dict.getMember spoke, rfl⟩
  have split : Dict.update [] (spoken scopeKey laneKey (carrier.records.values ++ desired)) =
      (Dict.update [] (spoken scopeKey laneKey carrier.records.values)).update
        (spoken scopeKey laneKey desired) := by
    simp only [Dict.update, spoken, List.filter_append, List.map_append, List.foldl_append]
  rw [split]
  by_cases rewritten : record ∈ desired
  · exact Dict.updateGetUnique (spokenOnce once) (inside rewritten)
  · have stood : carrier.records.get? (.lane scopeKey laneKey, signal) = some record := by
      rcases Dict.updateGetSome found with written | stood
      · obtain ⟨other, member, same⟩ := List.mem_map.mp written
        have kept : other = record := congrArg Prod.snd same
        exact absurd (kept ▸ member) rewritten
      · exact stood
    rw [Dict.updateGetOther, Dict.updateGetUnique (spokenOnce (addressesDistinct addressed))]
    · exact inside (List.mem_map.mpr ⟨_, Dict.getMember stood, rfl⟩)
    · intro e member same
      obtain ⟨other, kept, rfl⟩ := List.mem_map.mp member
      obtain ⟨wrote, own'⟩ := List.mem_filter.mp kept
      simp only [decide_eq_true_eq] at own'
      have address : other.address = (.lane scopeKey laneKey, signal) := Prod.ext own'.1 same
      have now : (carrier.records.update (entered desired)).get? other.address = some other :=
        Dict.updateGetUnique (by simpa [entered, Dict.keys, Function.comp_def] using once)
          (List.mem_map.mpr ⟨other, wrote, rfl⟩)
      rw [address, found] at now
      exact rewritten (Option.some.inj now ▸ wrote)

end Announceable

/-- What one tick does: records at addresses it asks at, and transitions the stream owes
for records of its own, one for each signal. -/
structure Turn (readKey : Identity → Option NodeSessionKey) (laneKey : Identity) (carrier : Carrier)
    (observation : Observation) (alarms : List RunAlarm) (posts : List (RunAlarm × LaneRunEvent)) : Prop where
  asked : ∀ record ∈ alarms, ∃ ask, .ok ask ∈ laneAsks readKey laneKey observation carrier.events ∧
    record.address = ask.address
  once : (posts.map fun post => post.1.signal).Nodup
  own : ∀ post ∈ posts, post.1.subject = .lane observation.scopeKey laneKey ∧ post.1.signal ∈ observedAlarms
  due : ∀ post ∈ posts, alarmEventDue readKey post.1 carrier.events = .ok (some post.2)
  written : ∀ post ∈ posts, .post post.1 post.2 ∈ (observeLane readKey laneKey carrier observation).1

theorem desiredAnswers (ok : laneAlarmRecords readKey laneKey observation stored events = .ok desired) :
    Answers stored (laneAsks readKey laneKey observation events) desired :=
  answeredOk (fun _ => laneAsksSettling) laneAsksApart ok

theorem tickTurn (moved : carrier.next readKey laneKey (.tick observation writes) = some carrier') :
    ∃ alarms posts, Turn readKey laneKey carrier observation alarms posts ∧
      carrier' = ({ carrier with records := carrier.records.update (entered alarms) } : Carrier).spoke posts := by
  simp only [Carrier.next, Option.some.injEq] at moved
  subst moved
  cases composed : laneAlarmRecords readKey laneKey observation carrier.records.values carrier.events with
  | error e =>
    refine ⟨[], [], ⟨by simp, by simp, by simp, by simp, by simp⟩, ?_⟩
    simp [observeLane, composed, Carrier.spoke, Dict.update]
  | ok desired =>
    have owed := announcementsOwed readKey carrier.events
      (announceable observation.scopeKey laneKey carrier.records.values desired)
    have all : (observeLane readKey laneKey carrier observation).1 = desired.map .record ++
        ((announcements readKey carrier.events (announceable observation.scopeKey laneKey
          carrier.records.values desired)).1.map fun post => .post post.1 post.2) := by
      simp only [observeLane, composed]
    generalize (announcements readKey carrier.events (announceable observation.scopeKey laneKey
      carrier.records.values desired)).1 = posts at owed all
    refine ⟨desired.take writes, posts.take (writes - desired.length), ⟨?_, ?_, ?_, ?_, ?_⟩, ?_⟩
    · exact fun record member => (desiredAnswers composed).asked record (List.mem_of_mem_take member)
    · have whole : (posts.map fun post => post.1.signal).Nodup := by
        have signals := announceableOnce.sublist (owed.ordered.map RunAlarm.signal)
        rwa [List.map_map] at signals
      exact whole.sublist ((List.take_sublist _ _).map _)
    · exact fun post member => (announceableMember (owed.ordered.subset
        (List.mem_map_of_mem (List.mem_of_mem_take member)))).2
    · exact fun post member => owed.due post (List.mem_of_mem_take member)
    · intro post member
      rw [all]
      exact List.mem_append_right _ (List.mem_map.mpr ⟨post, List.mem_of_mem_take member, rfl⟩)
    · rw [all, List.take_append, List.length_map, ← List.map_take, ← List.map_take, List.foldl_append,
        wroteRecords, wrotePosts]
      rfl

/-- What a tick that nothing cuts short does. -/
theorem fullTurn (full : Full readKey laneKey carrier observation writes)
    (moved : carrier.next readKey laneKey (.tick observation writes) = some carrier') :
    ∃ desired, laneAlarmRecords readKey laneKey observation carrier.records.values carrier.events = .ok desired ∧
      (announcements readKey carrier.events
        (announceable observation.scopeKey laneKey carrier.records.values desired)).2 = none ∧
      carrier' = ({ carrier with records := carrier.records.update (entered desired) } : Carrier).spoke
        (announcements readKey carrier.events
          (announceable observation.scopeKey laneKey carrier.records.values desired)).1 := by
  obtain ⟨unrefused, whole⟩ := full
  simp only [Carrier.next, Option.some.injEq, List.take_of_length_le whole] at moved
  subst moved
  cases composed : laneAlarmRecords readKey laneKey observation carrier.records.values carrier.events with
  | error e => simp [observeLane, composed] at unrefused
  | ok desired =>
    refine ⟨desired, rfl, ?_, ?_⟩
    · simpa only [observeLane, composed] using unrefused
    · simp only [observeLane, composed, List.foldl_append, wroteRecords, wrotePosts]
      rfl

end Turn

end Kodezart.RunShape
