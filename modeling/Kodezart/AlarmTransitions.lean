import Mathlib
import Kodezart.Machine
import Kodezart.AlarmSupervisor

/-! What a lane's stream says of each alarm record over whole runs of its observers:
the transitions alternate, a full tick repairs what an interrupted one left unsaid, and
observers of unchanged facts fall silent. -/
namespace Kodezart.RunShape
open Machine

variable {readKey : Identity → Option NodeSessionKey} {laneKey : Identity} {carrier carrier' : Carrier}
  {observation other : Observation} {writes : Nat} {events more : List LaneRunEvent} {record : RunAlarm}
  {event : LaneRunEvent} {posts : List (RunAlarm × LaneRunEvent)} {records : List RunAlarm}

section Words

theorem alternatingConcat {kind next : RunEventKind} {kinds : List RunEventKind}
    (alternates : alternating kind kinds) (first : kinds = [] → next = kind)
    (later : ∀ last, kinds.getLast? = some last → next = turned last) : alternating kind (kinds ++ [next]) := by
  induction kinds generalizing kind with
  | nil => simp [alternating, first rfl]
  | cons head rest ih =>
    simp only [alternating, Bool.decide_and, Bool.decide_eq_true, Bool.and_eq_true, decide_eq_true_eq] at alternates
    simp only [List.cons_append, alternating, alternates.1, true_and, Bool.decide_eq_true]
    refine ih alternates.2 (fun none => ?_) (fun last word => ?_)
    · rw [later head (by simp [none]), alternates.1]
    · refine later last ?_
      rw [List.getLast?_cons, word]
      rfl

/-- What is owed for a record depends on the stream's last word under its key alone. -/
theorem dueCongr (same : lastSpoken record.signal.value events = lastSpoken record.signal.value more) :
    alarmEventDue readKey record events = alarmEventDue readKey record more := by
  simp only [alarmEventDue, same]

/-- A record is answered by the transition that was owed for it. -/
theorem dueAnswered (due : alarmEventDue readKey record events = .ok (some event))
    (spoken : lastSpoken record.signal.value more = some event) : Agrees readKey record more := by
  obtain ⟨raised, replays, kind, -, -⟩ := dueOk due
  simp only [alarmEventDue] at due
  simp only [Agrees, alarmEventDue, spoken, replays, bind, Except.bind]
  split at due
  · cases raised <;> simp [kind, pure, Except.pure]
  · cases due

theorem dueTransition (due : alarmEventDue readKey record events = .ok (some event)) :
    event.kind ∈ transitionKinds ∧ event.subjectKey = some record.signal.value := by
  obtain ⟨raised, -, kind, subject, -⟩ := dueOk due
  refine ⟨?_, subject⟩
  cases raised <;> simp [kind, transitionKinds]

theorem filterOthers {p : LaneRunEvent → Bool} (others : ∀ event ∈ more, p event = false) :
    (events ++ more).filter p = events.filter p := by
  have none : more.filter p = [] := List.filter_eq_nil_iff.mpr fun event member => by simp [others event member]
  rw [List.filter_append, none, List.append_nil]

theorem lastSpokenOthers {key : Identity} (others : ∀ post ∈ posts, post.2.subjectKey ≠ some key) :
    lastSpoken key (events ++ posts.map Prod.snd) = lastSpoken key events := by
  rw [lastSpoken, filterOthers, lastSpoken]
  simp only [List.mem_map, decide_eq_false_iff_not]
  rintro _ ⟨post, member, rfl⟩ speaks
  exact others post member speaks.2

theorem lastSpokenPosted (once : (posts.map fun post => post.1.signal).Nodup)
    (due : ∀ post ∈ posts, alarmEventDue readKey post.1 events = .ok (some post.2))
    (member : (record, event) ∈ posts) :
    lastSpoken record.signal.value (events ++ posts.map Prod.snd) = some event := by
  obtain ⟨before, after, rfl⟩ := List.append_of_mem member
  have later : ∀ post ∈ after, post.2.subjectKey ≠ some record.signal.value := by
    intro post inside same
    rw [(dueTransition (due post (by simp [inside]))).2, Option.some.injEq] at same
    have signal := valueInjective same
    rw [List.map_append, List.map_cons, List.nodup_append, List.nodup_cons] at once
    exact once.2.1.1 (List.mem_map.mpr ⟨post, inside, signal⟩)
  have said := dueTransition (due (record, event) (by simp))
  rw [List.map_append, List.map_cons, ← List.append_assoc, List.append_cons, lastSpokenOthers later,
    lastSpokenConcat, if_pos said]

end Words

section Voice

/-- What the stream says under a signal is what was posted under it, for one record and
in turn. -/
structure Voiced (carrier : Carrier) : Prop where
  addressed : Addressed carrier.records
  heard : ∀ signal ∈ observedAlarms, (lastSpoken signal.value carrier.events).map LaneRunEvent.kind =
    ((carrier.posted.filter fun post => post.1.2 = signal).map Prod.snd).getLast?
  own : ∀ post ∈ carrier.posted, ∀ post' ∈ carrier.posted, post.1.2 = post'.1.2 → post.1 = post'.1
  alternates : ∀ address, alternating .runAlarmRaised (carrier.postedFor address)

theorem voicedFresh (fresh : Fresh carrier) : Voiced carrier := by
  refine ⟨fresh.records, fun signal observed => ?_, by simp [fresh.unposted], ?_⟩
  · have quiet : lastSpoken signal.value carrier.events = none := by
      rw [lastSpoken, List.getLast?_eq_none_iff, List.filter_eq_nil_iff]
      intro event member speaks
      have silent := fresh.silent event member
      simp only [announces, decide_eq_false_iff_not] at silent
      simp only [decide_eq_true_eq] at speaks
      exact silent ⟨speaks.1, List.mem_map.mpr ⟨signal, observed, speaks.2.symm⟩⟩
    simp [quiet, fresh.unposted]
  · simp [Carrier.postedFor, fresh.unposted, alternating]

theorem voicedHeard (voiced : Voiced carrier) (silent : announces event = false) :
    Voiced { carrier with events := carrier.events ++ [event] } := by
  refine ⟨voiced.addressed, fun signal observed => ?_, voiced.own, voiced.alternates⟩
  rw [lastSpokenConcat, if_neg, voiced.heard signal observed]
  intro speaks
  simp only [announces, decide_eq_false_iff_not] at silent
  exact silent ⟨speaks.1, List.mem_map.mpr ⟨signal, observed, speaks.2.symm⟩⟩

/-- One transition posted where every word before it under its signal was this record's. -/
theorem voicedPost (voiced : Voiced carrier) (observed : record.signal ∈ observedAlarms)
    (due : alarmEventDue readKey record carrier.events = .ok (some event))
    (alone : ∀ post ∈ carrier.posted, post.1.2 ≠ record.signal ∨ post.1 = record.address) :
    Voiced (carrier.spoke [(record, event)]) := by
  obtain ⟨raised, -, kind, -, turns, first⟩ := dueOk due
  have said := dueTransition due
  have mine : ∀ post ∈ carrier.posted, post.1.2 = record.signal ↔ post.1 = record.address := by
    intro post member
    exact ⟨(alone post member).resolve_left ∘ not_not_intro, fun same => congrArg Prod.snd same⟩
  have words : (carrier.posted.filter fun post => post.1.2 = record.signal) =
      carrier.posted.filter fun post => post.1 = record.address :=
    List.filter_congr fun post member => by simp [mine post member]
  refine ⟨voiced.addressed, fun signal inside => ?_, ?_, fun address => ?_⟩
  · simp only [Carrier.spoke, List.map_cons, List.map_nil, lastSpokenConcat, List.filter_append, said,
      Option.some.injEq, true_and]
    by_cases same : record.signal = signal
    · subst same
      simp [RunAlarm.address]
    · have different : record.signal.value ≠ signal.value := fun equal => same (valueInjective equal)
      simp [different, RunAlarm.address, same, voiced.heard signal inside]
  · intro post member post' member' same
    simp only [Carrier.spoke, List.map_cons, List.map_nil, List.mem_append, List.mem_singleton] at member member'
    rcases member with old | rfl
    · rcases member' with old' | rfl
      · exact voiced.own post old post' old' same
      · exact (mine post old).mp same
    · rcases member' with old' | rfl
      · exact ((mine post' old').mp same.symm).symm
      · rfl
  · simp only [Carrier.postedFor, Carrier.spoke, List.map_cons, List.map_nil, List.filter_append, List.map_append]
    by_cases same : record.address = address
    · subst same
      have heard := voiced.heard record.signal observed
      rw [words] at heard
      simp only [List.filter_cons, decide_true, if_true, List.filter_nil, List.map_cons, List.map_nil]
      refine alternatingConcat (voiced.alternates record.address) (fun none => ?_) (fun last word => ?_)
      · rw [none, List.getLast?_nil, Option.map_eq_none_iff] at heard
        simp [kind, first heard]
      · rw [word, Option.map_eq_some_iff] at heard
        obtain ⟨spoken, found, rfl⟩ := heard
        have turn := turns spoken found
        have transition : spoken.kind ∈ transitionKinds := by
          have member := List.mem_of_getLast? found
          simp only [List.mem_filter, decide_eq_true_eq] at member
          exact member.2.1
        simp only [transitionKinds, List.mem_cons, List.not_mem_nil, or_false] at transition
        rcases transition with was | was <;> cases raised <;> simp_all [turned]
    · simpa [same, Carrier.postedFor] using voiced.alternates address

theorem spokeConcat (post : RunAlarm × LaneRunEvent) :
    carrier.spoke (posts ++ [post]) = (carrier.spoke posts).spoke [post] := by
  simp [Carrier.spoke]

theorem voicedSpoke (voiced : Voiced carrier) (once : (posts.map fun post => post.1.signal).Nodup)
    (observed : ∀ post ∈ posts, post.1.signal ∈ observedAlarms)
    (due : ∀ post ∈ posts, alarmEventDue readKey post.1 carrier.events = .ok (some post.2))
    (alone : ∀ post ∈ posts, ∀ old ∈ carrier.posted, old.1.2 ≠ post.1.signal ∨ old.1 = post.1.address) :
    Voiced (carrier.spoke posts) := by
  induction posts using List.reverseRecOn with
  | nil => simpa [Carrier.spoke] using voiced
  | append_singleton posts post ih =>
    rw [List.map_append, List.nodup_append] at once
    have apart : ∀ earlier ∈ posts, earlier.1.signal ≠ post.1.signal := fun earlier member =>
      once.2.2 _ (List.mem_map.mpr ⟨earlier, member, rfl⟩) _ (by simp)
    have earlier := ih once.1 (fun post member => observed post (by simp [member]))
      (fun post member => due post (by simp [member])) (fun post member => alone post (by simp [member]))
    have still : alarmEventDue readKey post.1 (carrier.spoke posts).events = .ok (some post.2) := by
      rw [← due post (by simp)]
      refine dueCongr (lastSpokenOthers fun before member same => ?_)
      rw [(dueTransition (due before (by simp [member]))).2, Option.some.injEq] at same
      exact apart before member (valueInjective same)
    rw [spokeConcat]
    refine voicedPost earlier (observed post (by simp)) still fun old member => ?_
    simp only [Carrier.spoke, List.mem_append, List.mem_map] at member
    rcases member with stood | ⟨before, inside, rfl⟩
    · exact alone post (by simp) old stood
    · exact Or.inl (apart before inside)

theorem aloneSpeaks (alone : Alone readKey laneKey carrier (.tick observation writes))
    (written : .post record event ∈ (observeLane readKey laneKey carrier observation).1) :
    ∀ post ∈ carrier.posted, post.1.2 ≠ record.signal ∨ post.1 = record.address := by
  have all := List.all_eq_true.mp alone _ written
  simpa using all

theorem nextAloneOk {happening : Happening}
    (moved : carrier.nextAlone readKey laneKey happening = some carrier') :
    Alone readKey laneKey carrier happening ∧ carrier.next readKey laneKey happening = some carrier' := by
  simp only [Carrier.nextAlone] at moved
  split at moved
  · rename_i alone
    exact ⟨alone, moved⟩
  · cases moved

theorem voicedNext {happening : Happening} (voiced : Voiced carrier)
    (moved : carrier.nextAlone readKey laneKey happening = some carrier') : Voiced carrier' := by
  obtain ⟨alone, moved⟩ := nextAloneOk moved
  cases happening with
  | heard event =>
    simp only [Carrier.next] at moved
    split at moved
    · cases moved
    · rename_i silent
      cases moved
      exact voicedHeard voiced (by simpa using silent)
  | tick observation writes =>
    obtain ⟨alarms, posts, turn, rfl⟩ := tickTurn moved
    have wrote : Voiced { carrier with records := carrier.records.update (entered alarms) } :=
      ⟨addressedUpdate voiced.addressed alarms, voiced.heard, voiced.own, voiced.alternates⟩
    have aside : ∀ post ∈ posts, ∀ old ∈ carrier.posted, old.1.2 ≠ post.1.signal ∨ old.1 = post.1.address :=
      fun post member => aloneSpeaks alone (turn.written post member)
    exact voicedSpoke wrote turn.once (fun post member => (turn.own post member).2) turn.due aside

end Voice

section Repair

/-- A tick nothing cuts short leaves no record of its own owing a transition. -/
theorem fullAgrees (addressed : Addressed carrier.records)
    (full : Full readKey laneKey carrier observation writes)
    (moved : carrier.next readKey laneKey (.tick observation writes) = some carrier')
    (member : record ∈ carrier'.records.values) (subject : record.subject = .lane observation.scopeKey laneKey)
    (observed : record.signal ∈ observedAlarms) : Agrees readKey record carrier'.events := by
  obtain ⟨desired, composed, unrefused, rfl⟩ := fullTurn full moved
  have answers := desiredAnswers composed
  have stands : (carrier.records.update (entered desired)).get? (.lane observation.scopeKey laneKey, record.signal) =
      some record := by
    obtain ⟨e, inside, rfl⟩ := List.mem_map.mp member
    have updated := addressedUpdate addressed desired
    have found := Dict.getOfMember updated.distinct inside
    rwa [← updated.addressed e inside, RunAlarm.address, subject] at found
  have announced := announceableStanding addressed answers.distinct observed stands
  have owed := announcementsOwed readKey carrier.events
    (announceable observation.scopeKey laneKey carrier.records.values desired)
  have once : ((announcements readKey carrier.events (announceable observation.scopeKey laneKey
      carrier.records.values desired)).1.map fun post => post.1.signal).Nodup := by
    have signals := announceableOnce.sublist (owed.ordered.map RunAlarm.signal)
    rwa [List.map_map] at signals
  rcases announcementsFull unrefused announced with quiet | ⟨event, posted⟩
  · refine (dueCongr (lastSpokenOthers fun post inside same => ?_)).trans quiet
    rw [(dueTransition (owed.due post inside)).2, Option.some.injEq] at same
    have mine : post.1 = record := List.inj_on_of_nodup_map announceableOnce
      (owed.ordered.subset (List.mem_map_of_mem inside)) announced (valueInjective same)
    have owes := owed.due post inside
    rw [mine, quiet] at owes
    cases owes
  · exact dueAnswered (owed.due _ posted) (lastSpokenPosted once owed.due posted)

end Repair

section Settle

/-- The entries an observation reads of the stream are not the ones it posts. -/
theorem laneAsksTransitions (due : ∀ post ∈ posts, alarmEventDue readKey post.1 events = .ok (some post.2)) :
    laneAsks readKey laneKey observation (events ++ posts.map Prod.snd) =
      laneAsks readKey laneKey observation events := by
  have kinds : ∀ event ∈ posts.map Prod.snd, event.kind = .runAlarmRaised ∨ event.kind = .runAlarmCleared := by
    intro event member
    obtain ⟨post, inside, rfl⟩ := List.mem_map.mp member
    simpa [transitionKinds] using (dueTransition (due post inside)).1
  have openings : sessionOpenings (events ++ posts.map Prod.snd) = sessionOpenings events := by
    rw [sessionOpenings, filterOthers, sessionOpenings]
    intro event member
    rcases kinds event member with same | same <;> simp [same]
  have accounted : accounts (events ++ posts.map Prod.snd) = accounts events := by
    rw [accounts, filterOthers, accounts]
    intro event member
    rcases kinds event member with same | same <;> simp [same, accountKinds]
  rw [laneAsks, laneAsks, openings, accounted]

theorem laneAsksScope {ask : Ask} (member : .ok ask ∈ laneAsks readKey laneKey observation events) :
    ask.subject.scopeKey = observation.scopeKey := by
  simp only [laneAsks, List.mem_append, List.mem_cons, List.mem_map, List.mem_flatMap] at member
  rcases member with ⟨own, inside, same⟩ | same | ⟨memberId, -, inside⟩
  · cases same
    simp only [laneTally] at inside
    split at inside
    · cases List.mem_singleton.mp inside
      rfl
    · cases List.mem_singleton.mp inside
      rfl
    · cases inside
  · cases same
    rfl
  · obtain ⟨issueId, same⟩ := memberAsksSubject inside
    rw [same]
    rfl

theorem answeredCongr {stored stored' : List RunAlarm} {asks : List (Except Refusal Ask)}
    (same : ∀ ask, .ok ask ∈ asks → storedAlarm stored ask.subject ask.signal = storedAlarm stored' ask.subject ask.signal) :
    answered stored asks = answered stored' asks := by
  induction asks with
  | nil => rfl
  | cons head asks ih =>
    simp only [answered, ih fun ask member => same ask (List.mem_cons_of_mem _ member)]
    cases head with
    | error e => rfl
    | ok ask => simp only [bind, Except.bind, same ask List.mem_cons_self]

/-- An observer with nothing to write, whose records the stream agrees with or speaks
over for another's record. -/
structure Settled (readKey : Identity → Option NodeSessionKey) (laneKey : Identity) (carrier : Carrier)
    (observation : Observation) : Prop where
  quiet : ∀ desired, laneAlarmRecords readKey laneKey observation carrier.records.values carrier.events = .ok desired →
    desired = []
  agreed : ∀ record ∈ carrier.records.values, record.subject = .lane observation.scopeKey laneKey →
    record.signal ∈ observedAlarms → Agrees readKey record carrier.events ∨
      ∃ post ∈ carrier.posted, post.1.2 = record.signal ∧ post.1 ≠ record.address

theorem fullSettles (addressed : Addressed carrier.records) (full : Full readKey laneKey carrier observation writes)
    (moved : carrier.next readKey laneKey (.tick observation writes) = some carrier') :
    Settled readKey laneKey carrier' observation := by
  refine ⟨fun again recomposed => ?_, fun record member subject observed =>
    Or.inl (fullAgrees addressed full moved member subject observed)⟩
  obtain ⟨desired, composed, -, rfl⟩ := fullTurn full moved
  have answers := desiredAnswers composed
  simp only [Carrier.spoke, laneAlarmRecords, laneAsksTransitions (announcementsOwed _ _ _).due] at recomposed
  refine answeredNothing (fun ask written asked reanswer => ?_) recomposed
  obtain ⟨first, answer, wrote⟩ := answers.answer ask asked
  have standing : storedAlarm (carrier.records.update (entered desired)).values ask.subject ask.signal =
      first.or (storedAlarm carrier.records.values ask.subject ask.signal) := by
    rw [storedFound (addressedUpdate addressed desired), storedFound addressed]
    cases first with
    | none =>
      refine Dict.updateGetOther fun e member same => ?_
      obtain ⟨record, inside, rfl⟩ := List.mem_map.mp member
      cases (wrote record).mp ⟨inside, same⟩
    | some record =>
      obtain ⟨inside, own⟩ := (wrote record).mpr rfl
      have unique : (Dict.keys (entered desired)).Nodup := by
        simpa [entered, Dict.keys, Function.comp_def] using answers.distinct
      exact Dict.updateGetUnique unique (List.mem_map.mpr ⟨record, inside, Prod.ext own rfl⟩)
  rw [standing] at reanswer
  exact (laneAsksSettling asked).settles _ _ _ answer reanswer

/-- Another scope's tick changes nothing a settled observer reads, except the stream's word. -/
theorem settledOther (addressed : Addressed carrier.records) (settled : Settled readKey laneKey carrier observation)
    (apart : other.scopeKey ≠ observation.scopeKey)
    (moved : carrier.next readKey laneKey (.tick other writes) = some carrier') :
    Settled readKey laneKey carrier' observation := by
  obtain ⟨alarms, posts, turn, rfl⟩ := tickTurn moved
  have updated := addressedUpdate addressed alarms
  have untouched : ∀ subject signal, AlarmSubject.scopeKey subject = observation.scopeKey →
      (carrier.records.update (entered alarms)).get? (subject, signal) = carrier.records.get? (subject, signal) := by
    intro subject signal scope
    refine Dict.updateGetOther fun e member same => ?_
    obtain ⟨record, inside, rfl⟩ := List.mem_map.mp member
    obtain ⟨ask, asked, address⟩ := turn.asked record inside
    have subjects := congrArg Prod.fst (address.symm.trans same)
    exact apart ((laneAsksScope asked).symm.trans ((congrArg AlarmSubject.scopeKey subjects).trans scope))
  constructor
  · intro desired recomposed
    refine settled.quiet desired ?_
    simp only [Carrier.spoke, laneAlarmRecords, laneAsksTransitions turn.due] at recomposed
    rw [laneAlarmRecords, ← recomposed]
    refine answeredCongr fun ask asked => ?_
    rw [storedFound updated, storedFound addressed, untouched _ _ (laneAsksScope asked)]
  · intro record member subject observed
    have own : record.address = (.lane observation.scopeKey laneKey, record.signal) := Prod.ext subject rfl
    have stood : record ∈ carrier.records.values := by
      obtain ⟨e, inside, rfl⟩ := List.mem_map.mp member
      have found := Dict.getOfMember updated.distinct inside
      rw [← updated.addressed e inside, own, untouched _ _ rfl] at found
      exact List.mem_map.mpr ⟨_, Dict.getMember found, rfl⟩
    simp only [Carrier.spoke]
    by_cases spoke : ∃ post ∈ posts, post.1.signal = record.signal
    · obtain ⟨post, inside, same⟩ := spoke
      refine Or.inr ⟨_, List.mem_append_right _ (List.mem_map.mpr ⟨post, inside, rfl⟩), same, fun equal => ?_⟩
      have subjects := congrArg Prod.fst equal
      simp only [RunAlarm.address, (turn.own post inside).1, subject, AlarmSubject.lane.injEq] at subjects
      exact apart subjects.1
    · refine (settled.agreed record stood subject observed).imp (fun agrees => ?_) ?_
      · refine (dueCongr (lastSpokenOthers fun post inside same => ?_)).trans agrees
        rw [(dueTransition (turn.due post inside)).2, Option.some.injEq] at same
        exact spoke ⟨post, inside, valueInjective same⟩
      · rintro ⟨post, inside, spoken⟩
        exact ⟨post, List.mem_append_left _ inside, spoken⟩

/-- A settled observer posts nothing it may post. -/
theorem settledSilent (settled : Settled readKey laneKey carrier observation)
    (alone : Alone readKey laneKey carrier (.tick observation writes)) :
    (observeLane readKey laneKey carrier observation).1 = [] := by
  simp only [observeLane]
  cases composed : laneAlarmRecords readKey laneKey observation carrier.records.values carrier.events with
  | error e => rfl
  | ok desired =>
    cases settled.quiet desired composed
    simp only [List.map_nil, List.nil_append, List.map_eq_nil_iff]
    refine List.eq_nil_iff_forall_not_mem.mpr fun post member => ?_
    have owed := announcementsOwed readKey carrier.events
      (announceable observation.scopeKey laneKey carrier.records.values [])
    obtain ⟨source, subject, observed⟩ := announceableMember (owed.ordered.subset (List.mem_map_of_mem member))
    rw [List.append_nil] at source
    rcases settled.agreed post.1 source subject observed with agrees | ⟨old, stood, same, different⟩
    · cases agrees.symm.trans (owed.due post member)
    · have written : .post post.1 post.2 ∈ (observeLane readKey laneKey carrier observation).1 := by
        simp only [observeLane, composed]
        exact List.mem_append_right _ (List.mem_map.mpr ⟨post, member, rfl⟩)
      exact (aloneSpeaks alone written old stood).elim (· same) different

/-- A tick of one of the observers, wherever it stops. -/
def TickOf (observers : List Observation) (happening : Happening) : Prop :=
  ∃ observation ∈ observers, ∃ writes, happening = .tick observation writes

/-- A tick of the observation that nothing cut short lies on the way. -/
def TickedFully (readKey : Identity → Option NodeSessionKey) (laneKey : Identity) (start : Carrier)
    (observation : Observation) (phase : List Happening) : Prop :=
  ∃ early late mid writes, phase = early ++ .tick observation writes :: late ∧
    Run (Carrier.nextAlone readKey laneKey) start early mid ∧ Full readKey laneKey mid observation writes

theorem phaseSettles {start : Carrier} {observers : List Observation} {phase : List Happening}
    (voiced : Voiced start) (scopes : (observers.map Observation.scopeKey).Nodup)
    (run : Run (Carrier.nextAlone readKey laneKey) start phase carrier)
    (ticks : ∀ happening ∈ phase, TickOf observers happening) (inside : observation ∈ observers)
    (fully : TickedFully readKey laneKey start observation phase) : Settled readKey laneKey carrier observation := by
  induction run with
  | start =>
    obtain ⟨early, late, mid, writes, same, -, -⟩ := fully
    simp at same
  | @move phase mid carrier happening run moved ih =>
    have kept : Voiced mid := runKeeps voiced (fun _ _ _ keep step => voicedNext keep step) run
    obtain ⟨alone, moved⟩ := nextAloneOk moved
    obtain ⟨early, late, reached, writes, same, short, full⟩ := fully
    rcases List.eq_nil_or_concat late with rfl | ⟨late, last, rfl⟩
    · obtain ⟨rfl, final⟩ := List.append_inj' same rfl
      cases List.singleton_inj.mp final
      cases runOnce short run
      exact fullSettles kept.addressed full moved
    · rw [List.concat_eq_append, ← List.cons_append, ← List.append_assoc] at same
      obtain ⟨rfl, final⟩ := List.append_inj' same rfl
      have settled := ih (fun earlier member => ticks earlier (List.mem_append_left _ member))
        ⟨early, late, reached, writes, rfl, short, full⟩
      obtain ⟨other, among, stop, rfl⟩ := ticks happening (by simp)
      by_cases scope : other.scopeKey = observation.scopeKey
      · cases List.inj_on_of_nodup_map scopes among inside scope
        have still := settledSilent settled alone
        simp only [Carrier.next, still, List.take_nil, List.foldl_nil, Option.some.injEq] at moved
        exact moved ▸ settled
      · exact settledOther kept.addressed settled scope moved

/-- Where no tick posts over another scope's word, each record's transitions alternate from
a raise, a full tick leaves nothing of its own owed, and observers of unchanged facts that
have each ticked fully write nothing more. -/
theorem announcementsAlternate {start s : Carrier} {before : List Happening} (fresh : Fresh start)
    (run : Run (Carrier.nextAlone readKey laneKey) start before s) :
    (∀ address, alternating .runAlarmRaised (s.postedFor address)) ∧
    (∀ observation writes s', Full readKey laneKey s observation writes →
      s.next readKey laneKey (.tick observation writes) = some s' → ∀ record ∈ s'.records.values,
      record.subject = .lane observation.scopeKey laneKey → record.signal ∈ observedAlarms →
      Agrees readKey record s'.events) ∧
    (∀ observers phase s', (observers.map Observation.scopeKey).Nodup →
      Run (Carrier.nextAlone readKey laneKey) s phase s' → (∀ happening ∈ phase, TickOf observers happening) →
      (∀ observation ∈ observers, TickedFully readKey laneKey s observation phase) →
      ∀ observation ∈ observers, ∀ writes, Alone readKey laneKey s' (.tick observation writes) →
      (observeLane readKey laneKey s' observation).1 = []) := by
  have voiced : Voiced s := runKeeps (voicedFresh fresh) (fun _ _ _ keep step => voicedNext keep step) run
  refine ⟨voiced.alternates, ?_, ?_⟩
  · intro observation writes s' full moved record member subject observed
    exact fullAgrees voiced.addressed full moved member subject observed
  · intro observers phase s' scopes run ticks fully observation inside writes alone
    exact settledSilent (phaseSettles voiced scopes run ticks inside (fully observation inside)) alone

def firstScope : Identity := ⟨"KOD-70", by decide⟩
def secondScope : Identity := ⟨"KOD-72", by decide⟩
def sharedLane : Identity := ⟨"KOD-71", by decide⟩
def observer : Identity := ⟨"observer", by decide⟩

/-- A tally record of a lane that recorded one commit and closed nothing. -/
def stalledRecord (scopeKey : Identity) (maxCommitsWithoutClosure : Nat) : RunAlarm :=
  composed scopeKey sharedLane ⟨[⟨"KOD-73", by decide⟩], []⟩ ⟨[⟨"KOD-73", by decide⟩], [⟨"c2", by decide⟩]⟩ []
    maxCommitsWithoutClosure ⟨"tip", by decide⟩ observer

def waitingObservation (scopeKey : Identity) : Observation :=
  ⟨scopeKey, .waiting, [], ["c2"], ⟨"tip", by decide⟩, 0, observer⟩

/-- The first scope's record is raised, and the second's, where it stands too, is quiet. -/
def sharedCarrier (records : List RunAlarm) : Carrier := ⟨entered records, [], []⟩

abbrev oneRecord : Carrier := sharedCarrier [stalledRecord firstScope 0]

abbrev twoRecords : Carrier := sharedCarrier [stalledRecord firstScope 0, stalledRecord secondScope 5]

def unread : Identity → Option NodeSessionKey := fun _ => none

theorem announcedOnce : ∃ s, oneRecord.next unread sharedLane (.tick (waitingObservation firstScope) 9) = some s ∧
    s.posted = [((.lane firstScope sharedLane, .tallyUnmoved), .runAlarmRaised)] ∧
    (observeLane unread sharedLane s (waitingObservation firstScope)).1 = [] := by
  have fresh : Fresh oneRecord := ⟨⟨by decide, by decide⟩, by decide, rfl⟩
  refine ⟨_, rfl, by decide, ?_⟩
  have tick : Run (Carrier.nextAlone unread sharedLane) oneRecord [.tick (waitingObservation firstScope) 9] _ :=
    .move .start (by rfl)
  refine (announcementsAlternate fresh .start).2.2 [waitingObservation firstScope] _ _ (by simp) tick ?_ ?_ _
    (by simp) 9 (by decide)
  · exact fun happening member => ⟨_, List.mem_cons_self, 9, List.mem_singleton.mp member⟩
  · intro observation inside
    cases List.mem_singleton.mp inside
    exact ⟨[], [], _, 9, rfl, .start, by decide, by decide⟩

/-- Two scopes observe one lane and disagree: each speaks over the other's word, and the first
scope's record is raised twice with no clear between. -/
theorem sharedLaneRaisedTwice : ¬ ∀ start ticks s, Fresh start →
    Run (Carrier.next unread sharedLane) start ticks s →
    ∀ address, alternating .runAlarmRaised (s.postedFor address) := by
  intro alternates
  have fresh : Fresh twoRecords := ⟨⟨by decide, by decide⟩, by decide, rfl⟩
  have run : Run (Carrier.next unread sharedLane) twoRecords
      [.tick (waitingObservation firstScope) 9, .tick (waitingObservation secondScope) 9,
        .tick (waitingObservation firstScope) 9] _ := .move (.move (.move .start rfl) rfl) rfl
  have turns := alternates _ _ _ fresh run (.lane firstScope sharedLane, .tallyUnmoved)
  revert turns
  decide

end Settle
end Kodezart.RunShape
