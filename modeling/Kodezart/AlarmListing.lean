import Kodezart.RunAlarmRecord

/-! Records written by one process and read by another: when each is read back under its own
address and no other, and what a whole listing of them gives. -/
namespace Kodezart.RunAlarmRecord
open RunShape (AlarmSignal)
open Gate (QueueState)
open CommentMarkers JsonCodec JsonText

section Orders
variable {Instant : Type}

/-- Sets of one member at most show no order. -/
def TrackerIssue.Single (issue : TrackerIssue Instant) : Prop :=
  issue.queueStates.card ≤ 1 ∧ issue.issueLabels.card ≤ 1

def AlarmEvidence.Single : AlarmEvidence Instant → Prop
  | .graph value => ∀ issue ∈ value.subtree ++ value.milestoneMembers, issue.Single
  | _ => True

def RunAlarm.Single (alarm : RunAlarm Instant) : Prop := ∀ reading ∈ alarm.readings.val, reading.value.Single

variable {moment : Codec Instant} (writer reader : SetOrders) (spelling : Spelling)

theorem issueEncodeSame {issue : TrackerIssue Instant} (single : issue.Single) :
    (trackerIssue moment writer).encode spelling issue = (trackerIssue moment reader).encode spelling issue := by
  have states : (unordered writer.queueStates queueState).encode spelling issue.queueStates =
      (unordered reader.queueStates queueState).encode spelling issue.queueStates := by
    simp only [unordered, iterationSame writer.queueStates reader.queueStates single.1]
  have labels : (unordered writer.issueLabels string).encode spelling issue.issueLabels =
      (unordered reader.issueLabels string).encode spelling issue.issueLabels := by
    simp only [unordered, iterationSame writer.issueLabels reader.issueLabels single.2]
  simp only [trackerIssue, trackerIssueFields, object, Fields.build, Fields.and, field, fieldOr, states, labels]

theorem issuesEncodeSame {issues : List (TrackerIssue Instant)} (single : ∀ issue ∈ issues, issue.Single) :
    (list (trackerIssue moment writer)).encode spelling issues = (list (trackerIssue moment reader)).encode spelling issues :=
  congrArg Json.array (List.map_congr_left fun issue member => issueEncodeSame writer reader spelling (single issue member))

theorem evidenceEncodeSame {value : AlarmEvidence Instant} (single : value.Single) :
    (alarmEvidence moment writer).encode spelling value = (alarmEvidence moment reader).encode spelling value := by
  cases value with
  | graph value =>
    have subtree := @issuesEncodeSame Instant moment writer reader spelling value.subtree fun issue member =>
      single issue (List.mem_append_left _ member)
    have members := @issuesEncodeSame Instant moment writer reader spelling value.milestoneMembers fun issue member =>
      single issue (List.mem_append_right _ member)
    have snapshot : (laneGraphSnapshot moment writer).encode spelling value =
        (laneGraphSnapshot moment reader).encode spelling value := by
      simp only [laneGraphSnapshot, object, Fields.build, Fields.and, field, plain, subtree, members]
    simp only [alarmEvidence, union, graphEvidence, evidence, object, Fields.and, plain, field, snapshot]
  | _ => rfl

theorem alarmEncodeSame {alarm : RunAlarm Instant} (single : alarm.Single) :
    (runAlarm moment writer).encode spelling alarm = (runAlarm moment reader).encode spelling alarm := by
  have reading : ∀ reading ∈ alarm.readings.val,
      (alarmReading moment writer).encode spelling reading = (alarmReading moment reader).encode spelling reading := by
    intro reading member
    have value := @evidenceEncodeSame Instant moment writer reader spelling _ (single reading member)
    simp only [alarmReading, alarmReadingFields, object, Fields.build, Fields.and, field, fieldOr, plain, value]
  have readings : (list (alarmReading moment writer)).encode spelling alarm.readings.val =
      (list (alarmReading moment reader)).encode spelling alarm.readings.val :=
    congrArg Json.array (List.map_congr_left reading)
  simp only [runAlarm, runAlarmFields, object, Fields.build, Fields.and, field, plain, checked, readings]

/-- Reading asks for no order. -/
theorem evidenceDecodeSame : (alarmEvidence moment writer).decode = (alarmEvidence moment reader).decode := by
  funext json
  refine taggedSame "kind".toList ?_ json
  have kinds (orders : SetOrders) : evidenceKinds moment orders =
      (evidenceKinds moment writer).take 15 ++ [graphEvidence moment orders] := rfl
  rw [kinds reader, kinds writer]
  exact List.rel_append (List.forall₂_same.mpr fun _ _ => ⟨rfl, fun _ => rfl⟩) (.cons ⟨rfl, fun _ => rfl⟩ .nil)

theorem alarmDecodeSame : (runAlarm moment writer).decode = (runAlarm moment reader).decode := by
  have evidence := @evidenceDecodeSame Instant moment writer reader
  simp only [runAlarm, runAlarmFields, alarmReading, alarmReadingFields, object, Fields.build, Fields.and, field,
    fieldOr, plain, checked, list, evidence]

end Orders

section Reading
variable {repr : Text → Text} {prefixes : Prefixes} {Instant : Type} {moment : Codec Instant}
  {writer reader : SetOrders} {alarm : RunAlarm Instant} {marker other token issueKey : Text}

/-- The comment a record is written as. -/
def recordBody (moment : Codec Instant) (writer : SetOrders) (marker : Text) (alarm : RunAlarm Instant) : Text :=
  marker ++ '\n' :: renderRunAlarm moment writer alarm

theorem firstLineOf {rest : Text} (unbroken : '\n' ∉ marker) : firstLine (marker ++ '\n' :: rest) = marker := by
  rw [firstLine, List.takeWhile_append_of_pos, List.takeWhile_cons]
  · simp
  · intro c member
    have apart : c ≠ '\n' := fun same => unbroken (same ▸ member)
    simpa using apart

theorem markerUnbroken (accepted : Accepted prefixes) {subject : AlarmSubject} {signal : AlarmSignal}
    (composed : runAlarmMarker repr prefixes subject signal = .ok marker) : '\n' ∉ marker := by
  intro member
  exact absurd (composedSolid accepted (composedOk composed) '\n' member) (by decide)

/-- A datetime is written without numbers and reads back. -/
def Dated (moment : Codec Instant) (t : Instant) : Prop := moment.Keeps (fun _ => False) t

/-- Where a record is read, the framing and the address are its own: it reads back exactly when its
counts are short and the reader writes the text that was written. -/
theorem recordReadsIff (dates : ∀ t, Dated moment t)
    (composed : runAlarmMarker repr prefixes alarm.subject alarm.signal = .ok marker) :
    recordUnder repr prefixes moment reader (recordBody moment writer marker alarm) marker = .ok alarm ↔
      alarm.Counts Short ∧ renderRunAlarm moment writer alarm = renderRunAlarm moment reader alarm := by
  have whole : (runAlarm moment writer).Keeps (fun _ => True) alarm :=
    runAlarmKeeps writer (fun t => (dates t).mono fun _ => False.elim) ⟨fun reading _ => by
      cases reading.value <;> trivial, fun _ _ => ⟨trivial, trivial⟩⟩
  have reads : (runAlarm moment reader).decode ((runAlarm moment writer).encode .byAlias alarm) = some alarm := by
    rw [← alarmDecodeSame writer reader]
    exact whole.reads .byAlias
  obtain ⟨value, json⟩ : ∃ value, (runAlarm moment writer).encode .byAlias alarm = value := ⟨_, rfl⟩
  have text : renderRunAlarm moment writer alarm = fenceOpen ++ render 0 value ++ fenceClose := by
    rw [renderRunAlarm, json]
  have fits := whole.fits .byAlias
  rw [json] at reads fits
  have shape : recordBody moment writer marker alarm = (marker ++ '\n' :: fenceOpen) ++ (render 0 value ++ fenceClose) := by
    rw [recordBody, text]
    simp
  generalize front : marker ++ '\n' :: fenceOpen = fence at shape
  have payload : ((recordBody moment writer marker alarm).take
      ((recordBody moment writer marker alarm).length - fenceClose.length)).drop fence.length = render 0 value := by
    rw [shape, ← List.append_assoc, List.length_append, Nat.add_sub_cancel, List.take_left, List.drop_left]
  have framed : fence <+: recordBody moment writer marker alarm ∧ fenceClose <:+ recordBody moment writer marker alarm := by
    rw [shape]
    exact ⟨List.prefix_append _ _, ⟨fence ++ render 0 value, by simp⟩⟩
  simp only [recordUnder, front, framed, payload, and_self, not_true_eq_false, if_false, ← text]
  rcases parseWhole fits with plain | unread
  · have counts : alarm.Counts Short := runAlarmCounts writer (fitsExact.mpr (json ▸ plain))
    simp only [parseRendered plain, Option.bind_some, reads, composed, ne_eq, not_true_eq_false, if_false, counts, true_and]
    by_cases same : renderRunAlarm moment reader alarm = renderRunAlarm moment writer alarm
    · simp [same]
    · simp [same, Ne.symm same]
  · have long : ¬ alarm.Counts Short := by
      intro counts
      have keeps : (runAlarm moment writer).Keeps Short alarm :=
        runAlarmKeeps writer (fun t => (dates t).mono fun _ => False.elim) counts
      rw [parseRendered (fitsExact.mp (json ▸ keeps.fits .byAlias))] at unread
      cases unread
    simp [unread, long]

/-- A record reads back where it was written, whoever wrote it. -/
theorem recordReads (dates : ∀ t, Dated moment t) (counted : alarm.Counts Short) (single : alarm.Single)
    (composed : runAlarmMarker repr prefixes alarm.subject alarm.signal = .ok marker) :
    recordUnder repr prefixes moment reader (recordBody moment writer marker alarm) marker = .ok alarm := by
  refine (recordReadsIff dates composed).mpr ⟨counted, ?_⟩
  rw [renderRunAlarm, alarmEncodeSame writer reader .byAlias single, renderRunAlarm]

/-- A body is read under the marker on its first line or not at all. -/
theorem recordRefused {rest : Text} (unbroken : '\n' ∉ marker) (unbroken' : '\n' ∉ other) (different : other ≠ marker) :
    ∃ error, recordUnder repr prefixes moment reader (marker ++ '\n' :: rest) other = .error error := by
  refine ⟨.valueError "the alarm record framing is invalid", ?_⟩
  have apart : ¬ (other ++ '\n' :: fenceOpen) <+: marker ++ '\n' :: rest := by
    intro front
    obtain ⟨more, same⟩ := front
    rw [List.append_assoc, List.cons_append] at same
    have lines := congrArg firstLine same
    rw [firstLineOf unbroken, firstLineOf unbroken'] at lines
    exact different lines
  simp only [recordUnder, apart, false_and, not_false_eq_true, if_true]

/-- Records written by any processes, in order, among comments of no record. -/
inductive Among (repr : Text → Text) (prefixes : Prefixes) (moment : Codec Instant) (token : Text) :
    List TrackerComment → List (RunAlarm Instant) → Prop where
  | none : Among repr prefixes moment token [] []
  | record {comments alarms} (writer : SetOrders) (key marker : Text) (alarm : RunAlarm Instant)
      (composed : runAlarmMarker repr prefixes alarm.subject alarm.signal = .ok marker) :
      Among repr prefixes moment token comments alarms →
        Among repr prefixes moment token (⟨key, recordBody moment writer marker alarm⟩ :: comments) (alarm :: alarms)
  | other {comments alarms} (comment : TrackerComment) (apart : ¬ candidatePrefix token <+: firstLine comment.body) :
      Among repr prefixes moment token comments alarms → Among repr prefixes moment token (comment :: comments) alarms

def RunAlarm.address (alarm : RunAlarm Instant) : AlarmSubject × AlarmSignal := (alarm.subject, alarm.signal)

theorem markerCandidate (keys : prefixes.keys.Nodup) (configured : prefixes.get? markerPurpose = some token)
    {subject : AlarmSubject} {signal : AlarmSignal} (composed : runAlarmMarker repr prefixes subject signal = .ok marker) :
    candidatePrefix token <+: marker := by
  obtain ⟨own, member, rfl⟩ := (composedOk composed).token
  have same := Dict.getOfMember keys member
  rw [configured] at same
  obtain rfl := Option.some.inj same
  refine ⟨[':'].intercalate (PercentEncoding.quote (alarmSubjectKey subject) ::
    ((some signal.value.val.toList).map PercentEncoding.quote).toList) ++ [']'], ?_⟩
  simp [candidatePrefix, markerText, List.intercalate]

theorem readRecord (dates : ∀ t, Dated moment t) (keys : prefixes.keys.Nodup) (accepted : Accepted prefixes)
    (configured : prefixes.get? markerPurpose = some token) (counted : alarm.Counts Short) (single : alarm.Single)
    (composed : runAlarmMarker repr prefixes alarm.subject alarm.signal = .ok marker) (key : Text)
    (found : Found Instant) :
    readComment repr prefixes moment reader issueKey token found ⟨key, recordBody moment writer marker alarm⟩ =
      match found.get? marker with
      | some held => .error (.duplicateCommentMarker issueKey marker [held.2, key])
      | none => .ok (found.set marker (alarm, key)) := by
  have line : firstLine (recordBody moment writer marker alarm) = marker := firstLineOf (markerUnbroken accepted composed)
  have reads : recordUnder repr prefixes moment reader (recordBody moment writer marker alarm) marker = .ok alarm :=
    recordReads dates counted single composed
  cases held : found.get? marker <;>
    simp only [readComment, line, markerCandidate keys configured composed, not_true_eq_false, if_false, held, reads]

/-- The entries a listing has found hold its records, each under its own marker. -/
def Holds (repr : Text → Text) (prefixes : Prefixes) (done : List (RunAlarm Instant)) (found : Found Instant) : Prop :=
  List.Forall₂ (fun alarm entry => runAlarmMarker repr prefixes alarm.subject alarm.signal = .ok entry.1 ∧ entry.2.1 = alarm)
    done found

theorem holdsRecords {done : List (RunAlarm Instant)} {found : Found Instant} (holds : Holds repr prefixes done found) :
    found.values.map (·.1) = done := by
  induction holds with
  | nil => rfl
  | cons entry _ ih =>
    rw [Dict.values, List.map_cons, List.map_cons, entry.2]
    exact congrArg _ ih

theorem holdsAddress (accepted : Accepted prefixes) {done : List (RunAlarm Instant)} {found : Found Instant}
    (holds : Holds repr prefixes done found)
    (composed : runAlarmMarker repr prefixes alarm.subject alarm.signal = .ok marker) :
    marker ∈ found.keys ↔ alarm.address ∈ done.map RunAlarm.address := by
  induction holds with
  | nil => simp [Dict.keys]
  | @cons first entry done found same _ ih =>
    have here : marker = entry.1 ↔ alarm.address = first.address := by
      constructor
      · intro equal
        obtain ⟨subjects, signals⟩ := markerInjective accepted composed (equal ▸ same.1)
        exact Prod.ext subjects signals
      · intro equal
        obtain ⟨subjects, signals⟩ := Prod.mk.inj equal
        rw [subjects, signals, same.1] at composed
        exact (Except.ok.inj composed).symm
    rw [Dict.keys, List.map_cons, List.mem_cons, List.map_cons, List.mem_cons, here]
    exact or_congr_right ih

/-- Every record is found in its place, or one address is held twice. -/
theorem listingRead (dates : ∀ t, Dated moment t) (keys : prefixes.keys.Nodup) (accepted : Accepted prefixes)
    (configured : prefixes.get? markerPurpose = some token) {comments : List TrackerComment}
    {alarms : List (RunAlarm Instant)} (among : Among repr prefixes moment token comments alarms)
    (readable : ∀ alarm ∈ alarms, alarm.Counts Short ∧ alarm.Single) {done : List (RunAlarm Instant)} {found : Found Instant}
    (holds : Holds repr prefixes done found) (distinct : (done.map RunAlarm.address).Nodup) :
    (((done ++ alarms).map RunAlarm.address).Nodup → ∃ later,
      comments.foldlM (readComment repr prefixes moment reader issueKey token) found = .ok later ∧
        Holds repr prefixes (done ++ alarms) later) ∧
    (¬ ((done ++ alarms).map RunAlarm.address).Nodup → ∃ marker commentKeys,
      comments.foldlM (readComment repr prefixes moment reader issueKey token) found =
        .error (.duplicateCommentMarker issueKey marker commentKeys)) := by
  induction among generalizing done found with
  | none =>
    rw [List.append_nil]
    exact ⟨fun _ => ⟨found, rfl, holds⟩, fun repeated => absurd distinct repeated⟩
  | other comment apart _ ih =>
    have skipped : readComment repr prefixes moment reader issueKey token found comment = .ok found := by
      simp only [readComment, apart, not_false_eq_true, if_true]
    rw [List.foldlM_cons, skipped]
    exact ih readable holds distinct
  | @record comments alarms writer key marker alarm composed _ ih =>
    obtain ⟨counted, single⟩ := readable alarm (by simp)
    have step := @readRecord repr prefixes Instant moment writer reader alarm marker token issueKey dates keys accepted
      configured counted single composed key found
    have whole : done ++ alarm :: alarms = (done ++ [alarm]) ++ alarms := by simp
    rw [List.foldlM_cons, step]
    cases held : found.get? marker with
    | some entry =>
      have member := (holdsAddress accepted holds composed).mp ((Dict.getSome _ _).mpr ⟨entry, held⟩)
      have repeated : ¬ ((done ++ alarm :: alarms).map RunAlarm.address).Nodup := by
        intro once
        rw [List.map_append, List.map_cons, List.nodup_append] at once
        exact once.2.2 _ member _ (by simp) rfl
      exact ⟨fun once => absurd once repeated, fun _ => ⟨marker, [entry.2, key], rfl⟩⟩
    | none =>
      have fresh : marker ∉ found.keys := by
        rw [Dict.getSome]
        simp [held]
      have unseen := fun inside => fresh ((holdsAddress accepted holds composed).mpr inside)
      have next : Holds repr prefixes (done ++ [alarm]) (found.set marker (alarm, key)) := by
        rw [Dict.setFresh _ fresh]
        exact List.rel_append holds (.cons ⟨composed, rfl⟩ .nil)
      have once : ((done ++ [alarm]).map RunAlarm.address).Nodup := by
        rw [List.map_append]
        exact List.nodup_append.mpr ⟨distinct, by simp, by
          intro address inside other member same
          rw [List.map_singleton, List.mem_singleton] at member
          have here : address = alarm.address := same.trans member
          exact unseen (here ▸ inside)⟩
      rw [whole]
      exact ih (fun other member => readable other (by simp [member])) next once

/-- Alarms with short counts and no set of two read back from whichever process wrote them, under
their own address only; and a listing of them gives them all, or refuses a repeated address. -/
theorem recordsReadBack (dates : ∀ t, Dated moment t) (keys : prefixes.keys.Nodup)
    (accepted : markerPrefixFailures repr prefixes = []) (configured : prefixes.get? markerPurpose = some token) :
    (∀ (alarm : RunAlarm Instant) (writer reader : SetOrders), alarm.Counts Short → alarm.Single →
      ∃ marker, runAlarmMarker repr prefixes alarm.subject alarm.signal = .ok marker ∧
        parseRunAlarm repr prefixes moment reader (recordBody moment writer marker alarm) alarm.subject alarm.signal =
          .ok alarm ∧
        ∀ subject signal, (subject, signal) ≠ alarm.address → ∃ error,
          parseRunAlarm repr prefixes moment reader (recordBody moment writer marker alarm) subject signal =
            .error error) ∧
    ∀ (issueKey : Text) (reader : SetOrders) (comments : List TrackerComment) (alarms : List (RunAlarm Instant)),
      Among repr prefixes moment token comments alarms → (∀ alarm ∈ alarms, alarm.Counts Short ∧ alarm.Single) →
        ((alarms.map RunAlarm.address).Nodup →
          runAlarmRecords repr prefixes moment reader issueKey comments = .ok alarms) ∧
        (¬ (alarms.map RunAlarm.address).Nodup → ∃ marker commentKeys,
          runAlarmRecords repr prefixes moment reader issueKey comments =
            .error (.duplicateCommentMarker issueKey marker commentKeys)) := by
  have valid := (acceptedIff keys).mp accepted
  constructor
  · intro alarm writer reader counted single
    obtain ⟨marker, composed⟩ := @markerComposed repr prefixes token configured alarm.subject alarm.signal
    refine ⟨marker, composed, ?_, ?_⟩
    · rw [parseRunAlarm, composed]
      exact recordReads dates counted single composed
    · intro subject signal elsewhere
      obtain ⟨other, composed'⟩ := @markerComposed repr prefixes token configured subject signal
      have different : other ≠ marker := by
        rintro rfl
        obtain ⟨subjects, signals⟩ := markerInjective valid composed' composed
        exact elsewhere (Prod.ext subjects signals)
      rw [parseRunAlarm, composed']
      exact recordRefused (markerUnbroken valid composed) (markerUnbroken valid composed') different
  · intro issueKey reader comments alarms among readable
    have start : Holds repr prefixes ([] : List (RunAlarm Instant)) [] := .nil
    obtain ⟨reads, repeats⟩ := @listingRead repr prefixes Instant moment reader token issueKey dates keys valid configured
      comments alarms among readable [] [] start (by simp)
    rw [List.nil_append] at reads repeats
    rw [runAlarmRecords, configuredMarkerPrefix, configured]
    constructor
    · intro once
      obtain ⟨found, read, holds⟩ := reads once
      simp only [read, holdsRecords holds]
    · intro twice
      obtain ⟨marker, commentKeys, read⟩ := repeats twice
      exact ⟨marker, commentKeys, by simp only [read]⟩

end Reading

section Samples

def queueOrder : Iteration QueueState :=
  listed [.triage, .proposed, .approved, .done, .decision] (by decide) (by intro state; cases state <;> decide)

def Ascends (a b : String) : Prop := a ≤ b

instance ascendsDecidable : DecidableRel Ascends := fun a b => inferInstanceAs (Decidable (a ≤ b))

instance ascendsTrans : IsTrans String Ascends := ⟨fun _ _ _ => le_trans⟩

instance ascendsAntisymm : Std.Antisymm Ascends := ⟨fun _ _ => le_antisymm⟩

instance ascendsTotal : Std.Total Ascends := ⟨le_total⟩

def ascending : SetOrders := ⟨queueOrder, sortedBy Ascends⟩

def descending : SetOrders := ⟨queueOrder, sortedBy (· ≥ ·)⟩

def labelledIssue (labels : Finset String) : TrackerIssue String :=
  ⟨⟨"KOD-99", by decide⟩, "t", "b", .none, "s", .started, ∅, labels, none, none, none, none, [], none, none, "c", "u", "l"⟩

def graphReading (labels : Finset String) : AlarmEvidence String :=
  .graph ⟨⟨"KOD-99", by decide⟩, ⟨"KOD-99", by decide⟩, ⟨.milestone, ⟨"m-99", by decide⟩⟩, [labelledIssue labels], [], []⟩

def sampleSubject : AlarmSubject := .lane ⟨"scope-99", by decide⟩ ⟨"KOD-99", by decide⟩

def sampleAlarm (value : AlarmEvidence String) : RunAlarm String :=
  ⟨sampleSubject, .structuralWriteUncrossesMilestone,
    ⟨[⟨⟨"source-99", by decide⟩, value, none⟩], by simp⟩, none, ⟨"9a9a", by decide⟩, ⟨"raiser-99", by decide⟩⟩

theorem orderShows : renderRunAlarm string ascending (sampleAlarm (graphReading {"x99", "y99"})) ≠
    renderRunAlarm string descending (sampleAlarm (graphReading {"x99", "y99"})) := by
  decide +kernel

theorem stringDated (t : String) : Dated string t := stringKeeps t

/-- One digit past the limit. -/
def longNumber : Nat := 10 ^ 4300

theorem longCount : ¬ (sampleAlarm (.count longNumber)).Counts Short := by
  intro counts
  have short : Short longNumber := counts.readings ⟨_, .count longNumber, none⟩ (List.mem_singleton_self _)
  rw [Short, Int.natAbs_natCast, intMaxStrDigits, Nat.length_toDigits_le_iff (by decide) (by decide)] at short
  exact lt_irrefl _ short

/-- A comment that only starts as a record does, a set two processes iterate differently, and a
count past the digit limit: each is refused. -/
theorem recordsRefused :
    (∃ error, runAlarmRecords id alarmPrefixes string ascending [] [⟨[], "[alarm-98: a note".toList⟩] = .error error) ∧
    ∀ marker, runAlarmMarker id alarmPrefixes sampleSubject .structuralWriteUncrossesMilestone = .ok marker →
      parseRunAlarm id alarmPrefixes string descending
        (recordBody string ascending marker (sampleAlarm (graphReading {"x99", "y99"})))
        sampleSubject .structuralWriteUncrossesMilestone ≠ .ok (sampleAlarm (graphReading {"x99", "y99"})) ∧
      parseRunAlarm id alarmPrefixes string ascending
        (recordBody string ascending marker (sampleAlarm (.count longNumber)))
        sampleSubject .structuralWriteUncrossesMilestone ≠ .ok (sampleAlarm (.count longNumber)) := by
  refine ⟨⟨.valueError "the alarm record framing is invalid", by decide +kernel⟩, fun marker composed => ⟨?_, ?_⟩⟩
  · rw [parseRunAlarm, composed]
    intro reads
    exact orderShows ((recordReadsIff stringDated composed).mp reads).2
  · rw [parseRunAlarm, composed]
    intro reads
    exact longCount ((recordReadsIff stringDated composed).mp reads).1

theorem noteBesideRecord : ∃ marker,
    runAlarmMarker id alarmPrefixes sampleSubject .structuralWriteUncrossesMilestone = .ok marker ∧
      runAlarmRecords id alarmPrefixes string descending []
        [⟨[], "a note".toList⟩, ⟨[], recordBody string ascending marker (sampleAlarm (.count 99))⟩] =
          .ok [sampleAlarm (.count 99)] := by
  have configured : alarmPrefixes.get? markerPurpose = some "alarm-98".toList := by decide
  obtain ⟨marker, composed⟩ := @markerComposed id alarmPrefixes _ configured sampleSubject
    .structuralWriteUncrossesMilestone
  have among : Among id alarmPrefixes string "alarm-98".toList
      [⟨[], "a note".toList⟩, ⟨[], recordBody string ascending marker (sampleAlarm (.count 99))⟩] [sampleAlarm (.count 99)] :=
    .other _ (by decide) (.record ascending [] marker _ composed .none)
  have readable : ∀ alarm ∈ [sampleAlarm (.count 99)], alarm.Counts Short ∧ alarm.Single := by
    intro alarm member
    obtain rfl := List.mem_singleton.mp member
    refine ⟨⟨?_, by simp [sampleAlarm]⟩, ?_⟩
    · intro reading own
      obtain rfl := List.mem_singleton.mp own
      exact (by decide : Short 99)
    · intro reading own
      obtain rfl := List.mem_singleton.mp own
      trivial
  exact ⟨marker, composed, ((recordsReadBack stringDated (by decide) (by decide) configured).2 [] descending _ _ among
    readable).1 (by simp)⟩

end Samples

end Kodezart.RunAlarmRecord
