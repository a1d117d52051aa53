import Kodezart.CommentMarkers
import Kodezart.RunAlarmEvidence

/-! One readable representation of an alarm record, under a marker composed of the whole subject
and the signal, and every record one comment listing holds. -/
namespace Kodezart.RunAlarmRecord
open RunShape (AlarmSignal)
open CommentMarkers JsonCodec JsonText TextLines

/-- One canonical spelling of the complete subject. -/
def alarmSubjectKey (subject : AlarmSubject) : Text := compact (alarmSubject.encode .byName subject)

def markerPurpose : Text := "run_alarm".toList

def fenceOpen : Text := "```json\n".toList

def fenceClose : Text := "\n```".toList

inductive RecordError where
  | marker (error : MarkerError)
  | valueError (message : String)
  | duplicateCommentMarker (target : Text) (marker : Text) (commentKeys : List Text)
  deriving DecidableEq, Repr

structure TrackerComment where
  commentKey : Text
  body : Text
  deriving DecidableEq, Repr

/-- `body.partition("\n")[0]` -/
def firstLine (body : Text) : Text := body.takeWhile (· ≠ '\n')

section Records
variable (repr : Text → Text) (prefixes : Prefixes) {Instant : Type} (moment : Codec Instant) (orders : SetOrders)

def runAlarmMarker (subject : AlarmSubject) (signal : AlarmSignal) : Except MarkerError Text :=
  composeCommentMarker repr prefixes markerPurpose (alarmSubjectKey subject) (some signal.value.val.toList)

def renderRunAlarm (alarm : RunAlarm Instant) : Text :=
  fenceOpen ++ render 0 ((runAlarm moment orders).encode .byAlias alarm) ++ fenceClose

/-- The one record a body holds under a marker, or a refusal. -/
def recordUnder (body marker : Text) : Except RecordError (RunAlarm Instant) :=
  let fence := marker ++ '\n' :: fenceOpen
  if ¬ (fence <+: body ∧ fenceClose <:+ body) then .error (.valueError "the alarm record framing is invalid")
  else
    let payload := (body.take (body.length - fenceClose.length)).drop fence.length
    match (parse payload).bind (runAlarm moment orders).decode with
    | none => .error (.valueError "the payload is no alarm")
    | some alarm =>
      if renderRunAlarm moment orders alarm ≠ fenceOpen ++ payload ++ fenceClose then
        .error (.valueError "the alarm record is not in its canonical form")
      else match runAlarmMarker repr prefixes alarm.subject alarm.signal with
        | .error e => .error (.marker e)
        | .ok own =>
          if own ≠ marker then .error (.valueError "the alarm record does not carry the address it is under")
          else .ok alarm

def parseRunAlarm (body : Text) (subject : AlarmSubject) (signal : AlarmSignal) : Except RecordError (RunAlarm Instant) :=
  match runAlarmMarker repr prefixes subject signal with
  | .error e => .error (.marker e)
  | .ok marker => recordUnder repr prefixes moment orders body marker

/-- What every candidate's first line starts with. -/
def candidatePrefix (token : Text) : Text := '[' :: (token ++ [':'])

/-- The records found by their markers, each with the comment it was found in. -/
abbrev Found (Instant : Type) := Dict Text (RunAlarm Instant × Text)

def readComment (issueKey token : Text) (found : Found Instant) (comment : TrackerComment) :
    Except RecordError (Found Instant) :=
  let marker := firstLine comment.body
  if ¬ candidatePrefix token <+: marker then .ok found
  else match found.get? marker with
    | some held => .error (.duplicateCommentMarker issueKey marker [held.2, comment.commentKey])
    | none =>
      match recordUnder repr prefixes moment orders comment.body marker with
      | .error e => .error e
      | .ok alarm => .ok (found.set marker (alarm, comment.commentKey))

def runAlarmRecords (issueKey : Text) (comments : List TrackerComment) : Except RecordError (List (RunAlarm Instant)) :=
  match configuredMarkerPrefix repr prefixes markerPurpose with
  | .error e => .error (.marker e)
  | .ok token =>
    match comments.foldlM (readComment repr prefixes moment orders issueKey token) [] with
    | .error e => .error e
    | .ok found => .ok (found.values.map (·.1))

end Records

section Addresses

theorem alarmSubjectKeyInjective : Function.Injective alarmSubjectKey := by
  intro subject other same
  have keeps : alarmSubject.Keeps Short subject := alarmSubjectKeeps subject
  have keeps' : alarmSubject.Keeps Short other := alarmSubjectKeeps other
  exact keeps.injective keeps' .byName
    (compactInjective (fitsExact.mp (keeps.fits _)) (fitsExact.mp (keeps'.fits _)) same)

theorem signalValueInjective : Function.Injective fun signal : AlarmSignal => signal.value.val.toList := by
  intro signal other same
  have keeps : alarmSignal.Keeps Short signal := alarmSignalKeeps signal
  exact keeps.injective (alarmSignalKeeps other) .byName (congrArg Json.string same)

theorem alarmSubjectKeyVisible (subject : AlarmSubject) : alarmSubjectKey subject ≠ [] := by
  have keeps : alarmSubject.Keeps Short subject := alarmSubjectKeeps subject
  obtain ⟨c, tail, text, -⟩ := compactOpens (fitsExact.mp (keeps.fits .byName))
  rw [alarmSubjectKey, text]
  simp

variable {repr : Text → Text} {prefixes : Prefixes}

theorem markerComposed {token : Text} (configured : prefixes.get? markerPurpose = some token) (subject : AlarmSubject)
    (signal : AlarmSignal) : ∃ marker, runAlarmMarker repr prefixes subject signal = .ok marker := by
  have named : some signal.value.val.toList ≠ some [] := by cases signal <;> decide
  exact ⟨_, composeConfigured configured ⟨alarmSubjectKeyVisible subject, named⟩⟩

theorem markerInjective (accepted : Accepted prefixes) {subject other : AlarmSubject} {signal signal' : AlarmSignal}
    {marker : Text} (ok : runAlarmMarker repr prefixes subject signal = .ok marker)
    (ok' : runAlarmMarker repr prefixes other signal' = .ok marker) : subject = other ∧ signal = signal' := by
  obtain ⟨-, subjects, signals⟩ := composedInjective accepted (composedOk ok) (composedOk ok')
  exact ⟨alarmSubjectKeyInjective subjects, signalValueInjective (Option.some.inj signals)⟩

end Addresses

section Listing
variable {repr : Text → Text} {prefixes : Prefixes} {Instant : Type} {moment : Codec Instant} {orders : SetOrders}
  {body marker issueKey token : Text} {alarm : RunAlarm Instant} {comment : TrackerComment}
  {comments : List TrackerComment}

/-- What a record that is read has passed. -/
theorem recordUnderOk (ok : recordUnder repr prefixes moment orders body marker = .ok alarm) :
    runAlarmMarker repr prefixes alarm.subject alarm.signal = .ok marker := by
  simp only [recordUnder] at ok
  split at ok
  · cases ok
  · split at ok
    · cases ok
    · split at ok
      · cases ok
      · split at ok
        · cases ok
        · rename_i own composed
          split at ok
          · cases ok
          · rename_i same
            cases ok
            rw [composed, not_not.mp same]

/-- The records of a listing so far are those its candidates hold, each under its own marker. -/
structure Read (repr : Text → Text) (prefixes : Prefixes) (moment : Codec Instant) (orders : SetOrders) (token : Text)
    (done : List TrackerComment) (found : Found Instant) : Prop where
  markers : found.keys = (done.filter fun comment => candidatePrefix token <+: firstLine comment.body).map
    fun comment => firstLine comment.body
  distinct : found.keys.Nodup
  records : List.Forall₂ (fun comment (entry : Text × RunAlarm Instant × Text) =>
      recordUnder repr prefixes moment orders comment.body (firstLine comment.body) = .ok entry.2.1)
    (done.filter fun comment => candidatePrefix token <+: firstLine comment.body) found

theorem readCommentStep {done : List TrackerComment} {found later : Found Instant}
    (read : Read repr prefixes moment orders token done found)
    (ok : readComment repr prefixes moment orders issueKey token found comment = .ok later) :
    Read repr prefixes moment orders token (done ++ [comment]) later := by
  simp only [readComment] at ok
  split at ok
  · rename_i other
    cases ok
    have skipped : ([comment].filter fun comment => candidatePrefix token <+: firstLine comment.body) = [] := by
      simp [other]
    refine ⟨?_, read.distinct, ?_⟩
    · rw [List.filter_append, skipped, List.append_nil]
      exact read.markers
    · rw [List.filter_append, skipped, List.append_nil]
      exact read.records
  · rename_i candidate
    have kept : ([comment].filter fun comment => candidatePrefix token <+: firstLine comment.body) = [comment] := by
      simp [not_not.mp candidate]
    split at ok
    · cases ok
    · rename_i absent
      split at ok
      · cases ok
      · rename_i alarm held
        cases ok
        have fresh : firstLine comment.body ∉ found.keys := by
          rw [Dict.getSome]
          simp [absent]
        rw [Dict.setFresh _ fresh]
        refine ⟨?_, ?_, ?_⟩
        · rw [List.filter_append, kept, List.map_append, Dict.keys, List.map_append]
          exact congrArg (· ++ _) read.markers
        · rw [Dict.keys, List.map_append]
          exact List.nodup_append.mpr ⟨read.distinct, by simp, by
            intro marker inside other member same
            rw [List.map_singleton, List.mem_singleton] at member
            have here : marker = firstLine comment.body := same.trans member
            exact fresh (here ▸ inside)⟩
        · rw [List.filter_append, kept]
          exact List.rel_append read.records (.cons held .nil)

theorem readComments {done : List TrackerComment} {found later : Found Instant}
    (read : Read repr prefixes moment orders token done found)
    (ok : comments.foldlM (readComment repr prefixes moment orders issueKey token) found = .ok later) :
    Read repr prefixes moment orders token (done ++ comments) later := by
  induction comments generalizing done found with
  | nil =>
    cases ok
    rwa [List.append_nil]
  | cons comment comments ih =>
    rw [List.foldlM_cons] at ok
    cases step : readComment repr prefixes moment orders issueKey token found comment with
    | error e => rw [step] at ok; cases ok
    | ok next =>
      rw [step] at ok
      have whole := ih (readCommentStep read step) ok
      rwa [List.append_assoc] at whole

theorem runAlarmRecordsOk {records : List (RunAlarm Instant)}
    (ok : runAlarmRecords repr prefixes moment orders issueKey comments = .ok records) : ∃ token found,
      prefixes.get? markerPurpose = some token ∧ Read repr prefixes moment orders token comments found ∧
        records = found.values.map (·.1) := by
  simp only [runAlarmRecords, configuredMarkerPrefix] at ok
  split at ok
  · cases ok
  · rename_i named
    split at named
    · rename_i token configured
      obtain rfl := Except.ok.inj named
      split at ok
      · cases ok
      · rename_i found read
        cases ok
        have start : Read repr prefixes moment orders token [] [] := ⟨rfl, by simp [Dict.keys], .nil⟩
        exact ⟨token, found, configured, readComments start read, rfl⟩
    · cases named

/-- Markers of different purposes, lanes or occurrences never meet, and a listing that is read
gives each candidate comment the one purpose and address its first line composes from. -/
theorem markersApart (keys : prefixes.keys.Nodup) (accepted : markerPrefixFailures repr prefixes = []) :
    (∀ purpose lane occurrenceKey purpose' lane' occurrenceKey' marker,
      composeCommentMarker repr prefixes purpose lane occurrenceKey = .ok marker →
      composeCommentMarker repr prefixes purpose' lane' occurrenceKey' = .ok marker →
        (purpose, lane, occurrenceKey) = (purpose', lane', occurrenceKey')) ∧
    (∀ purpose lane occurrenceKey marker, composeCommentMarker repr prefixes purpose lane occurrenceKey = .ok marker →
      ∀ c ∈ marker, isSpace c = false ∧ lineBreak c = false) ∧
    (∀ purpose lane occurrenceKey purpose' lane' occurrenceKey' marker marker',
      composeCommentMarker repr prefixes purpose lane occurrenceKey = .ok marker →
      composeCommentMarker repr prefixes purpose' lane' occurrenceKey' = .ok marker' →
        marker <+: marker' → marker = marker') ∧
    ∀ (moment : Codec Instant) (orders : SetOrders) (issueKey : Text) (comments : List TrackerComment) records,
      runAlarmRecords repr prefixes moment orders issueKey comments = .ok records →
        ∃ token, prefixes.get? markerPurpose = some token ∧
          List.Forall₂ (fun comment (record : RunAlarm Instant) => ∀ purpose lane occurrenceKey,
              composeCommentMarker repr prefixes purpose lane occurrenceKey = .ok (firstLine comment.body) ↔
                (purpose, lane, occurrenceKey) =
                  (markerPurpose, alarmSubjectKey record.subject, some record.signal.value.val.toList))
            (comments.filter fun comment => candidatePrefix token <+: firstLine comment.body) records := by
  have valid := (acceptedIff keys).mp accepted
  refine ⟨?_, ?_, ?_, ?_⟩
  · intro purpose lane occurrenceKey purpose' lane' occurrenceKey' marker ok ok'
    obtain ⟨rfl, rfl, rfl⟩ := composedInjective valid (composedOk ok) (composedOk ok')
    rfl
  · intro purpose lane occurrenceKey marker ok c member
    have solid := composedSolid valid (composedOk ok) c member
    refine ⟨solid, ?_⟩
    by_contra breaks
    rw [spaceOfLineBreak (by simpa using breaks)] at solid
    cases solid
  · intro purpose lane occurrenceKey purpose' lane' occurrenceKey' marker marker' ok ok'
    exact composedPrefix valid (composedOk ok) (composedOk ok')
  · intro moment orders issueKey comments records ok
    obtain ⟨token, found, configured, read, rfl⟩ := runAlarmRecordsOk ok
    refine ⟨token, configured, ?_⟩
    rw [Dict.values, List.map_map, List.forall₂_map_right_iff]
    refine read.records.imp fun comment entry held purpose lane occurrenceKey => ?_
    have own := recordUnderOk held
    constructor
    · intro composed
      obtain ⟨rfl, rfl, rfl⟩ := composedInjective valid (composedOk composed) (composedOk own)
      rfl
    · intro same
      cases same
      exact own

def alarmPrefixes : Prefixes := [(markerPurpose, "alarm-98".toList)]

theorem laneMarkerSolid : composeCommentMarker id alarmPrefixes markerPurpose "KOD-98/a b".toList none =
      .ok "[alarm-98:KOD-98%2Fa%20b]".toList ∧
    ∀ c ∈ "[alarm-98:KOD-98%2Fa%20b]".toList, isSpace c = false ∧ lineBreak c = false :=
  ⟨by decide, (@markersApart id alarmPrefixes String (by decide) (by decide)).2.1 markerPurpose
    "KOD-98/a b".toList none _ (by decide)⟩

end Listing

end Kodezart.RunAlarmRecord
