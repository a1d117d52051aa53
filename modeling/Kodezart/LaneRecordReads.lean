import Kodezart.LaneRecord

/-! A lane record reads back from its comment under every re-entry section it was ever written with,
and under no other lane. -/
namespace Kodezart.LaneRecord
open TextLines JsonText JsonCodec CommentMarkers
open RunAlarmRecord (LaneCommit laneCommit laneCommitKeeps nonempty nonemptyKeeps plain)

variable {ok : Int → Prop}

/-- Every count the record states. -/
structure LaneRunState.Counts (ok : Int → Prop) (record : LaneRunState) : Prop where
  commitsAhead : ok record.commitsAhead
  filesChanged : ok record.filesChanged
  number : ∀ pr, record.pr = some pr → ok pr.number

section Codecs

theorem integerKeeps {n : Int} (fits : ok n) : integer.Keeps ok n := ⟨fun _ => rfl, fun _ => .int n fits⟩

theorem branchRoleKeeps (role : BranchRole) : branchRole.Keeps ok role := namedKeeps (by cases role <;> simp) (by decide)

theorem workRefRoleKeeps (role : WorkRefRole) : workRefRole.Keeps ok role := namedKeeps (by cases role <;> simp) (by decide)

theorem nonemptyOr (value : Option NonemptyStr) : nonempty.optional.Keeps ok value :=
  optionalKeeps (checkedSolid stringSolid) fun a _ => nonemptyKeeps a

theorem branchAssociationKeeps (item : BranchAssociation) : branchAssociationFields.Keeps ok item := by
  refine buildKeeps ?_ rfl
  refine andKeeps (fieldKeeps (nonemptyKeeps _) _ _) ?_ (by decide)
  refine andKeeps (fieldKeeps (branchRoleKeeps _) _ _) ?_ (by decide)
  exact andKeeps (fieldKeeps (nonemptyOr _) _ _) (fieldKeeps (nonemptyKeeps _) _ _) (by decide)

theorem baseInputKeeps (input : BaseInput) : baseInputFields.Keeps ok input := by
  refine buildKeeps ?_ rfl
  refine andKeeps (fieldKeeps (nonemptyKeeps _) _ _) ?_ (by decide)
  exact andKeeps (fieldKeeps (nonemptyKeeps _) _ _) (fieldKeeps (nonemptyKeeps _) _ _) (by decide)

theorem baseSpecKeeps (spec : BaseSpec) : baseSpecFields.Keeps ok spec := by
  have inputs : (list (object baseInputFields)).Keeps ok spec.inputs := listKeeps fun input _ => objectKeeps (baseInputKeeps input)
  have role : workRefRole.optional.Keeps ok spec.baseRole :=
    optionalKeeps (namedSolid _ _) fun role _ => workRefRoleKeeps role
  refine buildKeeps ?_ rfl
  refine andKeeps (fieldKeeps inputs _ _) ?_ (by decide)
  exact andKeeps (fieldKeeps (nonemptyKeeps _) _ _) (fieldOrKeeps role _ _ _) (by decide)

theorem lanePRKeeps {pr : LanePR} (counted : ok pr.number) : lanePRFields.Keeps ok pr := by
  refine buildKeeps ?_ rfl
  refine andKeeps (fieldKeeps (stringKeeps _) _ _) ?_ (by decide)
  exact andKeeps (fieldKeeps (integerKeeps counted) _ _) (fieldKeeps (stringKeeps _) _ _) (by decide)

theorem laneRunKeeps {record : LaneRunState} (counts : record.Counts ok) : laneRunFields.Keeps ok record := by
  have made : modelValidate record.toLaneRunFields = some record := by rw [modelValidate, dif_pos record.valid]
  have pr : (object lanePRFields).optional.Keeps ok record.pr :=
    optionalKeeps (objectSolid _) fun pr held => objectKeeps (lanePRKeeps (counts.number pr held))
  have digests : digest.optional.Keeps ok record.bodyDigest :=
    optionalKeeps (checkedSolid stringSolid) fun text _ => checkedKeeps (stringKeeps text.val)
  have base : (object baseSpecFields).optional.Keeps ok record.dispatchBase :=
    optionalKeeps (objectSolid _) fun spec _ => objectKeeps (baseSpecKeeps spec)
  have items : (list (object branchAssociationFields)).Keeps ok record.associations :=
    listKeeps fun item _ => objectKeeps (branchAssociationKeeps item)
  refine buildKeeps ?_ made
  refine andKeeps (fieldKeeps (nonemptyKeeps _) _ _) ?_ (by decide)
  refine andKeeps (fieldKeeps (nonemptyKeeps _) _ _) ?_ (by decide)
  refine andKeeps (fieldKeeps (nonemptyKeeps _) _ _) ?_ (by decide)
  refine andKeeps (fieldKeeps (nonemptyKeeps _) _ _) ?_ (by decide)
  refine andKeeps (fieldKeeps (nonemptyOr _) _ _) ?_ (by decide)
  refine andKeeps (fieldKeeps (countKeeps counts.commitsAhead) _ _) ?_ (by decide)
  refine andKeeps (fieldKeeps (countKeeps counts.filesChanged) _ _) ?_ (by decide)
  refine andKeeps (fieldKeeps (listKeeps fun commit _ => laneCommitKeeps commit) _ _) ?_ (by decide)
  refine andKeeps (fieldOrKeeps pr _ _ _) ?_ (by decide)
  refine andKeeps (fieldOrKeeps digests _ _ _) ?_ (by decide)
  exact andKeeps (fieldOrKeeps base _ _ _) (fieldKeeps items _ _) (by decide)

/-- A record is written in numbers that can be read only if its counts can. -/
theorem laneRunCounts {record : LaneRunState} {spelling : Spelling} (fits : Fits ok (laneRunState.encode spelling record)) :
    record.Counts ok := by
  have counted (camel snake : Text) (n : Int) (member : (spelling.pick camel snake, Json.int n) ∈ laneRunFields.write spelling record) :
      ok n := by
    cases fitsField fits member with
    | int _ within => exact within
  constructor
  · exact counted "commitsAhead".toList "commits_ahead".toList _ (by simp [laneRunFields, Fields.build, Fields.and, field, count])
  · exact counted "filesChanged".toList "files_changed".toList _ (by simp [laneRunFields, Fields.build, Fields.and, field, count])
  · intro pr held
    have whole : Fits ok ((object lanePRFields).encode spelling pr) := by
      refine fitsField fits (e := (spelling.pick "pr".toList "pr".toList, _)) ?_
      simp [laneRunFields, Fields.build, Fields.and, fieldOr, Codec.optional, held]
    have number : Fits ok (.int pr.number) := by
      refine fitsField whole (e := (spelling.pick "number".toList "number".toList, _)) ?_
      simp [lanePRFields, Fields.build, Fields.and, plain, field, integer]
    cases number with
    | int _ within => exact within

theorem nonemptyUnique (s : NonemptyStr) : nonempty.Unique s := checkedUnique (stringUnique s.val)

theorem laneCommitUnique (commit : LaneCommit) : laneCommit.Unique commit := by
  apply objectUnique
  · intro spelling
    cases spelling <;> exact of_decide_eq_true rfl
  · apply buildUnique
    apply andUnique (fieldUnique (stringUnique _) _ _)
    exact andUnique (fieldUnique (stringUnique _) _ _) (fieldUnique (stringUnique _) _ _)

theorem branchAssociationUnique (item : BranchAssociation) : (object branchAssociationFields).Unique item := by
  apply objectUnique (@branchAssociationKeeps Short item).distinct
  apply buildUnique
  apply andUnique (fieldUnique (nonemptyUnique _) _ _)
  apply andUnique (fieldUnique (namedUnique _ _ _) _ _)
  exact andUnique (fieldUnique (optionalUnique fun s _ => nonemptyUnique s) _ _) (fieldUnique (nonemptyUnique _) _ _)

theorem baseInputUnique (input : BaseInput) : (object baseInputFields).Unique input := by
  apply objectUnique (@baseInputKeeps Short input).distinct
  apply buildUnique
  apply andUnique (fieldUnique (nonemptyUnique _) _ _)
  exact andUnique (fieldUnique (nonemptyUnique _) _ _) (fieldUnique (nonemptyUnique _) _ _)

theorem baseSpecUnique (spec : BaseSpec) : (object baseSpecFields).Unique spec := by
  apply objectUnique (@baseSpecKeeps Short spec).distinct
  apply buildUnique
  apply andUnique (fieldUnique (listUnique fun input _ => baseInputUnique input) _ _)
  apply andUnique (fieldUnique (nonemptyUnique _) _ _)
  exact fieldOrUnique (optionalUnique fun role _ => namedUnique _ _ role) _ _ _

theorem lanePRUnique (pr : LanePR) : (object lanePRFields).Unique pr := by
  apply objectUnique (@lanePRKeeps (fun _ => True) pr trivial).distinct
  apply buildUnique
  apply andUnique (fieldUnique (stringUnique _) _ _)
  exact andUnique (fieldUnique (fun _ => rfl) _ _) (fieldUnique (stringUnique _) _ _)

theorem laneRunUnique (record : LaneRunState) : laneRunState.Unique record := by
  have free : record.Counts fun _ => True := ⟨trivial, trivial, fun _ _ => trivial⟩
  apply objectUnique (laneRunKeeps free).distinct
  apply buildUnique
  apply andUnique (fieldUnique (nonemptyUnique _) _ _)
  apply andUnique (fieldUnique (nonemptyUnique _) _ _)
  apply andUnique (fieldUnique (nonemptyUnique _) _ _)
  apply andUnique (fieldUnique (nonemptyUnique _) _ _)
  apply andUnique (fieldUnique (optionalUnique fun s _ => nonemptyUnique s) _ _)
  apply andUnique (fieldUnique (fun _ => rfl) _ _)
  apply andUnique (fieldUnique (fun _ => rfl) _ _)
  apply andUnique (fieldUnique (listUnique fun commit _ => laneCommitUnique commit) _ _)
  apply andUnique (fieldOrUnique (optionalUnique fun pr _ => lanePRUnique pr) _ _ _)
  apply andUnique (fieldOrUnique (optionalUnique fun text _ => checkedUnique (stringUnique text.val)) _ _ _)
  apply andUnique (fieldOrUnique (optionalUnique fun spec _ => baseSpecUnique spec) _ _ _)
  exact fieldUnique (listUnique fun item _ => branchAssociationUnique item) _ _

end Codecs

section Comments
variable {repr : Text → Text} {prefixes : Prefixes} {token marker reentry payload body : Text} {record : LaneRunState}
  {laneKey : NonemptyStr}

/-- Two texts with one ending, and different characters before it, do not end in each other. -/
theorem suffixApart {one other common : Text} {c d : Char} (different : c ≠ d) : ¬ one ++ c :: common <:+ other ++ d :: common := by
  intro ends
  have below : c :: common <:+ d :: common :=
    List.suffix_of_suffix_length_le ((List.suffix_append one _).trans ends) (List.suffix_append other _) (by simp)
  exact different (List.cons.inj (below.eq_of_length (by simp))).1

theorem bothApart {one other front front' common : Text} {c d : Char} (different : c ≠ d) (split : one = front ++ c :: common)
    (split' : other = front' ++ d :: common) : ¬ one <:+ other ∧ ¬ other <:+ one := by
  subst split split'
  exact ⟨suffixApart different, suffixApart different.symm⟩

def under (lines : List String) : Text := (lines.map String.toList).flatMap ('\n' :: ·)

def framedTo (lines : List String) (kept : Nat) : Text :=
  "\n```\n\n".toList ++ ("## Re-entry".toList ++ under (lines.take kept))

theorem framedAt {lines later : List String} {line : String} (kept : Nat) (split : lines.drop kept = line :: later) :
    framed (reentryText lines) = framedTo lines kept ++ '\n' :: (line.toList ++ under later) := by
  have parts : lines = lines.take kept ++ line :: later := by rw [← split, List.take_append_drop]
  have whole : under lines = under (lines.take kept) ++ '\n' :: (line.toList ++ under later) := by
    refine (congrArg under parts).trans ?_
    simp only [under, List.map_append, List.flatMap_append, List.map_cons, List.flatMap_cons, List.cons_append]
  change "\n```\n\n".toList ++ ("## Re-entry".toList ++ under lines) =
    "\n```\n\n".toList ++ ("## Re-entry".toList ++ under (lines.take kept)) ++ _
  rw [whole, List.append_assoc, List.append_assoc]

/-- The same where the line splits at a space. -/
theorem framedIn {lines later : List String} {line : String} {front back : Text} (kept : Nat)
    (split : lines.drop kept = line :: later) (worded : line.toList = front ++ ' ' :: back) :
    framed (reentryText lines) = (framedTo lines kept ++ '\n' :: front) ++ ' ' :: (back ++ under later) := by
  rw [framedAt kept split, worded]
  simp only [List.append_assoc, List.cons_append]

theorem negatedLine : "not infer their roles from their names. Associations survive reaping, so verify".toList =
    "not".toList ++ ' ' :: "infer their roles from their names. Associations survive reaping, so verify".toList := by
  simp

theorem livenessLine : "current remote liveness before checkout.".toList =
    "current remote liveness".toList ++ ' ' :: "before checkout.".toList := by
  simp

/-- No section's closing ends in another's. -/
theorem framedApart : [reentryLines, firstReentryLines, secondReentryLines].Pairwise fun one other =>
    ¬ framed (reentryText one) <:+ framed (reentryText other) ∧ ¬ framed (reentryText other) <:+ framed (reentryText one) := by
  have current := framedIn 13 (rfl : reentryLines.drop 13 = _ :: _) negatedLine
  have first := framedAt 7 (rfl : firstReentryLines.drop 7 = _ :: _)
  have current' := framedIn 14 (rfl : reentryLines.drop 14 = _ :: _) livenessLine
  have first' := framedIn 8 (rfl : firstReentryLines.drop 8 = _ :: _) livenessLine
  have second := framedAt 12 (rfl : secondReentryLines.drop 12 = _ :: _)
  have space : ' ' ≠ '\n' := by decide
  refine .cons ?_ (.cons ?_ (.cons (by simp) .nil))
  · exact List.forall_mem_cons.mpr ⟨bothApart space current first,
      List.forall_mem_singleton.mpr (bothApart space current' second)⟩
  · exact List.forall_mem_singleton.mpr (bothApart space first' second)

theorem closingOf {closings : List Text} (apart : closings.Pairwise fun one other => ¬ one <:+ other ∧ ¬ other <:+ one)
    {closing : Text} (own : closing ∈ closings) (text : Text) : closings.find? (· <:+ text ++ closing) = some closing := by
  have alike : Std.Symm fun one other : Text => ¬ one <:+ other ∧ ¬ other <:+ one := ⟨fun _ _ two => ⟨two.2, two.1⟩⟩
  cases found : closings.find? (· <:+ text ++ closing) with
  | none =>
    have unseen := List.find?_eq_none.mp found closing own
    exact absurd (decide_eq_true (List.suffix_append text closing)) unseen
  | some other =>
    have ends : other <:+ text ++ closing := by simpa using List.find?_some found
    by_cases same : other = closing
    · rw [same]
    · have both := apart.forall (List.mem_of_find?_eq_some found) own same
      rcases List.suffix_or_suffix_of_suffix ends (List.suffix_append text closing) with below | above
      · exact absurd below both.1
      · exact absurd above both.2

theorem closingFound (member : reentry ∈ reentrySection :: previousReentrySections) (text : Text) :
    ((reentrySection :: previousReentrySections).map framed).find? (· <:+ text ++ framed reentry) = some (framed reentry) := by
  refine closingOf ?_ (List.mem_map_of_mem member) text
  have listed : (reentrySection :: previousReentrySections).map framed =
      [reentryLines, firstReentryLines, secondReentryLines].map fun lines => framed (reentryText lines) := rfl
  rw [listed]
  exact List.pairwise_map.mpr framedApart

/-- The comment's content with one of the sections behind its facts. -/
def bodyUnder (record : LaneRunState) (reentry : Text) : Text :=
  fenceOpen ++ render 0 (laneRunState.encode .byAlias record) ++ framed reentry

theorem laneMarkerConfigured (configured : prefixes.get? runStatePurpose = some token) (laneKey : NonemptyStr) :
    laneMarker repr prefixes laneKey.val.toList = .ok (markerText [token, PercentEncoding.quote laneKey.val.toList]) := by
  have visible : laneKey.val.toList ≠ [] ∧ (none : Option Text) ≠ some [] := by
    refine ⟨?_, by simp⟩
    rw [ne_eq, String.toList_eq_nil_iff]
    exact laneKey.property
  rw [laneMarker, composeConfigured configured visible]
  rfl

theorem laneMarkerUnbroken (plainToken : Unbroken token) (laneKey : Text) :
    Unbroken (markerText [token, PercentEncoding.quote laneKey]) := by
  intro c member
  have cases : c = '[' ∨ c ∈ token ∨ c = ':' ∨ c ∈ PercentEncoding.quote laneKey ∨ c = ']' := by
    simpa [markerText, List.intercalate, or_assoc] using member
  rcases cases with rfl | inside | rfl | quoted | rfl
  · decide
  · exact plainToken c inside
  · decide
  · by_contra breaks
    have space := spaceOfLineBreak (by simpa using breaks)
    rw [(plainQuote laneKey c quoted).1] at space
    cases space
  · decide

theorem laneMarkerInjective {lane other : Text}
    (same : markerText [token, PercentEncoding.quote lane] = markerText [token, PercentEncoding.quote other]) : lane = other :=
  PercentEncoding.quoteInjective (by simpa [markerText, List.intercalate] using same)

theorem parseClosed {closings : List Text} {closing : Text}
    (found : closings.find? (· <:+ (marker ++ '\n' :: fenceOpen) ++ payload ++ closing) = some closing) :
    parseWith closings marker ((marker ++ '\n' :: fenceOpen) ++ payload ++ closing) laneKey =
      match (loads payload).bind laneRunState.decode with
      | none => .error (.valueError "the payload is no lane record")
      | some record =>
        if record.laneKey ≠ laneKey then .error (.valueError "the record lane does not match its configured marker")
        else .ok record := by
  have opens : marker ++ '\n' :: fenceOpen <+: (marker ++ '\n' :: fenceOpen) ++ payload ++ closing := by
    rw [List.append_assoc]
    exact List.prefix_append _ _
  have cut : ((marker ++ '\n' :: fenceOpen) ++ payload ++ closing).length - closing.length =
      ((marker ++ '\n' :: fenceOpen) ++ payload).length := by
    rw [List.length_append, Nat.add_sub_cancel]
  cases read : (loads payload).bind laneRunState.decode <;>
    simp only [parseWith, found, opens, not_true_eq_false, if_false, cut, List.take_left', List.drop_left', read]

/-- What a body under a lane's marker reads as is what its facts do. -/
theorem parseUnder (composed : laneMarker repr prefixes laneKey.val.toList = .ok marker)
    (member : reentry ∈ reentrySection :: previousReentrySections) :
    parseLaneRecord repr prefixes (marker ++ '\n' :: (fenceOpen ++ payload ++ framed reentry)) laneKey =
      match (loads payload).bind laneRunState.decode with
      | none => .error (.valueError "the payload is no lane record")
      | some record =>
        if record.laneKey ≠ laneKey then .error (.valueError "the record lane does not match its configured marker")
        else .ok record := by
  have whole : marker ++ '\n' :: (fenceOpen ++ payload ++ framed reentry) =
      (marker ++ '\n' :: fenceOpen) ++ payload ++ framed reentry := by
    simp only [List.append_assoc, List.cons_append]
  rw [parseMarked composed, whole]
  exact parseClosed (closingFound member _)

theorem parseUnopened {closings : List Text} (unopened : ¬ marker ++ '\n' :: fenceOpen <+: body) :
    ∃ e, parseWith closings marker body laneKey = .error e := by
  rw [parseWith]
  split
  · exact ⟨_, rfl⟩
  · rw [if_pos unopened]
    exact ⟨_, rfl⟩

theorem parseOther {other : NonemptyStr} (configured : prefixes.get? runStatePurpose = some token) (plainToken : Unbroken token)
    (different : other ≠ laneKey) (rest : Text) :
    ∃ e, parseLaneRecord repr prefixes (markerText [token, PercentEncoding.quote laneKey.val.toList] ++ '\n' :: rest) other =
      .error e := by
  rw [parseMarked (laneMarkerConfigured configured other)]
  apply parseUnopened
  intro opens
  have single (lane : Text) : '\n' ∉ markerText [token, PercentEncoding.quote lane] := by
    intro inside
    cases laneMarkerUnbroken plainToken lane '\n' inside
  have markers := (firstLine (single _) (single _) opens).1
  exact different (Subtype.ext (String.toList_inj.mp (laneMarkerInjective markers)))

theorem renderUnder (configured : prefixes.get? runStatePurpose = some token) (plainToken : Unbroken token)
    (record : LaneRunState) : renderLaneRecord repr prefixes record =
      .ok (markerText [token, PercentEncoding.quote record.laneKey.val.toList] ++ '\n' :: bodyUnder record reentrySection) := by
  simp only [renderLaneRecord, laneMarkerConfigured configured]
  exact congrArg (Except.mapError RecordError.marker)
    (markedLine (List.cons_ne_nil _ _) (laneMarkerUnbroken plainToken _) (laneRecordBody record))

/-- A rendered record reads back under its own lane, whichever section it was written with, and under no other. -/
theorem laneRecordReads (configured : prefixes.get? runStatePurpose = some token) (plainToken : Unbroken token) :
    (∀ record : LaneRunState, record.Counts Short → ∃ marker, laneMarker repr prefixes record.laneKey.val.toList = .ok marker ∧
      renderLaneRecord repr prefixes record = .ok (marker ++ '\n' :: bodyUnder record reentrySection) ∧
      ∀ reentry ∈ reentrySection :: previousReentrySections,
        parseLaneRecord repr prefixes (marker ++ '\n' :: bodyUnder record reentry) record.laneKey = .ok record) ∧
    ∀ (record : LaneRunState) (body : Text) (other : NonemptyStr), renderLaneRecord repr prefixes record = .ok body →
      other ≠ record.laneKey → ∃ e, parseLaneRecord repr prefixes body other = .error e := by
  constructor
  · intro record counts
    refine ⟨_, laneMarkerConfigured configured _, renderUnder configured plainToken record, ?_⟩
    intro reentry member
    have read : (loads (render 0 (laneRunState.encode .byAlias record))).bind laneRunState.decode = some record :=
      loadsWritten (objectKeeps (laneRunKeeps counts)) (laneRunUnique record) .byAlias
    rw [bodyUnder, parseUnder (laneMarkerConfigured configured _) member, read]
    exact if_neg (not_not.mpr rfl)
  · intro record body other rendered different
    rw [renderUnder configured plainToken] at rendered
    cases rendered
    exact parseOther configured plainToken different _

/-- A record that counts past the digit limit does not read back. -/
theorem longUnread (long : ¬ record.Counts Short) (composed : laneMarker repr prefixes record.laneKey.val.toList = .ok marker)
    (member : reentry ∈ reentrySection :: previousReentrySections) (other : LaneRunState) :
    parseLaneRecord repr prefixes (marker ++ '\n' :: bodyUnder record reentry) record.laneKey ≠ .ok other := by
  have free : record.Counts fun _ => True := ⟨trivial, trivial, fun _ _ => trivial⟩
  have unread : loads (render 0 (laneRunState.encode .byAlias record)) = none := by
    rcases parseWhole ((objectKeeps (laneRunKeeps free)).fits .byAlias) with plain | stopped
    · exact absurd (laneRunCounts (fitsExact.mpr plain)) long
    · have stopped : parse (render 0 (laneRunState.encode .byAlias record)) = none := stopped
      rw [loads, stopped]
      rfl
  rw [bodyUnder, parseUnder composed member, unread]
  simp

def sampleRecord (commitsAhead : Nat) : LaneRunState where
  laneKey := ⟨"KOD-101", by decide⟩
  branch := ⟨"kod-101-loop", by decide⟩
  branchUrl := ⟨"u", by decide⟩
  headSha := ⟨"a1", by decide⟩
  pushedHeadSha := none
  commitsAhead := commitsAhead
  filesChanged := 0
  commits := []
  pr := none
  bodyDigest := none
  dispatchBase := none
  associations := [⟨⟨"kod-101-loop", by decide⟩, .loop, none, ⟨"run-101", by decide⟩⟩]
  valid := by
    constructor
    · exact ⟨_, List.mem_singleton_self _, rfl, rfl⟩
    · simp

/-- One digit past the limit. -/
def longCount : Nat := 10 ^ intMaxStrDigits

theorem longSample : ¬ (sampleRecord longCount).Counts Short := by
  intro counts
  have short : Short longCount := counts.commitsAhead
  rw [Short, Int.natAbs_natCast, Nat.length_toDigits_le_iff (by decide) (by decide)] at short
  exact lt_irrefl _ short

def lanePrefixes (token : String) : Prefixes := [(runStatePurpose, token.toList)]

/-- A count past the digit limit is written and not read, and a carriage return in a prefix stops the writing. -/
theorem recordsUnread :
    (∃ body, renderLaneRecord id (lanePrefixes "run-101") (sampleRecord longCount) = .ok body ∧
      ∀ record, parseLaneRecord id (lanePrefixes "run-101") body (sampleRecord longCount).laneKey ≠ .ok record) ∧
    ∃ e, renderLaneRecord id (lanePrefixes "run\r101") (sampleRecord 0) = .error e := by
  have configured : (lanePrefixes "run-101").get? runStatePurpose = some "run-101".toList := by decide
  have plainToken : Unbroken "run-101".toList := by
    unfold Unbroken
    decide
  constructor
  · refine ⟨_, renderUnder configured plainToken _, ?_⟩
    exact longUnread longSample (laneMarkerConfigured configured _) (List.mem_cons_self)
  · have configured : (lanePrefixes "run\r101").get? runStatePurpose = some "run\r101".toList := by decide
    have broken : contents (markerText ["run\r101".toList, PercentEncoding.quote "KOD-101".toList]) ≠
        [markerText ["run\r101".toList, PercentEncoding.quote "KOD-101".toList]] := by decide
    have unmarked : markedCommentBody (markerText ["run\r101".toList, PercentEncoding.quote (sampleRecord 0).laneKey.val.toList])
        (laneRecordBody (sampleRecord 0)) = .error (.valueError "a comment marker must be one nonempty line") :=
      if_pos (Or.inr broken)
    simp only [renderLaneRecord, laneMarkerConfigured configured]
    exact ⟨_, congrArg (Except.mapError RecordError.marker) unmarked⟩

theorem earlierSectionRead : ∃ marker, laneMarker id (lanePrefixes "run-101") "KOD-101".toList = .ok marker ∧
    parseLaneRecord id (lanePrefixes "run-101") (marker ++ '\n' :: bodyUnder (sampleRecord 3) (reentryText firstReentryLines))
      ⟨"KOD-101", by decide⟩ = .ok (sampleRecord 3) := by
  have counts : (sampleRecord 3).Counts Short := by
    constructor
    · exact (by decide : Short 3)
    · exact (by decide : Short 0)
    · intro pr held
      cases held
  have plainToken : Unbroken "run-101".toList := by
    unfold Unbroken
    decide
  obtain ⟨marker, composed, -, reads⟩ := (@laneRecordReads id (lanePrefixes "run-101") "run-101".toList (by decide)
    plainToken).1 (sampleRecord 3) counts
  exact ⟨marker, composed, reads (reentryText firstReentryLines) (List.mem_cons_of_mem _ List.mem_cons_self)⟩

end Comments

end Kodezart.LaneRecord
