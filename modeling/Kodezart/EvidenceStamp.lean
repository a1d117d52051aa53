import Kodezart.EvidenceField

/-! The stamp is exact or refused: when applying an Evidence value to a body answers
that value and the body's other fields, and when it does not. -/
namespace Kodezart.EvidenceStamp
open TextLines FireSpec JsonText EvidenceField

/-- The body closes every fence and comment it opens. -/
def Closed (body : Text) : Prop := (walkBody body).cover = {}

def SameOthers (body other : Text) : Prop :=
  ∀ field, field ≠ .Evidence → criterionFieldBodies other field = criterionFieldBodies body field

def StampExact (body : Text) (evidence : CriterionEvidence) : Prop :=
  (∀ stamped, applyEvidence body evidence = .ok stamped →
    parseCriterionEvidence stamped = .ok evidence ∧ SameOthers body stamped) ∧
  (duplicatedRowLabels body = [] → Closed body → ∃ stamped, applyEvidence body evidence = .ok stamped)

/-- A comment is open where the row's line begins. -/
def behindComment (body : Text) (row : CriterionRow) : Bool :=
  (walkBody (body.take row.begins)).cover.comment

/-- The body with nothing in the row but its label. -/
def emptied (body : Text) (row : CriterionRow) : Text :=
  body.take row.begins ++ (rowLabel row.label ++ '\n' :: body.drop row.ends)

/-- The text behind the row, read from inside a fence or a comment, shows the very record. -/
def Quoted (body : Text) (evidence : CriterionEvidence) (row : CriterionRow) : Prop :=
  ∃ cover, Shows evidence cover (contents (body.drop row.ends))

/-- What the Evidence row of a body has to be for its stamp to be exact or rightly refused. -/
def RowStands (body : Text) (evidence : CriterionEvidence) (row : CriterionRow) : Prop :=
  if behindComment body row then ¬ Closed body ∧ ¬ Quoted body evidence row
  else if criterionFieldBodies (emptied body row) .Evidence = [[]] then
    SameOthers body (emptied body row)
  else ¬ Closed body

def StampStands (body : Text) (evidence : CriterionEvidence) : Prop :=
  duplicatedRowLabels body ≠ [] ∨ (Separated evidence ∧ ¬ Closed body) ∨
    (¬ Separated evidence ∧
      ∀ row ∈ criterionRows body, row.label = .Evidence → RowStands body evidence row)

theorem loadsPayload (evidence : CriterionEvidence) :
    loads (payload evidence) = some (evidenceJson evidence) := by
  refine loadsRendered (.object _ ?_) (by
    simp [evidenceJson, uniqueKeys, uniqueFields, gradedShaKey, testKey])
  intro field member
  simp only [List.mem_cons, List.not_mem_nil, or_false] at member
  rcases member with rfl | rfl
  · exact .string _
  · exact .string _

theorem validateRead (evidence : CriterionEvidence) :
    validateEvidence (evidenceJson evidence) = some evidence := by
  simp [validateEvidence, evidenceJson, takeField, gradedShaKey, testKey, asString,
    evidence.gradedSha.2, evidence.test.2]

/-- A body whose one Evidence field reads as the record parses to the evidence. -/
theorem parseRecord {body : Text} {evidence : CriterionEvidence}
    (reads : criterionFieldBodies body .Evidence = [record evidence]) :
    parseCriterionEvidence body = .ok evidence := by
  have front : openFence ++ ['\n'] <+: record evidence :=
    ⟨payload evidence ++ '\n' :: closeFence, by simp [record]⟩
  have back : '\n' :: closeFence <:+ record evidence :=
    ⟨openFence ++ '\n' :: payload evidence, by simp [record]⟩
  have inside : ((record evidence).drop (openFence ++ ['\n']).length).take
      ((record evidence).length - ('\n' :: closeFence).length - (openFence ++ ['\n']).length) =
      payload evidence := by
    have shape : record evidence = (openFence ++ ['\n']) ++ (payload evidence ++ '\n' :: closeFence) := by
      simp [record]
    have size : (record evidence).length - ('\n' :: closeFence).length -
        (openFence ++ ['\n']).length = (payload evidence).length := by
      rw [shape]
      simp only [List.length_append]
      omega
    rw [size, shape, List.drop_left, List.take_left]
  unfold parseCriterionEvidence
  simp only [reads, front, back, and_self, if_true, inside, loadsPayload, Option.bind_some,
    validateRead]

/-- The claim about a body whose labels are held once is about the one text its edit makes. -/
theorem exactOfAnswered {body result : Text} {evidence : CriterionEvidence}
    (plain : duplicatedRowLabels body = [])
    (applied : applyEvidence body evidence =
      answered .Evidence (evidenceFieldValue evidence) result) :
    StampExact body evidence ↔
      if criterionFieldBodies result .Evidence = [record evidence] then SameOthers body result
      else ¬ Closed body := by
  rw [answered, stripValue] at applied
  split
  · next reads =>
    rw [if_pos reads] at applied
    constructor
    · intro exact'
      exact (exact'.1 result applied).2
    · intro same
      refine ⟨?_, fun _ _ => ⟨result, applied⟩⟩
      intro stamped returned
      rw [applied] at returned
      cases returned
      exact ⟨parseRecord reads, same⟩
  · next other =>
    rw [if_neg other] at applied
    constructor
    · intro exact' closed
      obtain ⟨stamped, returned⟩ := exact'.2 plain closed
      rw [applied] at returned
      cases returned
    · intro notClosed
      refine ⟨?_, fun _ closed => absurd closed notClosed⟩
      intro stamped returned
      rw [applied] at returned
      cases returned

theorem exactOfDuplicated {body : Text} (twice : duplicatedRowLabels body ≠ [])
    (evidence : CriterionEvidence) : StampExact body evidence := by
  have refused := replaceAmbiguous twice [(.Evidence, evidenceFieldValue evidence)]
  refine ⟨?_, fun plain => absurd plain twice⟩
  intro stamped returned
  rw [applyEvidence, refused] at returned
  cases returned

/-- A record with a line separator in it is read back from no body. -/
theorem separatedUnread {evidence : CriterionEvidence} (separated : Separated evidence) (body : Text) :
    criterionFieldBodies body .Evidence ≠ [record evidence] := by
  intro reads
  obtain ⟨c, pointer, special⟩ := separated
  simp only [separator, Bool.and_eq_true, decide_eq_true_eq] at special
  obtain ⟨breaks, printable⟩ := special
  have raw : escapeChar c = [c] := by
    refine escapeCharPlain printable ?_ ?_
    · intro same; subst same; revert breaks; decide
    · intro same; subst same; revert breaks; decide
  have inside : c ∈ record evidence := by
    have line : c ∈ testLine evidence := by
      simp only [testLine, quoted, List.mem_cons, List.mem_append, List.mem_flatMap]
      right; right; right; right; left; right
      exact ⟨c, pointer, by rw [raw]; simp⟩
    simp [record, payloadText, line]
  have newline := fieldBodiesBreak (by rw [reads]; simp) inside breaks
  rw [newline] at printable
  revert printable
  decide

theorem closedCover {body : Text} : Closed body ↔ coverAfter {} (contents body) = {} := by
  rw [Closed, walkBody, (walkedLines (splitKeep body)).cover]
  rfl

/-! The stamp put in the place of a row. -/
section Present

variable {body : Text} {row : CriterionRow} {evidence : CriterionEvidence}

theorem behindCommentSpan (span : Span (splitKeep body) row) :
    coverAfter {} (span.before.map content) = ⟨none, behindComment body row⟩ := by
  have cover := (walkedLines (splitKeep (body.take row.begins))).cover
  have front : (splitKeep (body.take row.begins)).map content = span.before.map content :=
    contentsFront span
  rw [front] at cover
  rw [behindComment, walkBody, cover]
  exact coverAtRow span

/-- What the edit puts in the place of a row. -/
def stampBlock (evidence : CriterionEvidence) : Text :=
  (stampLines evidence).flatMap (· ++ ['\n']) ++ ['\n']

theorem spliceBlock (label : row.label = .Evidence) :
    spliceRow body row (evidenceFieldValue evidence) =
      body.take row.begins ++ (stampBlock evidence ++ body.drop row.ends) := by
  rw [stampBlock, ← stampText, spliceRow, label]
  simp

theorem contentsBlock (plain : ¬ Separated evidence) (next : Text) :
    contents (stampBlock evidence ++ next) = stampLines evidence ++ [] :: contents next := by
  have blank : contents ([] ++ '\n' :: next) = [] :: contents next :=
    contentsLine (by simp [Unbroken]) next
  rw [stampBlock, List.append_assoc, contentsLines (stampUnbroken plain)]
  exact congrArg (stampLines evidence ++ ·) blank

theorem blockStart (evidence : CriterionEvidence) (next : Text) :
    (stampBlock evidence ++ next).head? ≠ some '\n' := by
  simp [stampBlock, stampLines, rowLabel]

theorem contentsSpliced (plain : ¬ Separated evidence) (span : Span (splitKeep body) row)
    (label : row.label = .Evidence) :
    contents (spliceRow body row (evidenceFieldValue evidence)) =
      span.before.map content ++ (stampLines evidence ++ [] :: span.after.map content) := by
  rw [spliceBlock label, contentsInserted span (blockStart evidence _), contentsBlock plain,
    contentsBack span]

theorem contentsEmptied (span : Span (splitKeep body) row) :
    contents (emptied body row) =
      span.before.map content ++ (rowLabel row.label :: span.after.map content) := by
  have unbroken : Unbroken (rowLabel row.label) := by
    cases row.label <;> · unfold Unbroken; decide
  rw [emptied, contentsInserted span (by simp [rowLabel]), contentsLine unbroken, contentsBack span]

theorem memberOfBodies {text : Text} {field : CriterionField}
    (member : text ∈ criterionFieldBodies body field) :
    (field, text) ∈ (reading {} (contents body)).2 := by
  rw [fieldBodiesReading] at member
  obtain ⟨⟨label, read⟩, found, rfl⟩ := List.mem_map.mp member
  obtain ⟨inside, same⟩ := List.mem_filter.mp found
  obtain rfl : label = field := by simpa using same
  exact inside

/-- No row before a row whose label is held once carries that label. -/
theorem soleSpan (once : duplicatedRowLabels body = []) (span : Span (splitKeep body) row) :
    row.label ∉ (seen {} (span.before.map content)).filterMap (·.1) := by
  intro before
  obtain ⟨text, whole⟩ := readingBody span
  have all := List.filter_eq_nil_iff.mp once row.label (by cases row.label <;> simp)
  have labels : (criterionRows body).map (·.label) = ((reading {} (contents body)).2).map (·.1) := by
    rw [← rowsReading, labelled, List.map_map]
    rfl
  have held := List.count_pos_iff.mpr before
  rw [labels, whole, List.map_append, List.map_cons, List.count_append, List.count_cons_self, reading,
    gatherLabels] at all
  simp only [decide_eq_true_eq] at all
  omega

theorem readingBlank (cover : Cover) (more : List Text) :
    reading cover ([] :: more) = ([] :: (reading cover more).1, (reading cover more).2) := by
  rw [reading, seen, readLineEmpty, gather]
  rfl

/-- The stamped row reads as the record exactly where the emptied row reads as nothing. -/
theorem stampedText (evidence : CriterionEvidence) (lead : List Text) :
    strip (joinLines ([' '] :: ((stampLines evidence).tail ++ [] :: lead))) = record evidence ↔
      strip (joinLines ([] :: lead)) = [] := by
  have around := recordAround evidence [' ', '\n'] (by decide) ('\n' :: lead.flatMap ('\n' :: ·))
  have joined : joinLines ([' '] :: ((stampLines evidence).tail ++ [] :: lead)) =
      [' ', '\n'] ++ (record evidence ++ '\n' :: lead.flatMap ('\n' :: ·)) := by
    simp [joinLines, stampLines, recordLines]
  rw [joined, around, List.append_right_eq_self, List.rdropWhile_eq_nil_iff, stripEmpty]
  simp [joinLines, show isSpace '\n' = true by decide]

theorem readingSpliced (plain : ¬ Separated evidence) (span : Span (splitKeep body) row)
    (label : row.label = .Evidence) (visible : behindComment body row = false) :
    (reading {} (contents (spliceRow body row (evidenceFieldValue evidence)))).2 =
      (reading {} (span.before.map content)).2 ++
        (.Evidence, strip (joinLines ([' '] :: ((stampLines evidence).tail ++
          [] :: (reading {} (span.after.map content)).1)))) ::
          (reading {} (span.after.map content)).2 := by
  have cover := behindCommentSpan span
  rw [visible] at cover
  have stamp := (readingStamp evidence ([] :: span.after.map content)).1
  rw [readingBlank] at stamp
  rw [contentsSpliced plain span label, readingAppend {} _ (by rw [cover]; rw [stamp]), cover, stamp]

theorem readingEmptied (span : Span (splitKeep body) row) (label : row.label = .Evidence)
    (visible : behindComment body row = false) :
    (reading {} (contents (emptied body row))).2 =
      (reading {} (span.before.map content)).2 ++
        (.Evidence, strip (joinLines ([] :: (reading {} (span.after.map content)).1))) ::
          (reading {} (span.after.map content)).2 := by
  have cover := behindCommentSpan span
  rw [visible] at cover
  have first : readLine {} (rowLabel .Evidence) = ({}, some .Evidence, []) := by decide
  have inside : reading {} (rowLabel row.label :: span.after.map content) =
      ([], (.Evidence, strip (joinLines ([] :: (reading {} (span.after.map content)).1))) ::
        (reading {} (span.after.map content)).2) := by
    rw [reading, label, seen, first, gather]
    rfl
  rw [contentsEmptied span, readingAppend {} _ (by rw [cover]; rw [inside]), cover, inside]

theorem soleMiddle {α : Type} {front back : List α} {x y : α} :
    front ++ x :: back = [y] ↔ front = [] ∧ x = y ∧ back = [] := by
  cases front <;> simp

/-- Outside comments the stamped body reads as the emptied one does, but for the record. -/
theorem splicedReadsEmptied (plain : ¬ Separated evidence) (member : row ∈ criterionRows body)
    (label : row.label = .Evidence) (visible : behindComment body row = false) :
    (criterionFieldBodies (spliceRow body row (evidenceFieldValue evidence)) .Evidence =
        [record evidence] ↔ criterionFieldBodies (emptied body row) .Evidence = [[]]) ∧
      ∀ field, field ≠ .Evidence →
        criterionFieldBodies (spliceRow body row (evidenceFieldValue evidence)) field =
          criterionFieldBodies (emptied body row) field := by
  obtain ⟨span⟩ := rowSpan member
  simp only [fieldBodiesReading, readingSpliced plain span label visible,
    readingEmptied span label visible]
  refine ⟨?_, ?_⟩
  · simp only [List.filter_append, List.filter_cons, decide_true, if_true, List.map_append,
      List.map_cons, soleMiddle, stampedText]
  · intro field other
    simp [Ne.symm other]

theorem exactOfVisible (once : duplicatedRowLabels body = []) (plain : ¬ Separated evidence)
    (member : row ∈ criterionRows body) (label : row.label = .Evidence)
    (visible : behindComment body row = false) :
    StampExact body evidence ↔ RowStands body evidence row := by
  have applied := replacePresent once member (evidenceFieldValue evidence)
  rw [label] at applied
  obtain ⟨reads, others⟩ := splicedReadsEmptied plain member label visible
  have same : SameOthers body (spliceRow body row (evidenceFieldValue evidence)) ↔
      SameOthers body (emptied body row) := by
    constructor
    · intro same field other
      rw [← others field other]
      exact same field other
    · intro same field other
      rw [others field other]
      exact same field other
  rw [exactOfAnswered once applied, RowStands, visible]
  simp only [reads, same, Bool.false_eq_true, if_false]

/-- A row behind an open comment is answered only where the body quotes the record. -/
theorem exactOfHidden (once : duplicatedRowLabels body = []) (plain : ¬ Separated evidence)
    (member : row ∈ criterionRows body) (label : row.label = .Evidence)
    (hidden : behindComment body row) (unquoted : ¬ Quoted body evidence row) :
    StampExact body evidence ↔ ¬ Closed body := by
  have applied := replacePresent once member (evidenceFieldValue evidence)
  rw [label] at applied
  rw [exactOfAnswered once applied, if_neg]
  intro reads
  obtain ⟨span⟩ := rowSpan member
  have cover := behindCommentSpan span
  rw [hidden] at cover
  have found : (.Evidence, record evidence) ∈
      (reading {} (contents (spliceRow body row (evidenceFieldValue evidence)))).2 :=
    memberOfBodies (by rw [reads]; simp)
  rw [contentsSpliced plain span label, reading, seenAppend, cover] at found
  rcases gatherMember found with before | behind
  · exact soleSpan once span (by rw [label]; exact before)
  · obtain ⟨cover, shown⟩ := hiddenStamp plain behind
    rw [Shows, readingBlank] at shown
    refine unquoted ⟨cover, ?_⟩
    rw [contentsBack span]
    rcases shown with lead | row
    · left
      rw [← lead, ← stripJoined]
      rfl
    · exact Or.inr row

end Present

/-! The stamp put behind a body that has no Evidence row. -/
section Absent

variable {body : Text} {evidence : CriterionEvidence}

/-- The body's lines without the empty ones behind them, which hide and show nothing. -/
def coreLines (body : Text) : List Text := contents (rstripNewlines body)

theorem coreReading (body : Text) :
    (reading {} (contents body)).2 = (reading {} (coreLines body)).2 ∧
      (Closed body ↔ coverAfter {} (coreLines body) = {}) := by
  obtain ⟨extra, lines⟩ := contentsRstripped body
  rw [closedCover, lines, readingEmpty, coverAfterAppend, (seenEmpty _ extra).2]
  exact ⟨rfl, Iff.rfl⟩

theorem contentsAppended (plain : ¬ Separated evidence) (body : Text) :
    ∃ extra, contents (appendField body .Evidence (evidenceFieldValue evidence)) =
      (coreLines body ++ List.replicate extra []) ++ stampLines evidence := by
  obtain ⟨extra, lines⟩ := contentsNewlines (rstripNewlines body) 2
  have text : appendField body .Evidence (evidenceFieldValue evidence) =
      ((rstripNewlines body ++ ['\n']) ++ ['\n']) ++
        ((stampLines evidence).flatMap (· ++ ['\n']) ++ []) := by
    rw [← stampText, appendField]
    simp
  have front : contents ((rstripNewlines body ++ ['\n']) ++ ['\n']) =
      coreLines body ++ List.replicate extra [] := by
    rw [coreLines, ← lines]
    simp [List.replicate_succ]
  refine ⟨extra, ?_⟩
  rw [text, contentsAppend (endsNewline _ _), contentsLines (stampUnbroken plain), front]
  simp [contents, splitKeep]

theorem appendedReads (plain : ¬ Separated evidence) (closed : Closed body) :
    (reading {} (contents (appendField body .Evidence (evidenceFieldValue evidence)))).2 =
      (reading {} (contents body)).2 ++ [(.Evidence, record evidence)] := by
  obtain ⟨extra, lines⟩ := contentsAppended plain body
  obtain ⟨rows, core⟩ := coreReading body
  have cover : coverAfter {} (coreLines body ++ List.replicate extra []) = {} := by
    rw [coverAfterAppend, (seenEmpty _ extra).2]
    exact core.mp closed
  have stamp := (readingStamp evidence []).1
  have around := recordAround evidence [' ', '\n'] (by decide) []
  have joined : joinLines ([' '] :: ((stampLines evidence).tail ++ [])) =
      [' ', '\n'] ++ (record evidence ++ []) := by
    simp [joinLines, stampLines, recordLines]
  have single : reading {} [] = ([], []) := rfl
  rw [single, joined, around, List.append_nil] at stamp
  rw [lines, readingAppend {} _ (by rw [cover, stamp]), cover, stamp, rows, readingEmpty]
  simp

/-- Behind an open fence or comment the appended stamp is not read back. -/
theorem appendedUnread (plain : ¬ Separated evidence)
    (absent : ∀ row ∈ criterionRows body, row.label ≠ .Evidence) (notClosed : ¬ Closed body) :
    criterionFieldBodies (appendField body .Evidence (evidenceFieldValue evidence)) .Evidence ≠
      [record evidence] := by
  intro reads
  obtain ⟨extra, lines⟩ := contentsAppended plain body
  obtain ⟨rows, core⟩ := coreReading body
  have found : (.Evidence, record evidence) ∈
      (reading {} (contents (appendField body .Evidence (evidenceFieldValue evidence)))).2 :=
    memberOfBodies (by rw [reads]; simp)
  rw [lines, reading, seenAppend, coverAfterAppend, (seenEmpty _ extra).2] at found
  rcases gatherMember found with before | behind
  · have label := before
    rw [← gatherLabels] at label
    obtain ⟨row, inside, same⟩ := List.mem_map.mp label
    have kept : row ∈ (reading {} (contents body)).2 := by
      rw [rows, ← readingEmpty {} (coreLines body) extra]
      exact inside
    rw [← rowsReading] at kept
    obtain ⟨original, member, rfl⟩ := List.mem_map.mp kept
    exact absent original member same
  · generalize cover : coverAfter {} (coreLines body) = state at behind core
    obtain ⟨_ | fence, comment⟩ := state
    · cases comment with
      | false => exact notClosed (core.mpr rfl)
      | true =>
        rw [← List.append_nil (stampLines evidence)] at behind
        obtain ⟨_, shown⟩ := hiddenStamp plain behind
        rcases shown with lead | row
        · exact absurd lead (by simp [reading, seen, gather, joinLines, strip, record, openFence])
        · exact absurd row (by simp [reading, seen, gather])
    · have none' := readingStampFenced evidence ⟨some fence, comment⟩ rfl
      rw [reading] at none'
      rw [none'] at behind
      cases behind

theorem exactOfAbsent (once : duplicatedRowLabels body = []) (plain : ¬ Separated evidence)
    (absent : ∀ row ∈ criterionRows body, row.label ≠ .Evidence) : StampExact body evidence := by
  rw [exactOfAnswered once (replaceAbsent once absent (evidenceFieldValue evidence))]
  by_cases closed : Closed body
  · have rows := appendedReads plain closed
    have none' : criterionFieldBodies body .Evidence = [] := by
      rw [criterionFieldBodies, List.map_eq_nil_iff, List.filter_eq_nil_iff]
      simpa using absent
    rw [fieldBodiesReading] at none'
    have reads : criterionFieldBodies (appendField body .Evidence (evidenceFieldValue evidence))
        .Evidence = [record evidence] := by
      rw [fieldBodiesReading, rows, List.filter_append, List.map_append, none']
      simp
    rw [if_pos reads]
    intro field other
    rw [fieldBodiesReading, fieldBodiesReading, rows]
    simp [Ne.symm other]
  · rw [if_neg (appendedUnread plain absent closed)]
    exact closed

end Absent

theorem evidenceRow (body : Text) : (∀ row ∈ criterionRows body, row.label ≠ .Evidence) ∨
    ∃ row ∈ criterionRows body, row.label = .Evidence := by
  by_cases present : ∃ row ∈ criterionRows body, row.label = .Evidence
  · exact Or.inr present
  · exact Or.inl fun row member label => present ⟨row, member, label⟩

theorem exactOfSeparated {body : Text} {evidence : CriterionEvidence}
    (once : duplicatedRowLabels body = []) (separated : Separated evidence) :
    StampExact body evidence ↔ ¬ Closed body := by
  have unread := separatedUnread separated
  rcases evidenceRow body with absent | ⟨row, member, label⟩
  · rw [exactOfAnswered once (replaceAbsent once absent (evidenceFieldValue evidence)),
      if_neg (unread _)]
  · have applied := replacePresent once member (evidenceFieldValue evidence)
    rw [label] at applied
    rw [exactOfAnswered once applied, if_neg (unread _)]

theorem exactOfPlain {body : Text} {evidence : CriterionEvidence}
    (once : duplicatedRowLabels body = []) (plain : ¬ Separated evidence) {row : CriterionRow}
    (member : row ∈ criterionRows body) (label : row.label = .Evidence) :
    (RowStands body evidence row → StampExact body evidence) ∧
      ((behindComment body row → ¬ Quoted body evidence row) →
        StampExact body evidence → RowStands body evidence row) := by
  cases hidden : behindComment body row with
  | false =>
    have same := exactOfVisible once plain member label hidden
    exact ⟨same.mpr, fun _ => same.mp⟩
  | true =>
    rw [RowStands, if_pos hidden]
    refine ⟨?_, ?_⟩
    · intro stands
      exact (exactOfHidden once plain member label hidden stands.2).mpr stands.1
    · intro unquoted exact'
      have quoted := unquoted rfl
      exact ⟨(exactOfHidden once plain member label hidden quoted).mp exact', quoted⟩

/-- Applying an Evidence value answers it exactly, or refuses, where the stamp stands; and it
stands wherever that is so, unless the body quotes the record behind an open comment. -/
theorem stampExactIff (body : Text) (evidence : CriterionEvidence) :
    (StampStands body evidence → StampExact body evidence) ∧
      ((∀ row ∈ criterionRows body, row.label = .Evidence → behindComment body row →
          ¬ Quoted body evidence row) →
        StampExact body evidence → StampStands body evidence) := by
  by_cases once : duplicatedRowLabels body = []
  · by_cases separated : Separated evidence
    · have same := exactOfSeparated once separated
      refine ⟨?_, fun _ exact' => Or.inr (Or.inl ⟨separated, same.mp exact'⟩)⟩
      intro stands
      rcases stands with twice | ⟨_, notClosed⟩ | ⟨plain, _⟩
      · exact absurd once twice
      · exact same.mpr notClosed
      · exact absurd separated plain
    · refine ⟨?_, ?_⟩
      · intro stands
        rcases stands with twice | ⟨raw, _⟩ | ⟨_, rows⟩
        · exact absurd once twice
        · exact absurd raw separated
        · rcases evidenceRow body with absent | ⟨row, member, label⟩
          · exact exactOfAbsent once separated absent
          · exact (exactOfPlain once separated member label).1 (rows row member label)
      · intro unquoted exact'
        refine Or.inr (Or.inr ⟨separated, ?_⟩)
        intro row member label
        exact (exactOfPlain once separated member label).2 (unquoted row member label) exact'
  · exact ⟨fun _ => exactOfDuplicated once evidence, fun _ _ => Or.inl once⟩

/-- What is returned reads as the record. -/
theorem appliedReads {body stamped : Text} {evidence : CriterionEvidence}
    (applied : applyEvidence body evidence = .ok stamped) :
    criterionFieldBodies stamped .Evidence = [record evidence] := by
  have answer : ∀ result, applyEvidence body evidence =
      answered .Evidence (evidenceFieldValue evidence) result →
        criterionFieldBodies stamped .Evidence = [record evidence] := by
    intro result same
    rw [applied, answered, stripValue] at same
    split at same
    · next reads => cases same; exact reads
    · cases same
  by_cases once : duplicatedRowLabels body = []
  · rcases evidenceRow body with absent | ⟨row, member, label⟩
    · exact answer _ (replaceAbsent once absent _)
    · have present := replacePresent once member (evidenceFieldValue evidence)
      rw [label] at present
      exact answer _ present
  · rw [applyEvidence, replaceAmbiguous once] at applied
    cases applied

theorem appliedPresent {body stamped : Text} {evidence : CriterionEvidence} {row : CriterionRow}
    (member : row ∈ criterionRows body) (label : row.label = .Evidence)
    (applied : applyEvidence body evidence = .ok stamped) :
    stamped = spliceRow body row (evidenceFieldValue evidence) := by
  by_cases once : duplicatedRowLabels body = []
  · have present := replacePresent once member (evidenceFieldValue evidence)
    rw [label, ← applyEvidence, applied, answered] at present
    split at present
    · cases present; rfl
    · cases present
  · rw [applyEvidence, replaceAmbiguous once] at applied
    cases applied

/-- The body carries an Evidence row that begins outside every comment, and the text behind it,
read by itself, begins with a row. -/
def RowSetOff (body : Text) : Prop :=
  ∃ row ∈ criterionRows body, row.label = .Evidence ∧ behindComment body row = false ∧
    (reading {} (contents (body.drop row.ends))).1 = []

theorem replacedByItself (front middle back : Text) :
    (front ++ (middle ++ back)).take front.length ++
      (middle ++ (front ++ (middle ++ back)).drop (front ++ middle).length) =
      front ++ (middle ++ back) := by
  have rest : (front ++ (middle ++ back)).drop (front ++ middle).length = back := by
    rw [← List.append_assoc, List.drop_left]
  rw [List.take_left, rest]

/-- Stamping once more a body whose row is set off changes nothing in it. -/
theorem restamped {body stamped again : Text} {evidence : CriterionEvidence}
    (setOff : RowSetOff body) (applied : applyEvidence body evidence = .ok stamped)
    (applied' : applyEvidence stamped evidence = .ok again) : again = stamped := by
  obtain ⟨row, member, label, visible, follows⟩ := setOff
  obtain ⟨span⟩ := rowSpan member
  have plain : ¬ Separated evidence :=
    fun separated => separatedUnread separated stamped (appliedReads applied)
  have pieces := appliedPresent member label applied
  rw [spliceBlock label] at pieces
  have lines : contents (stampBlock evidence) = stampLines evidence ++ [[]] := by
    have block := contentsBlock plain []
    rwa [List.append_nil] at block
  have cover : coverAfter {} (contents (body.take row.begins)) = {} := by
    rw [contentsFront span, behindCommentSpan span, visible]
  obtain ⟨reads, kept⟩ := readingStamp evidence [[]]
  have blank : coverAfter {} [[]] = {} := by decide
  have frontEnds : Ends (body.take row.begins) (stampBlock evidence ++ body.drop row.ends) := by
    rw [spanFront span]
    exact endsOfCut span.whole (List.cons_ne_nil _ _) (blockStart evidence _)
  obtain ⟨text, found⟩ := rowOfPieces frontEnds (endsNewline _ _)
    (by rw [cover]; exact lines ▸ reads)
    (by
      have all : coverAfter {} (contents (body.take row.begins) ++ contents (stampBlock evidence)) =
          {} := by
        rw [lines, coverAfterAppend, cover, coverAfterAppend, kept, blank]
      rw [all]
      exact follows)
  have whole : body.take row.begins ++ (stampBlock evidence ++ body.drop row.ends) = stamped :=
    pieces.symm
  rw [whole] at found
  rw [appliedPresent found rfl applied', spliceBlock rfl, ← whole]
  exact replacedByItself _ _ _

def shaOfAs : Sha := ⟨"aaaaaaaaaaaaaaaaaaaaaaaaaaaaaaaaaaaaaaaa", by decide⟩

def plainPointer : CriterionEvidence := ⟨shaOfAs, ⟨"tests/test_x.py::test_y", by decide⟩⟩

def separatedPointer : CriterionEvidence := ⟨shaOfAs, ⟨"a\u2028b", by decide⟩⟩

def cleanBody : Text := "**Check:** c\n**Evidence:** none\n**Class:** cheap\n".toList

def commentedBody : Text := "**Evidence:** old <!--\n**Do:** x --> **Check:** c\n".toList

instance (body : Text) : Decidable (Closed body) := inferInstanceAs (Decidable (_ = _))

instance (evidence : CriterionEvidence) : Decidable (Separated evidence) :=
  inferInstanceAs (Decidable (∃ c ∈ evidence.test.1.toList, separator c))

theorem sameOthersIff {body other : Text} :
    SameOthers body other ↔ ∀ field ∈ [CriterionField.Check, .Do, .Class],
      criterionFieldBodies other field = criterionFieldBodies body field := by
  constructor
  · intro same field member
    exact same field (by rintro rfl; simp at member)
  · intro same field other
    exact same field (by cases field <;> simp_all)

instance (body other : Text) : Decidable (SameOthers body other) :=
  decidable_of_iff _ sameOthersIff.symm

theorem cleanBodyStamped : StampStands cleanBody plainPointer ∧ StampExact cleanBody plainPointer := by
  have rows : ∀ row ∈ criterionRows cleanBody, row.label = .Evidence →
      behindComment cleanBody row = false ∧
        criterionFieldBodies (emptied cleanBody row) .Evidence = [[]] ∧
        SameOthers cleanBody (emptied cleanBody row) := by decide
  have stands : StampStands cleanBody plainPointer := by
    refine Or.inr (Or.inr ⟨by decide, ?_⟩)
    intro row member label
    obtain ⟨visible, empty, same⟩ := rows row member label
    rw [RowStands, visible, if_neg (by simp), if_pos empty]
    exact same
  exact ⟨stands, (stampExactIff cleanBody plainPointer).1 stands⟩

/-- A clean body is refused a pointer with a line separator in it; and a comment that ends behind
the Evidence row takes the body's Check with it. -/
theorem separatorRefusedCheckLost :
    ¬ StampExact cleanBody separatedPointer ∧ ¬ StampExact commentedBody plainPointer := by
  have refused : applyEvidence cleanBody separatedPointer = .error fieldsNotDistinct := by decide
  have lost : ((applyEvidence commentedBody plainPointer).toOption.map fun stamped =>
      decide (SameOthers commentedBody stamped)) = some false := by decide
  refine ⟨?_, ?_⟩
  · intro exact'
    obtain ⟨stamped, returned⟩ := exact'.2 (by decide) (by decide)
    rw [refused] at returned
    cases returned
  · intro exact'
    cases returned : applyEvidence commentedBody plainPointer with
    | error refusal => rw [returned] at lost; cases lost
    | ok stamped =>
      rw [returned] at lost
      have same := (exact'.1 stamped returned).2
      simp [Except.toOption, same] at lost

end Kodezart.EvidenceStamp
