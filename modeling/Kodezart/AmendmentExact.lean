import Kodezart.AmendmentReadings

/-! The whole edit: what every check of a read-back rules out, and when an edit that returns
has kept what it is not addressed to. -/
namespace Kodezart.FieldAmendment
open TextLines FireSpec

section ReadBack

theorem bodiesMember {text value : Text} {field : CriterionField} :
    value ∈ criterionFieldBodies text field ↔ (field, value) ∈ (reading {} (contents text)).2 := by
  rw [fieldBodiesReading, List.mem_map]
  constructor
  · intro held
    obtain ⟨row, member, rfl⟩ := held
    obtain ⟨inside, same⟩ := List.mem_filter.mp member
    rw [← of_decide_eq_true same]
    exact inside
  · intro member
    exact ⟨(field, value), List.mem_filter.mpr ⟨member, decide_eq_true rfl⟩, rfl⟩

/-- A replacement that leaves a fence open takes the label behind it for its own text. -/
theorem fenceSwallows {field : CriterionField} {text : Text} {front lines more : List Text} {first : Text}
    (reads : ReadsAs field text lines) (clean : coverAfter {} front = {}) (fenced : coverAfter {} lines ≠ {})
    (star : '*' ∈ first) :
    ∃ other, (field, other) ∈ (reading {} (front ++ (lines ++ first :: more))).2 ∧ other ≠ text := by
  obtain ⟨line, tail, fence, rows, rowless, same, cover⟩ := reads
  cases fence with
  | none => exact absurd cover fenced
  | some fence =>
    have raw : (readLine ⟨some fence, false⟩ first).2 = (none, first) := readLineFenced rfl first
    have behind : seen {} (front ++ (lines ++ first :: more)) = seen {} front ++ (some field, line) ::
        (tail ++ (none, first) :: seen (readLine ⟨some fence, false⟩ first).1 more) := by
      rw [seenAppend, clean, seenAppend, rows, cover, seen, raw]
      rfl
    generalize seen (readLine ⟨some fence, false⟩ first).1 more = later at behind
    refine ⟨strip (joinLines (line :: ((gather tail).1 ++ first :: (gather later).1))), ?_, ?_⟩
    · rw [reading, behind, gatherAppend _ rfl, gather, gatherRowless _ rowless]
      exact List.mem_append_right _ (by simp [gather])
    · intro equal
      have inks := congrArg ink (equal.trans same.symm)
      rw [inkStrip, inkStrip, inkJoined, inkJoined, List.flatten_cons, List.flatten_cons, List.flatten_append,
        List.flatten_cons, inkAppend, inkAppend, inkAppend, inkAppend] at inks
      have visible := inkStar star
      omega

/-- Behind an open fence or comment, no row that an appended field's lines show holds all of its text. -/
theorem hiddenInk {cover : Cover} (covered : cover ≠ {}) {field : CriterionField} {replacement : Text}
    {row : CriterionField × Text} (member : row ∈ (reading cover (contents (fieldText field replacement))).2) :
    ink row.2 < ink replacement := by
  obtain ⟨first, rest, lines, part⟩ := contentsFieldText field replacement
  have whole := inkSublist part
  rw [inkAppend] at whole
  rw [reading, lines] at member
  obtain ⟨front, line, back, rows, text⟩ := gatherRow member
  rw [text]
  rw [seen] at rows
  cases front with
  | nil =>
    rw [List.nil_append, List.cons.injEq] at rows
    obtain ⟨here, rfl⟩ := rows
    have label : (readLine cover (rowLabel field ++ ' ' :: first)).2.1 = some row.1 := by rw [here]
    have open' : cover = ⟨none, true⟩ := by
      have outside := rowOutsideFence label
      cases comment : cover.comment with
      | false => rw [comment] at outside; exact absurd outside covered
      | true => rw [comment] at outside; exact outside
    subst open'
    have shown := readLineInk label
    rw [here, withoutCommentsHides (labelPlain field).2.1] at shown
    dsimp only at shown
    have visible := inkSublist (withoutCommentsSublist true (' ' :: first))
    have space : ink (' ' :: first) = ink first := by simp [ink, show isSpace ' ' = true by decide]
    have own := rowTextInk line (seen (readLine ⟨none, true⟩ (rowLabel field ++ ' ' :: first)).1 rest)
    have later := inkSublist (seenSublist (readLine ⟨none, true⟩ (rowLabel field ++ ' ' :: first)).1 rest)
    omega
  | cons _ front =>
    rw [List.cons_append, List.cons.injEq] at rows
    have less := rowInk rows.2
    omega

theorem contentsAppended (text : Text) (field : CriterionField) (replacement : Text) : ∃ before after,
    contents (appendField text field replacement) = (contents (rstripNewlines text) ++ List.replicate before []) ++
      (contents (fieldText field replacement) ++ List.replicate after []) := by
  obtain ⟨before, front⟩ := contentsNewlines (rstripNewlines text) 2
  obtain ⟨after, back⟩ := contentsNewlines (fieldText field replacement) 1
  refine ⟨before, after, ?_⟩
  have shape : appendField text field replacement = ((rstripNewlines text ++ ['\n']) ++ ['\n']) ++
      (fieldText field replacement ++ List.replicate 1 '\n') := by
    simp [appendField]
  rw [shape, contentsAppend (endsNewline _ _), back, ← front]
  simp [List.replicate_succ]

/-- An absent field that reads back is one row more, and no other row is another's. -/
theorem appendedRows {text : Text} {field : CriterionField} {replacement : Text}
    (reads : ReadsAs field (strip replacement) (contents (fieldText field replacement)))
    (absent : criterionFieldBodies text field = [])
    (back : criterionFieldBodies (appendField text field replacement) field = [strip replacement]) :
    (reading {} (contents (appendField text field replacement))).2 =
      (reading {} (contents text)).2 ++ [(field, strip replacement)] := by
  obtain ⟨before, after, lines⟩ := contentsAppended text field replacement
  obtain ⟨extra, trimmed⟩ := contentsRstripped text
  have core : (reading {} (contents text)).2 = (reading {} (contents (rstripNewlines text))).2 := by
    rw [trimmed, readingEmpty]
  have cover : coverAfter {} (contents (rstripNewlines text) ++ List.replicate before []) =
      coverAfter {} (contents (rstripNewlines text)) := by
    rw [coverAfterAppend, (seenEmpty _ before).2]
  generalize state : coverAfter {} (contents (rstripNewlines text)) = behind at cover
  have clean : behind = {} := by
    by_contra covered
    have found : (field, strip replacement) ∈ (reading {} (contents (appendField text field replacement))).2 :=
      bodiesMember.mp (by rw [back]; simp)
    rw [lines, reading, seenAppend, cover] at found
    rcases gatherMember found with early | late
    · rw [← gatherLabels] at early
      obtain ⟨row, member, same⟩ := List.mem_map.mp early
      have held : (row.1, row.2) ∈ (reading {} (contents text)).2 := by
        rw [core, ← readingEmpty {} (contents (rstripNewlines text)) before]
        exact member
      rw [show row.1 = field from same] at held
      rw [← bodiesMember, absent] at held
      cases held
    · have shown : (field, strip replacement) ∈ (reading behind (contents (fieldText field replacement))).2 := by
        rw [← readingEmpty behind _ after]
        exact late
      have less := hiddenInk covered shown
      rw [inkStrip] at less
      exact lt_irrefl _ less
  obtain ⟨line, tail, fence, rows, rowless, same, -⟩ := readsAsBlank reads after
  have own : reading {} (contents (fieldText field replacement) ++ List.replicate after []) =
      ([], [(field, strip replacement)]) := by
    rw [reading, rows, gather, rowless, same]
  rw [lines, readingAppend {} _ (by rw [cover, clean, own]), cover, clean, own, readingEmpty, core]

/-- What stands in a text up to a line that is not empty stands in it with a field appended. -/
theorem appendedPrefix {front : List Text} {last : Text} (visible : last ≠ []) {text : Text}
    (stands : front ++ [last] <+: contents text) (field : CriterionField) (replacement : Text) :
    front ++ [last] <+: contents (appendField text field replacement) := by
  obtain ⟨before, after, lines⟩ := contentsAppended text field replacement
  obtain ⟨extra, trimmed⟩ := contentsRstripped text
  rw [trimmed] at stands
  have inside : front ++ [last] <+: contents (rstripNewlines text) := by
    refine List.prefix_of_prefix_length_le stands (List.prefix_append _ _) ?_
    by_contra long
    have at_last := List.prefix_iff_getElem?.mp stands front.length (by simp)
    rw [List.length_append, List.length_singleton] at long
    rw [List.getElem?_append_right (by omega), List.getElem_concat_length rfl] at at_last
    obtain ⟨_, same⟩ := List.getElem?_eq_some_iff.mp at_last
    rw [List.getElem_replicate] at same
    exact visible same.symm
  rw [lines, List.append_assoc]
  exact inside.trans (List.prefix_append _ _)

end ReadBack

section Edit

/-- A field absent from the names goes behind the text; any other leaves it as it is. -/
def grow (names : List CriterionField) (text : Text) (entry : CriterionField × Text) : Text :=
  if entry.1 ∈ names then text else appendField text entry.1 entry.2

theorem checksPassed {names : List CriterionField} {replacements : Replacements} {init result : Text}
    (ok : replacements.foldlM (fun result (field, replacement) =>
      let result := if field ∈ names then result else appendField result field replacement
      if criterionFieldBodies result field = [strip replacement] then Except.ok result
      else Except.error fieldsNotDistinct) init = Except.ok result) :
    result = replacements.foldl (grow names) init ∧
      ∀ done entry rest, replacements = done ++ entry :: rest →
        criterionFieldBodies ((done ++ [entry]).foldl (grow names) init) entry.1 = [strip entry.2] := by
  induction replacements generalizing init with
  | nil =>
    cases ok
    exact ⟨rfl, by simp⟩
  | cons first more ih =>
    rw [List.foldlM_cons] at ok
    change (if criterionFieldBodies (grow names init first) first.1 = [strip first.2] then
      Except.ok (grow names init first) else Except.error fieldsNotDistinct) >>= _ = _ at ok
    split at ok
    · rename_i reads
      obtain ⟨same, later⟩ := ih ok
      refine ⟨same, fun done entry rest split => ?_⟩
      cases done with
      | nil =>
        obtain ⟨rfl, -⟩ := List.cons.inj split
        exact reads
      | cons other done =>
        obtain ⟨rfl, behind⟩ := List.cons.inj split
        exact later done entry rest behind
    · cases ok

theorem grownPrefix (names : List CriterionField) {front : List Text} {last : Text} (visible : last ≠ []) {text : Text}
    (stands : front ++ [last] <+: contents text) (done : Replacements) :
    front ++ [last] <+: contents (done.foldl (grow names) text) := by
  induction done using List.reverseRecOn with
  | nil => exact stands
  | append_singleton done entry ih =>
    rw [List.foldl_append, List.foldl_cons, List.foldl_nil, grow]
    split
    · exact ih
    · exact appendedPrefix visible ih _ _

variable {body result : Text} {replacements : Replacements}

def nameOf (body : Text) : List CriterionField := (criterionRows body).map (·.label)

def splicedText (body : Text) (replacements : Replacements) : Text :=
  written body (amendedText replacements) (criterionRows body)

/-- The edit that returns: no label twice, the addressed rows spliced, and every check passed. -/
theorem replaced (once : (replacements.map (·.1)).Nodup) (ok : replaceCriterionFields body replacements = .ok result) :
    result = replacements.foldl (grow (nameOf body)) (splicedText body replacements) ∧
      ∀ done entry rest, replacements = done ++ entry :: rest → criterionFieldBodies
        ((done ++ [entry]).foldl (grow (nameOf body)) (splicedText body replacements)) entry.1 = [strip entry.2] := by
  unfold replaceCriterionFields at ok
  dsimp only at ok
  split at ok
  · cases ok
  · rw [spliced once] at ok
    exact checksPassed ok

theorem replacedFrame (once : (replacements.map (·.1)).Nodup) (ok : replaceCriterionFields body replacements = .ok result) :
    result = amended replacements body := by
  rw [(replaced once ok).1, amended, absentFields, List.foldl_filter]
  congr 1
  funext text entry
  rw [grow, nameOf]
  by_cases present : entry.1 ∈ (criterionRows body).map (·.label) <;> simp [present]

theorem wholeLines {fill : CriterionField → Option Text} (filled : Filled fill) (body : Text) :
    nameOf body = (chunksOf body).map (·.1) ∧ contents (written body fill (criterionRows body)) =
      (leadOf body).map content ++ (chunksOf body).flatMap (chunkLines fill) := by
  obtain ⟨early, late, whole, labels, lines⟩ := @writtenLines body fill filled _ _ (List.append_nil (criterionRows body)).symm
  have sizes := congrArg List.length (bodyPlaces body)
  have same := congrArg List.length labels
  rw [placedLength, List.length_map, whole, List.length_append] at sizes
  rw [List.length_map, List.length_map] at same
  obtain rfl : late = [] := List.length_eq_zero_iff.mp (by omega)
  rw [List.append_nil] at whole
  exact ⟨by rw [whole]; exact labels, by rw [whole]; exact lines⟩

theorem lookupMember {field : CriterionField} {replacement : Text} (found : replacements.lookup field = some replacement) :
    (field, replacement) ∈ replacements := by
  obtain ⟨front, back, rfl, -⟩ := List.lookup_eq_some_iff.mp found
  simp

theorem lookupKey {field : CriterionField} : (replacements.lookup field).isSome ↔ field ∈ replacements.map (·.1) := by
  rw [Option.isSome_iff_ne_none, ne_eq, List.lookup_eq_none_iff]
  simp

theorem chunkStarLine {fill : CriterionField → Option Text} (filled : Filled fill) {chunk : Chunk} (starred : Starred chunk) :
    ∃ first rest, chunkLines fill chunk = first :: rest ∧ '*' ∈ first := by
  rw [chunkLines]
  cases found : fill chunk.1 with
  | none =>
    obtain ⟨raw, more, own, star⟩ := starred
    exact ⟨content raw, more.map content, by rw [own]; rfl, star⟩
  | some text =>
    obtain ⟨⟨rest, rfl⟩, -⟩ := filled _ _ found
    have unbroken : Unbroken ['*'] := by unfold Unbroken; decide
    obtain ⟨first, more, lines, -⟩ := contentsStart unbroken (by simp) rest
    exact ⟨'*' :: first, more, lines, by simp⟩

/-- A legible edit that returns is a swap of the addressed chunks for their bare labels. -/
theorem editSwap (once : (replacements.map (·.1)).Nodup) (ok : replaceCriterionFields body replacements = .ok result)
    (legible : Legible replacements body) :
    Swap ((leadOf body).map content) (chunksOf body) (fun chunk => (replacements.lookup chunk.1).isSome)
      (chunkLines (amendedText replacements)) (chunkLines (emptiedText replacements)) := by
  have reads : ∀ chunk replacement, replacements.lookup chunk.1 = some replacement →
      ReadsAs chunk.1 (strip replacement) (chunkLines (amendedText replacements) chunk) := by
    intro chunk replacement found
    obtain ⟨alone, closed⟩ := legible.alone _ _ (lookupMember found)
    rw [chunkLines, amendedText, found]
    exact amendedReads alone closed
  refine ⟨?_, ?_, ?_, ?_, ?_⟩
  · intro chunk _ other
    have absent : replacements.lookup chunk.1 = none := Option.not_isSome_iff_eq_none.mp other
    rw [chunkLines, chunkLines, amendedText, emptiedText, absent]
    rfl
  · intro chunk _ own
    obtain ⟨replacement, found⟩ := Option.isSome_iff_exists.mp own
    rw [chunkLines, emptiedText, found]
    exact contentsLabel chunk.1
  · intro chunk _ own
    obtain ⟨replacement, found⟩ := Option.isSome_iff_exists.mp own
    exact ⟨_, reads chunk replacement found⟩
  · intro early chunk late split own
    have labels := (wholeLines (emptiedFilled replacements) body).1
    rw [nameOf, split, List.map_append, List.map_cons] at labels
    obtain ⟨front, behind, rows, before, after⟩ := List.map_eq_append_iff.mp labels
    obtain ⟨row, back, rfl, label, -⟩ := List.map_eq_cons_iff.mp after
    have clean := legible.begins front row back rows (label ▸ lookupKey.mp own)
    obtain ⟨early', late', split', labels', lines⟩ := @writtenLines body _ (emptiedFilled replacements) _ _ rows
    obtain ⟨cover, -⟩ := walkCover (splitKeep (written body (emptiedText replacements) front)) {}
    have same : early' = early := by
      have length := congrArg List.length (labels'.symm.trans before)
      rw [List.length_map, List.length_map] at length
      exact (List.append_inj (split'.symm.trans split) length).1
    rw [← same, ← lines]
    exact cover.symm.trans clean
  · intro early chunk late split more own clean
    by_contra fenced
    obtain ⟨replacement, found⟩ := Option.isSome_iff_exists.mp own
    obtain ⟨next, late, rfl⟩ := List.exists_cons_of_ne_nil more
    have starred : Starred next := chunksStarred {} (splitKeep body) next (by
      rw [← chunksOf, split]
      simp)
    obtain ⟨first, rest, start, star⟩ := chunkStarLine (amendedFilled replacements) starred
    obtain ⟨labels, lines⟩ := wholeLines (amendedFilled replacements) body
    rw [split] at lines labels
    simp only [List.flatMap_append, List.flatMap_cons, start] at lines
    have stands : ((leadOf body).map content ++ early.flatMap (chunkLines (amendedText replacements)) ++
        chunkLines (amendedText replacements) chunk) ++ [first] <+: contents (splicedText body replacements) := by
      rw [splicedText, lines]
      exact ⟨rest ++ late.flatMap (chunkLines (amendedText replacements)), by simp⟩
    obtain ⟨done, later, whole⟩ := List.append_of_mem (lookupMember found)
    have check := (replaced once ok).2 done _ later whole
    obtain ⟨beyond, grown⟩ := grownPrefix (nameOf body) (List.ne_nil_of_mem star) stands
      (done ++ [(chunk.1, replacement)])
    obtain ⟨other, member, differs⟩ := @fenceSwallows chunk.1 (strip replacement) _ _ beyond first
      (reads chunk replacement found) clean fenced star
    have held : other ∈ criterionFieldBodies ((done ++ [(chunk.1, replacement)]).foldl (grow (nameOf body))
        (splicedText body replacements)) chunk.1 := by
      rw [bodiesMember, ← grown]
      simpa using member
    rw [check] at held
    exact differs (List.mem_singleton.mp held)

def textRows (text : Text) : List (CriterionField × Text) := (reading {} (contents text)).2

theorem keptAppend (keep : CriterionField → Bool) (rows more : List (CriterionField × Text)) :
    keptRows keep (rows ++ more) = keptRows keep rows ++ keptRows keep more :=
  List.filter_append ..

theorem bodiesRows (text : Text) (field : CriterionField) :
    criterionFieldBodies text field = (keptRows (fun label => label = field) (textRows text)).map (·.2) :=
  fieldBodiesReading text field

/-- The spliced body and the emptied one show the same rows of every label no addressed row has. -/
theorem splicedRows (once : (replacements.map (·.1)).Nodup) (ok : replaceCriterionFields body replacements = .ok result)
    (legible : Legible replacements body) {keep : CriterionField → Bool}
    (others : ∀ field ∈ nameOf body, field ∈ replacements.map (·.1) → keep field = false) :
    keptRows keep (textRows (splicedText body replacements)) = keptRows keep (textRows (emptied replacements body)) := by
  obtain ⟨labels, full⟩ := wholeLines (amendedFilled replacements) body
  have bare := (wholeLines (emptiedFilled replacements) body).2
  rw [textRows, textRows, splicedText, full, emptied, bare]
  refine swapReads (editSwap once ok legible) fun chunk member own => ?_
  exact others chunk.1 (by rw [labels]; exact List.mem_map_of_mem member) (lookupKey.mp own)

/-- Each absent field that is written adds its own row, and nothing else. -/
theorem grownRows (once : (replacements.map (·.1)).Nodup) (ok : replaceCriterionFields body replacements = .ok result)
    (legible : Legible replacements body) (done : Replacements) {rest : Replacements} (split : replacements = done ++ rest) :
    textRows (done.foldl (grow (nameOf body)) (splicedText body replacements)) =
      textRows (splicedText body replacements) ++
        (done.filter (·.1 ∉ nameOf body)).map fun entry => (entry.1, strip entry.2) := by
  induction done using List.reverseRecOn generalizing rest with
  | nil => simp
  | append_singleton done entry ih =>
    rw [List.append_assoc, List.singleton_append] at split
    have before := ih split
    have check := (replaced once ok).2 done entry rest split
    rw [List.foldl_append, List.foldl_cons, List.foldl_nil, grow] at check ⊢
    by_cases present : entry.1 ∈ nameOf body
    · rw [if_pos present, before]
      simp [present]
    · rw [if_neg present] at check ⊢
      have member : entry ∈ replacements := by simp [split]
      obtain ⟨alone, closed⟩ := legible.alone entry.1 entry.2 member
      have fresh : ∀ other ∈ done, other.1 ≠ entry.1 := by
        intro other early same
        rw [split, List.map_append, List.map_cons] at once
        exact (List.nodup_append.mp once).2.2 other.1 (List.mem_map_of_mem early) entry.1 (by simp) same
      have unseen : criterionFieldBodies (emptied replacements body) entry.1 = [] :=
        legible.unseen entry (List.mem_filter.mpr ⟨member, decide_eq_true present⟩)
      have absent : criterionFieldBodies (done.foldl (grow (nameOf body)) (splicedText body replacements)) entry.1 = [] := by
        have others : ∀ field ∈ nameOf body, field ∈ replacements.map (·.1) → decide (field = entry.1) = false := by
          intro field named _
          exact decide_eq_false fun same => present (same ▸ named)
        rw [bodiesRows, List.map_eq_nil_iff, ← splicedRows once ok legible others] at unseen
        rw [bodiesRows, List.map_eq_nil_iff, before, keptRows, List.filter_append]
        rw [keptRows] at unseen
        rw [unseen, List.nil_append, List.filter_eq_nil_iff]
        intro row held
        obtain ⟨other, inside, rfl⟩ := List.mem_map.mp held
        simpa using fresh other (List.mem_filter.mp inside).1
      have grown := appendedRows (aloneReads alone closed) absent check
      rw [textRows, grown]
      rw [textRows] at before
      rw [before]
      simp [present]

/-- Where the replacements are legible, an edit that returns keeps what it is not addressed to
exactly where emptying the addressed rows does. -/
theorem replaceKeptIff (once : (replacements.map (·.1)).Nodup) (ok : replaceCriterionFields body replacements = .ok result)
    (legible : Legible replacements body) : Kept replacements body result ↔
      unaddressed replacements (emptied replacements body) = unaddressed replacements body := by
  obtain ⟨whole, checks⟩ := replaced once ok
  have grown := grownRows once ok legible replacements (List.append_nil replacements).symm
  rw [← whole] at grown
  have others : unaddressed replacements result = unaddressed replacements (emptied replacements body) := by
    have apart : ∀ field ∈ nameOf body, field ∈ replacements.map (·.1) →
        decide (field ∉ replacements.map (·.1)) = false := by
      intro field _ addressed
      simpa using addressed
    have spliced := splicedRows once ok legible apart
    rw [unaddressed, unaddressed, rowsReading, rowsReading]
    change keptRows (fun field => decide (field ∉ replacements.map (·.1))) (textRows result) =
      keptRows (fun field => decide (field ∉ replacements.map (·.1))) (textRows (emptied replacements body))
    have mine : keptRows (fun field => decide (field ∉ replacements.map (·.1)))
        ((replacements.filter (·.1 ∉ nameOf body)).map fun entry => (entry.1, strip entry.2)) = [] := by
      rw [keptRows, List.filter_eq_nil_iff]
      intro row held
      obtain ⟨entry, inside, rfl⟩ := List.mem_map.mp held
      simpa using ⟨entry.2, (List.mem_filter.mp inside).1⟩
    rw [grown, ← spliced, keptAppend, mine, List.append_nil]
  constructor
  · intro kept
    exact others.symm.trans kept.others
  · intro unmoved
    refine ⟨?_, others.trans unmoved, replacedFrame once ok⟩
    intro field replacement member
    obtain ⟨done, rest, split⟩ := List.append_of_mem member
    have check := checks done (field, replacement) rest split
    have shape : replacements = (done ++ [(field, replacement)]) ++ rest := by
      rw [split]
      simp
    have through := grownRows once ok legible (done ++ [(field, replacement)]) shape
    have later : ∀ entry ∈ rest, entry.1 ≠ field := by
      intro entry behind same
      rw [split, List.map_append, List.map_cons, List.nodup_append] at once
      exact (List.nodup_cons.mp once.2.1).1 (same ▸ List.mem_map_of_mem (f := (·.1)) behind)
    have none_later : keptRows (fun label => decide (label = field))
        ((rest.filter (·.1 ∉ nameOf body)).map fun entry => (entry.1, strip entry.2)) = [] := by
      rw [keptRows, List.filter_eq_nil_iff]
      intro row held
      obtain ⟨entry, inside, rfl⟩ := List.mem_map.mp held
      simpa using later entry (List.mem_filter.mp inside).1
    have parts : replacements.filter (·.1 ∉ nameOf body) =
        (done ++ [(field, replacement)]).filter (·.1 ∉ nameOf body) ++ rest.filter (·.1 ∉ nameOf body) := by
      conv_lhs => rw [shape]
      rw [List.filter_append]
    rw [parts, List.map_append, ← List.append_assoc, ← through] at grown
    rw [← check, bodiesRows, bodiesRows, grown, keptAppend, none_later, List.append_nil]

end Edit

/-- `**Check:** z` over a row that opened a comment, and the row behind it. -/
def hiddenLabel (comment : Text) : Text :=
  (rowLabel .Check ++ [' ', 'z'] ++ comment) ++ (rowLabel .Do ++ " <!-- -->".toList ++ rowLabel .Do ++ " w\n".toList)

/-- The comment that hid a label goes with the row that opened it. -/
theorem hiddenLabelShown : ∃ result,
    replaceCriterionFields (hiddenLabel " <!--\n".toList) [(.Check, ['z'])] = .ok result ∧
      ¬ Kept [(.Check, ['z'])] (hiddenLabel " <!--\n".toList) result := by
  refine ⟨hiddenLabel "\n\n".toList, by decide, ?_⟩
  intro kept
  exact absurd kept.others (by decide)

def plainRows (check : Text) : Text := fieldText .Check check ++ fieldText .Do "step\n".toList

theorem plainLegible : Legible [(.Check, "again".toList)] (plainRows "once\n".toList) := by
  refine ⟨?_, ?_, by decide⟩
  · intro field replacement member
    cases List.mem_singleton.mp member
    decide
  · intro front row back rows addressed
    have two : criterionRows (plainRows "once\n".toList) =
        [⟨.Check, 0, 16, "once".toList⟩, ⟨.Do, 16, 29, "step".toList⟩] := by decide
    rw [two] at rows
    match front, rows with
    | [], _ => decide
    | [_], rows =>
      simp only [List.cons_append, List.nil_append, List.cons.injEq] at rows
      obtain ⟨-, rfl, -⟩ := rows
      exact absurd addressed (by decide)
    | _ :: _ :: _, rows => simp at rows

theorem plainRowsKept : Kept [(.Check, "again".toList)] (plainRows "once\n".toList) (plainRows "again\n\n".toList) :=
  (replaceKeptIff (by decide) (by decide) plainLegible).mpr (by decide)

end Kodezart.FieldAmendment
