import Kodezart.FireSpec

/-! The amendment edit over a whole body: what it puts down for the rows it is addressed to, and
what the rows it is not addressed to read as after it. -/
namespace Kodezart.FieldAmendment
open TextLines FireSpec

abbrev Replacements := List (CriterionField × Text)

section Written
variable (replacements : Replacements) (body : Text)

/-- The text before the first row. -/
def headOf : Text := body.take (((criterionRows body).head?.map (·.begins)).getD body.length)

def rowText (row : CriterionRow) : Text := (body.take row.ends).drop row.begins

/-- What the edit puts down for a field it is addressed to. -/
def amendedText (field : CriterionField) : Option Text :=
  (replacements.lookup field).map fun replacement => fieldText field replacement ++ ['\n', '\n']

/-- Such a field's row with nothing in it but its label. -/
def emptiedText (field : CriterionField) : Option Text :=
  (replacements.lookup field).map fun _ => rowLabel field ++ ['\n']

/-- The body up to some of its rows, the rows written over where there is a text for them. -/
def written (fill : CriterionField → Option Text) (rows : List CriterionRow) : Text :=
  headOf body ++ rows.flatMap fun row => (fill row.label).getD (rowText body row)

def absentFields : Replacements := replacements.filter fun entry => entry.1 ∉ (criterionRows body).map (·.label)

/-- The body with its addressed rows substituted, and the absent fields behind it. -/
def amended : Text :=
  (absentFields replacements body).foldl (fun text entry => appendField text entry.1 entry.2)
    (written body (amendedText replacements) (criterionRows body))

def emptied : Text := written body (emptiedText replacements) (criterionRows body)

def unaddressed : List (CriterionField × Text) :=
  (labelled (criterionRows body)).filter fun row => row.1 ∉ replacements.map (·.1)

/-- What the edit owes a body. -/
structure Kept (result : Text) : Prop where
  addressed : ∀ field replacement, (field, replacement) ∈ replacements →
    criterionFieldBodies result field = [strip replacement]
  others : unaddressed replacements result = unaddressed replacements body
  frame : result = amended replacements body

/-- Every replacement standing alone reads back as itself and leaves no comment open; no row it
replaces begins behind a fence or comment once the addressed rows before it are emptied; and the
emptied body shows no row of an absent field. -/
structure Legible : Prop where
  alone : ∀ field replacement, (field, replacement) ∈ replacements →
    labelled (criterionRows (fieldText field replacement)) = [(field, strip replacement)] ∧
      (walkBody (fieldText field replacement)).cover.comment = false
  begins : ∀ front row back, criterionRows body = front ++ row :: back → row.label ∈ replacements.map (·.1) →
    (walkBody (written body (emptiedText replacements) front)).cover = {}
  unseen : ∀ entry ∈ absentFields replacements body,
    criterionFieldBodies (emptied replacements body) entry.1 = []

end Written

abbrev Chunk := CriterionField × List Text

/-- The lines before the first row, and every row's lines with its label. -/
def chunks : Cover → List Text → List Text × List Chunk
  | _, [] => ([], [])
  | cover, raw :: raws =>
    let later := chunks (readLine cover (content raw)).1 raws
    match (readLine cover (content raw)).2.1 with
    | none => (raw :: later.1, later.2)
    | some label => ([], (label, raw :: later.1) :: later.2)

def place (row : CriterionRow) : CriterionField × Nat × Nat := (row.label, row.begins, row.ends)

def placed : Nat → List Chunk → List (CriterionField × Nat × Nat)
  | _, [] => []
  | offset, (label, raws) :: more =>
    (label, offset, offset + raws.flatten.length) :: placed (offset + raws.flatten.length) more

theorem placedLength (offset : Nat) (some_chunks : List Chunk) :
    (placed offset some_chunks).length = some_chunks.length := by
  induction some_chunks generalizing offset with
  | nil => rfl
  | cons chunk more ih => simp [placed, ih]

theorem walkPlaced (raws : List Text) (walk : Walk) :
    ((raws.foldl Walk.line walk).closedAt (walk.offset + raws.flatten.length)).map place =
      walk.rows.map place ++ (walk.label.map fun label =>
        (label, walk.begins, walk.offset + (chunks walk.cover raws).1.flatten.length)).toList ++
          placed (walk.offset + (chunks walk.cover raws).1.flatten.length) (chunks walk.cover raws).2 := by
  have closed : ∀ (walk : Walk) (ends : Nat), (walk.closedAt ends).map place =
      walk.rows.map place ++ (walk.label.map fun label => (label, walk.begins, ends)).toList := by
    intro walk ends
    cases label : walk.label with
    | none => simp [Walk.closedAt, label]
    | some label => simp [Walk.closedAt, label, place]
  induction raws generalizing walk with
  | nil => simp [closed, chunks, placed]
  | cons raw raws ih =>
    have size : walk.offset + (raw :: raws).flatten.length = walk.offset + raw.length + raws.flatten.length := by
      simp [Nat.add_assoc]
    cases read : readLine walk.cover (content raw) with
    | mk cover row =>
      obtain ⟨_ | label, line⟩ := row
      · have step : walk.line raw = { walk with
            lines := walk.lines ++ [line], cover, offset := walk.offset + raw.length } := by
          simp [Walk.line, read]
        rw [List.foldl_cons, step, size]
        refine (ih _).trans ?_
        simp [chunks, read, Nat.add_assoc]
      · have step : walk.line raw = ⟨walk.closedAt walk.offset, some label, walk.offset, [line], cover,
            walk.offset + raw.length⟩ := by
          simp [Walk.line, read]
        rw [List.foldl_cons, step, size]
        refine (ih _).trans ?_
        simp [chunks, read, closed, placed, Nat.add_assoc]

theorem chunksWhole (cover : Cover) (raws : List Text) :
    (chunks cover raws).1 ++ (chunks cover raws).2.flatMap (·.2) = raws := by
  induction raws generalizing cover with
  | nil => rfl
  | cons raw raws ih =>
    simp only [chunks]
    cases (readLine cover (content raw)).2.1 with
    | none => exact congrArg (raw :: ·) (ih _)
    | some label => exact congrArg (raw :: ·) (ih _)

/-- A row's lines start with one that shows a label. -/
def Starred (chunk : Chunk) : Prop := ∃ raw more, chunk.2 = raw :: more ∧ '*' ∈ content raw

theorem chunksStarred (cover : Cover) (raws : List Text) : ∀ chunk ∈ (chunks cover raws).2, Starred chunk := by
  induction raws generalizing cover with
  | nil => simp [chunks]
  | cons raw raws ih =>
    simp only [chunks]
    cases label : (readLine cover (content raw)).2.1 with
    | none => exact ih _
    | some label =>
      intro chunk member
      rcases List.mem_cons.mp member with rfl | later
      · refine ⟨raw, _, rfl, ?_⟩
        by_contra plain
        rw [readLineStar plain] at label
        cases label
      · exact ih _ chunk later

section Pieces
variable {body : Text} {fill : CriterionField → Option Text}

def chunkText (fill : CriterionField → Option Text) (chunk : Chunk) : Text := (fill chunk.1).getD chunk.2.flatten

/-- The rows of a body from an offset on, and the text they stand in. -/
structure Covers (body : Text) (rows : List CriterionRow) (offset : Nat) (some_chunks : List Chunk) (rest : Text) : Prop where
  places : rows.map place = placed offset some_chunks
  text : body.drop offset = some_chunks.flatMap (·.2.flatten) ++ rest
  inside : offset ≤ body.length

theorem coversCons {row : CriterionRow} {rows : List CriterionRow} {offset : Nat} {chunk : Chunk} {more : List Chunk}
    {rest : Text} (covers : Covers body (row :: rows) offset (chunk :: more) rest) :
    row.label = chunk.1 ∧ row.begins = offset ∧ row.ends = offset + chunk.2.flatten.length ∧
      rowText body row = chunk.2.flatten ∧ Covers body rows (offset + chunk.2.flatten.length) more rest := by
  obtain ⟨places, text, inside⟩ := covers
  simp only [List.map_cons, placed, place, List.cons.injEq, Prod.mk.injEq] at places
  obtain ⟨⟨label, begins, ends⟩, later⟩ := places
  rw [List.flatMap_cons, List.append_assoc] at text
  have dropped : body.drop (offset + chunk.2.flatten.length) = more.flatMap (·.2.flatten) ++ rest := by
    rw [← List.drop_drop, text, List.drop_left]
  have size := congrArg List.length text
  rw [List.length_drop, List.length_append] at size
  refine ⟨label, begins, ends, ?_, later, dropped, by omega⟩
  rw [rowText, begins, ends, List.drop_take, Nat.add_sub_cancel_left, text, List.take_left]

theorem coversPieces {rows : List CriterionRow} {offset : Nat} {some_chunks : List Chunk} {rest : Text}
    (covers : Covers body rows offset some_chunks rest) :
    rows.flatMap (fun row => (fill row.label).getD (rowText body row)) = some_chunks.flatMap (chunkText fill) := by
  induction rows generalizing offset some_chunks with
  | nil =>
    cases some_chunks with
    | nil => rfl
    | cons chunk more => exact absurd covers.places (by simp [placed])
  | cons row rows ih =>
    cases some_chunks with
    | nil => exact absurd covers.places (by simp [placed])
    | cons chunk more =>
      obtain ⟨label, -, -, text, later⟩ := coversCons covers
      rw [List.flatMap_cons, List.flatMap_cons, ih later, chunkText, label, text]

/-- One field's replacement in one row, where each field is replaced once. -/
theorem spliceOne {replacements : Replacements} (once : (replacements.map (·.1)).Nodup) (result : Text) (row : CriterionRow) :
    replacements.foldl (fun result (field, replacement) =>
        if field = row.label then spliceRow result row replacement else result) result =
      ((amendedText replacements row.label).map fun text =>
        result.take row.begins ++ text ++ result.drop row.ends).getD result := by
  induction replacements generalizing result with
  | nil => rfl
  | cons entry more ih =>
    obtain ⟨field, replacement⟩ := entry
    obtain ⟨fresh, later⟩ := List.nodup_cons.mp once
    rw [List.foldl_cons]
    by_cases same : field = row.label
    · subst same
      have gone : more.lookup row.label = none := List.lookup_eq_none_iff.mpr fun other member => by
        have other_label : row.label ≠ other.1 := fun equal => fresh (equal ▸ List.mem_map_of_mem (f := (·.1)) member)
        simpa using other_label
      dsimp only
      rw [if_pos rfl, ih later]
      simp [amendedText, gone, spliceRow]
    · have kept : ((field, replacement) :: more).lookup row.label = more.lookup row.label := by
        rw [List.lookup_cons, beq_eq_false_iff_ne.mpr (Ne.symm same)]
      dsimp only
      rw [if_neg same, ih later, amendedText, amendedText, kept]

theorem spliceRows {replacements : Replacements} (once : (replacements.map (·.1)).Nodup) {rows : List CriterionRow}
    {offset : Nat} {some_chunks : List Chunk} (covers : Covers body rows offset some_chunks []) :
    rows.foldr (fun row result => replacements.foldl (fun result (field, replacement) =>
        if field = row.label then spliceRow result row replacement else result) result) body =
      body.take offset ++ some_chunks.flatMap (chunkText (amendedText replacements)) := by
  induction rows generalizing offset some_chunks with
  | nil =>
    cases some_chunks with
    | nil =>
      have text := covers.text
      rw [List.flatMap_nil, List.append_nil, List.drop_eq_nil_iff] at text
      simp [List.take_of_length_le text]
    | cons chunk more => exact absurd covers.places (by simp [placed])
  | cons row rows ih =>
    cases some_chunks with
    | nil => exact absurd covers.places (by simp [placed])
    | cons chunk more =>
      obtain ⟨label, begins, ends, text, later⟩ := coversCons covers
      have front : body.take (offset + chunk.2.flatten.length) = body.take offset ++ chunk.2.flatten := by
        have whole := covers.text
        rw [List.flatMap_cons, List.append_assoc] at whole
        rw [List.take_add, whole, List.take_left]
      have before : (body.take offset).length = offset := List.length_take_of_le covers.inside
      have reach : (body.take offset ++ chunk.2.flatten).length = offset + chunk.2.flatten.length := by
        rw [List.length_append, before]
      rw [List.foldr_cons, ih later, spliceOne once, front, label, begins, ends, List.flatMap_cons, chunkText]
      cases amendedText replacements chunk.1 with
      | none => simp
      | some put =>
        have cut (tail : Text) : (body.take offset ++ chunk.2.flatten ++ tail).take offset = body.take offset := by
          rw [List.append_assoc]
          exact List.take_left' before
        have rest (tail : Text) : (body.take offset ++ chunk.2.flatten ++ tail).drop (offset + chunk.2.flatten.length) =
            tail := List.drop_left' reach
        rw [Option.map_some, Option.getD_some, Option.getD_some, cut, rest, List.append_assoc]

theorem placedSplit {some_chunks : List Chunk} {offset : Nat} {front back : List (CriterionField × Nat × Nat)}
    (split : placed offset some_chunks = front ++ back) :
    ∃ early late, some_chunks = early ++ late ∧ placed offset early = front := by
  induction front generalizing some_chunks offset with
  | nil => exact ⟨[], some_chunks, rfl, rfl⟩
  | cons first front ih =>
    cases some_chunks with
    | nil => cases split
    | cons chunk more =>
      rw [placed, List.cons_append, List.cons.injEq] at split
      obtain ⟨early, late, rfl, same⟩ := ih split.2
      exact ⟨chunk :: early, late, rfl, by rw [placed, same, split.1]⟩

def leadOf (body : Text) : List Text := (chunks {} (splitKeep body)).1

def chunksOf (body : Text) : List Chunk := (chunks {} (splitKeep body)).2

theorem bodyLines (body : Text) : leadOf body ++ (chunksOf body).flatMap (·.2) = splitKeep body :=
  chunksWhole {} (splitKeep body)

theorem bodyPlaces (body : Text) :
    (criterionRows body).map place = placed (leadOf body).flatten.length (chunksOf body) := by
  have walked := walkPlaced (splitKeep body) {}
  rw [splitKeepFlatten] at walked
  simpa [criterionRows, walkBody, leadOf, chunksOf] using walked

theorem flattenChunks (some_chunks : List Chunk) :
    (some_chunks.flatMap (·.2)).flatten = some_chunks.flatMap (·.2.flatten) := by
  induction some_chunks with
  | nil => rfl
  | cons chunk more ih => simp [ih]

theorem bodyText (body : Text) : body = (leadOf body).flatten ++ (chunksOf body).flatMap (·.2.flatten) := by
  rw [← flattenChunks, ← List.flatten_append, bodyLines, splitKeepFlatten]

theorem bodyCut (body : Text) : body.take (leadOf body).flatten.length = (leadOf body).flatten ∧
    body.drop (leadOf body).flatten.length = (chunksOf body).flatMap (·.2.flatten) := by
  have text := bodyText body
  generalize (leadOf body).flatten = lead at text ⊢
  generalize (chunksOf body).flatMap (·.2.flatten) = rest at text ⊢
  subst text
  exact ⟨List.take_left, List.drop_left⟩

/-- The first rows of a body, up to any of them. -/
theorem bodyCovers {front back : List CriterionRow} (split : criterionRows body = front ++ back) :
    ∃ early late, chunksOf body = early ++ late ∧
      Covers body front (leadOf body).flatten.length early (late.flatMap (·.2.flatten)) := by
  have places := bodyPlaces body
  rw [split, List.map_append] at places
  obtain ⟨early, late, whole, same⟩ := placedSplit places.symm
  have text := bodyText body
  refine ⟨early, late, whole, same.symm, ?_, ?_⟩
  · rw [(bodyCut body).2, whole, List.flatMap_append]
  · have size := congrArg List.length text
    rw [List.length_append] at size
    omega

theorem headLead (body : Text) : headOf body = (leadOf body).flatten := by
  have places := bodyPlaces body
  have text := bodyText body
  rw [headOf]
  cases rows : criterionRows body with
  | nil =>
    cases some_chunks : chunksOf body with
    | nil =>
      rw [some_chunks, List.flatMap_nil, List.append_nil] at text
      simpa using text
    | cons chunk more => rw [rows, some_chunks] at places; simp [placed] at places
  | cons row rows' =>
    cases some_chunks : chunksOf body with
    | nil => rw [rows, some_chunks] at places; simp [placed] at places
    | cons chunk more =>
      rw [rows, some_chunks] at places
      simp only [List.map_cons, placed, place, List.cons.injEq, Prod.mk.injEq] at places
      rw [List.head?_cons, Option.map_some, Option.getD_some, places.1.2.1]
      exact (bodyCut body).1

theorem writtenChunks {front back : List CriterionRow} (split : criterionRows body = front ++ back) :
    ∃ early late, chunksOf body = early ++ late ∧ front.map (·.label) = early.map (·.1) ∧
      written body fill front = (leadOf body).flatten ++ early.flatMap (chunkText fill) := by
  obtain ⟨early, late, whole, covers⟩ := bodyCovers split
  refine ⟨early, late, whole, ?_, by rw [written, headLead, coversPieces covers]⟩
  have labels : ∀ (offset : Nat) (some_chunks : List Chunk),
      (placed offset some_chunks).map (·.1) = some_chunks.map (·.1) := by
    intro offset some_chunks
    induction some_chunks generalizing offset with
    | nil => rfl
    | cons chunk more ih => simp [placed, ih]
  rw [← labels, ← covers.places, List.map_map]
  rfl

theorem spliced {replacements : Replacements} (once : (replacements.map (·.1)).Nodup) (body : Text) :
    (criterionRows body).reverse.foldl (fun result row => replacements.foldl (fun result (field, replacement) =>
        if field = row.label then spliceRow result row replacement else result) result) body =
      written body (amendedText replacements) (criterionRows body) := by
  obtain ⟨early, late, whole, covers⟩ := bodyCovers (List.append_nil (criterionRows body)).symm
  obtain rfl : late = [] := by
    have places := covers.places
    rw [bodyPlaces, whole] at places
    have size := congrArg List.length places
    rw [placedLength, placedLength, List.length_append] at size
    exact List.length_eq_zero_iff.mp (by omega)
  rw [List.foldl_reverse, spliceRows once covers, written, headLead, coversPieces covers, (bodyCut body).1]

/-- The lines of a row, or of what is written over it. -/
def chunkLines (fill : CriterionField → Option Text) (chunk : Chunk) : List Text :=
  match fill chunk.1 with
  | some text => contents text
  | none => chunk.2.map content

/-- What is written over a row starts as a label does and ends its last line. -/
def Filled (fill : CriterionField → Option Text) : Prop :=
  ∀ field text, fill field = some text → (∃ more, text = '*' :: more) ∧ ∃ front, text = front ++ ['\n']

theorem amendedFilled (replacements : Replacements) : Filled (amendedText replacements) := by
  intro field text found
  obtain ⟨replacement, -, rfl⟩ := Option.map_eq_some_iff.mp found
  exact ⟨⟨_, rfl⟩, fieldText field replacement ++ ['\n'], by simp⟩

theorem emptiedFilled (replacements : Replacements) : Filled (emptiedText replacements) := by
  intro field text found
  obtain ⟨_, -, rfl⟩ := Option.map_eq_some_iff.mp found
  exact ⟨⟨_, rfl⟩, rowLabel field, rfl⟩

theorem starredStart (filled : Filled fill) {some_chunks : List Chunk} (starred : ∀ chunk ∈ some_chunks, Starred chunk) :
    (some_chunks.flatMap (chunkText fill)).head? ≠ some '\n' := by
  cases some_chunks with
  | nil => simp
  | cons chunk more =>
    rw [List.flatMap_cons, chunkText]
    cases found : fill chunk.1 with
    | some text =>
      obtain ⟨⟨rest, rfl⟩, -⟩ := filled _ _ found
      simp
    | none =>
      obtain ⟨raw, lines, own, star⟩ := starred chunk (by simp)
      rw [Option.getD_none, own]
      cases raw with
      | nil => simp [content] at star
      | cons c rest =>
        intro newline
        obtain rfl : c = '\n' := by simpa using newline
        simp [content, show lineBreak '\n' = true by decide] at star

/-- The lines of a body with some rows written over, row by row. -/
theorem contentsFilled (filled : Filled fill) {some_chunks : List Chunk} (starred : ∀ chunk ∈ some_chunks, Starred chunk)
    {lead : List Text} (split : splitKeep (lead ++ some_chunks.flatMap (·.2)).flatten = lead ++ some_chunks.flatMap (·.2)) :
    contents (lead.flatten ++ some_chunks.flatMap (chunkText fill)) =
      lead.map content ++ some_chunks.flatMap (chunkLines fill) := by
  obtain ⟨front, back⟩ := splitKeepCut split
  induction some_chunks generalizing lead with
  | nil => simp [contents, front]
  | cons chunk more ih =>
    have starredMore : ∀ other ∈ more, Starred other := fun other member => starred other (by simp [member])
    obtain ⟨raw, lines, own, -⟩ := starred chunk (by simp)
    have some_line : (chunk :: more).flatMap (·.2) ≠ [] := by simp [own]
    rw [List.flatMap_cons] at back
    obtain ⟨here, later⟩ := splitKeepCut back
    rw [contentsAppend (endsOfCut split some_line (starredStart filled starred)), contents, front]
    congr 1
    rw [List.flatMap_cons, List.flatMap_cons, chunkText, chunkLines]
    cases found : fill chunk.1 with
    | none => exact ih starredMore back here later
    | some text =>
      obtain ⟨-, start, ended⟩ := filled _ _ found
      have rest := @ih starredMore [] later rfl later
      rw [List.flatten_nil, List.nil_append, List.map_nil, List.nil_append] at rest
      rw [Option.getD_some, ended, contentsAppend (endsNewline _ _), rest]

/-- The lines of a body up to some of its rows, written over. -/
theorem writtenLines (filled : Filled fill) {front back : List CriterionRow} (split : criterionRows body = front ++ back) :
    ∃ early late, chunksOf body = early ++ late ∧ front.map (·.label) = early.map (·.1) ∧
      contents (written body fill front) = (leadOf body).map content ++ early.flatMap (chunkLines fill) := by
  obtain ⟨early, late, whole, labels, text⟩ := @writtenChunks body fill _ _ split
  refine ⟨early, late, whole, labels, ?_⟩
  have lines := bodyLines body
  rw [whole, List.flatMap_append, ← List.append_assoc] at lines
  have cut := (splitKeepCut lines.symm).1
  rw [text]
  exact contentsFilled filled (fun chunk member => chunksStarred {} (splitKeep body) chunk (by
    rw [← chunksOf, whole]
    exact List.mem_append_left _ member)) cut

end Pieces

end Kodezart.FieldAmendment
