import Kodezart.TextLines

/-! The row grammar of a criterion body: which template rows are visible between
code fences and HTML comments, and the one edit that replaces a row. -/
namespace Kodezart
open TextLines

inductive CriterionField where
  | Check | Do | Evidence | Class
  deriving DecidableEq, Repr

namespace FireSpec

def fieldName : CriterionField → Text
  | .Check => ['C', 'h', 'e', 'c', 'k']
  | .Do => ['D', 'o']
  | .Evidence => ['E', 'v', 'i', 'd', 'e', 'n', 'c', 'e']
  | .Class => ['C', 'l', 'a', 's', 's']

/-- `**Check:**` and its like. -/
def rowLabel (field : CriterionField) : Text := ['*', '*'] ++ fieldName field ++ [':', '*', '*']

/-- A line without its indentation, which three spaces at most may be. -/
def unindented (line : Text) : Option Text :=
  let rest := line.dropWhile (· = ' ')
  if line.length ≤ rest.length + 3 then some rest else none

/-- The character that runs, the length of its run, and the rest of the line. -/
def fenceMatch (line : Text) : Option (Char × Nat × Text) := do
  let rest ← unindented line
  let c ← rest.head?
  let run := rest.takeWhile (· = c)
  if (c = '`' || c = '~') && 3 ≤ run.length then some (c, run.length, rest.drop run.length) else none

def rowMatch (line : Text) : Option (CriterionField × Text) := do
  let rest ← unindented line
  [CriterionField.Check, .Do, .Evidence, .Class].findSome? fun field =>
    if rowLabel field <+: rest then some (field, rest.drop (rowLabel field).length) else none

/-- The visible text around HTML comments, and whether one is open behind it. -/
def withoutComments : Bool → Text → Text × Bool
  | comment, [] => ([], comment)
  | true, c :: rest =>
    match c, rest with
    | '-', '-' :: '>' :: rest => withoutComments false rest
    | _, rest => withoutComments true rest
  | false, c :: rest =>
    match c, rest with
    | '<', '!' :: '-' :: '-' :: rest => withoutComments true rest
    | c, rest => (c :: (withoutComments false rest).1, (withoutComments false rest).2)

/-- What hides text: the fence open at a line, and a comment open at it. -/
structure Cover where
  fence : Option (Char × Nat) := none
  comment : Bool := false
  deriving DecidableEq, Repr

/-- A closing fence is the opening one's character, run as long, with only space behind it. -/
def closes (fence : Char × Nat) (line : Text) : Bool :=
  match fenceMatch line with
  | some (c, run, rest) => c = fence.1 && fence.2 ≤ run && strip rest = []
  | none => false

/-- One line: what hides text after it, the label it carries if it is a row, and its text. -/
def readLine (cover : Cover) (line : Text) : Cover × Option CriterionField × Text :=
  match cover.fence with
  | some fence =>
    (if closes fence line then { cover with fence := none } else cover, none, line)
  | none =>
    let visible := withoutComments cover.comment line
    match fenceMatch visible.1 with
    | some (c, run, _) => (⟨some (c, run), visible.2⟩, none, visible.1)
    | none =>
      match rowMatch visible.1 with
      | some (label, rest) => (⟨none, visible.2⟩, some label, rest)
      | none => (⟨none, visible.2⟩, none, visible.1)

structure CriterionRow where
  label : CriterionField
  begins : Nat
  ends : Nat
  text : Text
  deriving DecidableEq, Repr

structure Walk where
  rows : List CriterionRow := []
  label : Option CriterionField := none
  begins : Nat := 0
  lines : List Text := []
  cover : Cover := {}
  offset : Nat := 0

/-- The rows with the open one closed where the next begins, or where the body ends. -/
def Walk.closedAt (walk : Walk) (ends : Nat) : List CriterionRow :=
  match walk.label with
  | none => walk.rows
  | some label => walk.rows ++ [⟨label, walk.begins, ends, strip (joinLines walk.lines)⟩]

def Walk.line (walk : Walk) (original : Text) : Walk :=
  match readLine walk.cover (content original) with
  | (cover, none, line) =>
    { walk with lines := walk.lines ++ [line], cover, offset := walk.offset + original.length }
  | (cover, some label, rest) =>
    { rows := walk.closedAt walk.offset, label := some label, begins := walk.offset, lines := [rest],
      cover, offset := walk.offset + original.length }

def walkBody (body : Text) : Walk := (splitKeep body).foldl Walk.line {}

/-- Every visible template row: its label, its span and its text. -/
def criterionRows (body : Text) : List CriterionRow := (walkBody body).closedAt body.length

def criterionFieldBodies (body : Text) (field : CriterionField) : List Text :=
  ((criterionRows body).filter (·.label = field)).map (·.text)

/-- The labels held more than once, in the order of their names. -/
def duplicated (names : List CriterionField) : List CriterionField :=
  [CriterionField.Check, .Class, .Do, .Evidence].filter fun field => 1 < names.count field

def duplicatedRowLabels (body : Text) : List CriterionField :=
  duplicated ((criterionRows body).map (·.label))

structure ValueError where
  message : String
  deriving DecidableEq, Repr

def ambiguousRows : ValueError := ⟨"criterion amendment requires unambiguous template rows"⟩

def fieldsNotDistinct : ValueError := ⟨"amended criterion fields must remain distinct"⟩

/-- `**Field:** value`, as both arms of the edit write it. -/
def fieldText (field : CriterionField) (replacement : Text) : Text :=
  rowLabel field ++ ' ' :: replacement

/-- One row replaced in place, with a blank line behind it. -/
def spliceRow (result : Text) (row : CriterionRow) (replacement : Text) : Text :=
  result.take row.begins ++ (fieldText row.label replacement ++ ['\n', '\n']) ++ result.drop row.ends

/-- An absent field goes behind the body's last line that is not empty. -/
def appendField (result : Text) (field : CriterionField) (replacement : Text) : Text :=
  rstripNewlines result ++ (['\n', '\n'] ++ fieldText field replacement ++ ['\n'])

def replaceCriterionFields (body : Text) (replacements : List (CriterionField × Text)) :
    Except ValueError Text :=
  let rows := criterionRows body
  let names := rows.map (·.label)
  if duplicated names ≠ [] then .error ambiguousRows
  else
    let spliced := rows.reverse.foldl (fun result row =>
      replacements.foldl (fun result (field, replacement) =>
        if field = row.label then spliceRow result row replacement else result) result) body
    replacements.foldlM (fun result (field, replacement) =>
      let result := if field ∈ names then result else appendField result field replacement
      if criterionFieldBodies result field = [strip replacement] then .ok result
      else .error fieldsNotDistinct) spliced

/-! A reading: the rows of a list of lines, without the spans they hold. -/

abbrev Seen := Option CriterionField × Text

def coverAfter (cover : Cover) : List Text → Cover
  | [] => cover
  | line :: lines => coverAfter (readLine cover line).1 lines

def seen (cover : Cover) : List Text → List Seen
  | [] => []
  | line :: lines => (readLine cover line).2 :: seen (readLine cover line).1 lines

/-- The lines before the first row, and every row with its text. -/
def gather : List Seen → List Text × List (CriterionField × Text)
  | [] => ([], [])
  | (none, line) :: rest => (line :: (gather rest).1, (gather rest).2)
  | (some label, line) :: rest =>
    ([], (label, strip (joinLines (line :: (gather rest).1))) :: (gather rest).2)

def reading (cover : Cover) (lines : List Text) : List Text × List (CriterionField × Text) :=
  gather (seen cover lines)

theorem coverAfterAppend (cover : Cover) (lines more : List Text) :
    coverAfter cover (lines ++ more) = coverAfter (coverAfter cover lines) more := by
  induction lines generalizing cover with
  | nil => rfl
  | cons line lines ih => exact ih _

theorem seenAppend (cover : Cover) (lines more : List Text) :
    seen cover (lines ++ more) = seen cover lines ++ seen (coverAfter cover lines) more := by
  induction lines generalizing cover with
  | nil => rfl
  | cons line lines ih => exact congrArg (_ :: ·) (ih _)

/-- A reading that starts with a row adds its rows to those before it. -/
theorem gatherAppend (front : List Seen) {back : List Seen} (rowFirst : (gather back).1 = []) :
    gather (front ++ back) = ((gather front).1, (gather front).2 ++ (gather back).2) := by
  induction front with
  | nil => simp [gather, Prod.ext_iff, rowFirst]
  | cons first front ih =>
    obtain ⟨_ | label, line⟩ := first
    · simp [gather, ih]
    · simp [gather, ih]

theorem readingAppend (cover : Cover) (lines : List Text) {more : List Text}
    (rowFirst : (reading (coverAfter cover lines) more).1 = []) :
    reading cover (lines ++ more) = ((reading cover lines).1,
      (reading cover lines).2 ++ (reading (coverAfter cover lines) more).2) := by
  rw [reading, seenAppend]
  exact gatherAppend _ rowFirst

/-- Lines without a row go on with the text before them. -/
theorem gatherRowless (front : List Seen) (rowless : (gather front).2 = []) (back : List Seen) :
    gather (front ++ back) = ((gather front).1 ++ (gather back).1, (gather back).2) := by
  induction front with
  | nil => rfl
  | cons first front ih =>
    obtain ⟨_ | label, line⟩ := first
    · simp [gather, ih rowless]
    · simp [gather] at rowless

theorem gatherFirst {front : List Seen} (some' : front ≠ []) (rowFirst : (gather front).1 = [])
    (back : List Seen) : (gather (front ++ back)).1 = [] := by
  cases front with
  | nil => exact absurd rfl some'
  | cons first front =>
    obtain ⟨_ | label, line⟩ := first
    · simp [gather] at rowFirst
    · rfl

def openText (walk : Walk) (lead : List Text) : List (CriterionField × Text) :=
  match walk.label with
  | none => []
  | some label => [(label, strip (joinLines (walk.lines ++ lead)))]

def labelled (rows : List CriterionRow) : List (CriterionField × Text) :=
  rows.map fun row => (row.label, row.text)

theorem closedAtLabelled (walk : Walk) (ends : Nat) :
    labelled (walk.closedAt ends) = labelled walk.rows ++ openText walk [] := by
  cases label : walk.label with
  | none => simp [Walk.closedAt, openText, label]
  | some label => simp [Walk.closedAt, openText, label, labelled]

theorem walkLabelled (raws : List Text) (walk : Walk) (ends : Nat) :
    labelled ((raws.foldl Walk.line walk).closedAt ends) =
      labelled walk.rows ++ openText walk (reading walk.cover (raws.map content)).1 ++
        (reading walk.cover (raws.map content)).2 := by
  induction raws generalizing walk with
  | nil => simp [closedAtLabelled, reading, seen, gather]
  | cons raw raws ih =>
    rw [List.foldl_cons, ih]
    cases read : readLine walk.cover (content raw) with
    | mk cover row =>
      obtain ⟨_ | label, line⟩ := row
      · have step : walk.line raw = { walk with
            lines := walk.lines ++ [line], cover, offset := walk.offset + raw.length } := by
          simp [Walk.line, read]
        simp only [step, reading, List.map_cons, seen, read, gather]
        cases label : walk.label <;> simp [openText, label]
      · have step : walk.line raw = ⟨walk.closedAt walk.offset, some label, walk.offset, [line], cover,
            walk.offset + raw.length⟩ := by
          simp [Walk.line, read]
        simp only [step, reading, List.map_cons, seen, read, gather, closedAtLabelled]
        simp [openText]

/-- The rows of a body are the reading of its lines. -/
theorem rowsReading (body : Text) : labelled (criterionRows body) = (reading {} (contents body)).2 := by
  rw [criterionRows, walkBody, walkLabelled]
  rfl

theorem fieldBodiesReading (body : Text) (field : CriterionField) :
    criterionFieldBodies body field =
      ((reading {} (contents body)).2.filter (·.1 = field)).map (·.2) := by
  rw [← rowsReading, labelled, List.filter_map, List.map_map]
  rfl

/-- Where a row stands among the lines: its label's line, the lines of its own, and the rest. -/
structure Span (raws : List Text) (row : CriterionRow) where
  before : List Text
  line : Text
  own : List Text
  after : List Text
  whole : raws = before ++ line :: (own ++ after)
  beginsAt : row.begins = before.flatten.length
  endsAt : row.ends = (before ++ line :: own).flatten.length
  atLabel : (readLine (coverAfter {} (before.map content)) (content line)).2.1 = some row.label
  rowless : (reading (coverAfter {} ((before ++ [line]).map content)) (own.map content)).2 = []
  rowNext : (reading (coverAfter {} ((before ++ line :: own).map content)) (after.map content)).1 = []

/-- The row the walk has open, among the lines it has read. -/
structure OpenRow (raws : List Text) (walk : Walk) (label : CriterionField) where
  before : List Text
  line : Text
  own : List Text
  whole : raws = before ++ line :: own
  beginsAt : walk.begins = before.flatten.length
  atLabel : (readLine (coverAfter {} (before.map content)) (content line)).2.1 = some label
  rowless : (reading (coverAfter {} ((before ++ [line]).map content)) (own.map content)).2 = []

/-- What the walk knows after the lines it has read. -/
structure Walked (raws : List Text) (walk : Walk) : Prop where
  offset : walk.offset = raws.flatten.length
  cover : walk.cover = coverAfter {} (raws.map content)
  closed : ∀ row ∈ walk.rows, ∃ span : Span raws row, span.after ≠ []
  opened : ∀ label, walk.label = some label → Nonempty (OpenRow raws walk label)

theorem readingRowless {cover : Cover} {lines more : List Text} (rowless : (reading cover lines).2 = [])
    (rowlessToo : (reading (coverAfter cover lines) more).2 = []) :
    (reading cover (lines ++ more)).2 = [] := by
  rw [reading, seenAppend, gatherRowless _ rowless]
  exact rowlessToo

def Span.grow {raws : List Text} {row : CriterionRow} (span : Span raws row) (some' : span.after ≠ [])
    (raw : Text) : Span (raws ++ [raw]) row :=
  { span with
    after := span.after ++ [raw]
    whole := (congrArg (· ++ [raw]) span.whole).trans (by simp)
    rowNext := by
      rw [reading, show (span.after ++ [raw]).map content = span.after.map content ++ [content raw] by
        simp, seenAppend]
      refine gatherFirst ?_ span.rowNext _
      cases after : span.after with
      | nil => exact absurd after some'
      | cons first after => simp [seen] }

theorem OpenRow.close {raws : List Text} {walk : Walk} {label : CriterionField} {raw : Text}
    (row : OpenRow raws walk label)
    (next : (reading (coverAfter {} (raws.map content)) [content raw]).1 = []) :
    ∃ span : Span (raws ++ [raw])
      ⟨label, walk.begins, raws.flatten.length, strip (joinLines walk.lines)⟩, span.after ≠ [] := by
  obtain ⟨before, line, own, rfl, beginsAt, atLabel, rowless⟩ := row
  exact ⟨⟨before, line, own, [raw], by simp, beginsAt, rfl, atLabel, rowless, next⟩, by simp⟩

theorem walkedLine {raws : List Text} {walk : Walk} (walked : Walked raws walk) (raw : Text) :
    Walked (raws ++ [raw]) (walk.line raw) := by
  have cover : (readLine walk.cover (content raw)).1 =
      coverAfter {} ((raws ++ [raw]).map content) := by
    rw [List.map_append, coverAfterAppend, ← walked.cover]; rfl
  have length : walk.offset + raw.length = (raws ++ [raw]).flatten.length := by
    simp [walked.offset]
  have kept : ∀ row ∈ walk.rows, ∃ span : Span (raws ++ [raw]) row, span.after ≠ [] := by
    intro row member
    obtain ⟨span, some'⟩ := walked.closed row member
    exact ⟨span.grow some' raw, by simp [Span.grow]⟩
  cases read : readLine walk.cover (content raw) with
  | mk next row =>
    obtain ⟨_ | label, line⟩ := row
    · have step : walk.line raw = { walk with
          lines := walk.lines ++ [line], cover := next, offset := walk.offset + raw.length } := by
        simp [Walk.line, read]
      rw [step]
      refine ⟨length, by rw [← cover, read], kept, ?_⟩
      intro label opened
      obtain ⟨before, line', own, rfl, beginsAt, atLabel, rowless⟩ := walked.opened label opened
      refine ⟨⟨before, line', own ++ [raw], by simp, beginsAt, atLabel, ?_⟩⟩
      rw [show (own ++ [raw]).map content = own.map content ++ [content raw] by simp]
      refine readingRowless rowless ?_
      have at' : coverAfter (coverAfter {} ((before ++ [line']).map content)) (own.map content) =
          walk.cover := by
        rw [← coverAfterAppend, ← List.map_append, walked.cover]; simp
      rw [at', reading, seen, read]
      rfl
    · have step : walk.line raw = ⟨walk.closedAt walk.offset, some label, walk.offset, [line], next,
          walk.offset + raw.length⟩ := by
        simp [Walk.line, read]
      have first : (reading (coverAfter {} (raws.map content)) [content raw]).1 = [] := by
        rw [← walked.cover]
        simp [reading, seen, read, gather]
      rw [step]
      refine ⟨length, by rw [← cover, read], ?_, ?_⟩
      · intro row member
        unfold Walk.closedAt at member
        split at member
        · exact kept row member
        · next opened =>
          rcases List.mem_append.mp member with old | new
          · exact kept row old
          · obtain ⟨open'⟩ := walked.opened _ opened
            rw [List.mem_singleton.mp new, walked.offset]
            exact open'.close first
      · intro label' same
        cases same
        refine ⟨⟨raws, raw, [], rfl, walked.offset, ?_, rfl⟩⟩
        rw [← walked.cover, read]

theorem walkedLines (raws : List Text) : Walked raws (raws.foldl Walk.line {}) := by
  induction raws using List.reverseRecOn with
  | nil => exact ⟨rfl, rfl, by simp, by simp⟩
  | append_singleton raws raw ih => rw [List.foldl_append]; exact walkedLine ih raw

/-- Every row stands where its span says. -/
theorem rowSpan {body : Text} {row : CriterionRow} (member : row ∈ criterionRows body) :
    Nonempty (Span (splitKeep body) row) := by
  have walked := walkedLines (splitKeep body)
  unfold criterionRows walkBody Walk.closedAt at member
  split at member
  · obtain ⟨span, _⟩ := walked.closed row member
    exact ⟨span⟩
  · next opened =>
    rcases List.mem_append.mp member with old | new
    · obtain ⟨span, _⟩ := walked.closed row old
      exact ⟨span⟩
    · obtain ⟨before, line, own, whole, beginsAt, atLabel, rowless⟩ := walked.opened _ opened
      rw [List.mem_singleton.mp new]
      exact ⟨⟨before, line, own, [], by rw [whole]; simp, beginsAt,
        by rw [← whole, splitKeepFlatten], atLabel, rowless, rfl⟩⟩

/-! A row found again by where its text stands. -/

theorem walkKeeps {row : CriterionRow} (raws : List Text) {walk : Walk} (member : row ∈ walk.rows)
    (ends : Nat) : row ∈ (raws.foldl Walk.line walk).closedAt ends := by
  induction raws generalizing walk with
  | nil =>
    rw [List.foldl_nil, Walk.closedAt]
    split
    · exact member
    · exact List.mem_append_left _ member
  | cons raw raws ih =>
    refine ih ?_
    rw [Walk.line]
    split
    · exact member
    · simp only [Walk.closedAt]
      split
      · exact member
      · exact List.mem_append_left _ member

theorem walkCover (raws : List Text) (walk : Walk) :
    (raws.foldl Walk.line walk).cover = coverAfter walk.cover (raws.map content) ∧
      (raws.foldl Walk.line walk).offset = walk.offset + raws.flatten.length := by
  induction raws generalizing walk with
  | nil => exact ⟨rfl, rfl⟩
  | cons raw raws ih =>
    have cover : (walk.line raw).cover = (readLine walk.cover (content raw)).1 := by
      rw [Walk.line]
      split
      · next read => rw [read]
      · next read => rw [read]
    have offset : (walk.line raw).offset = walk.offset + raw.length := by
      rw [Walk.line]
      split <;> rfl
    obtain ⟨covers, offsets⟩ := ih (walk.line raw)
    rw [cover] at covers
    rw [offset] at offsets
    refine ⟨covers, offsets.trans ?_⟩
    rw [List.flatten_cons, List.length_append, Nat.add_assoc]

theorem walkRowless (raws : List Text) (walk : Walk)
    (rowless : (reading walk.cover (raws.map content)).2 = []) :
    (raws.foldl Walk.line walk).label = walk.label ∧
      (raws.foldl Walk.line walk).begins = walk.begins ∧
      (raws.foldl Walk.line walk).rows = walk.rows := by
  induction raws generalizing walk with
  | nil => exact ⟨rfl, rfl, rfl⟩
  | cons raw raws ih =>
    cases read : readLine walk.cover (content raw) with
    | mk cover row =>
      obtain ⟨_ | label, line⟩ := row
      · have step : walk.line raw = { walk with
            lines := walk.lines ++ [line], cover, offset := walk.offset + raw.length } := by
          simp [Walk.line, read]
        rw [List.foldl_cons, step]
        refine ih _ ?_
        simpa [reading, seen, read, gather] using rowless
      · simp [reading, seen, read, gather] at rowless

/-- Lines that read as one row, from its label on, leave that row open. -/
theorem walkOneRow {raws : List Text} {walk : Walk} {label : CriterionField} {text : Text}
    (reads : reading walk.cover (raws.map content) = ([], [(label, text)])) :
    (raws.foldl Walk.line walk).label = some label ∧
      (raws.foldl Walk.line walk).begins = walk.offset := by
  cases raws with
  | nil => simp [reading, seen, gather] at reads
  | cons raw raws =>
    cases read : readLine walk.cover (content raw) with
    | mk cover row =>
      obtain ⟨_ | found, line⟩ := row
      · simp [reading, seen, read, gather] at reads
      · have step : walk.line raw = ⟨walk.closedAt walk.offset, some found, walk.offset, [line], cover,
            walk.offset + raw.length⟩ := by
          simp [Walk.line, read]
        simp only [reading, List.map_cons, seen, read, gather, Prod.mk.injEq, true_and,
          List.cons.injEq] at reads
        obtain ⟨⟨rfl, _⟩, rowless⟩ := reads
        obtain ⟨label, begins, _⟩ := walkRowless raws (walk.line raw) (by rw [step]; exact rowless)
        rw [List.foldl_cons, label, begins, step]
        exact ⟨rfl, rfl⟩

/-- A text that reads as one row is that row of its body, where a row or nothing follows it. -/
theorem rowOfPieces {front middle back text : Text} {label : CriterionField}
    (frontEnds : Ends front (middle ++ back)) (middleEnds : Ends middle back)
    (reads : reading (coverAfter {} (contents front)) (contents middle) = ([], [(label, text)]))
    (next : (reading (coverAfter {} (contents front ++ contents middle)) (contents back)).1 = []) :
    ∃ text, (⟨label, front.length, (front ++ middle).length, text⟩ : CriterionRow) ∈
      criterionRows (front ++ (middle ++ back)) := by
  have lines : splitKeep (front ++ (middle ++ back)) =
      splitKeep front ++ (splitKeep middle ++ splitKeep back) := by
    rw [splitKeepAppend frontEnds, splitKeepAppend middleEnds]
  obtain ⟨cover, offset⟩ := walkCover (splitKeep front) {}
  generalize walked : (splitKeep front).foldl Walk.line {} = walk at cover offset
  have start : walk.offset = front.length := by rw [offset, splitKeepFlatten]; simp
  have reads' : reading walk.cover ((splitKeep middle).map content) = ([], [(label, text)]) := by
    rw [cover]
    exact reads
  obtain ⟨opened, begins⟩ := walkOneRow reads'
  obtain ⟨cover', offset'⟩ := walkCover (splitKeep middle) walk
  generalize walked' : (splitKeep middle).foldl Walk.line walk = walk' at opened begins cover' offset'
  have size : walk'.offset = (front ++ middle).length := by
    rw [offset', start, splitKeepFlatten, List.length_append]
  have closed : ∀ ends, (⟨label, front.length, ends, strip (joinLines walk'.lines)⟩ : CriterionRow) ∈
      walk'.closedAt ends := by
    intro ends
    simp [Walk.closedAt, opened, begins, start]
  have whole : walkBody (front ++ (middle ++ back)) = (splitKeep back).foldl Walk.line walk' := by
    rw [walkBody, lines, List.foldl_append, List.foldl_append, walked, walked']
  refine ⟨strip (joinLines walk'.lines), ?_⟩
  rw [criterionRows, whole]
  cases rest : splitKeep back with
  | nil =>
    have empty := splitKeepEmpty.mp rest
    rw [empty, List.append_nil]
    exact closed _
  | cons raw raws =>
    have under : walk'.cover = coverAfter {} (contents front ++ contents middle) := by
      rw [cover', cover, coverAfterAppend]
      rfl
    rw [← under, contents, rest] at next
    cases read : readLine walk'.cover (content raw) with
    | mk cover row =>
      obtain ⟨_ | found, line⟩ := row
      · simp [reading, seen, read, gather] at next
      · have step : walk'.line raw = ⟨walk'.closedAt walk'.offset, some found, walk'.offset, [line],
            cover, walk'.offset + raw.length⟩ := by
          simp [Walk.line, read]
        rw [List.foldl_cons]
        refine walkKeeps raws ?_ _
        rw [step, ← size]
        exact closed _

theorem gatherLabels (rows : List Seen) : (gather rows).2.map (·.1) = rows.filterMap (·.1) := by
  induction rows with
  | nil => rfl
  | cons first rows ih =>
    obtain ⟨_ | label, line⟩ := first
    · simpa [gather] using ih
    · simp [gather, ih]

/-- A row read from two runs of lines starts in the first of them, or is a row of the second. -/
theorem gatherMember {front back : List Seen} {row : CriterionField × Text}
    (member : row ∈ (gather (front ++ back)).2) :
    row.1 ∈ front.filterMap (·.1) ∨ row ∈ (gather back).2 := by
  induction front with
  | nil => exact Or.inr member
  | cons first front ih =>
    obtain ⟨_ | label, line⟩ := first
    · simpa using ih member
    · rcases List.mem_cons.mp member with rfl | later
      · exact Or.inl (by simp)
      · rcases ih later with front | back
        · exact Or.inl (by simp [front])
        · exact Or.inr back

theorem readLineEmpty (cover : Cover) : readLine cover [] = (cover, none, []) := by
  obtain ⟨_ | fence, comment⟩ := cover
  · cases comment <;> rfl
  · rfl

theorem seenEmpty (cover : Cover) (extra : Nat) :
    seen cover (List.replicate extra []) = List.replicate extra (none, []) ∧
      coverAfter cover (List.replicate extra []) = cover := by
  induction extra with
  | zero => exact ⟨rfl, rfl⟩
  | succ extra ih =>
    simp only [List.replicate_succ, seen, coverAfter, readLineEmpty]
    exact ⟨by rw [ih.1], ih.2⟩

theorem gatherEmpty (front : List Seen) (extra : Nat) :
    (∃ more, (gather (front ++ List.replicate extra (none, []))).1 =
      (gather front).1 ++ List.replicate more []) ∧
    (gather (front ++ List.replicate extra (none, []))).2 = (gather front).2 := by
  induction front with
  | nil =>
    have blank : gather (List.replicate extra (none, [])) = (List.replicate extra [], []) := by
      induction extra with
      | zero => rfl
      | succ extra ih => simp [List.replicate_succ, gather, ih]
    rw [List.nil_append, blank]
    exact ⟨⟨extra, rfl⟩, rfl⟩
  | cons first front ih =>
    obtain ⟨⟨more, lead⟩, rows⟩ := ih
    obtain ⟨_ | label, line⟩ := first
    · exact ⟨⟨more, by simp [gather, lead]⟩, by simpa [gather] using rows⟩
    · refine ⟨⟨0, rfl⟩, ?_⟩
      have text : joinLines (line :: ((gather front).1 ++ List.replicate more [])) =
          joinLines (line :: (gather front).1) ++
            (List.replicate more ([] : Text)).flatMap ('\n' :: ·) :=
        joinLinesAppend (List.cons_ne_nil line _) _
      simp only [List.cons_append, gather, lead, rows, text, stripTrailing (blankLines more)]

/-- Empty lines behind a reading leave its rows as they are. -/
theorem readingEmpty (cover : Cover) (lines : List Text) (extra : Nat) :
    (reading cover (lines ++ List.replicate extra [])).2 = (reading cover lines).2 := by
  rw [reading, seenAppend, (seenEmpty _ extra).1]
  exact (gatherEmpty _ extra).2

theorem withoutCommentsSubset (comment : Bool) (line : Text) :
    (withoutComments comment line).1 ⊆ line := by
  fun_induction withoutComments comment line with
  | case1 => simp
  | case2 rest ih => exact fun c member => by simp [ih member]
  | case3 c rest _ ih => exact fun d member => by simp [ih member]
  | case4 rest ih => exact fun c member => by simp [ih member]
  | case5 c rest _ ih => exact List.cons_subset_cons c ih

/-- A comment stays open over a line that cannot close it. -/
theorem withoutCommentsHidden {line : Text} (noClosing : '>' ∉ line) :
    withoutComments true line = ([], true) := by
  induction line with
  | nil => rfl
  | cons c rest ih =>
    rw [withoutComments.eq_3 c rest (by rintro rest _ rfl; simp at noClosing)]
    exact ih fun member => noClosing (List.mem_cons_of_mem c member)

/-- Text that does not hold a text's last character stands before that character. -/
theorem prefixBeforeLast {q : Char} (front : Text) {rest more : Text} (without : q ∉ front)
    (same : rest ++ [q] = front ++ more) : ∃ more, rest = front ++ more := by
  have start : front <+: rest ++ [q] := ⟨more, same.symm⟩
  rcases List.prefix_concat_iff.mp start with whole | ⟨more, before⟩
  · exact absurd (by simp [whole]) without
  · exact ⟨more, before.symm⟩

/-- A last character that belongs to no delimiter is visible where no comment is open. -/
theorem withoutCommentsLast {q : Char} (plain : q ∉ ['-', '>', '!']) (comment : Bool) (line : Text) :
    withoutComments comment (line ++ [q]) =
      if (withoutComments comment line).2 then ((withoutComments comment line).1, true)
      else ((withoutComments comment line).1 ++ [q], false) := by
  fun_induction withoutComments comment line with
  | case1 comment =>
    cases comment with
    | true => rw [List.nil_append, withoutComments.eq_3 q [] (by simp)]; rfl
    | false => rw [List.nil_append, withoutComments.eq_5 q [] (by simp)]; rfl
  | case2 rest ih => exact ih
  | case3 c rest other ih =>
    rw [List.cons_append, withoutComments.eq_3 c (rest ++ [q]) ?_]
    · exact ih
    · intro more dash same
      have without : q ∉ ['-', '>'] := by simp_all
      obtain ⟨more, before⟩ := prefixBeforeLast ['-', '>'] without same
      exact other more dash before
  | case4 rest ih => exact ih
  | case5 c rest other ih =>
    rw [List.cons_append, withoutComments.eq_5 c (rest ++ [q]) ?_, ih]
    · split <;> rfl
    · intro more opening same
      have without : q ∉ ['!', '-', '-'] := by simp_all
      obtain ⟨more, before⟩ := prefixBeforeLast ['!', '-', '-'] without same
      exact other more opening before

theorem unindentedSuffix {line rest : Text} (found : unindented line = some rest) : rest <:+ line := by
  simp only [unindented, Option.ite_none_right_eq_some, Option.some.injEq] at found
  rw [← found.2]
  exact List.dropWhile_suffix _

/-- A row's line holds its label, and the text behind it ends as the line does. -/
theorem rowMatchLabel {line rest : Text} {label : CriterionField}
    (found : rowMatch line = some (label, rest)) : rowLabel label ++ rest <:+ line := by
  simp only [rowMatch, Option.bind_eq_bind, Option.bind_eq_some_iff] at found
  obtain ⟨text, indent, found⟩ := found
  obtain ⟨field, _, found⟩ := List.exists_of_findSome?_eq_some found
  simp only [Option.ite_none_right_eq_some, Option.some.injEq, Prod.mk.injEq] at found
  obtain ⟨⟨more, starts⟩, rfl, dropped⟩ := found
  rw [← starts, List.drop_left] at dropped
  rw [← dropped, starts]
  exact unindentedSuffix indent

theorem rowMatchStar {line : Text} (noStar : '*' ∉ line) : rowMatch line = none := by
  cases found : rowMatch line with
  | none => rfl
  | some row =>
    obtain ⟨label, rest⟩ := row
    have inside := (rowMatchLabel found).subset
    exact absurd (inside (by simp [rowLabel])) noStar

theorem readLineStar {line : Text} (noStar : '*' ∉ line) (cover : Cover) :
    (readLine cover line).2.1 = none := by
  unfold readLine
  split
  · rfl
  · have visible := rowMatchStar fun member => noStar (withoutCommentsSubset cover.comment line member)
    simp only
    split
    · rfl
    · rw [visible]

theorem readLineFenced {cover : Cover} {fence : Char × Nat} (open' : cover.fence = some fence)
    (line : Text) : (readLine cover line).2 = (none, line) := by
  simp [readLine, open']

theorem readLineKeepsFence {cover : Cover} {fence : Char × Nat} (open' : cover.fence = some fence)
    {line : Text} (stays : closes fence line = false) : (readLine cover line).1 = cover := by
  simp [readLine, open', stays]

theorem readLineHidden {line : Text} (noClosing : '>' ∉ line) :
    readLine ⟨none, true⟩ line = (⟨none, true⟩, none, []) := by
  simp [readLine, withoutCommentsHidden noClosing, fenceMatch, unindented, rowMatch, rowLabel]

/-- A line that carries a label stands outside every fence. -/
theorem rowOutsideFence {cover : Cover} {line : Text} {label : CriterionField}
    (row : (readLine cover line).2.1 = some label) : cover = ⟨none, cover.comment⟩ := by
  obtain ⟨_ | fence, comment⟩ := cover
  · rfl
  · simp [readLine] at row

/-- Lines that start with a row stand outside every fence. -/
theorem rowFirstOutside {cover : Cover} {line : Text} {lines : List Text}
    (rowFirst : (reading cover (line :: lines)).1 = []) : cover = ⟨none, cover.comment⟩ := by
  cases read : readLine cover line with
  | mk next row =>
    obtain ⟨_ | label, rest⟩ := row
    · rw [reading, seen, read, gather] at rowFirst
      cases rowFirst
    · exact rowOutsideFence (by rw [read])

/-- What a line shows is part of it. -/
theorem readLineSubset (cover : Cover) (line : Text) : (readLine cover line).2.2 ⊆ line := by
  unfold readLine
  split
  · exact List.Subset.refl line
  · have visible := withoutCommentsSubset cover.comment line
    simp only
    split
    · exact visible
    · split
      · next label rest found =>
        have suffix := (rowMatchLabel found).subset
        exact fun c member => visible (suffix (List.mem_append_right _ member))
      · exact visible

theorem seenUnbroken {cover : Cover} {lines : List Text} (unbroken : ∀ line ∈ lines, Unbroken line)
    {row : Seen} (member : row ∈ seen cover lines) : Unbroken row.2 := by
  induction lines generalizing cover with
  | nil => simp [seen] at member
  | cons line lines ih =>
    rcases List.mem_cons.mp member with rfl | later
    · exact fun c inside => unbroken line (by simp) c (readLineSubset cover line inside)
    · exact ih (fun line member => unbroken line (by simp [member])) later

theorem joinLinesBreak {lines : List Text} (unbroken : ∀ line ∈ lines, Unbroken line) {c : Char}
    (member : c ∈ joinLines lines) (breaks : lineBreak c) : c = '\n' := by
  cases lines with
  | nil => simp [joinLines] at member
  | cons line lines =>
    rcases List.mem_append.mp member with first | later
    · rw [unbroken line (by simp) c first] at breaks; cases breaks
    · obtain ⟨next, found, inside⟩ := List.mem_flatMap.mp later
      rcases List.mem_cons.mp inside with same | inside
      · exact same
      · rw [unbroken next (by simp [found]) c inside] at breaks; cases breaks

theorem gatherUnbroken {rows : List Seen} (unbroken : ∀ row ∈ rows, Unbroken row.2) :
    (∀ line ∈ (gather rows).1, Unbroken line) ∧
      ∀ row ∈ (gather rows).2, ∀ c ∈ row.2, lineBreak c → c = '\n' := by
  induction rows with
  | nil => simp [gather]
  | cons first rows ih =>
    obtain ⟨lead, found⟩ := ih fun row member => unbroken row (by simp [member])
    have head := unbroken first (by simp)
    obtain ⟨_ | label, line⟩ := first
    · exact ⟨by simpa [gather] using ⟨head, lead⟩, found⟩
    · refine ⟨by simp [gather], ?_⟩
      intro row member c inside breaks
      rcases List.mem_cons.mp member with rfl | later
      · exact joinLinesBreak (by simpa using ⟨head, lead⟩) (memOfMemStrip inside) breaks
      · exact found row later c inside breaks

/-- No line end but the newline stands in what a body's rows read. -/
theorem fieldBodiesBreak {body text : Text} {field : CriterionField}
    (member : text ∈ criterionFieldBodies body field) {c : Char} (inside : c ∈ text)
    (breaks : lineBreak c) : c = '\n' := by
  rw [fieldBodiesReading] at member
  obtain ⟨row, found, rfl⟩ := List.mem_map.mp member
  have lines : ∀ line ∈ contents body, Unbroken line := by
    intro line found
    obtain ⟨raw, _, rfl⟩ := List.mem_map.mp found
    exact unbrokenContent raw
  exact (gatherUnbroken fun row => seenUnbroken lines).2 row (List.mem_of_mem_filter found) c inside
    breaks

/-! A row cut out of its body, and the text put in its place. -/
section Cut

variable {body : Text} {row : CriterionRow}

theorem spanFront (span : Span (splitKeep body) row) : body.take row.begins = span.before.flatten := by
  have whole : span.before.flatten ++ (span.line :: (span.own ++ span.after)).flatten = body := by
    rw [← List.flatten_append, ← span.whole, splitKeepFlatten]
  calc body.take row.begins
    _ = (span.before.flatten ++ (span.line :: (span.own ++ span.after)).flatten).take
        span.before.flatten.length := by rw [whole, span.beginsAt]
    _ = span.before.flatten := List.take_left

theorem spanPieces (span : Span (splitKeep body) row) :
    splitKeep body = (span.before ++ span.line :: span.own) ++ span.after :=
  span.whole.trans (by simp)

theorem spanBack (span : Span (splitKeep body) row) : body.drop row.ends = span.after.flatten := by
  have whole : (span.before ++ span.line :: span.own).flatten ++ span.after.flatten = body := by
    rw [← List.flatten_append, ← spanPieces span, splitKeepFlatten]
  calc body.drop row.ends
    _ = ((span.before ++ span.line :: span.own).flatten ++ span.after.flatten).drop
        (span.before ++ span.line :: span.own).flatten.length := by rw [whole, span.endsAt]
    _ = span.after.flatten := List.drop_left

theorem spanTake (span : Span (splitKeep body) row) :
    body.take row.ends = (span.before ++ span.line :: span.own).flatten := by
  have whole : (span.before ++ span.line :: span.own).flatten ++ span.after.flatten = body := by
    rw [← List.flatten_append, ← spanPieces span, splitKeepFlatten]
  calc body.take row.ends
    _ = ((span.before ++ span.line :: span.own).flatten ++ span.after.flatten).take
        (span.before ++ span.line :: span.own).flatten.length := by rw [whole, span.endsAt]
    _ = (span.before ++ span.line :: span.own).flatten := List.take_left

theorem contentsFront (span : Span (splitKeep body) row) :
    contents (body.take row.begins) = span.before.map content := by
  rw [spanFront span, contents, (splitKeepCut span.whole).1]

theorem contentsBack (span : Span (splitKeep body) row) :
    contents (body.drop row.ends) = span.after.map content := by
  rw [spanBack span, contents, (splitKeepCut (spanPieces span)).2]

theorem contentsInserted (span : Span (splitKeep body) row) {next : Text}
    (noNewline : next.head? ≠ some '\n') :
    contents (body.take row.begins ++ next) = span.before.map content ++ contents next := by
  have ends := endsOfCut span.whole (List.cons_ne_nil _ _) noNewline
  rw [← contentsFront span, spanFront span]
  exact contentsAppend ends

/-- The cover a row's line is read under: a comment at most. -/
theorem coverAtRow (span : Span (splitKeep body) row) :
    coverAfter {} (span.before.map content) =
      ⟨none, (coverAfter {} (span.before.map content)).comment⟩ :=
  rowOutsideFence span.atLabel

theorem readingBody (span : Span (splitKeep body) row) :
    ∃ text, (reading {} (contents body)).2 =
      (reading {} (span.before.map content)).2 ++ (row.label, text) ::
        (reading (coverAfter {} ((span.before ++ span.line :: span.own).map content))
          (span.after.map content)).2 := by
  have pieces : contents body = span.before.map content ++
      (content span.line :: (span.own.map content ++ span.after.map content)) :=
    (congrArg (List.map content) span.whole).trans (by simp)
  obtain ⟨next, labelRead, rest, read⟩ : ∃ next label rest,
      readLine (coverAfter {} (span.before.map content)) (content span.line) = (next, label, rest) :=
    ⟨_, _, _, rfl⟩
  have atLabel := span.atLabel
  rw [read] at atLabel
  obtain rfl : labelRead = some row.label := atLabel
  have ownCover : coverAfter {} ((span.before ++ [span.line]).map content) = next := by
    rw [List.map_append, coverAfterAppend]
    simp [coverAfter, read]
  have afterCover : coverAfter {} ((span.before ++ span.line :: span.own).map content) =
      coverAfter next (span.own.map content) := by
    rw [List.map_append, coverAfterAppend]
    simp [coverAfter, read]
  have rowless := span.rowless
  have rowNext := span.rowNext
  rw [ownCover] at rowless
  rw [afterCover] at rowNext ⊢
  have inside : reading (coverAfter {} (span.before.map content))
      (content span.line :: (span.own.map content ++ span.after.map content)) =
      ([], (row.label, strip (joinLines (rest :: (reading next (span.own.map content)).1))) ::
        (reading (coverAfter next (span.own.map content)) (span.after.map content)).2) := by
    have later := readingAppend next (span.own.map content) rowNext
    rw [rowless, List.nil_append] at later
    rw [reading, seen, read, gather]
    simp only [reading] at later
    rw [later]
    rfl
  have whole := readingAppend {} (span.before.map content) (by rw [inside])
  rw [inside] at whole
  exact ⟨_, by rw [pieces, whole]⟩

end Cut

/-- Where no label is held twice, a row's label is held by no other row. -/
theorem soleRow {body : Text} (plain : duplicatedRowLabels body = []) {row : CriterionRow}
    (member : row ∈ criterionRows body) :
    ∃ front back, criterionRows body = front ++ row :: back ∧
      (∀ other ∈ front, other.label ≠ row.label) ∧ ∀ other ∈ back, other.label ≠ row.label := by
  obtain ⟨front, back, split⟩ := List.append_of_mem member
  have once : ((criterionRows body).map (·.label)).count row.label ≤ 1 := by
    have all := List.filter_eq_nil_iff.mp plain row.label (by cases row.label <;> simp)
    simpa using all
  rw [split] at once
  simp only [List.map_append, List.map_cons, List.count_append, List.count_cons_self] at once
  refine ⟨front, back, split, ?_, ?_⟩
  · intro other inside same
    have held := List.count_pos_iff.mpr (List.mem_map_of_mem (f := (·.label)) inside)
    rw [same] at held
    omega
  · intro other inside same
    have held := List.count_pos_iff.mpr (List.mem_map_of_mem (f := (·.label)) inside)
    rw [same] at held
    omega

def spliceField (field : CriterionField) (replacement : Text) (result : Text) (row : CriterionRow) : Text :=
  if field = row.label then spliceRow result row replacement else result

theorem spliceOthers {field : CriterionField} (rows : List CriterionRow)
    (others : ∀ row ∈ rows, row.label ≠ field) (replacement result : Text) :
    rows.foldl (spliceField field replacement) result = result := by
  induction rows with
  | nil => rfl
  | cons row rows ih =>
    rw [List.foldl_cons, spliceField, if_neg (Ne.symm (others row (by simp)))]
    exact ih fun row member => others row (by simp [member])

/-- What the edit of one field answers for the text it made. -/
def answered (field : CriterionField) (replacement result : Text) : Except ValueError Text :=
  if criterionFieldBodies result field = [strip replacement] then .ok result
  else .error fieldsNotDistinct

theorem replaceAmbiguous {body : Text} (twice : duplicatedRowLabels body ≠ [])
    (replacements : List (CriterionField × Text)) :
    replaceCriterionFields body replacements = .error ambiguousRows := if_pos twice

theorem replaceAbsent {body : Text} (plain : duplicatedRowLabels body = []) {field : CriterionField}
    (absent : ∀ row ∈ criterionRows body, row.label ≠ field) (replacement : Text) :
    replaceCriterionFields body [(field, replacement)] =
      answered field replacement (appendField body field replacement) := by
  have kept := spliceOthers (criterionRows body).reverse (by simpa using absent)
    replacement body
  have names : field ∉ (criterionRows body).map (·.label) := by
    intro member
    obtain ⟨row, inside, same⟩ := List.mem_map.mp member
    exact absent row inside same
  have spliced : (criterionRows body).reverse.foldl (fun result row =>
      [(field, replacement)].foldl (fun result (field, replacement) =>
        if field = row.label then spliceRow result row replacement else result) result) body = body :=
    kept
  unfold replaceCriterionFields
  simp only [spliced, List.foldlM_cons, List.foldlM_nil, names, if_false]
  rw [if_neg (by simpa [duplicatedRowLabels] using plain)]
  unfold answered
  split <;> rfl

theorem replacePresent {body : Text} (plain : duplicatedRowLabels body = []) {row : CriterionRow}
    (member : row ∈ criterionRows body) (replacement : Text) :
    replaceCriterionFields body [(row.label, replacement)] =
      answered row.label replacement (spliceRow body row replacement) := by
  obtain ⟨front, back, split, before, after⟩ := soleRow plain member
  have spliced : (criterionRows body).reverse.foldl (spliceField row.label replacement) body =
      spliceRow body row replacement := by
    rw [split, List.reverse_append, List.reverse_cons, List.append_assoc, List.foldl_append,
      spliceOthers back.reverse (by simpa using after), List.singleton_append, List.foldl_cons,
      spliceField, if_pos rfl, spliceOthers front.reverse (by simpa using before)]
  have spliced' : (criterionRows body).reverse.foldl (fun result other =>
      [(row.label, replacement)].foldl (fun result (field, replacement) =>
        if field = other.label then spliceRow result other replacement else result) result) body =
      spliceRow body row replacement := spliced
  have names : row.label ∈ (criterionRows body).map (·.label) := List.mem_map_of_mem member
  unfold replaceCriterionFields
  simp only [spliced', List.foldlM_cons, List.foldlM_nil, names, if_true]
  rw [if_neg (by simpa [duplicatedRowLabels] using plain)]
  unfold answered
  split <;> rfl

end FireSpec
end Kodezart
