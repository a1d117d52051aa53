import Kodezart.CriterionLifecycle
import Kodezart.FireSpec
import Kodezart.JsonText

/-! The Evidence field's codec: one fenced JSON record, written as one row of the
body and read back from it. -/
namespace Kodezart.EvidenceField
open TextLines FireSpec JsonText

def gradedShaKey : Text := ['g', 'r', 'a', 'd', 'e', 'd', 'S', 'h', 'a']

def testKey : Text := ['t', 'e', 's', 't']

def openFence : Text := ['`', '`', '`', 'j', 's', 'o', 'n']

def closeFence : Text := ['`', '`', '`']

def evidenceJson (evidence : CriterionEvidence) : Json :=
  .object [(gradedShaKey, .string evidence.gradedSha.1.toList),
    (testKey, .string evidence.test.1.toList)]

def payload (evidence : CriterionEvidence) : Text := render 0 (evidenceJson evidence)

/-- The fence opens a line of its own, which is what the reader locates the record by. -/
def evidenceFieldValue (evidence : CriterionEvidence) : Text :=
  '\n' :: (openFence ++ '\n' :: (payload evidence ++ '\n' :: closeFence))

def applyEvidence (body : Text) (evidence : CriterionEvidence) : Except ValueError Text :=
  replaceCriterionFields body [(.Evidence, evidenceFieldValue evidence)]

inductive ParseError where
  | value (error : ValueError)
  | payload
  deriving DecidableEq, Repr

def notOneField : ParseError := .value ⟨"exactly one Evidence field is required"⟩

def notFenced : ParseError := .value ⟨"Evidence requires one explicit fenced JSON record"⟩

/-- The strict reading: both fields, of their types, and no other. -/
def validateEvidence : Json → Option CriterionEvidence
  | .object fields =>
    let (sha, fields) := takeField gradedShaKey "graded_sha".toList fields
    let (test, fields) := takeField testKey testKey fields
    match sha.bind asString, test.bind asString, fields with
    | some sha, some test, [] =>
      if admitted : completeSha sha ∧ visible test then
        some ⟨⟨sha, admitted.1⟩, ⟨test, admitted.2⟩⟩
      else none
    | _, _, _ => none
  | _ => none

def parseCriterionEvidence (body : Text) : Except ParseError CriterionEvidence :=
  match criterionFieldBodies body .Evidence with
  | [value] =>
    let front := openFence ++ ['\n']
    let back := '\n' :: closeFence
    if front <+: value ∧ back <:+ value then
      let payload := (value.drop front.length).take (value.length - back.length - front.length)
      match (loads payload).bind validateEvidence with
      | some evidence => .ok evidence
      | none => .error .payload
    else .error notFenced
  | _ => .error notOneField

/-- What the field reads as once it is applied. -/
def record (evidence : CriterionEvidence) : Text :=
  openFence ++ '\n' :: (payload evidence ++ '\n' :: closeFence)

def shaLine (evidence : CriterionEvidence) : Text :=
  ' ' :: ' ' :: (quoted gradedShaKey ++ ([':', ' '] ++ quoted evidence.gradedSha.1.toList ++ [',']))

def testLine (evidence : CriterionEvidence) : Text :=
  ' ' :: ' ' :: (quoted testKey ++ ([':', ' '] ++ quoted evidence.test.1.toList))

def stampLines (evidence : CriterionEvidence) : List Text :=
  [rowLabel .Evidence ++ [' '], openFence, ['\x7b'], shaLine evidence, testLine evidence, ['\x7d'],
    closeFence]

theorem payloadText (evidence : CriterionEvidence) :
    payload evidence = '\x7b' :: '\n' ::
      (shaLine evidence ++ '\n' :: (testLine evidence ++ ['\n', '\x7d'])) := by
  simp [payload, evidenceJson, render, renderFields, bracket, newline, shaLine, testLine]

theorem stampText (evidence : CriterionEvidence) (rest : Text) :
    fieldText .Evidence (evidenceFieldValue evidence) ++ '\n' :: rest =
      (stampLines evidence).flatMap (· ++ ['\n']) ++ rest := by
  simp [fieldText, evidenceFieldValue, stampLines, payloadText]

theorem recordLines (evidence : CriterionEvidence) :
    record evidence = joinLines [openFence, ['\x7b'], shaLine evidence, testLine evidence, ['\x7d'],
      closeFence] := by
  simp [record, payloadText, joinLines]

theorem recordAround (evidence : CriterionEvidence) (space : Text) (blank : ∀ c ∈ space, isSpace c)
    (tail : Text) :
    strip (space ++ (record evidence ++ tail)) = record evidence ++ tail.rdropWhile isSpace := by
  refine stripAround blank ?_ ?_ (by simp [record, openFence])
  · intro c head
    simp only [record, openFence, List.cons_append, List.head?_cons, Option.some.injEq] at head
    subst head
    decide
  · intro c last
    simp only [record, closeFence, List.getLast?_append, List.getLast?_cons, Option.some_or,
      List.getLast?_nil, Option.getD_none, Option.getD_some, Option.some.injEq] at last
    subst last
    decide

theorem stripValue (evidence : CriterionEvidence) : strip (evidenceFieldValue evidence) = record evidence := by
  have around := recordAround evidence ['\n'] (by decide) []
  simpa [record, evidenceFieldValue] using around

/-- A character that ends lines and that the encoder leaves as it is. -/
def separator (c : Char) : Bool := lineBreak c && 0x20 ≤ c.toNat

/-- The pointer holds a line separator that stays raw in the record. -/
def Separated (evidence : CriterionEvidence) : Prop := ∃ c ∈ evidence.test.1.toList, separator c

theorem quotedUnbroken (text : Text) (plain : ∀ c ∈ text, separator c = false) :
    Unbroken (quoted text) := by
  have letters : ∀ c ∈ escapeAlphabet, lineBreak c = false := by decide
  intro d member
  simp only [quoted, List.cons_append, List.mem_cons, List.mem_append, List.mem_flatMap,
    List.not_mem_nil, or_false] at member
  rcases member with rfl | ⟨c, inside, escaped⟩ | rfl
  · decide
  · rcases escapeCharLetters escaped with ⟨rfl, printable⟩ | letter
    · have solid := plain d inside
      simpa [separator, printable] using solid
    · exact letters d letter
  · decide

theorem quotedHex {text : Text} (hex : text.all lowerHexDigit) : quoted text = '"' :: text ++ ['"'] := by
  have plain : ∀ c, lowerHexDigit c → escapeChar c = [c] := by
    intro c digit
    have code := hexCode digit
    refine escapeCharPlain (by omega) ?_ ?_
    · intro same; subst same; revert code; decide
    · intro same; subst same; revert code; decide
  have same : text.flatMap escapeChar = text := by
    induction text with
    | nil => rfl
    | cons c text ih =>
      simp only [List.all_cons, Bool.and_eq_true] at hex
      rw [List.flatMap_cons, plain c hex.1, ih hex.2]
      rfl
  rw [quoted, same]

/-- The sha's line holds hexadecimal digits and its own letters, none of them special. -/
theorem shaLineLetters (evidence : CriterionEvidence) {c : Char} (member : c ∈ shaLine evidence) :
    c ∉ ['*', '>'] ∧ lineBreak c = false := by
  have sound := evidence.gradedSha.2
  simp only [completeSha, Bool.and_eq_true] at sound
  have name : quoted gradedShaKey = '"' :: gradedShaKey ++ ['"'] := by decide
  rw [shaLine, quotedHex sound.2, name] at member
  have letters : ∀ c ∈ [' ', '"', ':', ','] ++ gradedShaKey, c ∉ ['*', '>'] ∧ lineBreak c = false := by
    decide
  by_cases inside : c ∈ evidence.gradedSha.1.toList
  · have code := hexCode (List.all_eq_true.mp sound.2 c inside)
    refine ⟨?_, ?_⟩
    · intro special
      simp only [List.mem_cons, List.not_mem_nil, or_false] at special
      rcases special with rfl | rfl <;> revert code <;> decide
    · simp only [lineBreak, Bool.or_eq_false_iff, Bool.and_eq_false_iff, decide_eq_false_iff_not]
      omega
  · refine letters c ?_
    simp only [List.mem_cons, List.mem_append, List.cons_append, List.not_mem_nil, or_false, inside,
      false_or] at member ⊢
    tauto

theorem stampUnbroken {evidence : CriterionEvidence} (plain : ¬ Separated evidence) :
    ∀ line ∈ stampLines evidence, Unbroken line := by
  have test : Unbroken (testLine evidence) := by
    have name : Unbroken (quoted testKey) := by unfold Unbroken; decide
    have value := quotedUnbroken evidence.test.1.toList fun c member => by
      cases same : separator c with
      | false => rfl
      | true => exact absurd ⟨c, member, same⟩ plain
    intro c member
    simp only [testLine, List.mem_cons, List.mem_append, List.not_mem_nil, or_false] at member
    rcases member with rfl | rfl | key | (rfl | rfl) | pointer
    · decide
    · decide
    · exact name c key
    · decide
    · decide
    · exact value c pointer
  intro line member
  simp only [stampLines, List.mem_cons, List.not_mem_nil, or_false] at member
  rcases member with rfl | rfl | rfl | rfl | rfl | rfl | rfl
  · unfold Unbroken; decide
  · unfold Unbroken; decide
  · unfold Unbroken; decide
  · exact fun c inside => (shaLineLetters evidence inside).2
  · exact test
  · unfold Unbroken; decide
  · unfold Unbroken; decide

theorem notFence (line : Text) : fenceMatch (' ' :: ' ' :: '"' :: line) = none := by
  simp [fenceMatch, unindented]

theorem notClosing (fence : Char × Nat) (line : Text) :
    closes fence (' ' :: ' ' :: '"' :: line) = false := by
  rw [closes, notFence]

/-- Outside fences and comments the stamp reads as one row, and leaves nothing open. -/
theorem readingStamp (evidence : CriterionEvidence) (more : List Text) :
    reading {} (stampLines evidence ++ more) =
      ([], (.Evidence, strip (joinLines ([' '] ::
        ((stampLines evidence).tail ++ (reading {} more).1)))) :: (reading {} more).2) ∧
      coverAfter {} (stampLines evidence) = {} := by
  let fenced : Cover := ⟨some ('`', 3), false⟩
  have label : readLine {} (rowLabel .Evidence ++ [' ']) = ({}, some .Evidence, [' ']) := by decide
  have opening : readLine {} openFence = (fenced, none, openFence) := by decide
  have brace : readLine fenced ['\x7b'] = (fenced, none, ['\x7b']) := by decide
  have sha : readLine fenced (shaLine evidence) = (fenced, none, shaLine evidence) := by
    simp [readLine, fenced, shaLine, quoted, notClosing]
  have test : readLine fenced (testLine evidence) = (fenced, none, testLine evidence) := by
    simp [readLine, fenced, testLine, quoted, notClosing]
  have last : readLine fenced ['\x7d'] = (fenced, none, ['\x7d']) := by decide
  have closing : readLine fenced closeFence = ({}, none, closeFence) := by decide
  simp only [reading, stampLines, List.cons_append, List.nil_append, seen, coverAfter, label, opening,
    brace, sha, test, last, closing, gather, List.tail_cons, and_self]

/-- Inside a fence the stamp is no row. -/
theorem readingStampFenced (evidence : CriterionEvidence) (cover : Cover) {fence : Char × Nat}
    (open' : cover.fence = some fence) : (reading cover (stampLines evidence)).2 = [] := by
  have label : closes fence (rowLabel .Evidence ++ [' ']) = false := by
    simp [closes, show fenceMatch (rowLabel .Evidence ++ [' ']) = none by decide]
  have opening : closes fence openFence = false := by
    have found : fenceMatch openFence = some ('`', 3, ['j', 's', 'o', 'n']) := by decide
    have solid : strip ['j', 's', 'o', 'n'] ≠ [] := by decide
    simp [closes, found, solid]
  have stays : ∀ line, closes fence line = false → readLine cover line = (cover, none, line) := by
    intro line kept
    exact Prod.ext (readLineKeepsFence open' kept) (readLineFenced open' line)
  have brace : closes fence ['\x7b'] = false := by
    simp [closes, show fenceMatch ['\x7b'] = none by decide]
  have last : closes fence ['\x7d'] = false := by
    simp [closes, show fenceMatch ['\x7d'] = none by decide]
  have sha : closes fence (shaLine evidence) = false := notClosing fence _
  have test : closes fence (testLine evidence) = false := notClosing fence _
  simp only [reading, stampLines, seen, stays _ label, stays _ opening, stays _ brace, stays _ sha,
    stays _ test, stays _ last, readLineFenced open' closeFence, gather]

/-- Lines that show the record by themselves, before their first row or as a row. -/
def Shows (evidence : CriterionEvidence) (cover : Cover) (lines : List Text) : Prop :=
  strip (joinLines (reading cover lines).1) = record evidence ∨
    (.Evidence, record evidence) ∈ (reading cover lines).2

theorem testLineLast (evidence : CriterionEvidence) : ∃ front, testLine evidence = front ++ ['"'] :=
  ⟨' ' :: ' ' :: (quoted testKey ++ ([':', ' '] ++
    ('"' :: evidence.test.1.toList.flatMap escapeChar))), by simp [testLine, quoted]⟩

/-- A row that the pointer opens leaves the comment open, or ends in the pointer's own quote. -/
theorem rowOfTest {evidence : CriterionEvidence} {cover : Cover} {label : CriterionField} {rest : Text}
    (read : readLine ⟨none, true⟩ (testLine evidence) = (cover, some label, rest)) :
    cover = ⟨none, true⟩ ∨ rest.getLast? = some '"' := by
  obtain ⟨front, last⟩ := testLineLast evidence
  have visible := withoutCommentsLast (q := '"') (by decide) true front
  rw [last, readLine] at read
  simp only [visible] at read
  split at read
  · cases read
  split at read
  · next named text found =>
    simp only [Prod.mk.injEq, Option.some.injEq] at read
    obtain ⟨rfl, rfl, rfl⟩ := read
    have label := rowMatchLabel found
    split at label
    · next open' => left; simp [open']
    · right
      obtain ⟨before, whole⟩ := label
      have ends := congrArg List.getLast? whole
      cases text with
      | nil => cases named <;> simp [rowLabel, fieldName] at ends
      | cons c text => simpa [List.getLast?_append] using ends
  · cases read

/-- The lines behind the pointer in the stamp carry no row, whatever hides them. -/
theorem readingTail (cover : Cover) (more : List Text) :
    ∃ brace fence after, reading cover (['\x7d'] :: closeFence :: more) =
        (brace :: fence :: (reading after more).1, (reading after more).2) ∧
      (cover = ⟨none, true⟩ → brace = [] ∧ fence = []) := by
  have first : (readLine cover ['\x7d']).2.1 = none := readLineStar (by decide) cover
  have second : (readLine (readLine cover ['\x7d']).1 closeFence).2.1 = none :=
    readLineStar (by decide) _
  refine ⟨(readLine cover ['\x7d']).2.2, (readLine (readLine cover ['\x7d']).1 closeFence).2.2,
    (readLine (readLine cover ['\x7d']).1 closeFence).1, ?_, ?_⟩
  · rw [reading, seen, seen, ← Prod.eta (readLine cover ['\x7d']).2, first,
      ← Prod.eta (readLine (readLine cover ['\x7d']).1 closeFence).2, second]
    rfl
  · intro same
    subst same
    decide

/-- A row that reads as the record starts with a blank line, or with the record's own fence. -/
theorem recordFirstLine {evidence : CriterionEvidence} {rest more : Text} (single : '\n' ∉ rest)
    (same : strip (rest ++ '\n' :: more) = record evidence) (visible : ¬ ∀ c ∈ rest, isSpace c) :
    rest.dropWhile isSpace = openFence ∧ more.head? = some '\x7b' := by
  have starts := stripFirstLine more visible
  have shape : ∃ tail, record evidence = openFence ++ '\n' :: '\x7b' :: tail :=
    ⟨_, by rw [record, payloadText]; rfl⟩
  obtain ⟨tail, shape⟩ := shape
  rw [same, shape] at starts
  have single' : '\n' ∉ rest.dropWhile isSpace :=
    fun member => single ((List.dropWhile_sublist isSpace).subset member)
  obtain ⟨first, brace, later⟩ := firstLine (by decide) single' starts
  exact ⟨first.symm, by rw [← later]; rfl⟩

/-- A row that the pointer opens reads as the record only by what stands behind the stamp. -/
theorem rowOfTestShows {evidence : CriterionEvidence} (plain : ¬ Separated evidence) {cover : Cover}
    {label : CriterionField} {rest brace fence : Text} {lead : List Text}
    (read : readLine ⟨none, true⟩ (testLine evidence) = (cover, some label, rest))
    (hidden : cover = ⟨none, true⟩ → brace = [] ∧ fence = [])
    (same : record evidence = strip (joinLines (rest :: brace :: fence :: lead))) :
    strip (joinLines lead) = record evidence := by
  have unbroken : '\n' ∉ rest := by
    intro member
    have inside : rest ⊆ testLine evidence := by
      have subset := readLineSubset ⟨none, true⟩ (testLine evidence)
      rwa [read] at subset
    have line := stampUnbroken plain (testLine evidence) (by simp [stampLines])
    exact absurd (line '\n' (inside member)) (by decide)
  have joined : joinLines (rest :: brace :: fence :: lead) =
      rest ++ '\n' :: (brace ++ '\n' :: (fence ++ lead.flatMap ('\n' :: ·))) := by
    simp [joinLines]
  rw [joined] at same
  rcases rowOfTest read with open' | quote
  · obtain ⟨rfl, rfl⟩ := hidden open'
    by_cases blank : ∀ c ∈ rest, isSpace c
    · have space : ∀ c ∈ rest ++ ['\n', '\n'], isSpace c := by
        intro c member
        rcases List.mem_append.mp member with front | back
        · exact blank c front
        · exact (by decide : ∀ c ∈ ['\n', '\n'], isSpace c) c back
      have stripped := stripLeading _ space (lead.flatMap ('\n' :: ·))
      rw [stripJoined] at stripped
      rw [same, ← stripped]
      simp
    · obtain ⟨_, brace⟩ := recordFirstLine unbroken same.symm blank
      cases brace
  · have visible : ¬ ∀ c ∈ rest, isSpace c := by
      intro blank
      exact absurd (blank '"' (List.mem_of_getLast? quote)) (by decide)
    obtain ⟨first, _⟩ := recordFirstLine unbroken same.symm visible
    have ends := congrArg List.getLast? (List.takeWhile_append_dropWhile (p := isSpace) (l := rest))
    rw [first, quote] at ends
    simp [openFence] at ends

/-- A record read from lines hidden by a comment is shown by the lines behind the stamp. -/
theorem hiddenStamp {evidence : CriterionEvidence} (plain : ¬ Separated evidence) {more : List Text}
    (found : (.Evidence, record evidence) ∈
      (reading ⟨none, true⟩ (stampLines evidence ++ more)).2) :
    ∃ cover, Shows evidence cover more := by
  have label : readLine ⟨none, true⟩ (rowLabel .Evidence ++ [' ']) = (⟨none, true⟩, none, []) := by
    decide
  have opening : readLine ⟨none, true⟩ openFence = (⟨none, true⟩, none, []) := by decide
  have brace : readLine ⟨none, true⟩ ['\x7b'] = (⟨none, true⟩, none, []) := by decide
  have sha : readLine ⟨none, true⟩ (shaLine evidence) = (⟨none, true⟩, none, []) :=
    readLineHidden fun member => (shaLineLetters evidence member).1 (by simp)
  simp only [reading, stampLines, List.cons_append, List.nil_append, seen, label, opening, brace, sha,
    gather] at found
  cases test : readLine ⟨none, true⟩ (testLine evidence) with
  | mk cover row =>
    obtain ⟨braceLine, fenceLine, after, tail, hidden⟩ := readingTail cover more
    simp only [reading, seen] at tail
    obtain ⟨_ | label, rest⟩ := row
    · simp only [test, gather, tail] at found
      exact ⟨after, Or.inr found⟩
    · simp only [test, gather, tail] at found
      rcases List.mem_cons.mp found with same | later
      · simp only [Prod.mk.injEq] at same
        obtain ⟨rfl, same⟩ := same
        exact ⟨after, Or.inl (rowOfTestShows plain test hidden same)⟩
      · exact ⟨after, Or.inr later⟩

end Kodezart.EvidenceField
