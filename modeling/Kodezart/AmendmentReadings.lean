import Kodezart.FieldAmendment

/-! What a body reads as once the edit has put its rows down: the addressed rows as their
replacements, and every other row as in the body with the addressed ones emptied. -/
namespace Kodezart.FieldAmendment
open TextLines FireSpec

section Ink

/-- How many characters of a text are no space. -/
def ink (text : Text) : Nat := text.countP fun c => !isSpace c

theorem inkAppend (text more : Text) : ink (text ++ more) = ink text + ink more := List.countP_append

theorem inkSublist {text more : Text} (part : text.Sublist more) : ink text ≤ ink more := part.countP_le

theorem inkStar {text : Text} (star : '*' ∈ text) : 0 < ink text :=
  List.countP_pos_iff.mpr ⟨'*', star, by decide⟩

theorem inkDropped (text : Text) : ink (text.dropWhile isSpace) = ink text := by
  have blank : ink (text.takeWhile isSpace) = 0 := by
    rw [ink, List.countP_eq_zero]
    intro c member
    simp [List.mem_takeWhile_imp member]
  conv_rhs => rw [← List.takeWhile_append_dropWhile (p := isSpace) (l := text)]
  rw [inkAppend, blank, Nat.zero_add]

theorem inkStrip (text : Text) : ink (strip text) = ink text := by
  rw [strip, List.rdropWhile, ink, List.countP_reverse]
  refine (inkDropped _).trans ?_
  rw [ink, List.countP_reverse]
  exact inkDropped text

theorem inkJoined (lines : List Text) : ink (joinLines lines) = ink lines.flatten := by
  have later : ∀ lines : List Text, ink (lines.flatMap ('\n' :: ·)) = ink lines.flatten := by
    intro lines
    induction lines with
    | nil => rfl
    | cons line lines ih =>
      rw [List.flatMap_cons, List.flatten_cons, inkAppend, inkAppend, ih]
      simp [ink, show isSpace '\n' = true by decide]
  cases lines with
  | nil => rfl
  | cons line lines => rw [joinLines, List.flatten_cons, inkAppend, inkAppend, later]

theorem withoutCommentsSublist (comment : Bool) (line : Text) : (withoutComments comment line).1.Sublist line := by
  fun_induction withoutComments comment line with
  | case1 => exact List.Sublist.refl _
  | case2 rest ih => exact ((ih.cons _).cons _).cons _
  | case3 c rest _ ih => exact ih.cons _
  | case4 rest ih => exact (((ih.cons _).cons _).cons _).cons _
  | case5 c rest _ ih => exact ih.cons_cons _

theorem readLineSublist (cover : Cover) (line : Text) : (readLine cover line).2.2.Sublist line := by
  unfold readLine
  split
  · exact List.Sublist.refl line
  · have visible := withoutCommentsSublist cover.comment line
    dsimp only
    split
    · exact visible
    · split
      · next label rest found =>
        exact ((List.sublist_append_right _ _).trans (rowMatchLabel found).sublist).trans visible
      · exact visible

theorem readLineLabelled {cover : Cover} {line : Text} {field : CriterionField}
    (row : (readLine cover line).2.1 = some field) :
    ∃ rest, rowLabel field ++ rest <:+ (withoutComments cover.comment line).1 ∧ (readLine cover line).2.2 = rest := by
  unfold readLine at row ⊢
  split at row
  · cases row
  · dsimp only at row ⊢
    split at row
    · cases row
    · next plain =>
      split at row
      · next label rest found =>
        cases row
        exact ⟨rest, rowMatchLabel found, by simp⟩
      · cases row

theorem readLineInk {cover : Cover} {line : Text} {field : CriterionField}
    (row : (readLine cover line).2.1 = some field) :
    ink (readLine cover line).2.2 < ink (withoutComments cover.comment line).1 := by
  obtain ⟨rest, shown, same⟩ := readLineLabelled row
  have visible := inkSublist shown.sublist
  have label : 0 < ink (rowLabel field) := inkStar (by simp [rowLabel])
  rw [inkAppend] at visible
  rw [same]
  omega

theorem seenSublist (cover : Cover) (lines : List Text) :
    ((seen cover lines).map (·.2)).flatten.Sublist lines.flatten := by
  induction lines generalizing cover with
  | nil => exact List.Sublist.refl _
  | cons line lines ih =>
    simp only [seen, List.map_cons, List.flatten_cons]
    exact (readLineSublist cover line).append (ih _)

theorem gatherLead (rows : List Seen) : (gather rows).1 <+: rows.map (·.2) := by
  induction rows with
  | nil => exact List.prefix_refl _
  | cons first rows ih =>
    obtain ⟨_ | label, line⟩ := first
    · exact List.cons_prefix_cons.mpr ⟨rfl, ih⟩
    · exact List.nil_prefix

theorem gatherRow {rows : List Seen} {row : CriterionField × Text} (member : row ∈ (gather rows).2) :
    ∃ front line back, rows = front ++ (some row.1, line) :: back ∧ row.2 = strip (joinLines (line :: (gather back).1)) := by
  induction rows with
  | nil => cases member
  | cons first rows ih =>
    obtain ⟨_ | label, line⟩ := first
    · obtain ⟨front, here, back, rfl, text⟩ := ih member
      exact ⟨(none, line) :: front, here, back, rfl, text⟩
    · rcases List.mem_cons.mp member with rfl | later
      · exact ⟨[], line, rows, rfl, rfl⟩
      · obtain ⟨front, here, back, rfl, text⟩ := ih later
        exact ⟨(some label, line) :: front, here, back, rfl, text⟩

theorem rowTextInk (line : Text) (back : List Seen) :
    ink (strip (joinLines (line :: (gather back).1))) ≤ ink line + ink (back.map (·.2)).flatten := by
  rw [inkStrip, inkJoined, List.flatten_cons, inkAppend]
  obtain ⟨more, whole⟩ := gatherLead back
  rw [← whole, List.flatten_append, inkAppend]
  omega

/-- A row's text holds less ink than the lines it is read from: its label is not of it. -/
theorem rowInk {cover : Cover} {lines : List Text} {front back : List Seen} {field : CriterionField} {line : Text}
    (rows : seen cover lines = front ++ (some field, line) :: back) :
    ink (strip (joinLines (line :: (gather back).1))) < ink lines.flatten := by
  refine (rowTextInk line back).trans_lt ?_
  induction lines generalizing cover front with
  | nil => simp [seen] at rows
  | cons first lines ih =>
    rw [seen] at rows
    rw [List.flatten_cons, inkAppend]
    cases front with
    | nil =>
      rw [List.nil_append, List.cons.injEq] at rows
      obtain ⟨here, rfl⟩ := rows
      have label : (readLine cover first).2.1 = some field := by rw [here]
      have less := readLineInk label
      rw [here] at less
      dsimp only at less
      have visible := inkSublist (withoutCommentsSublist cover.comment first)
      have later := inkSublist (seenSublist (readLine cover first).1 lines)
      omega
    | cons _ front =>
      rw [List.cons_append, List.cons.injEq] at rows
      have later := ih rows.2
      omega

end Ink

section Alone

theorem withoutCommentsPlain {text : Text} (plain : '<' ∉ text) (more : Text) :
    withoutComments false (text ++ more) = (text ++ (withoutComments false more).1, (withoutComments false more).2) := by
  induction text with
  | nil => rfl
  | cons c text ih =>
    rw [List.cons_append, withoutComments.eq_5 c (text ++ more) (by rintro _ rfl _; simp at plain),
      ih fun member => plain (List.mem_cons_of_mem c member)]
    rfl

theorem withoutCommentsHides {text : Text} (plain : '-' ∉ text) (more : Text) :
    withoutComments true (text ++ more) = withoutComments true more := by
  induction text with
  | nil => rfl
  | cons c text ih =>
    rw [List.cons_append, withoutComments.eq_3 c (text ++ more) (by rintro _ rfl _; simp at plain)]
    exact ih fun member => plain (List.mem_cons_of_mem c member)

theorem labelPlain (field : CriterionField) : '<' ∉ rowLabel field ∧ '-' ∉ rowLabel field ∧ Unbroken (rowLabel field) := by
  cases field <;> exact ⟨by decide, by decide, by unfold Unbroken; decide⟩

/-- Outside every fence and comment a label starts a row. -/
theorem readLineLabel (field : CriterionField) (rest : Text) : readLine {} (rowLabel field ++ rest) =
    (⟨none, (withoutComments false rest).2⟩, some field, (withoutComments false rest).1) := by
  have visible := withoutCommentsPlain (labelPlain field).1 rest
  have starts : ∀ more, unindented (rowLabel field ++ more) = some (rowLabel field ++ more) := by
    intro more
    simp [unindented, rowLabel]
  have unfenced : ∀ more, fenceMatch (rowLabel field ++ more) = none := by
    intro more
    simp [fenceMatch, starts]
    simp [rowLabel]
  have row : ∀ more, rowMatch (rowLabel field ++ more) = some (field, more) := by
    intro more
    cases field <;> simp [rowMatch, unindented, rowLabel, fieldName, List.findSome?]
  simp [readLine, visible, unfenced, row]

theorem contentsSublist (text : Text) : (contents text).flatten.Sublist text := by
  have raws : ∀ lines : List Text, (lines.map content).flatten.Sublist lines.flatten := by
    intro lines
    induction lines with
    | nil => exact List.Sublist.refl _
    | cons line lines ih => exact (List.takeWhile_sublist _).append ih
  conv_rhs => rw [← splitKeepFlatten text]
  exact raws _

theorem contentsStart {text : Text} (unbroken : Unbroken text) (solid : text ≠ []) (more : Text) :
    ∃ first rest, contents (text ++ more) = (text ++ first) :: rest ∧ (first ++ rest.flatten).Sublist more := by
  induction text with
  | nil => exact absurd rfl solid
  | cons c text ih =>
    have plain : lineBreak c = false := unbroken c (by simp)
    have goesOn : ∀ next, endsLine c next = false := by simp [endsLine, plain]
    cases text with
    | nil =>
      have whole := contentsSublist more
      cases lines : contents more with
      | nil =>
        rw [contentsEmpty.mp lines]
        exact ⟨[], [], by simp [contents, splitKeepCons, goesOn, splitKeep, joinFirst, content, plain], by simp⟩
      | cons first rest =>
        rw [lines] at whole
        refine ⟨first, rest, ?_, whole⟩
        rw [List.singleton_append, contentsGoingOn (goesOn _) lines, plain]
        rfl
    | cons d text =>
      obtain ⟨first, rest, lines, part⟩ := ih (fun e member => unbroken e (by simp [member])) (by simp)
      refine ⟨first, rest, ?_, part⟩
      rw [List.cons_append, contentsGoingOn (goesOn _) lines, plain]
      rfl

theorem contentsFieldText (field : CriterionField) (replacement : Text) :
    ∃ first rest, contents (fieldText field replacement) = (rowLabel field ++ ' ' :: first) :: rest ∧
      (first ++ rest.flatten).Sublist replacement := by
  have unbroken : Unbroken (rowLabel field ++ [' ']) := by
    intro c member
    rcases List.mem_append.mp member with label | space
    · exact (labelPlain field).2.2 c label
    · rw [List.mem_singleton.mp space]
      decide
  obtain ⟨first, rest, lines, part⟩ := contentsStart unbroken (by simp) replacement
  exact ⟨first, rest, by simpa [fieldText] using lines, part⟩

/-- Lines that read as one row from the first of them on, and leave no comment open. -/
def ReadsAs (field : CriterionField) (text : Text) (lines : List Text) : Prop :=
  ∃ line tail fence, seen {} lines = (some field, line) :: tail ∧ (gather tail).2 = [] ∧
    strip (joinLines (line :: (gather tail).1)) = text ∧ coverAfter {} lines = ⟨fence, false⟩

theorem aloneReads {field : CriterionField} {replacement : Text}
    (alone : labelled (criterionRows (fieldText field replacement)) = [(field, strip replacement)])
    (closed : (walkBody (fieldText field replacement)).cover.comment = false) :
    ReadsAs field (strip replacement) (contents (fieldText field replacement)) := by
  obtain ⟨cover, -⟩ := walkCover (splitKeep (fieldText field replacement)) {}
  change (walkBody (fieldText field replacement)).cover = coverAfter {} (contents (fieldText field replacement)) at cover
  rw [cover] at closed
  rw [rowsReading] at alone
  obtain ⟨first, rest, lines, -⟩ := contentsFieldText field replacement
  rw [lines] at alone closed ⊢
  have label := readLineLabel field (' ' :: first)
  rw [reading, seen, label, gather, List.cons.injEq, Prod.mk.injEq] at alone
  generalize left : coverAfter {} ((rowLabel field ++ ' ' :: first) :: rest) = state at closed
  obtain ⟨fence, comment⟩ := state
  obtain rfl : comment = false := closed
  refine ⟨_, _, fence, ?_, alone.2, alone.1.2, left⟩
  rw [seen, label]

theorem readsAsBlank {field : CriterionField} {text : Text} {lines : List Text} (reads : ReadsAs field text lines)
    (extra : Nat) : ReadsAs field text (lines ++ List.replicate extra []) := by
  obtain ⟨line, tail, fence, rows, rowless, same, cover⟩ := reads
  have both : (gather (seen {} lines ++ List.replicate extra (none, []))).2 = (gather (seen {} lines)).2 :=
    (gatherEmpty _ extra).2
  rw [rows, List.cons_append, gather, gather, List.cons.injEq, Prod.mk.injEq] at both
  refine ⟨line, tail ++ List.replicate extra (none, []), fence, ?_, ?_, ?_, ?_⟩
  · rw [seenAppend, rows, (seenEmpty _ extra).1]
    rfl
  · exact both.2.trans rowless
  · exact both.1.2.trans same
  · rw [coverAfterAppend, (seenEmpty _ extra).2, cover]

/-- The lines the edit puts down for a row read as its replacement. -/
theorem amendedReads {field : CriterionField} {replacement : Text}
    (alone : labelled (criterionRows (fieldText field replacement)) = [(field, strip replacement)])
    (closed : (walkBody (fieldText field replacement)).cover.comment = false) :
    ReadsAs field (strip replacement) (contents (fieldText field replacement ++ ['\n', '\n'])) := by
  obtain ⟨extra, lines⟩ := contentsNewlines (fieldText field replacement) 2
  rw [show ['\n', '\n'] = List.replicate 2 '\n' from rfl, lines]
  exact readsAsBlank (aloneReads alone closed) extra

theorem contentsLabel (field : CriterionField) : contents (rowLabel field ++ ['\n']) = [rowLabel field] := by
  rw [contentsLine (labelPlain field).2.2]
  rfl

theorem emptiedReads (field : CriterionField) :
    seen {} [rowLabel field] = [(some field, [])] ∧ coverAfter {} [rowLabel field] = {} := by
  have label := readLineLabel field []
  rw [List.append_nil] at label
  rw [seen, coverAfter, label]
  exact ⟨rfl, rfl⟩

end Alone

section Swap
variable (keep : CriterionField → Bool)

def keptRows (rows : List (CriterionField × Text)) : List (CriterionField × Text) := rows.filter fun row => keep row.1

/-- Two runs of lines read alike but for the rows of some labels. -/
def Alike (rows others : List Seen) : Prop :=
  (gather rows).1 = (gather others).1 ∧ keptRows keep (gather rows).2 = keptRows keep (gather others).2

variable {keep}

theorem alikeBehind {rows others : List Seen} (alike : Alike keep rows others) (front : List Seen) :
    Alike keep (front ++ rows) (front ++ others) := by
  induction front with
  | nil => exact alike
  | cons first front ih =>
    obtain ⟨lead, kept⟩ := ih
    obtain ⟨_ | label, line⟩ := first
    · exact ⟨congrArg (line :: ·) lead, kept⟩
    · refine ⟨rfl, ?_⟩
      simp only [List.cons_append, gather, keptRows, List.filter_cons, lead]
      split
      · exact congrArg (_ :: ·) kept
      · exact kept

/-- A row of another label reads as no row here, whatever its own lines. -/
theorem alikeRow {field : CriterionField} (other : keep field = false) {line line' : Text} {tail tail' rows others : List Seen}
    (rowless : (gather tail).2 = []) (rowless' : (gather tail').2 = []) (alike : Alike keep rows others) :
    Alike keep ((some field, line) :: (tail ++ rows)) ((some field, line') :: (tail' ++ others)) := by
  refine ⟨rfl, ?_⟩
  simp only [gather, keptRows, List.filter_cons, other, Bool.false_eq_true, if_false, gatherRowless _ rowless,
    gatherRowless _ rowless']
  exact alike.2

/-- Chunks written over in two ways: alike where they are not addressed, each one row where they are. -/
structure Swap (lead : List Text) (some_chunks : List Chunk) (addressed : Chunk → Prop) (full bare : Chunk → List Text) : Prop where
  same : ∀ chunk ∈ some_chunks, ¬ addressed chunk → full chunk = bare chunk
  label : ∀ chunk ∈ some_chunks, addressed chunk → bare chunk = [rowLabel chunk.1]
  reads : ∀ chunk ∈ some_chunks, addressed chunk → ∃ text, ReadsAs chunk.1 text (full chunk)
  begins : ∀ early chunk late, some_chunks = early ++ chunk :: late → addressed chunk →
    coverAfter {} (lead ++ early.flatMap bare) = {}
  shut : ∀ early chunk late, some_chunks = early ++ chunk :: late → late ≠ [] → addressed chunk →
    coverAfter {} (lead ++ early.flatMap full) = {} → coverAfter {} (full chunk) = {}

variable {lead : List Text} {some_chunks : List Chunk} {addressed : Chunk → Prop} {full bare : Chunk → List Text}

/-- Before any chunk that another follows, both ways leave the same cover. -/
theorem swapCover (swap : Swap lead some_chunks addressed full bare) (early : List Chunk) {late : List Chunk}
    (split : some_chunks = early ++ late) (more : late ≠ []) :
    coverAfter {} (lead ++ early.flatMap full) = coverAfter {} (lead ++ early.flatMap bare) := by
  induction early using List.reverseRecOn generalizing late with
  | nil => rfl
  | append_singleton early chunk ih =>
    rw [List.append_assoc, List.singleton_append] at split
    have before := ih split (List.cons_ne_nil _ _)
    have member : chunk ∈ some_chunks := by simp [split]
    simp only [List.flatMap_append, List.flatMap_singleton, ← List.append_assoc]
    rw [coverAfterAppend, coverAfterAppend {} (lead ++ early.flatMap bare), before]
    by_cases own : addressed chunk
    · have clean := swap.begins early chunk late split own
      rw [clean, swap.label chunk member own, (emptiedReads chunk.1).2]
      exact swap.shut early chunk late split more own (before.trans clean)
    · rw [swap.same chunk member own]

theorem swapAlike (swap : Swap lead some_chunks addressed full bare)
    (others : ∀ chunk ∈ some_chunks, addressed chunk → keep chunk.1 = false) (late early : List Chunk)
    (split : some_chunks = early ++ late) :
    Alike keep (seen (coverAfter {} (lead ++ early.flatMap full)) (late.flatMap full))
      (seen (coverAfter {} (lead ++ early.flatMap full)) (late.flatMap bare)) := by
  induction late generalizing early with
  | nil => exact ⟨rfl, rfl⟩
  | cons chunk late ih =>
    have member : chunk ∈ some_chunks := by simp [split]
    have later := ih (early ++ [chunk]) (by rw [split, List.append_assoc]; rfl)
    simp only [List.flatMap_append, List.flatMap_singleton, ← List.append_assoc] at later
    rw [coverAfterAppend] at later
    simp only [List.flatMap_cons, seenAppend]
    by_cases own : addressed chunk
    · have clean : coverAfter {} (lead ++ early.flatMap full) = {} :=
        (swapCover swap early split (List.cons_ne_nil _ _)).trans (swap.begins early chunk late split own)
      obtain ⟨text, line, tail, fence, rows, rowless, -, -⟩ := swap.reads chunk member own
      obtain ⟨bareRows, bareCover⟩ := emptiedReads chunk.1
      rw [clean] at later ⊢
      rw [swap.label chunk member own, rows, bareRows, bareCover]
      have shut : late ≠ [] → coverAfter {} (full chunk) = {} := fun more => swap.shut early chunk late split more own clean
      have rest : Alike keep (seen (coverAfter {} (full chunk)) (late.flatMap full)) (seen {} (late.flatMap bare)) := by
        cases late with
        | nil => exact ⟨rfl, rfl⟩
        | cons next late =>
          rw [shut (List.cons_ne_nil _ _)] at later ⊢
          exact later
      exact alikeRow (others chunk member own) rowless rfl rest
    · rw [swap.same chunk member own] at later ⊢
      exact alikeBehind later _

theorem swapReads (swap : Swap lead some_chunks addressed full bare)
    (others : ∀ chunk ∈ some_chunks, addressed chunk → keep chunk.1 = false) :
    keptRows keep (reading {} (lead ++ some_chunks.flatMap full)).2 =
      keptRows keep (reading {} (lead ++ some_chunks.flatMap bare)).2 := by
  have alike := swapAlike swap others some_chunks [] rfl
  rw [List.flatMap_nil, List.append_nil] at alike
  rw [reading, reading, seenAppend, seenAppend]
  exact (alikeBehind alike _).2

end Swap

end Kodezart.FieldAmendment
