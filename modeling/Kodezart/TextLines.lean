import Mathlib

/-! Text as characters: which of them are space, which end a line, and the lines and
stripped forms of a text. The character classes are the language's own. -/
namespace Kodezart

abbrev Text := List Char

instance textLawful : LawfulBEq Text := List.instLawfulBEq

namespace TextLines

-- over the characters of a text, never over every character there is
instance (priority := 2000) decidableEachOf (text : Text) (p : Char → Prop) [DecidablePred p] :
    Decidable (∀ c ∈ text, p c) := List.decidableBAll p text

instance (priority := 2000) decidableSomeOf (text : Text) (p : Char → Prop) [DecidablePred p] :
    Decidable (∃ c ∈ text, p c) := List.decidableBEx p text

/-- The characters `\s` matches in a field pattern. -/
def patternSpace (c : Char) : Bool :=
  (0x9 ≤ c.toNat && c.toNat ≤ 0xd) || c.toNat = 0x20 || c.toNat = 0x85 || c.toNat = 0xa0 ||
  c.toNat = 0x1680 || (0x2000 ≤ c.toNat && c.toNat ≤ 0x200a) || c.toNat = 0x2028 ||
  c.toNat = 0x2029 || c.toNat = 0x202f || c.toNat = 0x205f || c.toNat = 0x3000

/-- `str.isspace` counts the four separators U+001C to U+001F besides. -/
def isSpace (c : Char) : Bool := patternSpace c || (0x1c ≤ c.toNat && c.toNat ≤ 0x1f)

def lineBreak (c : Char) : Bool :=
  (0xa ≤ c.toNat && c.toNat ≤ 0xd) || (0x1c ≤ c.toNat && c.toNat ≤ 0x1e) || c.toNat = 0x85 ||
  c.toNat = 0x2028 || c.toNat = 0x2029

def strip (text : Text) : Text := (text.dropWhile isSpace).rdropWhile isSpace

def rstripNewlines (text : Text) : Text := text.rdropWhile (· = '\n')

/-- `"\n".join`. -/
def joinLines : List Text → Text
  | [] => []
  | line :: lines => line ++ lines.flatMap ('\n' :: ·)

/-- A carriage return before a newline ends no line of its own. -/
def endsLine (c : Char) (next : Text) : Bool := lineBreak c && !(c = '\r' && next.head? = some '\n')

/-- A character that ends no line joins the first line after it. -/
def joinFirst (c : Char) : List Text → List Text
  | [] => [[c]]
  | line :: lines => (c :: line) :: lines

/-- `str.splitlines(keepends=True)`. -/
def splitKeep : Text → List Text
  | [] => []
  | c :: rest =>
    if endsLine c rest then [c] :: splitKeep rest else joinFirst c (splitKeep rest)

/-- A line without what ends it. -/
def content (line : Text) : Text := line.takeWhile fun c => !lineBreak c

/-- `str.splitlines()`. -/
def contents (text : Text) : List Text := (splitKeep text).map content

/-- A text that holds no line end of its own. -/
def Unbroken (text : Text) : Prop := ∀ c ∈ text, lineBreak c = false

theorem spaceOfLineBreak {c : Char} (breaks : lineBreak c) : isSpace c := by
  simp only [lineBreak, isSpace, patternSpace, Bool.or_eq_true, Bool.and_eq_true, decide_eq_true_eq] at *
  omega

theorem splitKeepCons (c : Char) (rest : Text) :
    splitKeep (c :: rest) =
      if endsLine c rest then [c] :: splitKeep rest else joinFirst c (splitKeep rest) := rfl

@[simp] theorem splitKeepFlatten (text : Text) : (splitKeep text).flatten = text := by
  induction text with
  | nil => rfl
  | cons c rest ih =>
    unfold splitKeep
    split
    · simp [ih]
    · cases lines : splitKeep rest with
      | nil => rw [lines] at ih; simpa [joinFirst] using ih
      | cons line more => rw [lines] at ih; simpa [joinFirst] using ih

theorem splitKeepEmpty {text : Text} : splitKeep text = [] ↔ text = [] := by
  cases text with
  | nil => simp [splitKeep]
  | cons c rest =>
    rw [splitKeepCons]
    split
    · simp
    · cases splitKeep rest <;> simp [joinFirst]

/-- The first text ends a line, and what follows does not take its end away. -/
def Ends (text next : Text) : Prop := text = [] ∨ ∃ c, text.getLast? = some c ∧ endsLine c next

theorem splitKeepAppend {text next : Text} (ends : Ends text next) :
    splitKeep (text ++ next) = splitKeep text ++ splitKeep next := by
  induction text with
  | nil => rfl
  | cons c rest ih =>
    cases rest with
    | nil =>
      rcases ends with empty | ⟨last, found, closes⟩
      · simp at empty
      · simp only [List.getLast?_singleton, Option.some.injEq] at found
        subst found
        have alone : endsLine c [] := by
          simp only [endsLine, Bool.and_eq_true] at closes
          simp [endsLine, closes.1]
        simp [splitKeep, closes, alone]
    | cons d rest =>
      have tail : Ends (d :: rest) next := by
        rcases ends with empty | ⟨last, found, closes⟩
        · simp at empty
        · exact Or.inr ⟨last, by simpa using found, closes⟩
      have same : endsLine c (d :: rest ++ next) = endsLine c (d :: rest) := rfl
      rw [List.cons_append, splitKeepCons c (d :: rest ++ next), ih tail, same,
        splitKeepCons c (d :: rest)]
      split
      · rfl
      · cases lines : splitKeep (d :: rest) with
        | nil => exact absurd (splitKeepEmpty.mp lines) (by simp)
        | cons line more => rfl

theorem unbrokenContent (line : Text) : Unbroken (content line) := by
  intro c member
  simpa using List.mem_takeWhile_imp member

theorem splitKeepLine {line : Text} (unbroken : Unbroken line) (rest : Text) :
    splitKeep (line ++ '\n' :: rest) = (line ++ ['\n']) :: splitKeep rest := by
  induction line with
  | nil => simp [splitKeepCons, endsLine, show lineBreak '\n' = true by decide]
  | cons c line ih =>
    have plain : endsLine c (line ++ '\n' :: rest) = false := by
      simp [endsLine, unbroken c (by simp)]
    rw [List.cons_append, splitKeepCons, plain, ih fun d member => unbroken d (by simp [member])]
    rfl

theorem contentLine {line : Text} (unbroken : Unbroken line) : content (line ++ ['\n']) = line := by
  have kept : ∀ c ∈ line, (!lineBreak c) = true := by
    intro c member
    simp [unbroken c member]
  rw [content, List.takeWhile_append_of_pos kept]
  simp [show lineBreak '\n' = true by decide]

theorem contentsLine {line : Text} (unbroken : Unbroken line) (rest : Text) :
    contents (line ++ '\n' :: rest) = line :: contents rest := by
  rw [contents, splitKeepLine unbroken, List.map_cons, contentLine unbroken]
  rfl

/-- Lines written out, each with a newline behind it, and the text after them. -/
theorem contentsLines {lines : List Text} (unbroken : ∀ line ∈ lines, Unbroken line) (rest : Text) :
    contents (lines.flatMap (· ++ ['\n']) ++ rest) = lines ++ contents rest := by
  induction lines with
  | nil => rfl
  | cons line lines ih =>
    have later := ih fun line member => unbroken line (by simp [member])
    rw [List.flatMap_cons, List.append_assoc, List.append_assoc, List.singleton_append,
      contentsLine (unbroken line (by simp)), later]
    rfl

theorem contentsAppend {text next : Text} (ends : Ends text next) :
    contents (text ++ next) = contents text ++ contents next := by
  rw [contents, splitKeepAppend ends, List.map_append]
  rfl

theorem splitKeepNonempty {text line : Text} (member : line ∈ splitKeep text) : line ≠ [] := by
  induction text generalizing line with
  | nil => simp [splitKeep] at member
  | cons c rest ih =>
    rw [splitKeepCons] at member
    split at member
    · rcases List.mem_cons.mp member with rfl | later
      · simp
      · exact ih later
    · cases lines : splitKeep rest with
      | nil => rw [lines] at member; simp_all [joinFirst]
      | cons first more =>
        rw [lines, joinFirst] at member
        rcases List.mem_cons.mp member with rfl | later
        · simp
        · exact ih (by rw [lines]; exact List.mem_cons_of_mem first later)

theorem endsLineAppend {next : Text} (nonempty : next ≠ []) (c : Char) (more : Text) :
    endsLine c (next ++ more) = endsLine c next := by
  cases next with
  | nil => exact absurd rfl nonempty
  | cons d next => rfl

theorem endsLineAlone {c : Char} {next : Text} (ends : endsLine c next) : endsLine c [] := by
  simp only [endsLine, Bool.and_eq_true] at ends
  simp [endsLine, ends.1]

/-- The lines of a text cut between two of them are the lines of its two halves. -/
theorem splitKeepCut {text : Text} {lines more : List Text} (split : splitKeep text = lines ++ more) :
    splitKeep lines.flatten = lines ∧ splitKeep more.flatten = more := by
  induction text generalizing lines with
  | nil =>
    simp only [splitKeep, List.nil_eq, List.append_eq_nil_iff] at split
    obtain ⟨rfl, rfl⟩ := split
    exact ⟨rfl, rfl⟩
  | cons c rest ih =>
    cases lines with
    | nil =>
      have whole := splitKeepFlatten (c :: rest)
      rw [split, List.nil_append] at whole
      exact ⟨rfl, by rw [whole]; exact split⟩
    | cons line lines =>
      rw [splitKeepCons] at split
      cases ends : endsLine c rest with
      | true =>
        simp only [ends, if_true, List.cons_append, List.cons.injEq] at split
        obtain ⟨rfl, split⟩ := split
        obtain ⟨front, back⟩ := ih split
        have whole : lines.flatten ++ more.flatten = rest := by
          rw [← List.flatten_append, ← split, splitKeepFlatten]
        have cut : endsLine c lines.flatten := by
          by_cases empty : lines.flatten = []
          · rw [empty]; exact endsLineAlone ends
          · rw [← endsLineAppend empty c more.flatten, whole]; exact ends
        rw [List.flatten_cons, List.singleton_append, splitKeepCons, cut, front]
        exact ⟨rfl, back⟩
      | false =>
        simp only [ends, Bool.false_eq_true, if_false] at split
        cases first : splitKeep rest with
        | nil =>
          simp only [first, joinFirst, List.cons_append, List.cons.injEq, List.nil_eq,
            List.append_eq_nil_iff] at split
          obtain ⟨rfl, rfl, rfl⟩ := split
          obtain rfl := splitKeepEmpty.mp first
          exact ⟨by simp [splitKeepCons, ends, splitKeep, joinFirst], rfl⟩
        | cons l ls =>
          simp only [first, joinFirst, List.cons_append, List.cons.injEq] at split
          obtain ⟨rfl, rfl⟩ := split
          obtain ⟨front, back⟩ := @ih (l :: lines) (by rw [first]; rfl)
          have whole : (l ++ lines.flatten) ++ more.flatten = rest := by
            rw [← splitKeepFlatten rest, first]; simp
          have member : l ∈ splitKeep rest := by simp [first]
          have solid : l ++ lines.flatten ≠ [] := by simp [splitKeepNonempty member]
          have cut : endsLine c (l ++ lines.flatten) = false := by
            rw [← endsLineAppend solid c more.flatten, whole]; exact ends
          rw [List.flatten_cons] at front
          rw [List.flatten_cons, List.cons_append, splitKeepCons, cut, front]
          exact ⟨rfl, back⟩

/-- Every line but the last one carries the character that ends it. -/
theorem cutAfterBreak {text : Text} {lines more : List Text} (split : splitKeep text = lines ++ more)
    (later : more ≠ []) :
    lines = [] ∨ ∃ c, lines.flatten.getLast? = some c ∧ lineBreak c := by
  induction text generalizing lines with
  | nil =>
    simp only [splitKeep, List.nil_eq, List.append_eq_nil_iff] at split
    exact Or.inl split.1
  | cons c rest ih =>
    cases lines with
    | nil => exact Or.inl rfl
    | cons line lines =>
      right
      rw [splitKeepCons] at split
      cases ends : endsLine c rest with
      | true =>
        simp only [ends, if_true, List.cons_append, List.cons.injEq] at split
        obtain ⟨rfl, split⟩ := split
        rcases ih split with rfl | ⟨last, found, breaks⟩
        · simp only [endsLine, Bool.and_eq_true] at ends
          exact ⟨c, by simp, ends.1⟩
        · exact ⟨last, by simp [List.getLast?_cons, found], breaks⟩
      | false =>
        simp only [ends, Bool.false_eq_true, if_false] at split
        cases first : splitKeep rest with
        | nil =>
          simp only [first, joinFirst, List.cons_append, List.cons.injEq, List.nil_eq,
            List.append_eq_nil_iff] at split
          exact absurd split.2.2 later
        | cons l ls =>
          simp only [first, joinFirst, List.cons_append, List.cons.injEq] at split
          obtain ⟨rfl, rfl⟩ := split
          rcases @ih (l :: lines) (by rw [first]; rfl) with empty | ⟨last, found, breaks⟩
          · cases empty
          · rw [List.flatten_cons] at found
            exact ⟨last, by simp [List.getLast?_cons, found], breaks⟩

/-- Where a line was cut off, a following text that starts with no newline leaves it ended. -/
theorem endsOfCut {text : Text} {lines more : List Text} (split : splitKeep text = lines ++ more)
    (later : more ≠ []) {next : Text} (noNewline : next.head? ≠ some '\n') :
    Ends lines.flatten next := by
  rcases cutAfterBreak split later with rfl | ⟨c, found, breaks⟩
  · exact Or.inl rfl
  · exact Or.inr ⟨c, found, by simp [endsLine, breaks, noNewline]⟩

theorem endsNewline (text next : Text) : Ends (text ++ ['\n']) next :=
  Or.inr ⟨'\n', by simp, rfl⟩

theorem contentsEmpty {text : Text} : contents text = [] ↔ text = [] := by
  rw [contents, List.map_eq_nil_iff, splitKeepEmpty]

theorem contentsEnding {c : Char} {rest : Text} (ends : endsLine c rest) :
    contents (c :: rest) = content [c] :: contents rest := by
  simp [contents, splitKeepCons, ends]

theorem contentsGoingOn {c : Char} {rest line : Text} {lines : List Text}
    (goesOn : endsLine c rest = false) (split : contents rest = line :: lines) :
    contents (c :: rest) = (if lineBreak c then [] else c :: line) :: lines := by
  rw [contents] at split
  cases first : splitKeep rest with
  | nil => rw [first] at split; cases split
  | cons l ls =>
    rw [first, List.map_cons, List.cons.injEq] at split
    obtain ⟨rfl, rfl⟩ := split
    simp only [contents, splitKeepCons, goesOn, Bool.false_eq_true, if_false, first, joinFirst,
      List.map_cons, content, List.takeWhile_cons]
    cases lineBreak c <;> rfl

/-- A newline at the end of a text adds no line to it, or an empty one. -/
theorem contentsNewline (text : Text) :
    contents (text ++ ['\n']) = contents text ∨ contents (text ++ ['\n']) = contents text ++ [[]] := by
  induction text with
  | nil => exact Or.inr rfl
  | cons c rest ih =>
    by_cases empty : rest = []
    · subst empty
      by_cases carriage : c = '\r'
      · subst carriage
        exact Or.inl (by decide)
      · cases breaks : lineBreak c with
        | true =>
          have ends : ∀ next, endsLine c next := by simp [endsLine, breaks, carriage]
          right
          rw [List.singleton_append, contentsEnding (ends _), contentsEnding (ends _)]
          rfl
        | false =>
          left
          simp [contents, splitKeepCons, endsLine, breaks, joinFirst, splitKeep, content,
            show lineBreak '\n' = true by decide]
    · have same := endsLineAppend empty c ['\n']
      cases ends : endsLine c rest with
      | true =>
        rw [List.cons_append, contentsEnding ends, contentsEnding (same.trans ends)]
        rcases ih with kept | added
        · exact Or.inl (by rw [kept])
        · exact Or.inr (by rw [added]; rfl)
      | false =>
        cases lines : contents rest with
        | nil => exact absurd (contentsEmpty.mp lines) empty
        | cons line more =>
          rw [lines] at ih
          rw [List.cons_append, contentsGoingOn ends lines]
          rcases ih with kept | added
          · exact Or.inl (contentsGoingOn (same.trans ends) kept)
          · exact Or.inr (contentsGoingOn (same.trans ends) added)

/-- Newlines at the end of a text add empty lines to it. -/
theorem contentsNewlines (text : Text) (count : Nat) :
    ∃ extra, contents (text ++ List.replicate count '\n') = contents text ++ List.replicate extra [] := by
  induction count with
  | zero => exact ⟨0, by simp⟩
  | succ count ih =>
    obtain ⟨extra, same⟩ := ih
    rw [List.replicate_succ', ← List.append_assoc]
    rcases contentsNewline (text ++ List.replicate count '\n') with kept | added
    · exact ⟨extra, kept.trans same⟩
    · exact ⟨extra + 1, by rw [added, same, List.append_assoc, List.replicate_succ']⟩

theorem rstripNewlinesSplit (text : Text) :
    ∃ count, text = rstripNewlines text ++ List.replicate count '\n' := by
  induction text using List.reverseRecOn with
  | nil => exact ⟨0, rfl⟩
  | append_singleton text c ih =>
    by_cases newline : c = '\n'
    · obtain ⟨count, same⟩ := ih
      refine ⟨count + 1, ?_⟩
      rw [rstripNewlines, List.rdropWhile_concat_pos _ _ _ (by simpa using newline),
        List.replicate_succ', ← List.append_assoc, newline]
      exact congrArg (· ++ ['\n']) same
    · refine ⟨0, ?_⟩
      rw [rstripNewlines, List.rdropWhile_concat_neg _ _ _ (by simpa using newline)]
      simp

/-- A text stripped of newlines and a text as it stands have one reading up to empty lines. -/
theorem contentsRstripped (text : Text) :
    ∃ extra, contents text = contents (rstripNewlines text) ++ List.replicate extra [] := by
  obtain ⟨count, same⟩ := rstripNewlinesSplit text
  obtain ⟨extra, lines⟩ := contentsNewlines (rstripNewlines text) count
  exact ⟨extra, by rw [← lines, ← same]⟩

theorem stripLeading (space : Text) (blank : ∀ c ∈ space, isSpace c) (text : Text) :
    strip (space ++ text) = strip text := by
  rw [strip, List.dropWhile_append_of_pos blank, strip]

theorem stripTrailing {space : Text} (blank : ∀ c ∈ space, isSpace c) (text : Text) :
    strip (text ++ space) = strip text := by
  have dropped : (space.reverse).dropWhile isSpace = [] := by simpa using blank
  have fronts : space.dropWhile isSpace = [] := by simpa using blank
  rw [strip, strip, List.dropWhile_append]
  split
  · next empty => rw [fronts, List.isEmpty_iff.mp empty]
  · rw [List.rdropWhile, List.reverse_append, List.dropWhile_append, dropped]
    rfl

theorem stripEmpty {text : Text} : strip text = [] ↔ ∀ c ∈ text, isSpace c := by
  constructor
  · intro empty c member
    rw [strip, List.rdropWhile_eq_nil_iff] at empty
    rw [← List.takeWhile_append_dropWhile (p := isSpace) (l := text)] at member
    rcases List.mem_append.mp member with front | back
    · exact List.mem_takeWhile_imp front
    · exact empty c back
  · intro blank
    rw [← List.append_nil text, stripLeading _ blank]
    rfl

theorem memOfMemStrip {c : Char} {text : Text} (member : c ∈ strip text) : c ∈ text :=
  (List.dropWhile_sublist isSpace).subset ((List.rdropWhile_prefix isSpace _).subset member)

/-- Text that starts and ends in a visible character, and what is left of what follows it. -/
theorem stripAround {space core tail : Text} (blank : ∀ c ∈ space, isSpace c)
    (starts : ∀ c, core.head? = some c → isSpace c = false)
    (stops : ∀ c, core.getLast? = some c → isSpace c = false) (solid : core ≠ []) :
    strip (space ++ (core ++ tail)) = core ++ tail.rdropWhile isSpace := by
  rw [stripLeading _ blank, strip]
  have front : (core ++ tail).dropWhile isSpace = core ++ tail := by
    cases core with
    | nil => exact absurd rfl solid
    | cons c core => simp [starts c rfl]
  rw [front, List.rdropWhile, List.reverse_append, List.dropWhile_append]
  have back : core.reverse.dropWhile isSpace = core.reverse := by
    cases reversed : core.reverse with
    | nil => exact absurd (List.reverse_eq_nil_iff.mp reversed) solid
    | cons c rest =>
      have last : core.getLast? = some c := by
        rw [← List.head?_reverse, reversed]; rfl
      simp [stops c last]
  split
  · next empty => rw [back, List.reverse_reverse, List.rdropWhile, List.isEmpty_iff.mp empty]; simp
  · simp [List.rdropWhile]

theorem joinLinesAppend {lines : List Text} (nonempty : lines ≠ []) (more : List Text) :
    joinLines (lines ++ more) = joinLines lines ++ more.flatMap ('\n' :: ·) := by
  cases lines with
  | nil => exact absurd rfl nonempty
  | cons line lines => simp [joinLines]

theorem blankLines (extra : Nat) : ∀ c ∈ (List.replicate extra ([] : Text)).flatMap ('\n' :: ·),
    isSpace c := by
  intro c member
  simp only [List.mem_flatMap, List.mem_replicate] at member
  obtain ⟨line, ⟨_, rfl⟩, same⟩ := member
  simp only [List.mem_singleton] at same
  subst same
  decide

theorem stripJoined (lines : List Text) :
    strip (lines.flatMap ('\n' :: ·)) = strip (joinLines lines) := by
  cases lines with
  | nil => rfl
  | cons line lines => exact stripLeading ['\n'] (by decide) _

/-- Two texts that agree from their start agree on their first line. -/
theorem firstLine {line other rest more : Text} (single : '\n' ∉ line) (single' : '\n' ∉ other)
    (starts : line ++ '\n' :: rest <+: other ++ '\n' :: more) : line = other ∧ rest <+: more := by
  induction line generalizing other with
  | nil =>
    cases other with
    | nil => exact ⟨rfl, (List.cons_prefix_cons.mp starts).2⟩
    | cons c other =>
      obtain ⟨rfl, _⟩ := List.cons_prefix_cons.mp starts
      exact absurd List.mem_cons_self single'
  | cons c line ih =>
    cases other with
    | nil =>
      obtain ⟨rfl, _⟩ := List.cons_prefix_cons.mp starts
      exact absurd List.mem_cons_self single
    | cons d other =>
      rw [List.cons_append, List.cons_append, List.cons_prefix_cons] at starts
      obtain ⟨rfl, starts⟩ := starts
      simp only [List.mem_cons, not_or] at single single'
      obtain ⟨rfl, later⟩ := ih single.2 single'.2 starts
      exact ⟨rfl, later⟩

/-- A stripped text starts with what is left of its first line, unless that is blank. -/
theorem stripFirstLine {line : Text} (rest : Text) (visible : ¬ ∀ c ∈ line, isSpace c) :
    strip (line ++ '\n' :: rest) <+: line.dropWhile isSpace ++ '\n' :: rest := by
  rw [strip, List.dropWhile_append]
  split
  · next empty => exact absurd (by simpa using empty) visible
  · exact List.rdropWhile_prefix isSpace _

end TextLines
end Kodezart
