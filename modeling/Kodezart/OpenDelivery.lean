import Kodezart.TextLines

/-! Whether an open pull request references an issue: the whole-token search of one text, and
the page of the forge's listing it is made over. -/
namespace Kodezart.OpenDelivery

section Token
-- `\w` over `str`: every letter and digit there is, and the underscore
variable (wordChar : Char → Bool)

/-- `[\w-]` -/
def tokenChar (c : Char) : Bool := wordChar c || c = '-'

/-- `(?<![\w-])KEY(?![\w-])` at one place, behind the character before it. -/
def tokenAt (key : Text) (previous : Option Char) (text : Text) : Bool :=
  !previous.any (tokenChar wordChar) && key.isPrefixOf text && !(text.drop key.length).head?.any (tokenChar wordChar)

/-- `pattern.search`, from one place on. -/
def searchFrom (key : Text) : Option Char → Text → Bool
  | previous, [] => tokenAt wordChar key previous []
  | previous, c :: rest => tokenAt wordChar key previous (c :: rest) || searchFrom key (some c) rest

def search (key text : Text) : Bool := searchFrom wordChar key none text

/-- The key stands in the text with no word character and no hyphen on either side. -/
def HoldsToken (key text : Text) : Prop :=
  ∃ before after, text = before ++ (key ++ after) ∧ before.getLast?.any (tokenChar wordChar) = false ∧
    after.head?.any (tokenChar wordChar) = false

variable {wordChar} {key : Text} {previous : Option Char} {text : Text}

theorem tokenAtIff : tokenAt wordChar key previous text = true ↔ ∃ after, text = key ++ after ∧
    previous.any (tokenChar wordChar) = false ∧ after.head?.any (tokenChar wordChar) = false := by
  simp only [tokenAt, Bool.and_eq_true, Bool.not_eq_true', List.isPrefixOf_iff_prefix]
  constructor
  · intro found
    obtain ⟨⟨free, after, rfl⟩, clear⟩ := found
    rw [List.drop_left] at clear
    exact ⟨after, rfl, free, clear⟩
  · intro found
    obtain ⟨after, rfl, free, clear⟩ := found
    rw [List.drop_left]
    exact ⟨⟨free, after, rfl⟩, clear⟩

/-- From a place on, the search finds every token, and the first may stand at that very place. -/
theorem searchFromIff : searchFrom wordChar key previous text = true ↔ ∃ before after, text = before ++ (key ++ after) ∧
    (before.getLast?.or previous).any (tokenChar wordChar) = false ∧
    after.head?.any (tokenChar wordChar) = false := by
  induction text generalizing previous with
  | nil =>
    rw [searchFrom, tokenAtIff]
    constructor
    · intro found
      obtain ⟨after, same, free, clear⟩ := found
      exact ⟨[], after, same, free, clear⟩
    · intro found
      obtain ⟨before, after, same, free, clear⟩ := found
      obtain ⟨rfl, whole⟩ := List.append_eq_nil_iff.mp same.symm
      exact ⟨after, whole.symm, free, clear⟩
  | cons c rest ih =>
    rw [searchFrom, Bool.or_eq_true, tokenAtIff, ih]
    constructor
    · intro found
      rcases found with ⟨after, same, free, clear⟩ | ⟨before, after, rfl, free, clear⟩
      · exact ⟨[], after, same, free, clear⟩
      · refine ⟨c :: before, after, rfl, ?_, clear⟩
        rw [List.getLast?_cons, Option.some_or]
        cases last : before.getLast? with
        | none => rwa [last, Option.none_or] at free
        | some d => rwa [last, Option.some_or] at free
    · intro found
      obtain ⟨before, after, same, free, clear⟩ := found
      cases before with
      | nil => exact .inl ⟨after, same, free, clear⟩
      | cons d before =>
        obtain ⟨rfl, rfl⟩ := List.cons.inj same
        refine .inr ⟨before, after, rfl, ?_, clear⟩
        rw [List.getLast?_cons, Option.some_or] at free
        cases last : before.getLast? with
        | none => rwa [last] at free
        | some d => rwa [last] at free

theorem searchIff : search wordChar key text = true ↔ HoldsToken wordChar key text := by
  rw [search, searchFromIff]
  simp only [Option.or_none, HoldsToken]

end Token

structure PullRequestSummary where
  number : Nat
  title : Text
  body : Option Text
  deriving DecidableEq, Repr

structure PullRequest where
  summary : PullRequestSummary
  isOpen : Bool
  deriving DecidableEq, Repr

def pageSize : Nat := 100

/-- What the forge lists on one page of the pull requests in the open state. -/
def listing (pulls : List PullRequest) (perPage page : Nat) : List PullRequestSummary :=
  (((pulls.filter PullRequest.isOpen).drop ((page - 1) * perPage)).take perPage).map PullRequest.summary

section Delivery
variable (wordChar : Char → Bool) (pulls : List PullRequest) (issueKey : Text)

def references (summary : PullRequestSummary) : Bool :=
  search wordChar issueKey summary.title || search wordChar issueKey (summary.body.getD [])

/-- The probe asks for no page, which is the first. -/
def openDeliveryExists : Bool := (listing pulls pageSize 1).any (references wordChar issueKey)

/-- The key stands as a whole token in the title or the body; no body is an empty one. -/
def References (summary : PullRequestSummary) : Prop :=
  HoldsToken wordChar issueKey summary.title ∨ HoldsToken wordChar issueKey (summary.body.getD [])

/-- An open pull request references the issue. -/
def Delivered : Prop := ∃ pull ∈ pulls, pull.isOpen = true ∧ References wordChar issueKey pull.summary

variable {wordChar pulls issueKey}

theorem referencesIff {summary : PullRequestSummary} :
    references wordChar issueKey summary = true ↔ References wordChar issueKey summary := by
  rw [references, Bool.or_eq_true, searchIff, searchIff, References]

theorem openDeliveryIff : openDeliveryExists wordChar pulls issueKey = true ↔
    ∃ pull ∈ (pulls.filter PullRequest.isOpen).take pageSize, References wordChar issueKey pull.summary := by
  simp only [openDeliveryExists, listing, Nat.sub_self, Nat.zero_mul, List.drop_zero, List.any_map, List.any_eq_true,
    Function.comp_apply, referencesIff]

theorem deliveredIff : Delivered wordChar pulls issueKey ↔
    (∃ pull ∈ (pulls.filter PullRequest.isOpen).take pageSize, References wordChar issueKey pull.summary) ∨
      ∃ pull ∈ (pulls.filter PullRequest.isOpen).drop pageSize, References wordChar issueKey pull.summary := by
  have opened : Delivered wordChar pulls issueKey ↔
      ∃ pull ∈ pulls.filter PullRequest.isOpen, References wordChar issueKey pull.summary := by
    simp only [Delivered, List.mem_filter, and_assoc]
  rw [opened]
  conv_lhs => rw [← List.take_append_drop pageSize (pulls.filter PullRequest.isOpen)]
  simp only [List.mem_append, or_and_right, exists_or]

/-- The probe is right exactly where a reference past the first page is not the only one. -/
theorem openDeliveryExactIff (wordChar : Char → Bool) (pulls : List PullRequest) (issueKey : Text) :
    (openDeliveryExists wordChar pulls issueKey = true ↔ Delivered wordChar pulls issueKey) ↔
      ((∃ pull ∈ (pulls.filter PullRequest.isOpen).drop pageSize, References wordChar issueKey pull.summary) →
        ∃ pull ∈ (pulls.filter PullRequest.isOpen).take pageSize, References wordChar issueKey pull.summary) := by
  rw [openDeliveryIff, deliveredIff]
  constructor
  · intro exact_answer later
    exact exact_answer.mpr (.inr later)
  · intro earlier
    exact ⟨.inl, fun delivered => delivered.elim id earlier⟩

/-- A page of pull requests about nothing, and one behind it that references the issue. -/
def crowded : List PullRequest :=
  List.replicate pageSize ⟨⟨1, [], none⟩, true⟩ ++ [⟨⟨2, "KOD-97".toList, none⟩, true⟩]

theorem laterPageMissed : ¬ (openDeliveryExists Char.isAlphanum crowded "KOD-97".toList = true ↔
    Delivered Char.isAlphanum crowded "KOD-97".toList) := by
  intro exact_answer
  have missed : openDeliveryExists Char.isAlphanum crowded "KOD-97".toList = false := by decide
  have delivered : Delivered Char.isAlphanum crowded "KOD-97".toList :=
    ⟨⟨⟨2, "KOD-97".toList, none⟩, true⟩, by simp [crowded], rfl, .inl (searchIff.mp (by decide))⟩
  rw [exact_answer.mpr delivered] at missed
  cases missed

end Delivery
end Kodezart.OpenDelivery
