import Mathlib

/-! Slash-separated paths read segment by segment. Nothing here names a program:
a path is its characters, and two spellings of it are compared by their names. -/
namespace Kodezart.RepoPath

section Split
variable {α : Type*} [DecidableEq α]

omit [DecidableEq α] in
theorem intercalateAppend (sep : α) {left : List (List α)} (right : List (List α))
    (start : left ≠ []) (rest : right ≠ []) :
    [sep].intercalate (left ++ right) = [sep].intercalate left ++ sep :: [sep].intercalate right := by
  induction left with
  | nil => exact absurd rfl start
  | cons segment left ih =>
    cases left with
    | nil =>
      obtain ⟨next, right, rfl⟩ := List.exists_cons_of_ne_nil rest
      simp [List.intercalate, List.intersperse]
    | cons other left =>
      have tail := ih (List.cons_ne_nil _ _)
      simp only [List.cons_append, List.intercalate, List.intersperse, List.flatten_cons] at tail ⊢
      rw [tail]
      simp

/-- A text starts with another up to a separator exactly when its segments do. -/
theorem splitPrefix (sep : α) (stem path : List α) :
    (path = stem ∨ stem ++ [sep] <+: path) ↔ stem.splitOn sep <+: path.splitOn sep := by
  constructor
  · rintro (rfl | ⟨rest, rfl⟩)
    · exact List.prefix_rfl
    · rw [List.append_assoc, List.singleton_append, List.splitOn_append_cons_self]
      exact List.prefix_append _ _
  · rintro ⟨rest, shape⟩
    have whole : [sep].intercalate (path.splitOn sep) = path := List.intercalate_splitOn sep
    rw [← shape] at whole
    by_cases last : rest = []
    · subst last
      left
      rw [← whole, List.append_nil, List.intercalate_splitOn]
    · right
      rw [intercalateAppend sep rest (List.splitOn_ne_nil _ _) last, List.intercalate_splitOn] at whole
      exact ⟨[sep].intercalate rest, by rw [← whole]; simp⟩

end Split

def segments (path : List Char) : List (List Char) := path.splitOn '/'

def isName (segment : List Char) : Bool := segment ≠ [] && segment ≠ ['.']

/-- The segments left once `.` segments and repeated or trailing slashes are resolved. -/
def names (path : List Char) : List (List Char) := (segments path).filter isName

/-- A path spelled by its names alone, with nothing to resolve. -/
def Plain (path : List Char) : Prop := ∀ segment ∈ segments path, isName segment

instance (path : List Char) : Decidable (Plain path) := by unfold Plain; infer_instance

/-- The path is the declared one, or lies beneath it, name by name. -/
def Under (path declared : List Char) : Prop := names declared <+: names path

instance (path declared : List Char) : Decidable (Under path declared) := by
  unfold Under
  infer_instance

def withoutTrailingSlashes (path : List Char) : List Char := path.rdropWhile (· = '/')

theorem namesOfPlain {path : List Char} (plain : Plain path) : names path = segments path :=
  List.filter_eq_self.mpr plain

theorem namesTrailingSlash (path : List Char) : names (path ++ ['/']) = names path := by
  rw [names, segments, List.splitOn_append_cons_self]
  simp [isName, names, segments]

@[simp] theorem namesStripped (path : List Char) : names (withoutTrailingSlashes path) = names path := by
  induction path using List.reverseRecOn with
  | nil => rfl
  | append_singleton path c ih =>
    rw [withoutTrailingSlashes, List.rdropWhile_concat]
    split
    · rename_i slash
      cases of_decide_eq_true slash
      rw [namesTrailingSlash]
      exact ih
    · rfl

/-- On a plain path the textual test at segment ends finds exactly what lies under a plain stem. -/
theorem segmentsPrefixIff {path declared : List Char} (plain : Plain path) :
    segments (withoutTrailingSlashes declared) <+: segments path ↔
      Plain (withoutTrailingSlashes declared) ∧ Under path declared := by
  constructor
  · intro starts
    have stem : Plain (withoutTrailingSlashes declared) :=
      fun segment member => plain segment (starts.subset member)
    refine ⟨stem, ?_⟩
    rwa [Under, ← namesStripped declared, namesOfPlain stem, namesOfPlain plain]
  · rintro ⟨stem, under⟩
    rwa [Under, ← namesStripped declared, namesOfPlain stem, namesOfPlain plain] at under

end Kodezart.RepoPath
