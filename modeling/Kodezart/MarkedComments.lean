import Kodezart.CommentMarkers

/-! A comment under its marker: one complete first line. -/
namespace Kodezart.CommentMarkers
open TextLines

def markedCommentBody (marker body : Text) : Except MarkerError Text :=
  if marker = [] ∨ contents marker ≠ [marker] then .error (.valueError "a comment marker must be one nonempty line")
  else .ok (marker ++ '\n' :: body)

variable {prefixes : Prefixes} {purpose lane marker body text : Text} {occurrenceKey : Option Text}

theorem markedOk (marked : markedCommentBody marker text = .ok body) :
    '\n' ∉ marker ∧ body = marker ++ '\n' :: text := by
  simp only [markedCommentBody] at marked
  split at marked
  · cases marked
  · rename_i oneLine
    cases marked
    refine ⟨?_, rfl⟩
    intro inside
    have lines : contents marker = [marker] := not_not.mp (not_or.mp oneLine).2
    have member : marker ∈ contents marker := by
      rw [lines]
      exact List.mem_cons_self
    obtain ⟨line, -, same⟩ := List.mem_map.mp member
    have breaks := unbrokenContent line '\n' (same ▸ inside)
    cases breaks

theorem splitUnbroken {line : Text} (visible : line ≠ []) (unbroken : Unbroken line) : contents line = [line] := by
  have whole : splitKeep line = [line] := by
    induction line with
    | nil => exact absurd rfl visible
    | cons c line ih =>
      have plain : endsLine c line = false := by simp [endsLine, unbroken c List.mem_cons_self]
      rw [splitKeepCons, plain]
      cases line with
      | nil => rfl
      | cons d line =>
        rw [ih (List.cons_ne_nil d line) fun e member => unbroken e (List.mem_cons_of_mem c member)]
        rfl
  have kept : content line = line := List.takeWhile_eq_self_iff.mpr fun c member => by simp [unbroken c member]
  rw [contents, whole, List.map_singleton, kept]

theorem markedLine {line : Text} (visible : line ≠ []) (unbroken : Unbroken line) (body : Text) :
    markedCommentBody line body = .ok (line ++ '\n' :: body) := by
  refine if_neg ?_
  rw [not_or, not_not]
  exact ⟨visible, splitUnbroken visible unbroken⟩

theorem markedComposed (accepted : Accepted prefixes) (composed : Composed prefixes purpose lane occurrenceKey marker)
    (body : Text) : markedCommentBody marker body = .ok (marker ++ '\n' :: body) := by
  have solid := composedSolid accepted composed
  apply markedLine
  · obtain ⟨inner, rfl, -⟩ := composedInner accepted composed
    exact List.cons_ne_nil _ _
  · intro c member
    by_contra breaks
    have space := spaceOfLineBreak (by simpa using breaks)
    rw [solid c member] at space
    cases space

end Kodezart.CommentMarkers
