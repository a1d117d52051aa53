import Mathlib

/-! Machines that take one event at a time, where an event may not be possible.
A run is read from its newest event back. -/
namespace Kodezart.Machine
variable {S E : Type*} (next : S → E → Option S)

inductive Run (first : S) : List E → S → Prop where
  | start : Run first [] first
  | move {events : List E} {s s' : S} {e : E} (run : Run first events s) (moved : next s e = some s') :
      Run first (events ++ [e]) s'

variable {next} {first s s' : S} {events : List E}

/-- What the first state has and no event takes away holds wherever a run has come. -/
theorem runKeeps {keep : S → Prop} (start : keep first)
    (step : ∀ s e s', keep s → next s e = some s' → keep s') (run : Run next first events s) : keep s := by
  induction run with
  | start => exact start
  | move run moved ih => exact step _ _ _ ih moved

/-- The same where every event on the way was taken in a state that allows it. -/
theorem runKeepsWhile {keep : S → Prop} {allowed : S → E → Prop} (start : keep first)
    (step : ∀ s e s', keep s → allowed s e → next s e = some s' → keep s') (run : Run next first events s)
    (meets : ∀ before e after mid, events = before ++ e :: after → Run next first before mid → allowed mid e) :
    keep s := by
  induction run with
  | start => exact start
  | @move events s s' e run moved ih =>
    refine step s e s' (ih fun before e' after mid same early => ?_) (meets events e [] s rfl run) moved
    exact meets before e' (after ++ [e]) mid (by simp [same]) early

theorem runNil (run : Run next first [] s) : s = first := by
  generalize same : ([] : List E) = events at run
  cases run with
  | start => rfl
  | move => simp at same

theorem runOnce (run : Run next first events s) (again : Run next first events s') : s = s' := by
  induction run generalizing s' with
  | start => exact (runNil again).symm
  | @move events mid s e run moved ih =>
    generalize same : events ++ [e] = whole at again
    cases again with
    | start => simp at same
    | move again moved' =>
      obtain ⟨rfl, last⟩ := List.append_inj' same rfl
      cases List.singleton_inj.mp last
      cases ih again
      exact Option.some.inj (moved.symm.trans moved')

theorem runSingle {e : E} (run : Run next first [e] s) : next first e = some s := by
  generalize same : [e] = events at run
  cases run with
  | start => simp at same
  | @move events mid _ last run moved =>
    obtain ⟨rfl, rfl⟩ : events = [] ∧ last = e := by
      have parts : [] = events ∧ [e] = [last] := List.append_inj' same rfl
      exact ⟨parts.1.symm, (List.singleton_inj.mp parts.2).symm⟩
    rwa [runNil run] at moved

theorem runAppend {mid : S} {events later : List E} (run : Run next first events mid)
    (rest : Run next mid later s) : Run next first (events ++ later) s := by
  induction rest with
  | start => simpa using run
  | move rest moved ih => simpa using ih.move moved

/-- A run over two stretches of events is a run over each. -/
theorem runSplit {events later : List E} (run : Run next first (events ++ later) s) :
    ∃ mid, Run next first events mid ∧ Run next mid later s := by
  generalize same : events ++ later = whole at run
  induction run generalizing later with
  | start =>
    obtain ⟨rfl, rfl⟩ := List.append_eq_nil_iff.mp same
    exact ⟨first, .start, .start⟩
  | @move whole s s' e run moved ih =>
    rcases List.eq_nil_or_concat later with rfl | ⟨front, last, rfl⟩
    · rw [List.append_nil] at same
      subst same
      exact ⟨s', run.move moved, .start⟩
    · rw [List.concat_eq_append] at same ⊢
      rw [← List.append_assoc] at same
      obtain ⟨parts, ends⟩ := List.append_inj' same rfl
      cases List.singleton_inj.mp ends
      obtain ⟨mid, before, after⟩ := ih parts
      exact ⟨mid, before, after.move moved⟩

/-- Taking the events one after the other is a run over them. -/
theorem runFolded (folded : events.foldlM next first = some s) : Run next first events s := by
  induction events using List.reverseRecOn generalizing s with
  | nil =>
    obtain rfl : first = s := Option.some.inj folded
    exact .start
  | append_singleton events e ih =>
    rw [List.foldlM_append] at folded
    obtain ⟨mid, early, last⟩ := Option.bind_eq_some_iff.mp folded
    refine (ih early).move ?_
    simpa using last

end Kodezart.Machine
