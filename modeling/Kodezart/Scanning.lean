import Mathlib

/-! The leftmost matches of a text, each taken up after the end of the one before, where a
matcher says how far it matches from where it stands. -/
namespace Kodezart.Scanning
variable {α : Type*} (matchAt : List α → Option Nat)

/-- Matches from a position on, the first so many places skipped. -/
def findFrom (position : Nat) : Nat → List α → List (Nat × Nat)
  | _, [] => []
  | skip + 1, _ :: rest => findFrom (position + 1) skip rest
  | 0, c :: rest =>
    match matchAt (c :: rest) with
    | some (extra + 1) => (position, extra + 1) :: findFrom (position + 1) extra rest
    | _ => findFrom (position + 1) 0 rest

/-- Every match of the text: where it starts and how long it is. -/
def findIter (text : List α) : List (Nat × Nat) := findFrom matchAt 0 0 text

variable {matchAt} {position skip : Nat} {text : List α} {m : Nat × Nat}

theorem findSound (member : m ∈ findFrom matchAt position skip text) :
    ∃ k, m.1 = position + k ∧ skip ≤ k ∧ 0 < m.2 ∧ matchAt (text.drop k) = some m.2 := by
  induction text generalizing position skip with
  | nil => cases skip <;> simp [findFrom] at member
  | cons c rest ih =>
    have later : ∀ {skip'}, m ∈ findFrom matchAt (position + 1) skip' rest →
        ∃ k, m.1 = position + k ∧ skip' + 1 ≤ k ∧ 0 < m.2 ∧ matchAt ((c :: rest).drop k) = some m.2 := by
      intro skip' member
      obtain ⟨k, start, skipped, some, found⟩ := ih member
      exact ⟨k + 1, by omega, by omega, some, found⟩
    cases skip with
    | succ skip => exact later member
    | zero =>
      rw [findFrom] at member
      split at member
      · rename_i extra found
        rcases List.mem_cons.mp member with rfl | member
        · exact ⟨0, rfl, le_rfl, Nat.succ_pos _, found⟩
        · obtain ⟨k, start, skipped, rest⟩ := later member
          exact ⟨k, start, Nat.zero_le _, rest⟩
      · obtain ⟨k, start, skipped, rest⟩ := later member
        exact ⟨k, start, Nat.zero_le _, rest⟩

theorem findApart : (findFrom matchAt position skip text).Pairwise fun m later => m.1 + m.2 ≤ later.1 := by
  induction text generalizing position skip with
  | nil => cases skip <;> exact List.Pairwise.nil
  | cons c rest ih =>
    cases skip with
    | succ skip => exact ih
    | zero =>
      rw [findFrom]
      split
      · refine List.pairwise_cons.mpr ⟨fun later member => ?_, ih⟩
        obtain ⟨k, start, skipped, -⟩ := findSound member
        simp only
        omega
      · exact ih

/-- Where the matcher matches at least a place, some match reaches over. -/
theorem findReaches {k n : Nat} (here : matchAt (text.drop k) = some (n + 1)) (inside : k < text.length) :
    k < skip ∨ ∃ m ∈ findFrom matchAt position skip text, m.1 ≤ position + k ∧ position + k < m.1 + m.2 := by
  induction text generalizing position skip k with
  | nil => simp at inside
  | cons c rest ih =>
    have later : ∀ (skip' : Nat) {k' : Nat}, matchAt (rest.drop k') = some (n + 1) → k' < rest.length → k' < skip' ∨
        ∃ m ∈ findFrom matchAt (position + 1) skip' rest, m.1 ≤ position + (k' + 1) ∧ position + (k' + 1) < m.1 + m.2 := by
      intro skip' k' found short
      rcases @ih (position + 1) skip' k' found short with before | ⟨m, member, le, lt⟩
      · exact Or.inl before
      · exact Or.inr ⟨m, member, by omega, by omega⟩
    cases skip with
    | succ skip =>
      cases k with
      | zero => exact Or.inl (Nat.succ_pos _)
      | succ k =>
        rcases later skip here (by simpa using inside) with before | found
        · exact Or.inl (by omega)
        · exact Or.inr found
    | zero =>
      refine Or.inr ?_
      rw [findFrom]
      split
      · rename_i extra found
        cases k with
        | zero => exact ⟨_, List.mem_cons_self, by simp, by simp⟩
        | succ k =>
          rcases later extra here (by simpa using inside) with before | ⟨m, member, reaches⟩
          · exact ⟨_, List.mem_cons_self, by simp, by simp only; omega⟩
          · exact ⟨m, List.mem_cons_of_mem _ member, reaches⟩
      · rename_i unmatched
        cases k with
        | zero => exact absurd here (unmatched n)
        | succ k =>
          rcases later 0 here (by simpa using inside) with before | found
          · omega
          · exact found

end Kodezart.Scanning
