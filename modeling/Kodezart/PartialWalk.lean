import Mathlib

/-! Walks along a partial function: every node names one next node or none. A guarded walk stops
at the first node it meets again; an unguarded one stops only where the path does. -/
namespace Kodezart.PartialWalk

variable {α : Type*} (next : α → Option α)

/-- The nodes behind a node: the next one, the one behind that, and so on. -/
abbrev Ancestor : α → α → Prop := Relation.TransGen fun x y => next x = some y

/-- A node on the path from a cursor on. -/
inductive On : Option α → α → Prop where
  | here (x : α) : On (some x) x
  | later {c x : α} (behind : On (next c) x) : On (some c) x

/-- The path from a cursor ends within so many nodes. -/
def Stops : Nat → Option α → Prop
  | _, none => True
  | 0, some _ => False
  | fuel + 1, some c => Stops fuel (next c)

/-- Whether the path meets a node again, of those walked or of its own. -/
def meetsAgain [DecidableEq α] : Nat → List α → Option α → Option Bool
  | _, _, none => some false
  | 0, _, some _ => none
  | fuel + 1, walked, some c => if c ∈ walked then some true else meetsAgain fuel (c :: walked) (next c)

/-- Whether the path meets a node of one kind. -/
def meetsKind (kind : α → Bool) : Nat → Option α → Option Bool
  | _, none => some false
  | 0, some _ => none
  | fuel + 1, some c => if kind c then some true else meetsKind kind fuel (next c)

variable {next}

theorem onIff {x y : α} : On next (next x) y ↔ Ancestor next x y := by
  constructor
  · intro on
    generalize start : next x = cursor at on
    induction on generalizing x with
    | here y => exact .single start
    | later behind ih => exact .head start (ih rfl)
  · intro ancestor
    induction ancestor using Relation.TransGen.head_induction_on with
    | single step =>
      rw [step]
      exact .here _
    | head step _ ih =>
      rw [step]
      exact .later ih

theorem onAncestor {c x : α} (on : On next (some c) x) : c = x ∨ Ancestor next c x := by
  cases on with
  | here => exact .inl rfl
  | later behind => exact .inr (onIff.mp behind)

theorem meetsKindIff {kind : α → Bool} {fuel : Nat} {cursor : Option α} (stops : Stops next fuel cursor) :
    ∃ met, meetsKind next kind fuel cursor = some met ∧ (met = true ↔ ∃ x, kind x = true ∧ On next cursor x) := by
  induction fuel generalizing cursor with
  | zero =>
    cases cursor with
    | none => exact ⟨false, rfl, iff_of_false nofun fun ⟨_, _, on⟩ => nomatch on⟩
    | some c => exact stops.elim
  | succ fuel ih =>
    cases cursor with
    | none => exact ⟨false, rfl, iff_of_false nofun fun ⟨_, _, on⟩ => nomatch on⟩
    | some c =>
      rw [meetsKind]
      cases here : kind c with
      | true => exact ⟨true, rfl, iff_of_true rfl ⟨c, here, .here c⟩⟩
      | false =>
        obtain ⟨met, answered, means⟩ := ih stops
        refine ⟨met, answered, means.trans ⟨?_, ?_⟩⟩
        · intro found
          obtain ⟨x, holds, on⟩ := found
          exact ⟨x, holds, .later on⟩
        · intro found
          obtain ⟨x, holds, on⟩ := found
          cases on with
          | here => rw [here] at holds; cases holds
          | later behind => exact ⟨x, holds, behind⟩

/-- Of a kind met on a path that ends, there is a last one. -/
theorem lastOfKind {kind : α → Bool} {fuel : Nat} {cursor : Option α} (stops : Stops next fuel cursor) {x : α}
    (holds : kind x = true) (on : On next cursor x) :
    ∃ y, kind y = true ∧ On next cursor y ∧ ∀ z, kind z = true → ¬ On next (next y) z := by
  induction fuel generalizing cursor x with
  | zero =>
    cases on with
    | here => exact stops.elim
    | later => exact stops.elim
  | succ fuel ih =>
    cases cursor with
    | none => cases on
    | some c =>
      by_cases behind : ∃ z, kind z = true ∧ On next (next c) z
      · obtain ⟨z, kind_z, on_z⟩ := behind
        obtain ⟨y, kind_y, on_y, last⟩ := ih stops kind_z on_z
        exact ⟨y, kind_y, .later on_y, last⟩
      · cases on with
        | here => exact ⟨x, holds, .here x, fun z kind_z on_z => behind ⟨z, kind_z, on_z⟩⟩
        | later on => exact absurd ⟨x, holds, on⟩ behind

/-- A path into a cycle does not end. -/
theorem cycleEndless {fuel : Nat} {cursor : Option α} (stops : Stops next fuel cursor) {x : α}
    (on : On next cursor x) : ¬ Ancestor next x x := by
  intro cycle
  induction fuel generalizing cursor with
  | zero =>
    cases on with
    | here => exact stops
    | later => exact stops
  | succ fuel ih =>
    cases on with
    | here => exact ih stops (onIff.mpr cycle)
    | later behind => exact ih stops behind

section Guard
variable [DecidableEq α] {fuel : Nat} {walked : List α} {cursor : Option α}

theorem meetsAgainSome (next : α → Option α) (fuel : Nat) (walked : List α) (c : α) :
    meetsAgain next (fuel + 1) walked (some c) =
      if c ∈ walked then some true else meetsAgain next fuel (c :: walked) (next c) := rfl

theorem meetsAgainStops (free : meetsAgain next fuel walked cursor = some false) : Stops next fuel cursor := by
  induction fuel generalizing walked cursor with
  | zero =>
    cases cursor with
    | none => trivial
    | some c => cases free
  | succ fuel ih =>
    cases cursor with
    | none => trivial
    | some c =>
      rw [meetsAgainSome] at free
      split at free
      · cases free
      · exact ih free

/-- What is met again lies behind itself. -/
theorem meetsAgainCycle (behind : ∀ w ∈ walked, ∀ x, On next cursor x → Ancestor next w x)
    (met : meetsAgain next fuel walked cursor = some true) : ∃ x, Ancestor next x x := by
  induction fuel generalizing walked cursor with
  | zero => cases cursor <;> cases met
  | succ fuel ih =>
    cases cursor with
    | none => cases met
    | some c =>
      rw [meetsAgainSome] at met
      split at met
      · rename_i again
        exact ⟨c, behind c again c (.here c)⟩
      · refine ih ?_ met
        intro w member x on
        rcases List.mem_cons.mp member with rfl | old
        · exact onIff.mp on
        · exact behind w old x (.later on)

/-- A guarded walk over finitely many targets ends: each step adds one of them to what is walked. -/
theorem meetsAgainTotal {targets : Finset α} (inside : ∀ c d, next c = some d → d ∈ targets)
    (started : ∀ c, cursor = some c → c ∈ targets) (enough : (targets \ walked.toFinset).card < fuel) :
    ∃ met, meetsAgain next fuel walked cursor = some met := by
  induction fuel generalizing walked cursor with
  | zero => omega
  | succ fuel ih =>
    cases cursor with
    | none => exact ⟨false, rfl⟩
    | some c =>
      rw [meetsAgainSome]
      split
      · exact ⟨true, rfl⟩
      · rename_i fresh
        refine ih (fun d => inside c d) ?_
        have here : c ∈ targets \ walked.toFinset := by simp [started c rfl, fresh]
        have rest : targets \ (c :: walked).toFinset = (targets \ walked.toFinset).erase c := by
          ext d
          simp only [List.toFinset_cons, Finset.mem_sdiff, Finset.mem_insert, Finset.mem_erase, not_or]
          tauto
        rw [rest, Finset.card_erase_of_mem here]
        have some_left := Finset.card_pos.mpr ⟨c, here⟩
        omega

end Guard
end Kodezart.PartialWalk
