import Mathlib
import Kodezart.Trajectory

/-! The commit a run lands: each record scored against the last commit at or before it, the
best score taken where it was first reached. -/
namespace Kodezart.Trajectory

structure Landing where
  bestSha : Option String := none
  bestCount : Int := -1
  carried : Option String := none
  deriving DecidableEq, Repr

def Landing.record (landing : Landing) (record : IterationRecord) : Landing :=
  let carried := record.commitSha.or landing.carried
  if carried.isSome ∧ landing.bestCount < record.passedCount then
    { bestSha := carried, bestCount := record.passedCount, carried }
  else { landing with carried }

def landableCommit (trajectory : LoopTrajectory) : Option String :=
  (trajectory.records.foldl Landing.record {}).bestSha

section Reachable
variable (records : List IterationRecord)

def commitAt (i : Nat) : Option String := records[i]?.bind IterationRecord.commitSha

/-- Record `i` stands at or after the first commit. -/
def Committed (i : Nat) : Prop := ∃ k ≤ i, (commitAt records k).isSome

/-- The last commit at or before record `i`. -/
def Carries (i : Nat) (sha : String) : Prop :=
  ∃ k ≤ i, commitAt records k = some sha ∧ ∀ j, k < j → j ≤ i → commitAt records j = none

/-- The earliest of the highest scores among the records at or after the first commit. -/
structure Best (i : Nat) (record : IterationRecord) : Prop where
  here : records[i]? = some record
  committed : Committed records i
  highest : ∀ j other, records[j]? = some other → Committed records j → other.passedCount ≤ record.passedCount
  earliest : ∀ j < i, ∀ other, records[j]? = some other → Committed records j → other.passedCount < record.passedCount

end Reachable

/-- What the landing holds once it has read the records. -/
structure Landed (records : List IterationRecord) (landing : Landing) : Prop where
  uncommitted : landing.carried = none → ∀ k, commitAt records k = none
  carried : ∀ sha, landing.carried = some sha →
    ∃ k, commitAt records k = some sha ∧ ∀ j, k < j → commitAt records j = none
  unscored : landing.bestSha = none → landing.carried = none ∧ landing.bestCount = -1
  scored : ∀ sha, landing.bestSha = some sha →
    ∃ i record, Best records i record ∧ Carries records i sha ∧ landing.bestCount = record.passedCount

section Step
variable {records : List IterationRecord} {last : IterationRecord} {landing : Landing}

theorem commitBefore {k : Nat} (before : k < records.length) : commitAt (records ++ [last]) k = commitAt records k := by
  rw [commitAt, List.getElem?_append_left before, commitAt]

theorem commitLast : commitAt (records ++ [last]) records.length = last.commitSha := by
  rw [commitAt, List.getElem?_concat_length]
  rfl

theorem commitBeyond {k : Nat} (beyond : records.length ≤ k) : commitAt records k = none := by
  rw [commitAt, List.getElem?_eq_none beyond]
  rfl

theorem commitInside {k : Nat} {sha : String} (committed : commitAt records k = some sha) : k < records.length := by
  by_contra beyond
  rw [commitBeyond (by omega)] at committed
  cases committed

theorem committedBefore {i : Nat} (before : i < records.length) :
    Committed (records ++ [last]) i ↔ Committed records i := by
  constructor
  · intro committed
    obtain ⟨k, within, found⟩ := committed
    exact ⟨k, within, by rwa [commitBefore (by omega)] at found⟩
  · intro committed
    obtain ⟨k, within, found⟩ := committed
    exact ⟨k, within, by rwa [commitBefore (by omega)]⟩

theorem carriesBefore {i : Nat} {sha : String} (before : i < records.length) (carries : Carries records i sha) :
    Carries (records ++ [last]) i sha := by
  obtain ⟨k, within, found, later⟩ := carries
  refine ⟨k, within, by rwa [commitBefore (by omega)], fun j after upto => ?_⟩
  rw [commitBefore (by omega)]
  exact later j after upto

theorem recordCarried (landed : Landed records landing) (sha : String)
    (carried : (last.commitSha.or landing.carried) = some sha) :
    ∃ k, commitAt (records ++ [last]) k = some sha ∧ ∀ j, k < j → commitAt (records ++ [last]) j = none := by
  have beyond : ∀ j, records.length < j → commitAt (records ++ [last]) j = none :=
    fun j after => commitBeyond (by rw [List.length_append]; exact after)
  cases own : last.commitSha with
  | some made =>
    rw [own, Option.some_or] at carried
    exact ⟨records.length, by rw [commitLast, own, carried], beyond⟩
  | none =>
    rw [own, Option.none_or] at carried
    obtain ⟨k, found, later⟩ := landed.carried sha carried
    have inside := commitInside found
    refine ⟨k, by rwa [commitBefore inside], fun j after => ?_⟩
    rcases Nat.lt_trichotomy j records.length with before | rfl | past
    · rw [commitBefore before]
      exact later j after
    · rw [commitLast, own]
    · exact beyond j past

theorem committedLast (landed : Landed records landing) :
    Committed (records ++ [last]) records.length ↔ (last.commitSha.or landing.carried).isSome := by
  constructor
  · intro committed
    obtain ⟨k, within, found⟩ := committed
    rcases Nat.lt_or_eq_of_le within with before | rfl
    · cases held : landing.carried with
      | some sha => simp
      | none =>
        rw [commitBefore before, landed.uncommitted held] at found
        cases found
    · rw [commitLast] at found
      cases own : last.commitSha with
      | some made => rfl
      | none => rw [own] at found; cases found
  · intro carried
    obtain ⟨sha, held⟩ := Option.isSome_iff_exists.mp carried
    obtain ⟨k, found, -⟩ := recordCarried landed sha held
    have inside := commitInside found
    rw [List.length_append, List.length_singleton] at inside
    exact ⟨k, by omega, by rw [found]; rfl⟩

/-- A score that stays the best of one record more. -/
theorem bestStays {i : Nat} {record : IterationRecord} (best : Best records i record)
    (less : Committed (records ++ [last]) records.length → last.passedCount ≤ record.passedCount) :
    Best (records ++ [last]) i record := by
  have inside : i < records.length := (List.getElem?_eq_some_iff.mp best.here).1
  refine ⟨by rw [List.getElem?_append_left inside, best.here], (committedBefore inside).mpr best.committed, ?_, ?_⟩
  · intro j other found committed
    rcases Nat.lt_or_ge j records.length with before | past
    · rw [List.getElem?_append_left before] at found
      exact best.highest j other found ((committedBefore before).mp committed)
    · have here := (List.getElem?_eq_some_iff.mp found).1
      rw [List.length_append, List.length_singleton] at here
      obtain rfl : j = records.length := by omega
      rw [List.getElem?_concat_length] at found
      cases found
      exact less committed
  · intro j early other found committed
    rw [List.getElem?_append_left (by omega)] at found
    exact best.earliest j early other found ((committedBefore (by omega)).mp committed)

/-- A score above every other, reached at the last record. -/
theorem bestLast (committed : Committed (records ++ [last]) records.length)
    (above : ∀ j other, records[j]? = some other → Committed records j → other.passedCount < last.passedCount) :
    Best (records ++ [last]) records.length last := by
  have before : ∀ j < records.length, ∀ other, (records ++ [last])[j]? = some other →
      Committed (records ++ [last]) j → other.passedCount < last.passedCount := by
    intro j early other found held
    rw [List.getElem?_append_left early] at found
    exact above j other found ((committedBefore early).mp held)
  refine ⟨List.getElem?_concat_length, committed, ?_, before⟩
  intro j other found held
  rcases Nat.lt_or_ge j records.length with early | past
  · exact (before j early other found held).le
  · have here := (List.getElem?_eq_some_iff.mp found).1
    rw [List.length_append, List.length_singleton] at here
    obtain rfl : j = records.length := by omega
    rw [List.getElem?_concat_length] at found
    cases found
    exact le_refl _

theorem landedRecord (landed : Landed records landing) : Landed (records ++ [last]) (landing.record last) := by
  have carriedKept : (landing.record last).carried = last.commitSha.or landing.carried := by
    unfold Landing.record
    dsimp only
    split <;> rfl
  have uncommitted : (landing.record last).carried = none → ∀ k, commitAt (records ++ [last]) k = none := by
    intro none_carried k
    rw [carriedKept, Option.or_eq_none_iff] at none_carried
    rcases Nat.lt_trichotomy k records.length with before | rfl | past
    · rw [commitBefore before]
      exact landed.uncommitted none_carried.2 k
    · rw [commitLast, none_carried.1]
    · exact commitBeyond (by rw [List.length_append]; exact past)
  refine ⟨uncommitted, fun sha held => recordCarried landed sha (carriedKept ▸ held), ?_, ?_⟩
  · unfold Landing.record
    dsimp only
    split
    · rename_i better
      intro none_best
      rw [show last.commitSha.or landing.carried = none from none_best] at better
      cases better.1
    · rename_i worse
      intro none_best
      obtain ⟨none_carried, low⟩ := landed.unscored none_best
      refine ⟨?_, low⟩
      by_contra held
      exact worse ⟨Option.isSome_iff_ne_none.mpr held, by rw [low]; omega⟩
  · unfold Landing.record
    dsimp only
    split
    · rename_i better
      intro sha held
      obtain ⟨k, found, later⟩ := recordCarried landed sha held
      have inside := commitInside found
      rw [List.length_append, List.length_singleton] at inside
      refine ⟨records.length, last, bestLast ((committedLast landed).mpr better.1) ?_,
        ⟨k, by omega, found, fun j after _ => later j after⟩, rfl⟩
      intro j other here committed
      cases scored : landing.bestSha with
      | none =>
        obtain ⟨none_carried, -⟩ := landed.unscored scored
        obtain ⟨k, -, made⟩ := committed
        rw [landed.uncommitted none_carried] at made
        cases made
      | some best =>
        obtain ⟨i, record, isBest, -, count⟩ := landed.scored best scored
        have top := isBest.highest j other here committed
        have beaten := better.2
        omega
    · rename_i worse
      intro sha held
      obtain ⟨i, record, best, carries, count⟩ := landed.scored sha held
      have inside : i < records.length := (List.getElem?_eq_some_iff.mp best.here).1
      refine ⟨i, record, bestStays best ?_, carriesBefore inside carries, count⟩
      intro committed
      have carried := (committedLast landed).mp committed
      have beaten : ¬ landing.bestCount < last.passedCount := fun less => worse ⟨carried, less⟩
      omega

theorem landedRecords (records : List IterationRecord) : Landed records (records.foldl Landing.record {}) := by
  induction records using List.reverseRecOn with
  | nil => exact ⟨fun _ _ => rfl, nofun, fun _ => ⟨rfl, rfl⟩, nofun⟩
  | append_singleton records last ih =>
    rw [List.foldl_append]
    exact landedRecord ih

theorem bestUnique {i j : Nat} {record other : IterationRecord} (best : Best records i record)
    (too : Best records j other) : i = j := by
  rcases Nat.lt_trichotomy i j with before | same | after
  · have less := too.earliest i before record best.here best.committed
    have top := best.highest j other too.here too.committed
    omega
  · exact same
  · have less := best.earliest j after other too.here too.committed
    have top := too.highest i record best.here best.committed
    omega

theorem carriesUnique {i : Nat} {sha other : String} (carries : Carries records i sha)
    (too : Carries records i other) : sha = other := by
  obtain ⟨k, within, found, later⟩ := carries
  obtain ⟨k', within', found', later'⟩ := too
  rcases Nat.lt_trichotomy k k' with before | rfl | after
  · rw [later k' before within'] at found'
    cases found'
  · exact Option.some.inj (found.symm.trans found')
  · rw [later' k after within] at found
    cases found

end Step

/-- Nothing lands exactly where nothing was committed; what lands is the commit carried at the
earliest record of the highest score any committed state reached. -/
theorem landableExact (trajectory : LoopTrajectory) :
    (landableCommit trajectory = none ↔ ∀ record ∈ trajectory.records, record.commitSha = none) ∧
      ∀ sha, landableCommit trajectory = some sha ↔
        ∃ i record, Best trajectory.records i record ∧ Carries trajectory.records i sha := by
  have landed := landedRecords trajectory.records
  have uncommitted : landableCommit trajectory = none ↔ ∀ k, commitAt trajectory.records k = none := by
    constructor
    · intro nothing
      exact landed.uncommitted (landed.unscored nothing).1
    · intro none_made
      by_contra made
      obtain ⟨sha, held⟩ := Option.ne_none_iff_exists'.mp made
      obtain ⟨i, record, best, -, -⟩ := landed.scored sha held
      obtain ⟨k, -, found⟩ := best.committed
      rw [none_made] at found
      cases found
  constructor
  · rw [uncommitted]
    constructor
    · intro none_made record member
      obtain ⟨k, found⟩ := List.getElem?_of_mem member
      have here := none_made k
      rwa [commitAt, found] at here
    · intro none_made k
      cases found : trajectory.records[k]? with
      | none => rw [commitAt, found]; rfl
      | some record =>
        rw [commitAt, found]
        exact none_made record (List.mem_of_getElem? found)
  · intro sha
    constructor
    · intro held
      obtain ⟨i, record, best, carries, -⟩ := landed.scored sha held
      exact ⟨i, record, best, carries⟩
    · rintro ⟨i, record, best, carries⟩
      cases held : landableCommit trajectory with
      | none =>
        obtain ⟨k, -, found⟩ := best.committed
        rw [uncommitted.mp held] at found
        cases found
      | some other =>
        obtain ⟨j, record', best', carries', -⟩ := landed.scored other held
        obtain rfl := bestUnique best best'
        rw [carriesUnique carries carries']

end Kodezart.Trajectory
