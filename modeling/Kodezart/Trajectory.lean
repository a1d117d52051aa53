import Kodezart.CriterionLifecycle

/-! The fold over a loop's iteration records: what never passed, what scored best,
and whether the last records stopped beating the ones before them. -/
namespace Kodezart.Trajectory

structure IterationRecord where
  iteration : Nat
  passedCount : Nat
  failingCriterionIds : List CriterionId
  commitSha : Option String
  deriving DecidableEq, Repr

structure LoopTrajectory where
  records : List IterationRecord
  neverPassedIds : List CriterionId
  bestPassedCount : Nat
  bestIteration : Nat
  bestCommitSha : Option String
  plateaued : Bool
  deriving DecidableEq, Repr

/-- `max` by passed count, the earliest of those that tie. -/
def bestRecord (first : IterationRecord) (records : List IterationRecord) : IterationRecord :=
  records.foldl (fun best record => if best.passedCount < record.passedCount then record else best) first

def bestCount (records : List IterationRecord) : Nat :=
  (records.map IterationRecord.passedCount).foldl max 0

/-- The last `window` records, at least one, against the best of those before them. -/
def plateaued (window : Nat) (records : List IterationRecord) : Bool :=
  window < records.length &&
    let earlier := records.take (records.length - window)
    (records.drop (records.length - window)).all fun record => record.passedCount ≤ bestCount earlier

def foldTrajectory (plateauWindow : Nat) : List IterationRecord → LoopTrajectory
  | [] => ⟨[], [], 0, 0, none, false⟩
  | first :: rest =>
    let best := bestRecord first rest
    { records := first :: rest
      neverPassedIds := first.failingCriterionIds.filter fun criterion =>
        rest.all fun record => criterion ∈ record.failingCriterionIds
      bestPassedCount := best.passedCount
      bestIteration := best.iteration
      bestCommitSha := best.commitSha
      plateaued := plateaued plateauWindow (first :: rest) }

end Kodezart.Trajectory
