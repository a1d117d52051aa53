import Mathlib
import Kodezart.Tracker
import Kodezart.FireSpec

/-! Gap membership of criterion records, from their workflow kinds alone. -/
namespace Kodezart.Gap
open Tracker
open FireSpec (ValueError)

inductive GapMembership where
  | owed | discharged | excluded
  deriving DecidableEq, Repr

structure CriterionGap where
  owed : List TrackerIssue
  excluded : List String
  deriving DecidableEq, Repr

def stateMembership : WorkflowStateKind → GapMembership
  | .completed => .discharged
  | .canceled => .excluded
  | .duplicate => .excluded
  | .triage => .owed
  | .backlog => .owed
  | .unstarted => .owed
  | .started => .owed

def isCriterion (issue : TrackerIssue) : Bool := "criterion" ∈ issue.issueLabels

def gapMembership (criterion : TrackerIssue) : Except ValueError GapMembership :=
  if isCriterion criterion then .ok (stateMembership criterion.stateKind)
  else .error ⟨"gap membership requires a criterion sub-issue"⟩

def openStateKind (stateKind : WorkflowStateKind) : Bool := stateMembership stateKind = .owed

def owes (criterion : TrackerIssue) : Bool := openStateKind criterion.stateKind

def computeGap (criteria : List TrackerIssue) : Except ValueError CriterionGap :=
  if ¬ (criteria.map fun criterion => criterion.issueKey.val).Nodup then
    .error ⟨"a criterion identity appears more than once"⟩
  else do
    let memberships ← criteria.mapM fun criterion => do return (criterion, ← gapMembership criterion)
    return ⟨(memberships.filter fun m => m.2 = .owed).map Prod.fst,
      (memberships.filter fun m => m.2 = .excluded).map fun m => m.1.issueKey.val⟩

/-- What is open by its kind is exactly what the gap counts. -/
theorem openIsOwed (kind : WorkflowStateKind) : openStateKind kind = isOpen kind := by
  cases kind <;> rfl

theorem membershipsOk {criteria : List TrackerIssue} (labelled : ∀ c ∈ criteria, isCriterion c = true) :
    (criteria.mapM fun criterion => do return (criterion, ← gapMembership criterion)) =
      (.ok (criteria.map fun criterion => (criterion, stateMembership criterion.stateKind)) : Except ValueError _) := by
  induction criteria with
  | nil => rfl
  | cons c criteria ih =>
    have rest := ih fun c member => labelled c (List.mem_cons_of_mem _ member)
    rw [List.mapM_cons, rest]
    simp [gapMembership, labelled c List.mem_cons_self, bind, Except.bind, pure, Except.pure]

/-- Criteria of distinct keys answer: the owing ones in their order, unchanged. -/
theorem computeGapOk (criteria : List TrackerIssue) (labelled : ∀ c ∈ criteria, isCriterion c = true)
    (distinct : (criteria.map fun criterion => criterion.issueKey.val).Nodup) :
    ∃ excluded, computeGap criteria = .ok ⟨criteria.filter owes, excluded⟩ := by
  have reads : owes = fun c => decide (stateMembership c.stateKind = .owed) := rfl
  rw [computeGap, if_neg (not_not.mpr distinct), membershipsOk labelled]
  refine ⟨_, congrArg Except.ok (CriterionGap.mk.injEq .. |>.mpr ⟨?_, rfl⟩)⟩
  simp [reads, List.filter_map, Function.comp_def]

end Kodezart.Gap
