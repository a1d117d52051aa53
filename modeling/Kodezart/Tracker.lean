import Mathlib
import Kodezart.Branch
import Kodezart.TextLines

/-! Vendor-neutral tracker vocabulary: priorities in their domain order, the workflow
kind partition, relations and the fields of an issue the modelled readers consult. -/
namespace Kodezart.Tracker

inductive IssuePriority where
  | urgent | high | medium | low | none
  deriving DecidableEq, Repr

/-- Position in `PRIORITY_RANK_ORDER`; the lower rank wins. -/
def priorityRank : IssuePriority → Nat
  | .urgent => 0
  | .high => 1
  | .medium => 2
  | .low => 3
  | .none => 4

theorem priorityRankInjective : Function.Injective priorityRank := by
  intro a b same
  cases a <;> cases b <;> first | rfl | cases same

instance : LinearOrder IssuePriority := LinearOrder.lift' priorityRank priorityRankInjective

theorem priorityLe {a b : IssuePriority} : a ≤ b ↔ priorityRank a ≤ priorityRank b := Iff.rfl

inductive WorkflowStateKind where
  | triage | backlog | unstarted | started | completed | canceled | duplicate
  deriving DecidableEq, Repr

def nonCountingStateKinds : List WorkflowStateKind := [.canceled, .duplicate]
def closedStateKinds : List WorkflowStateKind := .completed :: nonCountingStateKinds

def isOpen (kind : WorkflowStateKind) : Bool := kind ∉ closedStateKinds

inductive IssueRelationKind where
  | blockedBy | blocks | related | duplicate
  deriving DecidableEq, Repr

structure IssueRelation where
  kind : IssueRelationKind
  issueKey : NonemptyStr
  deriving DecidableEq, Repr

inductive ScopeKind where
  | initiative | project | milestone | issue
  deriving DecidableEq, Repr

structure ScopeRef where
  kind : ScopeKind
  key : NonemptyStr
  deriving DecidableEq, Repr

structure TrackerIssue where
  issueKey : NonemptyStr
  body : Text := []
  priority : IssuePriority
  stateKind : WorkflowStateKind
  issueLabels : List String := []
  parentKey : Option NonemptyStr := none
  teamKey : Option NonemptyStr := none
  relations : List IssueRelation := []
  createdAt : Int
  deriving DecidableEq, Repr

/-- Every issue this one is blocked by, in relation order. -/
def blockerKeys (issue : TrackerIssue) : List String :=
  issue.relations.filterMap fun relation =>
    if relation.kind = .blockedBy then some relation.issueKey.val else none

end Kodezart.Tracker
