import Mathlib
import Kodezart.Dict
import Kodezart.Fallible
import Kodezart.Gap
import Kodezart.DepthFirst

/-! Native membership and closure of an addressed issue subtree: the index that accepts
its rows, and the memoised walk its gap and roster are read from. -/
namespace Kodezart.IssueTree
open Tracker Gap DepthFirst

inductive Refusal where
  | scopeReadError (message : String) (ref : ScopeRef)
  | emptyFireCriteriaError (issueKey : String)
  | valueError (message : String)
  | keyError (key : String)
  | outOfFuel
  deriving DecidableEq, Repr

abbrev Facts := Dict String TrackerIssue

def recordKinds : List String := ["tracker", "decision"]

abbrev ChildKeys := Dict String (List String)

/-- `children.get(key, ())` -/
def ChildKeys.of (children : ChildKeys) (key : String) : List String := (children.get? key).getD []

def filed (root : String) (ref : ScopeRef) :
    List TrackerIssue → Facts → ChildKeys → Except Refusal (Facts × ChildKeys)
  | [], facts, children => .ok (facts, children)
  | issue :: rows, facts, children =>
    let key := issue.issueKey.val
    if key ∈ facts.keys then .error (.scopeReadError "duplicate subtree issue" ref)
    else if key ≠ root then
      match issue.parentKey with
      | none => .error (.scopeReadError "subtree member has no parent" ref)
      | some parent =>
        filed root ref rows (facts.set key issue) (children.set parent.val (children.of parent.val ++ [key]))
    else filed root ref rows (facts.set key issue) children

/- The pending list is kept with its end first, where the source pops. -/
def visit (children : ChildKeys) (ref : ScopeRef) :
    Nat → List String → List String → Except Refusal (List String)
  | 0, _, _ => .error .outOfFuel
  | _ + 1, [], visited => .ok visited
  | fuel + 1, key :: pending, visited =>
    if key ∈ visited then .error (.scopeReadError "subtree parent cycle" ref)
    else visit children ref fuel ((children.of key).reverse ++ pending) (visited ++ [key])

def parentIn (facts : Facts) (key : String) : Bool :=
  (facts.get? key).any fun issue => issue.parentKey.any fun parent => parent.val ∈ facts.keys

def indexIssueTree (root : String) (rows : List TrackerIssue) (ref : ScopeRef) : Except Refusal Facts := do
  let (facts, children) ← filed root ref rows [] []
  if root ∉ facts.keys then
    .error (.scopeReadError "subtree root is missing" ref)
  else
    let visited ← visit children ref (rows.length + 1) [root] []
    if visited.toFinset ≠ facts.keys.toFinset then
      .error (.scopeReadError "subtree has disconnected or cyclic parentage" ref)
    else if parentIn facts root then
      .error (.scopeReadError "subtree root has an internal parent" ref)
    else .ok facts

/-- What a closure is built over. -/
structure SubtreeClosure where
  facts : Facts
  ref : ScopeRef
  held : List String
  deriving DecidableEq, Repr

/-- `self.children.get(key, ())` of the table its constructor fills. -/
def SubtreeClosure.children (closure : SubtreeClosure) (key : String) : List TrackerIssue :=
  closure.facts.values.filter fun issue =>
    issue.parentKey.any fun parent => parent.val = key ∧ key ∈ closure.facts.keys

/-- The two caches the walks of one closure fill. -/
structure Memo where
  gaps : Dict String (List TrackerIssue)
  rosters : Dict String (List TrackerIssue)
  deriving DecidableEq, Repr

namespace SubtreeClosure
variable (closure : SubtreeClosure)

def criteria (key : String) : Except Refusal (List TrackerIssue) :=
  let criteria := (closure.children key).filter isCriterion
  if criteria = [] then .error (.emptyFireCriteriaError key) else .ok criteria

/-- `row for child in children for row in readings[child.issue_key]` -/
def gathered (readings : Dict String (List TrackerIssue)) :
    List TrackerIssue → Except Refusal (List TrackerIssue)
  | [] => .ok []
  | child :: children => do
    let rows ← match readings.get? child.issueKey.val with
      | none => .error (.keyError child.issueKey.val)
      | some rows => .ok rows
    return rows ++ (← gathered readings children)

def isRecord (issue : TrackerIssue) (key : String) : Bool :=
  (∃ label ∈ issue.issueLabels, label ∈ recordKinds) ∧ key ∉ closure.held

/-- One turn of the walk: what it writes and what it pushes, its end first. -/
def turn (memo : Memo) (current : String) (expanded : Bool) :
    Except Refusal (Memo × List (String × Bool)) :=
  if current ∈ memo.gaps.keys then .ok (memo, [])
  else match closure.facts.get? current with
    | none => .error (.keyError current)
    | some issue =>
      let children := closure.children current
      if isCriterion issue then
        if children ≠ [] then .error (.scopeReadError "criterion has child issues" closure.ref)
        else do
          let gap ← (computeGap [issue]).mapError fun e => .valueError e.message
          return (⟨memo.gaps.set current gap.owed, memo.rosters.set current [issue]⟩, [])
      else if closure.isRecord issue current then
        if children ≠ [] then .error (.scopeReadError "record issue has child issues" closure.ref)
        else .ok (⟨memo.gaps.set current [], memo.rosters.set current []⟩, [])
      else if expanded then do
        let roster ← gathered memo.rosters children
        let gap ← gathered memo.gaps children
        return (⟨memo.gaps.set current gap, memo.rosters.set current roster⟩, [])
      else do
        let _ ← closure.criteria current
        return (memo, (children.map fun child => (child.issueKey.val, false)).reverse ++ [(current, true)])

/-- The caches as a walk leaves them, and whether it refused. -/
def walk : Nat → List (String × Bool) → Memo → Memo × Except Refusal Unit
  | 0, _, memo => (memo, .error .outOfFuel)
  | _ + 1, [], memo => (memo, .ok ())
  | fuel + 1, (current, expanded) :: pending, memo =>
    match closure.turn memo current expanded with
    | .error e => (memo, .error e)
    | .ok (memo', pushed) => walk fuel (pushed ++ pending) memo'

def walked (memo : Memo) (key : String) : Memo × Except Refusal Unit :=
  closure.walk (2 * closure.facts.length + 3) [(key, false)] memo

/-- One reading after the walk that assembles it. -/
def read (reading : Memo → Dict String (List TrackerIssue)) (memo : Memo) (key : String) :
    Memo × Except Refusal (List TrackerIssue) :=
  let (memo', ended) := closure.walked memo key
  (memo', do
    let _ ← ended
    match (reading memo').get? key with
    | none => .error (.keyError key)
    | some rows => .ok rows)

def gap (memo : Memo) (key : String) : Memo × Except Refusal (List TrackerIssue) :=
  closure.read Memo.gaps memo key

def roster (memo : Memo) (key : String) : Memo × Except Refusal (List TrackerIssue) :=
  closure.read Memo.rosters memo key

def isClosed (memo : Memo) (key : String) : Memo × Except Refusal Bool :=
  let (memo', answer) := closure.gap memo key
  (memo', do return (← answer).isEmpty)

def scopeGap : Except Refusal CriterionGap :=
  (computeGap (closure.facts.values.filter isCriterion)).mapError fun e => .valueError e.message

end SubtreeClosure
end Kodezart.IssueTree
