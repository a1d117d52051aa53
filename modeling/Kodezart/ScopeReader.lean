import Kodezart.CycleSearch
import Kodezart.Dict
import Kodezart.Paging
import Kodezart.Tracker

/-! Exhaustive scope reads over the listing tools and the issue read. The tools are what the
tracker answers while the read runs; `fuel` bounds each loop of the source. -/
namespace Kodezart.ScopeReader
open Tracker (TrackerIssue ScopeKind ScopeRef)
open Paging (Page cursorPages)
open CycleSearch (Halt searchAll walkAll)

structure ScopeIssue extends TrackerIssue where
  projectId : Option String := none
  milestoneKey : Option String := none
  deriving DecidableEq, Repr

structure ScopeIssueWire where
  id : NonemptyStr
  projectMilestone : Option NonemptyStr
  deriving DecidableEq, Repr

structure ScopeNamedWire where
  id : NonemptyStr
  name : String
  deriving DecidableEq, Repr

structure ScopeInitiativeWire where
  id : NonemptyStr
  subInitiatives : List NonemptyStr
  deriving DecidableEq, Repr

/-- One deterministic answer a request, in the arguments the reads vary. -/
structure Tools (ε : Type) where
  readIssue : NonemptyStr → Except ε ScopeIssue
  getProject : NonemptyStr → Except ε NonemptyStr
  getInitiative : NonemptyStr → Except ε ScopeInitiativeWire
  listIssuesUnder : NonemptyStr → Option String → Except ε (Page ScopeIssueWire)
  listIssuesOf : NonemptyStr → Option String → Except ε (Page ScopeIssueWire)
  listProjectsOf : NonemptyStr → Option String → Except ε (Page NonemptyStr)
  listProjects : Option String → Except ε (Page NonemptyStr)
  listMilestones : NonemptyStr → Except ε (List ScopeNamedWire)
  getMilestone : NonemptyStr → NonemptyStr → Except ε NonemptyStr

inductive Failure (ε : Type) where
  | scopeRead (message : String) (ref : ScopeRef)
  | protocol (message tool detail : String)
  | backend (failure : ε)
  | unfinished
  deriving DecidableEq

abbrev Found := Dict NonemptyStr ScopeIssue

section Reads
variable {ε α σ : Type}

def read (answer : Except ε α) : Except (Failure ε) α := answer.mapError .backend

/-- Every page of a listing, its rows handled one after the other. -/
def pages (tool : String) (fuel : Nat) (list : Option String → Except ε (Page α)) (row : σ → α → Except (Failure ε) σ)
    (state : σ) : Except (Failure ε) σ :=
  cursorPages (fun cursor => read (list cursor))
    (fun _ => .protocol "scope pagination cannot advance" tool "missing or repeated cursor") .unfinished row fuel [] none state

variable (tools : Tools ε) (ref : ScopeRef) (fuel : Nat)

/-- A detail already held, else the issue read. -/
def detail (held : Found) (key : NonemptyStr) : Except (Failure ε) ScopeIssue :=
  match held.get? key with
  | some issue => .ok issue
  | none => read (tools.readIssue key)

def subtreeRow (parentKey : NonemptyStr) (state : Found × List NonemptyStr) (child : ScopeIssueWire) :
    Except (Failure ε) (Found × List NonemptyStr) := do
  let issue ← detail tools state.1 child.id
  if issue.issueKey ≠ child.id then .error (.scopeRead "issue detail disagrees with its listed identity" ref)
  else if issue.parentKey ≠ some parentKey then .error (.scopeRead "child listing disagrees with its parent" ref)
  else if issue.issueKey ∈ state.1.keys then .ok state
  else .ok (state.1.set issue.issueKey issue, state.2 ++ [issue.issueKey])

/-- The parents still to be listed, the loop reading on as the list grows. -/
def subtreeFrom : Nat → List NonemptyStr → Found → Except (Failure ε) Found
  | _, [], found => .ok found
  | 0, _ :: _, _ => .error .unfinished
  | more + 1, parentKey :: pending, found => do
    let (found, pending) ← pages "list_issues" fuel (tools.listIssuesUnder parentKey) (subtreeRow tools ref parentKey)
      (found, pending)
    subtreeFrom more pending found

def subtree : Except (Failure ε) Found := do
  let root ← read (tools.readIssue ref.key)
  subtreeFrom tools ref fuel fuel [root.issueKey] [(root.issueKey, root)]

def inMilestone (issue : ScopeIssueWire) (milestone : Option NonemptyStr) : Bool :=
  milestone = none ∨ (issue.projectMilestone ≠ none ∧ issue.projectMilestone = milestone)

def projectRow (project : NonemptyStr) (milestone : Option NonemptyStr) (state : Found × Found) (issue : ScopeIssueWire) :
    Except (Failure ε) (Found × Found) := do
  let hydrated ← detail tools state.2 issue.id
  -- a detail held already is written again in its place
  let hydratedIssues := state.2.set issue.id hydrated
  if hydrated.issueKey ≠ issue.id then .error (.scopeRead "issue detail disagrees with its listed identity" ref)
  else if hydrated.projectId ≠ some project.val then
    .error (.scopeRead "issue moved out of the listed project during the scope read" ref)
  else if milestone ≠ none ∧ hydrated.milestoneKey ≠ issue.projectMilestone.map Subtype.val then
    .error (.scopeRead "issue milestone changed between listing and detail reads" ref)
  else if inMilestone issue milestone then .ok (state.1.set hydrated.issueKey hydrated, hydratedIssues)
  else .ok (state.1, hydratedIssues)

def projectIssues (project : NonemptyStr) (milestone : Option NonemptyStr) : Except (Failure ε) Found := do
  let (found, _) ← pages "list_issues" fuel (tools.listIssuesOf project) (projectRow tools ref project milestone) ([], [])
  return found

structure InitiativeWalk where
  found : Found
  seen : List NonemptyStr
  projects : List NonemptyStr
  children : Dict NonemptyStr (List NonemptyStr)

def initiativeProject (state : List NonemptyStr × Found) (project : NonemptyStr) :
    Except (Failure ε) (List NonemptyStr × Found) :=
  if project ∈ state.1 then .ok state
  else do
    let issues ← projectIssues tools ref fuel project none
    return (project :: state.1, state.2.update issues)

def initiativesFrom : Nat → List NonemptyStr → InitiativeWalk → Except (Failure ε) InitiativeWalk
  | _, [], walk => .ok walk
  | 0, _ :: _, _ => .error .unfinished
  | more + 1, key :: pending, walk =>
    if key ∈ walk.seen then initiativesFrom more pending walk
    else do
      let initiative ← read (tools.getInitiative key)
      -- the requested root may be a name; traversed child links carry identifiers
      if walk.seen ≠ [] ∧ initiative.id ≠ key then
        .error (.scopeRead "initiative child lookup returned a different identity" ref)
      else if initiative.id ∈ walk.seen then initiativesFrom more pending walk
      else do
        let (projects, found) ← pages "list_projects" fuel (tools.listProjectsOf initiative.id)
          (initiativeProject tools ref fuel) (walk.projects, walk.found)
        initiativesFrom more (pending ++ initiative.subInitiatives)
          { found, projects, seen := initiative.id :: walk.seen,
            children := walk.children.set initiative.id initiative.subInitiatives.dedup }

def childrenOf (children : Dict NonemptyStr (List NonemptyStr)) (key : NonemptyStr) : List NonemptyStr :=
  (children.get? key).getD []

def checkInitiatives (children : Dict NonemptyStr (List NonemptyStr)) : Except (Failure ε) Unit :=
  match searchAll (childrenOf children) fuel children.keys [] with
  | .ok _ => .ok ()
  | .error .cycle => .error (.scopeRead "initiative child cycle" ref)
  | .error .outOfFuel => .error .unfinished

def initiativeIssues : Except (Failure ε) Found := do
  let walk ← initiativesFrom tools ref fuel fuel [ref.key] ⟨[], [], [], []⟩
  checkInitiatives ref fuel walk.children
  return walk.found

def milestoneProject (state : List (NonemptyStr × NonemptyStr) × List NonemptyStr) (project : NonemptyStr) :
    Except (Failure ε) (List (NonemptyStr × NonemptyStr) × List NonemptyStr) :=
  if project ∈ state.2 then .ok state
  else do
    let milestones ← read (tools.listMilestones project)
    let named := milestones.filter fun milestone => ref.key.val = milestone.id.val ∨ ref.key.val = milestone.name
    return ((named.map fun milestone => (project, milestone.id)) ∪ state.1, project :: state.2)

def milestone : Except (Failure ε) (NonemptyStr × NonemptyStr) := do
  let (found, _) ← pages "list_projects" fuel tools.listProjects (milestoneProject tools ref) ([], [])
  match found with
  | [] => .error (.scopeRead "milestone is missing" ref)
  | [(projectKey, key)] => do
    let milestone ← read (tools.getMilestone projectKey key)
    if milestone ≠ key then .error (.scopeRead "milestone lookup returned a different identity" ref)
    else .ok (projectKey, milestone)
  | _ => .error (.scopeRead "milestone address is ambiguous" ref)

def parentOf (issues : Found) (key : NonemptyStr) : Option NonemptyStr := (issues.get? key).bind (·.parentKey)

def checkIssueParents (issues : Found) : Except (Failure ε) Unit :=
  match walkAll (parentOf issues) issues.keys fuel (issues.values.map (·.issueKey)) [] with
  | .ok _ => .ok ()
  | .error .cycle => .error (.scopeRead "issue parent cycle" ref)
  | .error .outOfFuel => .error .unfinished

def scopeMembers : Except (Failure ε) Found :=
  match ref.kind with
  | .issue => subtree tools ref fuel
  | .project => do
    let project ← read (tools.getProject ref.key)
    projectIssues tools ref fuel project none
  | .milestone => do
    let (projectKey, milestone) ← milestone tools ref fuel
    projectIssues tools ref fuel projectKey (some milestone)
  | .initiative => initiativeIssues tools ref fuel

def scopeIssues : Except (Failure ε) (List ScopeIssue) := do
  let issues ← scopeMembers tools ref fuel
  checkIssueParents ref fuel issues
  return issues.values

end Reads
end Kodezart.ScopeReader
