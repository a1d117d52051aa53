import Kodezart.ScopeReader

/-! What a scope read returns. Under any backend a returned reading is checked; over a workspace
that the listings deliver, it is exactly the scope's members. -/
namespace Kodezart.ScopeReader
open Tracker (ScopeKind ScopeRef)
open Paging (Page Delivers)
open CycleSearch (Leads searchAll)

variable {ε α β σ : Type} {tools : Tools ε} {ref : ScopeRef} {fuel more : Nat} {found found' : Found}

theorem readOk {answer : Except ε α} {a : α} : read answer = .ok a ↔ answer = .ok a := mapErrorOk

theorem pagesFolded {tool : String} {list : Option String → Except ε (Page α)} {row : σ → α → Except (Failure ε) σ}
    {state : σ} {count : Nat} {rows : List α} (delivers : Delivers list [] none count rows) (enough : count ≤ fuel) :
    pages tool fuel list row state = rows.foldlM row state :=
  Paging.pagesFold (Paging.deliversRenamed.mpr delivers) enough

theorem pagesRead {tool : String} {list : Option String → Except ε (Page α)} {row : σ → α → Except (Failure ε) σ}
    {state state' : σ} (ok : pages tool fuel list row state = .ok state') :
    ∃ count rows, Delivers list [] none count rows ∧ rows.foldlM row state = .ok state' := by
  obtain ⟨count, rows, delivers, folded⟩ := Paging.pagesDelivered ok
  exact ⟨count, rows, Paging.deliversRenamed.mp delivers, folded⟩

/-- The entries of a reading: each once, under its own key, and of one kind. -/
structure Holding (P : ScopeIssue → Prop) (found : Found) : Prop where
  once : found.keys.Nodup
  own : ∀ e ∈ found, e.1 = e.2.issueKey
  kind : ∀ e ∈ found, P e.2

section Holding
variable {P : ScopeIssue → Prop} {issue : ScopeIssue}

theorem holdingSet (holding : Holding P found) (kind : P issue) : Holding P (found.set issue.issueKey issue) where
  once := Dict.setNodup _ _ holding.once
  own e member := by
    rcases Dict.setMember member with old | rfl
    · exact holding.own e old
    · rfl
  kind e member := by
    rcases Dict.setMember member with old | rfl
    · exact holding.kind e old
    · exact kind

theorem holdingOf {Q : ScopeIssue → Prop} (holding : Holding P found) (weaker : ∀ issue, P issue → Q issue) : Holding Q found :=
  ⟨holding.once, holding.own, fun e member => weaker e.2 (holding.kind e member)⟩

theorem holdingGet {key : NonemptyStr} (holding : Holding P found) (got : found.get? key = some issue) :
    issue.issueKey = key ∧ P issue :=
  ⟨(holding.own _ (Dict.getMember got)).symm, holding.kind _ (Dict.getMember got)⟩

theorem holdingOnly (kind : P issue) : Holding P [(issue.issueKey, issue)] where
  once := by simp [Dict.keys]
  own e member := by
    obtain rfl := List.mem_singleton.mp member
    rfl
  kind e member := by
    obtain rfl := List.mem_singleton.mp member
    exact kind

theorem valuesKeys (holding : Holding P found) : found.values.map (·.issueKey) = found.keys := by
  rw [Dict.values, Dict.keys, List.map_map]
  exact List.map_congr_left fun e member => (holding.own e member).symm

end Holding

/-- A listing delivered in full, over any pages. -/
def Listed (list : Option String → Except ε (Page α)) (rows : List α) : Prop := ∃ count, Delivers list [] none count rows

theorem listedOnce {list : Option String → Except ε (Page α)} {rows rows' : List α} (one : Listed list rows) (other : Listed list rows') :
    rows = rows' := by
  obtain ⟨_, one⟩ := one
  obtain ⟨_, other⟩ := other
  exact Paging.deliversOnce one other

theorem detailOk {held : Found} {key : NonemptyStr} {issue : ScopeIssue} :
    detail tools held key = .ok issue ↔ held.get? key = some issue ∨ held.get? key = none ∧ tools.readIssue key = .ok issue := by
  unfold detail
  cases held.get? key with
  | none => simp [readOk]
  | some other => simp

section Subtree
variable {parentKey : NonemptyStr} {child : ScopeIssueWire} {root : ScopeIssue} {pending : List NonemptyStr}
  {state state' : Found × List NonemptyStr} {before : List ScopeIssueWire}

/-- `b` is listed under `a`. -/
def Under (tools : Tools ε) (a b : NonemptyStr) : Prop := ∃ rows, Listed (tools.listIssuesUnder a) rows ∧ ∃ row ∈ rows, row.id = b

theorem subtreeRowOk : subtreeRow tools ref parentKey state child = .ok state' ↔
    ∃ issue, detail tools state.1 child.id = .ok issue ∧ issue.issueKey = child.id ∧ issue.parentKey = some parentKey ∧
      state' = if child.id ∈ state.1.keys then state else (state.1 ++ [(issue.issueKey, issue)], state.2 ++ [child.id]) := by
  rw [subtreeRow, bindOk]
  refine exists_congr fun issue => and_congr_right fun _ => ?_
  by_cases named : issue.issueKey = child.id
  · by_cases parent : issue.parentKey = some parentKey
    · by_cases held : child.id ∈ state.1.keys
      · simp [named, parent, held, eq_comm]
      · rw [← named] at held ⊢
        simp [parent, held, eq_comm, Dict.setFresh _ held]
    · simp [named, parent]
  · simp [named]

/-- An issue of a subtree: the root as it was read, or one read under a key its parent lists. -/
def Kin (tools : Tools ε) (root issue : ScopeIssue) : Prop :=
  issue = root ∨ tools.readIssue issue.issueKey = .ok issue ∧
    ∃ parent, issue.parentKey = some parent ∧ Under tools parent issue.issueKey

/-- The loop over the parents still to be listed. -/
structure Gathering (tools : Tools ε) (root : ScopeIssue) (pending : List NonemptyStr) (found : Found) : Prop where
  holding : Holding (Kin tools root) found
  start : root.issueKey ∈ found.keys
  queued : ∀ k ∈ pending, k ∈ found.keys
  reached : ∀ k ∈ found.keys, Relation.ReflTransGen (Under tools) root.issueKey k
  covered : ∀ k ∈ found.keys, k ∈ pending ∨ ∀ c, Under tools k c → c ∈ found.keys

/-- One parent's rows, so many of them handled. -/
structure Grown (tools : Tools ε) (root : ScopeIssue) (found : Found) (pending : List NonemptyStr)
    (before : List ScopeIssueWire) (state : Found × List NonemptyStr) : Prop where
  holding : Holding (Kin tools root) state.1
  new : ∃ new : Found, state.1 = found ++ new ∧ state.2 = pending ++ new.keys ∧ ∀ k ∈ new.keys, ∃ row ∈ before, row.id = k
  all : ∀ row ∈ before, row.id ∈ state.1.keys

theorem keysAppend (one other : Found) : Dict.keys (one ++ other) = one.keys ++ other.keys := List.map_append

theorem grownRow {row : ScopeIssueWire} (listed : Under tools parentKey row.id) (grown : Grown tools root found pending before state)
    (ok : subtreeRow tools ref parentKey state row = .ok state') : Grown tools root found pending (before ++ [row]) state' := by
  obtain ⟨issue, read, named, parent, rfl⟩ := subtreeRowOk.mp ok
  obtain ⟨new, grew, queue, from_⟩ := grown.new
  split
  · rename_i held
    refine ⟨grown.holding, ⟨new, grew, queue, fun k member => ?_⟩, fun other member => ?_⟩
    · obtain ⟨row, inside, same⟩ := from_ k member
      exact ⟨row, List.mem_append_left _ inside, same⟩
    · rcases List.mem_append.mp member with earlier | last
      · exact grown.all other earlier
      · exact List.mem_singleton.mp last ▸ held
  · rename_i fresh
    have answered : tools.readIssue row.id = .ok issue := by
      rcases detailOk.mp read with got | ⟨-, answered⟩
      · exact absurd ((Dict.getSome _ _).mpr ⟨issue, got⟩) fresh
      · exact answered
    have kin : Kin tools root issue := .inr ⟨named ▸ answered, parentKey, parent, named ▸ listed⟩
    have written := Dict.setFresh issue (named ▸ fresh : issue.issueKey ∉ state.1.keys)
    refine ⟨written ▸ holdingSet grown.holding kin, ⟨new ++ [(issue.issueKey, issue)], ?_, ?_, fun k member => ?_⟩, fun other member => ?_⟩
    · simp [grew]
    · simp [queue, Dict.keys, named]
    · rw [keysAppend, List.mem_append] at member
      rcases member with earlier | last
      · obtain ⟨row, inside, same⟩ := from_ k earlier
        exact ⟨row, List.mem_append_left _ inside, same⟩
      · exact ⟨row, by simp, by simpa [Dict.keys, named, eq_comm] using last⟩
    · rw [keysAppend, List.mem_append]
      rcases List.mem_append.mp member with earlier | last
      · exact .inl (grown.all other earlier)
      · exact .inr (by simp [Dict.keys, named, List.mem_singleton.mp last])

theorem grownStart (gathering : Gathering tools root (parentKey :: pending) found) : Grown tools root found pending [] (found, pending) where
  holding := gathering.holding
  new := ⟨[], by simp, by simp [Dict.keys], fun k member => by simp [Dict.keys] at member⟩
  all row member := by cases member

theorem gatheringStep {rows : List ScopeIssueWire} (listed : Listed (tools.listIssuesUnder parentKey) rows)
    (gathering : Gathering tools root (parentKey :: pending) found) (grown : Grown tools root found pending rows state) :
    Gathering tools root state.2 state.1 := by
  obtain ⟨new, grew, queue, from_⟩ := grown.new
  have keys : state.1.keys = found.keys ++ new.keys := by rw [grew, keysAppend]
  have parent := gathering.queued parentKey (List.mem_cons_self ..)
  refine ⟨grown.holding, ?_, fun k member => ?_, fun k member => ?_, fun k member => ?_⟩
  · exact keys ▸ List.mem_append_left _ gathering.start
  · rw [queue, List.mem_append] at member
    rw [keys, List.mem_append]
    exact member.imp_left fun waiting => gathering.queued k (List.mem_cons_of_mem _ waiting)
  · rw [keys, List.mem_append] at member
    rcases member with old | fresh
    · exact gathering.reached k old
    · obtain ⟨row, inside, rfl⟩ := from_ k fresh
      exact .tail (gathering.reached parentKey parent) ⟨rows, listed, row, inside, rfl⟩
  · rw [keys, List.mem_append] at member
    rcases member with old | fresh
    · rcases gathering.covered k old with waiting | covered
      · rcases List.mem_cons.mp waiting with rfl | waiting
        · right
          rintro c ⟨rows', listed', row, inside, rfl⟩
          exact grown.all row (listedOnce listed' listed ▸ inside)
        · exact .inl (queue ▸ List.mem_append_left _ waiting)
      · exact .inr fun c under => keys ▸ List.mem_append_left _ (covered c under)
    · exact .inl (queue ▸ List.mem_append_right _ fresh)

theorem gatheringRun (gathering : Gathering tools root pending found) (ok : subtreeFrom tools ref fuel more pending found = .ok found') :
    Gathering tools root [] found' := by
  induction more generalizing pending found with
  | zero =>
    cases pending with
    | nil =>
      cases ok
      exact gathering
    | cons _ _ => cases ok
  | succ more ih =>
    cases pending with
    | nil =>
      cases ok
      exact gathering
    | cons parentKey pending =>
      obtain ⟨⟨grown, queue⟩, handled, ok⟩ := bindOk.mp ok
      obtain ⟨count, rows, delivers, folded⟩ := pagesRead handled
      have grown :=
        Paging.foldKept (Grown tools root found pending) (grownStart gathering)
          (fun before row state state' grown member ok => grownRow ⟨rows, ⟨count, delivers⟩, row, member, rfl⟩ grown ok) folded
      exact ih (gatheringStep ⟨count, delivers⟩ gathering grown) ok

theorem gatheringStart : Gathering tools root [root.issueKey] [(root.issueKey, root)] where
  holding := holdingOnly (.inl rfl)
  start := by simp [Dict.keys]
  queued k member := by simpa [Dict.keys] using member
  reached k member := by
    have same : k = root.issueKey := by simpa [Dict.keys] using member
    exact same ▸ .refl
  covered k member := by
    have same : k = root.issueKey := by simpa [Dict.keys] using member
    exact .inl (by simp [same])

/-- A subtree that is returned is what the listings reach from its root. -/
theorem subtreeReturned (ok : subtree tools ref fuel = .ok found) : ∃ root, tools.readIssue ref.key = .ok root ∧
    Holding (Kin tools root) found ∧ ∀ k, k ∈ found.keys ↔ Relation.ReflTransGen (Under tools) root.issueKey k := by
  obtain ⟨root, answered, ok⟩ := bindOk.mp ok
  have gathered := gatheringRun gatheringStart ok
  refine ⟨root, readOk.mp answered, gathered.holding, fun k => ⟨gathered.reached k, fun reached => ?_⟩⟩
  induction reached with
  | refl => exact gathered.start
  | tail _ under ih =>
    rcases gathered.covered _ ih with waiting | covered
    · cases waiting
    · exact covered _ under

end Subtree
section Project
variable {project : NonemptyStr} {milestone : Option NonemptyStr} {row : ScopeIssueWire} {state state' : Found × Found}
  {before : List ScopeIssueWire}

theorem memKeysSet {κ ν : Type} [DecidableEq κ] {d : Dict κ ν} {k k' : κ} {v : ν} : k' ∈ (d.set k v).keys ↔ k' = k ∨ k' ∈ d.keys := by
  rw [Dict.getSome, Dict.getSome, Dict.getSet]
  by_cases same : k = k'
  · simp [same]
  · simp [same, Ne.symm same]

theorem inMilestoneIff : inMilestone row milestone ↔ ∀ m, milestone = some m → row.projectMilestone = some m := by
  cases milestone with
  | none => simp [inMilestone]
  | some m =>
    simp only [inMilestone, reduceCtorEq, false_or, decide_eq_true_eq, Option.some.injEq, forall_eq']
    exact ⟨And.right, fun same => ⟨by simp [same], same⟩⟩

theorem projectRowOk : projectRow tools ref project milestone state row = .ok state' ↔
    ∃ hydrated, detail tools state.2 row.id = .ok hydrated ∧ hydrated.issueKey = row.id ∧
      hydrated.projectId = some project.val ∧
      (milestone ≠ none → hydrated.milestoneKey = row.projectMilestone.map Subtype.val) ∧
      state' = (if inMilestone row milestone then state.1.set hydrated.issueKey hydrated else state.1,
        state.2.set hydrated.issueKey hydrated) := by
  rw [projectRow, bindOk]
  refine exists_congr fun hydrated => and_congr_right fun _ => ?_
  generalize row.projectMilestone.map Subtype.val = shown
  by_cases named : hydrated.issueKey = row.id
  · by_cases placed : hydrated.projectId = some project.val
    · by_cases told : milestone ≠ none ∧ hydrated.milestoneKey ≠ shown
      · simp [named, placed, told]
      · have same : milestone ≠ none → hydrated.milestoneKey = shown :=
          fun asked => not_not.mp fun differs => told ⟨asked, differs⟩
        by_cases inside : inMilestone row milestone
        · rw [if_neg (not_not.mpr named), if_neg (not_not.mpr placed), if_neg told, if_pos inside, if_pos inside, named]
          simpa [placed, eq_comm (a := state')] using fun _ => same
        · rw [if_neg (not_not.mpr named), if_neg (not_not.mpr placed), if_neg told, if_neg inside, if_neg inside, named]
          simpa [placed, eq_comm (a := state')] using fun _ => same
    · simp [named, placed]
  · simp [named]

/-- An issue of a project and, when one is asked for, of a milestone, as its detail read says. -/
def Placed (tools : Tools ε) (project : NonemptyStr) (milestone : Option NonemptyStr) (issue : ScopeIssue) : Prop :=
  tools.readIssue issue.issueKey = .ok issue ∧ issue.projectId = some project.val ∧
    ∀ m, milestone = some m → issue.milestoneKey = some m.val

structure Filled (tools : Tools ε) (project : NonemptyStr) (milestone : Option NonemptyStr) (before : List ScopeIssueWire)
    (state : Found × Found) : Prop where
  holding : Holding (Placed tools project milestone) state.1
  hydrated : Holding (fun issue => tools.readIssue issue.issueKey = .ok issue) state.2
  rows : ∀ k, k ∈ state.1.keys ↔ ∃ row ∈ before, row.id = k ∧ inMilestone row milestone

theorem filledRow (filled : Filled tools project milestone before state)
    (ok : projectRow tools ref project milestone state row = .ok state') :
    Filled tools project milestone (before ++ [row]) state' := by
  obtain ⟨issue, held, named, placed, told, rfl⟩ := projectRowOk.mp ok
  have answered : tools.readIssue issue.issueKey = .ok issue := by
    rcases detailOk.mp held with got | ⟨-, answered⟩
    · exact (holdingGet filled.hydrated got).2
    · exact named ▸ answered
  have hydrated := holdingSet filled.hydrated answered
  by_cases inside : inMilestone row milestone
  · have kind : Placed tools project milestone issue := by
      refine ⟨answered, placed, fun m asked => ?_⟩
      rw [told (by simp [asked]), inMilestoneIff.mp inside m asked]
      rfl
    rw [if_pos inside]
    refine ⟨holdingSet filled.holding kind, hydrated, fun k => ?_⟩
    rw [memKeysSet, filled.rows k, named, eq_comm (a := k), or_comm]
    simp [or_and_right, exists_or, inside]
  · rw [if_neg inside]
    refine ⟨filled.holding, hydrated, fun k => ?_⟩
    rw [filled.rows k]
    simp [or_and_right, exists_or, inside]

/-- A project's issues, when they are returned, are its listing's rows, of the milestone asked for. -/
theorem projectReturned (ok : projectIssues tools ref fuel project milestone = .ok found) :
    ∃ rows, Listed (tools.listIssuesOf project) rows ∧ Holding (Placed tools project milestone) found ∧
      ∀ k, k ∈ found.keys ↔ ∃ row ∈ rows, row.id = k ∧ inMilestone row milestone := by
  obtain ⟨⟨found, hydrated⟩, handled, same⟩ := bindOk.mp ok
  cases same
  obtain ⟨count, rows, delivers, folded⟩ := pagesRead handled
  have start : Filled tools project milestone [] ([], []) :=
    ⟨⟨by simp [Dict.keys], by simp, by simp⟩, ⟨by simp [Dict.keys], by simp, by simp⟩, by simp [Dict.keys]⟩
  have filled :=
    Paging.foldKept (Filled tools project milestone) start (fun before row state state' filled _ ok => filledRow filled ok) folded
  exact ⟨rows, ⟨count, delivers⟩, filled.holding, filled.rows⟩

end Project
section Initiatives
variable {root initiative : ScopeInitiativeWire} {pending projects before : List NonemptyStr} {walk walk' : InitiativeWalk}
  {state state' : List NonemptyStr × Found} {project : NonemptyStr}

/-- The answer an initiative is read by: the root's own, which a name may have asked for. -/
def Opens (tools : Tools ε) (root : ScopeInitiativeWire) (key : NonemptyStr) (initiative : ScopeInitiativeWire) : Prop :=
  key = root.id ∧ initiative = root ∨ key ≠ root.id ∧ tools.getInitiative key = .ok initiative

def Child (tools : Tools ε) (root : ScopeInitiativeWire) (a b : NonemptyStr) : Prop :=
  ∃ initiative, Opens tools root a initiative ∧ b ∈ initiative.subInitiatives

/-- A project listed for an initiative, and an issue's key listed for a project. -/
def Holds (tools : Tools ε) (initiative project : NonemptyStr) : Prop :=
  ∃ rows, Listed (tools.listProjectsOf initiative) rows ∧ project ∈ rows

def Shows (tools : Tools ε) (project key : NonemptyStr) : Prop :=
  ∃ rows, Listed (tools.listIssuesOf project) rows ∧ ∃ row ∈ rows, row.id = key

abbrev Belongs (tools : Tools ε) (issue : ScopeIssue) : Prop := ∃ project, Placed tools project none issue

theorem opensOnce {key : NonemptyStr} {other : ScopeInitiativeWire} (one : Opens tools root key initiative)
    (two : Opens tools root key other) : initiative = other := by
  rcases one with ⟨same, rfl⟩ | ⟨apart, answered⟩
  · rcases two with ⟨-, rfl⟩ | ⟨apart, -⟩
    · rfl
    · exact absurd same apart
  · rcases two with ⟨same, -⟩ | ⟨-, answered'⟩
    · exact absurd same apart
    · exact Except.ok.inj (answered.symm.trans answered')

theorem holdingUpdate {P : ScopeIssue → Prop} (holding : Holding P found) (other : Holding P found') : Holding P (found.update found') where
  once := Dict.updateNodup _ holding.once
  own e member := by
    rcases Dict.updateMember member with old | new
    · exact holding.own e old
    · exact other.own e new
  kind e member := by
    rcases Dict.updateMember member with old | new
    · exact holding.kind e old
    · exact other.kind e new

theorem memKeysUpdate {κ ν : Type} [DecidableEq κ] {d entries : Dict κ ν} {k : κ} : k ∈ (d.update entries).keys ↔ k ∈ d.keys ∨ k ∈ entries.keys := by
  rw [← not_iff_not, not_or, Dict.getSome, Dict.getSome]
  simp only [← Option.isSome_iff_exists, Option.not_isSome_iff_eq_none]
  rw [Dict.updateGetNone]
  refine and_congr_right fun _ => ?_
  rw [Dict.keys, List.mem_map]
  constructor
  · rintro other ⟨e, member, same⟩
    exact other e member same
  · intro absent e member same
    exact absent ⟨e, member, same⟩

/-- Projects, each with all the issues its listing shows. -/
structure Gathered (tools : Tools ε) (projects : List NonemptyStr) (found : Found) : Prop where
  holding : Holding (Belongs tools) found
  issues : ∀ k, k ∈ found.keys ↔ ∃ project ∈ projects, Shows tools project k

theorem gatheredRow (gathered : Gathered tools state.1 state.2) (ok : initiativeProject tools ref fuel state project = .ok state') :
    Gathered tools state'.1 state'.2 ∧ ∀ p, p ∈ state'.1 ↔ p ∈ state.1 ∨ p = project := by
  unfold initiativeProject at ok
  split at ok
  · rename_i known
    cases ok
    refine ⟨gathered, fun p => ⟨.inl, fun member => ?_⟩⟩
    rcases member with old | rfl
    · exact old
    · exact known
  · obtain ⟨issues, returned, same⟩ := bindOk.mp ok
    cases same
    obtain ⟨rows, listed, holding, keys⟩ := projectReturned returned
    have belongs : Holding (Belongs tools) issues :=
      ⟨holding.once, holding.own, fun e member => ⟨project, holding.kind e member⟩⟩
    refine ⟨⟨holdingUpdate gathered.holding belongs, fun k => ?_⟩, fun p => by simp [or_comm]⟩
    have shown : k ∈ issues.keys ↔ Shows tools project k := by
      rw [keys]
      constructor
      · rintro ⟨row, member, named, -⟩
        exact ⟨rows, listed, row, member, named⟩
      · rintro ⟨rows', listed', row, member, named⟩
        exact ⟨row, listedOnce listed' listed ▸ member, named, inMilestoneIff.mpr fun m same => by cases same⟩
    rw [memKeysUpdate, gathered.issues, shown]
    simp [or_comm]

/-- The loop over the initiatives still to be read. -/
structure Walked (tools : Tools ε) (root : ScopeInitiativeWire) (pending : List NonemptyStr) (walk : InitiativeWalk) : Prop where
  gathered : Gathered tools walk.projects walk.found
  once : walk.children.keys.Nodup
  keys : ∀ k, k ∈ walk.children.keys ↔ k ∈ walk.seen
  opened : ∀ k kids, walk.children.get? k = some kids →
    ∃ initiative, Opens tools root k initiative ∧ initiative.id = k ∧ kids = initiative.subInitiatives.dedup
  reached : ∀ k ∈ walk.seen, Relation.ReflTransGen (Child tools root) root.id k
  queued : ∀ k ∈ pending, Relation.ReflTransGen (Child tools root) root.id k
  covered : ∀ k ∈ walk.seen, ∀ c, Child tools root k c → c ∈ walk.seen ∨ c ∈ pending
  projects : ∀ p, p ∈ walk.projects ↔ ∃ k ∈ walk.seen, Holds tools k p

theorem walkedSkip {key : NonemptyStr} (walked : Walked tools root (key :: pending) walk) (seen : key ∈ walk.seen) :
    Walked tools root pending walk :=
  { walked with
    queued := fun k member => walked.queued k (List.mem_cons_of_mem _ member)
    covered := fun k member c child => by
      rcases walked.covered k member c child with known | waiting
      · exact .inl known
      · rcases List.mem_cons.mp waiting with rfl | waiting
        · exact .inl seen
        · exact .inr waiting }

theorem walkedEnter (walked : Walked tools root (initiative.id :: pending) walk) (opens : Opens tools root initiative.id initiative)
    (handled : pages "list_projects" fuel (tools.listProjectsOf initiative.id) (initiativeProject tools ref fuel)
      (walk.projects, walk.found) = .ok (projects, found)) :
    Walked tools root (pending ++ initiative.subInitiatives)
      { found, projects, seen := initiative.id :: walk.seen,
        children := walk.children.set initiative.id initiative.subInitiatives.dedup } := by
  obtain ⟨count, rows, delivers, folded⟩ := pagesRead handled
  have kept := Paging.foldKept (fun before state => Gathered tools state.1 state.2 ∧ ∀ p, p ∈ state.1 ↔ p ∈ walk.projects ∨ p ∈ before)
    ⟨walked.gathered, by simp⟩ (fun before row state state' kept _ ok => by
      obtain ⟨gathered, more⟩ := gatheredRow kept.1 ok
      refine ⟨gathered, fun p => ?_⟩
      rw [more, kept.2, List.mem_append, List.mem_singleton, or_assoc]) folded
  obtain ⟨gathered, projectsOf⟩ := kept
  have here := walked.queued initiative.id (List.mem_cons_self ..)
  refine ⟨gathered, Dict.setNodup _ _ walked.once, fun k => ?_, fun k kids got => ?_, fun k member => ?_, fun k member => ?_,
    fun k member c child => ?_, fun p => ?_⟩
  · rw [memKeysSet, walked.keys, List.mem_cons]
  · rw [Dict.getSet] at got
    split at got
    · rename_i same
      cases same
      cases got
      exact ⟨initiative, opens, rfl, rfl⟩
    · exact walked.opened k kids got
  · rcases List.mem_cons.mp member with rfl | old
    · exact here
    · exact walked.reached k old
  · rcases List.mem_append.mp member with waiting | kid
    · exact walked.queued k (List.mem_cons_of_mem _ waiting)
    · exact .tail here ⟨initiative, opens, kid⟩
  · rcases List.mem_cons.mp member with rfl | old
    · obtain ⟨other, opens', kid⟩ := child
      exact .inr (List.mem_append_right _ (opensOnce opens opens' ▸ kid))
    · rcases walked.covered k old c child with known | waiting
      · exact .inl (List.mem_cons_of_mem _ known)
      · rcases List.mem_cons.mp waiting with rfl | waiting
        · exact .inl (List.mem_cons_self ..)
        · exact .inr (List.mem_append_left _ waiting)
  · have listed : Holds tools initiative.id p ↔ p ∈ rows := by
      constructor
      · rintro ⟨rows', listed', member⟩
        exact listedOnce listed' ⟨count, delivers⟩ ▸ member
      · exact fun member => ⟨rows, ⟨count, delivers⟩, member⟩
    have all : p ∈ projects ↔ p ∈ walk.projects ∨ p ∈ rows := projectsOf p
    rw [all, walked.projects, ← listed]
    simp [or_comm]

theorem walkedRun (walked : Walked tools root pending walk) (rooted : root.id ∈ walk.seen)
    (ok : initiativesFrom tools ref fuel more pending walk = .ok walk') : Walked tools root [] walk' ∧ root.id ∈ walk'.seen := by
  induction more generalizing pending walk with
  | zero =>
    cases pending with
    | nil =>
      cases ok
      exact ⟨walked, rooted⟩
    | cons _ _ => cases ok
  | succ more ih =>
    cases pending with
    | nil =>
      cases ok
      exact ⟨walked, rooted⟩
    | cons key pending =>
      rw [initiativesFrom] at ok
      split at ok
      · rename_i seen
        exact ih (walkedSkip walked seen) rooted ok
      · rename_i unseen
        obtain ⟨initiative, answered, entered⟩ := bindOk.mp ok
        split at entered
        · cases entered
        · rename_i agrees
          obtain rfl : initiative.id = key :=
            not_not.mp fun differs => agrees ⟨List.ne_nil_of_mem rooted, differs⟩
          rw [if_neg unseen] at entered
          obtain ⟨⟨projects, found⟩, handled, rest⟩ := bindOk.mp entered
          have opens : Opens tools root initiative.id initiative :=
            .inr ⟨fun same => unseen (same ▸ rooted), readOk.mp answered⟩
          exact ih (walkedEnter walked opens handled) (List.mem_cons_of_mem _ rooted) rest

theorem walkedStart : Walked tools root [root.id] ⟨[], [], [], []⟩ where
  gathered := ⟨⟨by simp [Dict.keys], by simp, by simp⟩, by simp [Dict.keys]⟩
  once := by simp [Dict.keys]
  keys := by simp [Dict.keys]
  opened k kids got := by simp at got
  reached k member := by cases member
  queued k member := by
    obtain rfl := List.mem_singleton.mp member
    exact .refl
  covered k member := by cases member
  projects := by simp

theorem childrenIff {a b : NonemptyStr} (walked : Walked tools root [] walk) :
    b ∈ childrenOf walk.children a ↔ a ∈ walk.seen ∧ Child tools root a b := by
  unfold childrenOf
  cases got : walk.children.get? a with
  | none =>
    have absent : a ∉ walk.seen := by
      rw [← walked.keys, Dict.getSome, got]
      simp
    simp [absent]
  | some kids =>
    have present : a ∈ walk.seen := (walked.keys a).mp ((Dict.getSome _ _).mpr ⟨kids, got⟩)
    obtain ⟨initiative, opens, -, rfl⟩ := walked.opened a kids got
    rw [Option.getD_some, List.mem_dedup]
    constructor
    · exact fun kid => ⟨present, initiative, opens, kid⟩
    · rintro ⟨-, other, opens', kid⟩
      exact opensOnce opens' opens ▸ kid

theorem walkedEdge (walked : Walked tools root [] walk) (a b : NonemptyStr) (seen : a ∈ walk.seen) (child : Child tools root a b) :
    b ∈ childrenOf walk.children a ∧ b ∈ walk.seen :=
  ⟨(childrenIff walked).mpr ⟨seen, child⟩, (walked.covered a seen b child).resolve_right List.not_mem_nil⟩

theorem walkedSeen (walked : Walked tools root [] walk) (rooted : root.id ∈ walk.seen) (k : NonemptyStr) :
    k ∈ walk.seen ↔ Relation.ReflTransGen (Child tools root) root.id k :=
  ⟨walked.reached k, fun reached => (CycleSearch.reachWithin (walkedEdge walked) rooted reached).2⟩

/-- The check of the children that were read finds what the initiatives reached lead to. -/
theorem walkedLeads {a b : NonemptyStr} (walked : Walked tools root [] walk) (seen : a ∈ walk.seen) :
    Leads (childrenOf walk.children) a b ↔ Relation.TransGen (Child tools root) a b := by
  constructor
  · intro leads
    have edge : ∀ x y, True → y ∈ childrenOf walk.children x → Child tools root x y ∧ True :=
      fun x y _ child => ⟨((childrenIff walked).mp child).2, trivial⟩
    exact (CycleSearch.leadsWithin edge trivial leads).1
  · exact fun leads => (CycleSearch.leadsWithin (walkedEdge walked) seen leads).1

/-- An initiative's issues, when they are returned, are those of every project of every initiative
its children lead to, and those lie on no cycle. -/
theorem initiativesReturned (ok : initiativeIssues tools ref fuel = .ok found) : ∃ root, tools.getInitiative ref.key = .ok root ∧
    Holding (Belongs tools) found ∧ (∀ k, k ∈ found.keys ↔
      ∃ key, Relation.ReflTransGen (Child tools root) root.id key ∧ ∃ project, Holds tools key project ∧ Shows tools project k) ∧
    ∀ key, Relation.ReflTransGen (Child tools root) root.id key → ¬ Relation.TransGen (Child tools root) key key := by
  obtain ⟨walk, walks, ok⟩ := bindOk.mp ok
  obtain ⟨done, checks, same⟩ := bindOk.mp ok
  cases same
  have gone : ∃ root, tools.getInitiative ref.key = .ok root ∧ Walked tools root [] walk ∧ root.id ∈ walk.seen := by
    cases fuel with
    | zero => cases walks
    | succ more =>
      rw [initiativesFrom, if_neg List.not_mem_nil] at walks
      obtain ⟨root, answered, entered⟩ := bindOk.mp walks
      rw [if_neg (fun both => both.1 rfl), if_neg List.not_mem_nil] at entered
      obtain ⟨⟨projects, found⟩, handled, rest⟩ := bindOk.mp entered
      exact ⟨root, readOk.mp answered, walkedRun (walkedEnter walkedStart (.inl ⟨rfl, rfl⟩) handled) (List.mem_cons_self ..) rest⟩
  obtain ⟨root, answered, walked, rooted⟩ := gone
  have seen := walkedSeen walked rooted
  refine ⟨root, answered, walked.gathered.holding, fun k => ?_, fun key reached cycle => ?_⟩
  · rw [walked.gathered.issues]
    simp only [walked.projects, seen]
    constructor
    · rintro ⟨project, ⟨key, reached, holds⟩, shows⟩
      exact ⟨key, reached, project, holds, shows⟩
    · rintro ⟨key, reached, project, holds, shows⟩
      exact ⟨project, ⟨key, reached, holds⟩, shows⟩
  · have ended : ∃ checked, searchAll (childrenOf walk.children) fuel walk.children.keys [] = .ok checked := by
      unfold checkInitiatives at checks
      split at checks
      · rename_i checked same
        exact ⟨checked, same⟩
      · cases checks
      · cases checks
    obtain ⟨checked, ended⟩ := ended
    have free := CycleSearch.searchAllFree (fun x c child => (walked.keys x).mpr ((childrenIff walked).mp child).1) ended
    exact free key ((walkedLeads walked ((seen key).mpr reached)).mpr cycle)

end Initiatives
section Milestones
variable {before : List NonemptyStr} {state state' : List (NonemptyStr × NonemptyStr) × List NonemptyStr} {project key : NonemptyStr}

/-- A project's milestone whose identifier or name is the address. -/
def Answers (tools : Tools ε) (ref : ScopeRef) (pair : NonemptyStr × NonemptyStr) : Prop :=
  ∃ named, tools.listMilestones pair.1 = .ok named ∧
    ∃ milestone ∈ named, milestone.id = pair.2 ∧ (ref.key.val = milestone.id.val ∨ ref.key.val = milestone.name)

structure Matched (tools : Tools ε) (ref : ScopeRef) (before : List NonemptyStr)
    (state : List (NonemptyStr × NonemptyStr) × List NonemptyStr) : Prop where
  once : state.1.Nodup
  pairs : ∀ pair, pair ∈ state.1 ↔ pair.1 ∈ before ∧ Answers tools ref pair
  seen : ∀ p, p ∈ state.2 ↔ p ∈ before

theorem matchedRow (matched : Matched tools ref before state) (ok : milestoneProject tools ref state project = .ok state') :
    Matched tools ref (before ++ [project]) state' := by
  unfold milestoneProject at ok
  split at ok
  · rename_i known
    have old : project ∈ before := (matched.seen project).mp known
    have same : ∀ p, p ∈ before ++ [project] ↔ p ∈ before := fun p => by
      rw [List.mem_append, List.mem_singleton, or_iff_left_of_imp]
      rintro rfl
      exact old
    cases ok
    exact ⟨matched.once, fun pair => by rw [matched.pairs, same], fun p => by rw [matched.seen, same]⟩
  · rename_i fresh
    obtain ⟨named, answered, same⟩ := bindOk.mp ok
    cases same
    have answers : ∀ pair : NonemptyStr × NonemptyStr, pair.1 = project → (Answers tools ref pair ↔
        ∃ milestone ∈ named, milestone.id = pair.2 ∧ (ref.key.val = milestone.id.val ∨ ref.key.val = milestone.name)) := by
      rintro ⟨_, m⟩ rfl
      constructor
      · rintro ⟨named', answered', found⟩
        cases (readOk.mp answered).symm.trans answered'
        exact found
      · exact fun found => ⟨named, readOk.mp answered, found⟩
    refine ⟨matched.once.union _, fun pair => ?_, fun p => by simp [matched.seen, or_comm]⟩
    rw [List.mem_union_iff, matched.pairs, List.mem_append, List.mem_singleton, or_and_right, or_comm]
    refine or_congr_right ?_
    constructor
    · intro member
      obtain ⟨milestone, inside, rfl⟩ := List.mem_map.mp member
      obtain ⟨inside, addressed⟩ := List.mem_filter.mp inside
      exact ⟨rfl, (answers _ rfl).mpr ⟨milestone, inside, rfl, of_decide_eq_true addressed⟩⟩
    · rintro ⟨same, found⟩
      obtain ⟨milestone, inside, id, addressed⟩ := (answers pair same).mp found
      exact List.mem_map.mpr ⟨milestone, List.mem_filter.mpr ⟨inside, decide_eq_true addressed⟩, by rw [id, ← same]⟩

theorem milestonePairs {tools : Tools ε} {ref : ScopeRef} {pairs : List (NonemptyStr × NonemptyStr)} {seen : List NonemptyStr}
    (handled : pages "list_projects" fuel tools.listProjects (milestoneProject tools ref) ([], []) = .ok (pairs, seen)) :
    ∃ rows, Listed tools.listProjects rows ∧ pairs.Nodup ∧ ∀ pair, pair ∈ pairs ↔ pair.1 ∈ rows ∧ Answers tools ref pair := by
  obtain ⟨count, rows, delivers, folded⟩ := pagesRead handled
  have start : Matched tools ref [] ([], []) := ⟨by simp, by simp, by simp⟩
  have matched :=
    Paging.foldKept (Matched tools ref) start (fun before row state state' matched _ ok => matchedRow matched ok) folded
  exact ⟨rows, ⟨count, delivers⟩, matched.once, matched.pairs⟩

/-- A milestone that is returned is the only one its address names. -/
theorem milestoneReturned (ok : milestone tools ref fuel = .ok (project, key)) :
    ∃ rows, Listed tools.listProjects rows ∧ ∀ pair, pair.1 ∈ rows ∧ Answers tools ref pair ↔ pair = (project, key) := by
  obtain ⟨⟨pairs, seen⟩, handled, only⟩ := bindOk.mp ok
  obtain ⟨rows, listed, once, members⟩ := milestonePairs handled
  refine ⟨rows, listed, fun pair => ?_⟩
  rw [← members]
  match pairs, only with
  | [(projectKey, found)], only =>
    obtain ⟨answer, answered, last⟩ := bindOk.mp only
    split at last
    · cases last
    · rename_i same
      cases not_not.mp same
      cases last
      exact List.mem_singleton

end Milestones

section Scopes
variable {issues : List ScopeIssue}

/-- A parent edge inside a reading. -/
def ParentIn (issues : List ScopeIssue) (a b : NonemptyStr) : Prop :=
  b ∈ issues.map (·.issueKey) ∧ ∃ issue ∈ issues, issue.issueKey = a ∧ issue.parentKey = some b

theorem parentOnward {P : ScopeIssue → Prop} {a b : NonemptyStr} (holding : Holding P found) :
    b ∈ CycleSearch.onward (parentOf found) found.keys a ↔ ParentIn found.values a b := by
  rw [CycleSearch.memOnward, and_comm, ParentIn, valuesKeys holding]
  refine and_congr_right fun _ => ?_
  rw [parentOf, Option.bind_eq_some_iff]
  constructor
  · rintro ⟨issue, got, parent⟩
    exact ⟨issue, List.mem_map.mpr ⟨_, Dict.getMember got, rfl⟩, (holdingGet holding got).1, parent⟩
  · rintro ⟨issue, member, rfl, parent⟩
    obtain ⟨e, inside, rfl⟩ := List.mem_map.mp member
    refine ⟨e.2, Dict.getOfMember holding.once ?_, parent⟩
    rw [← holding.own e inside]
    exact inside

theorem parentsChecked {P : ScopeIssue → Prop} {done : Unit} (holding : Holding P found) (ok : checkIssueParents (ε := ε) ref fuel found = .ok done) :
    ∀ key, ¬ Relation.TransGen (ParentIn found.values) key key := by
  intro key cycle
  unfold checkIssueParents at ok
  split at ok
  · rename_i checked ended
    rw [valuesKeys holding] at ended
    obtain ⟨b, -, step⟩ := Relation.TransGen.tail'_iff.mp cycle
    have inside : key ∈ found.keys := valuesKeys holding ▸ step.1
    have edges : ParentIn found.values ≤ fun a b => b ∈ CycleSearch.onward (parentOf found) found.keys a :=
      fun a b parent => (parentOnward holding).mpr parent
    have leads : Leads (CycleSearch.onward (parentOf found) found.keys) key key := Relation.TransGen.mono edges key key cycle
    exact CycleSearch.walkAllFree ended key inside leads
  · cases ok
  · cases ok

/-- The keys a scope's listings show. -/
inductive Members (tools : Tools ε) (ref : ScopeRef) (key : NonemptyStr) : Prop where
  | issue {root : ScopeIssue} (kind : ref.kind = .issue) (read : tools.readIssue ref.key = .ok root)
      (reached : Relation.ReflTransGen (Under tools) root.issueKey key) : Members tools ref key
  | project {project : NonemptyStr} (kind : ref.kind = .project) (read : tools.getProject ref.key = .ok project)
      (shows : Shows tools project key) : Members tools ref key
  | milestone {project milestone : NonemptyStr} {rows : List NonemptyStr} {listing : List ScopeIssueWire} {row : ScopeIssueWire}
      (kind : ref.kind = .milestone) (projects : Listed tools.listProjects rows)
      (only : ∀ pair, pair.1 ∈ rows ∧ Answers tools ref pair ↔ pair = (project, milestone))
      (listed : Listed (tools.listIssuesOf project) listing) (member : row ∈ listing) (named : row.id = key)
      (inside : row.projectMilestone = some milestone) : Members tools ref key
  | initiative {root : ScopeInitiativeWire} {initiative project : NonemptyStr} (kind : ref.kind = .initiative)
      (read : tools.getInitiative ref.key = .ok root)
      (reached : Relation.ReflTransGen (Child tools root) root.id initiative) (holds : Holds tools initiative project)
      (shows : Shows tools project key) : Members tools ref key

/-- How an issue was read: under its own key, or under the address of an issue scope. -/
abbrev ReadAs (tools : Tools ε) (ref : ScopeRef) (issue : ScopeIssue) : Prop :=
  tools.readIssue issue.issueKey = .ok issue ∨ ref.kind = .issue ∧ tools.readIssue ref.key = .ok issue

theorem membersReturned (ok : scopeMembers tools ref fuel = .ok found) :
    Holding (ReadAs tools ref) found ∧ ∀ key, key ∈ found.keys ↔ Members tools ref key := by
  unfold scopeMembers at ok
  split at ok
  · rename_i kind
    obtain ⟨root, read, holding, keys⟩ := subtreeReturned ok
    refine ⟨holdingOf holding fun issue kin => ?_, fun key => ?_⟩
    · rcases kin with rfl | ⟨own, -⟩
      · exact .inr ⟨kind, read⟩
      · exact .inl own
    · rw [keys]
      constructor
      · exact .issue kind read
      · intro member
        cases member with
        | issue _ read' reached =>
          cases read.symm.trans read'
          exact reached
        | project kind' => cases kind.symm.trans kind'
        | milestone kind' => cases kind.symm.trans kind'
        | initiative kind' => cases kind.symm.trans kind'
  · rename_i kind
    obtain ⟨project, read, returned⟩ := bindOk.mp ok
    obtain ⟨rows, listed, holding, keys⟩ := projectReturned returned
    refine ⟨holdingOf holding fun issue placed => .inl placed.1, fun key => ?_⟩
    rw [keys]
    constructor
    · rintro ⟨row, member, named, -⟩
      exact .project kind (readOk.mp read) ⟨rows, listed, row, member, named⟩
    · intro member
      cases member with
      | issue kind' => cases kind.symm.trans kind'
      | project _ read' shows =>
        cases (readOk.mp read).symm.trans read'
        obtain ⟨rows', listed', row, member, named⟩ := shows
        exact ⟨row, listedOnce listed' listed ▸ member, named, inMilestoneIff.mpr fun m same => by cases same⟩
      | milestone kind' => cases kind.symm.trans kind'
      | initiative kind' => cases kind.symm.trans kind'
  · rename_i kind
    obtain ⟨⟨project, milestone⟩, addressed, returned⟩ := bindOk.mp ok
    obtain ⟨projects, listedProjects, only⟩ := milestoneReturned addressed
    obtain ⟨rows, listed, holding, keys⟩ := projectReturned returned
    refine ⟨holdingOf holding fun issue placed => .inl placed.1, fun key => ?_⟩
    rw [keys]
    constructor
    · rintro ⟨row, member, named, inside⟩
      exact .milestone kind listedProjects only listed member named (inMilestoneIff.mp inside milestone rfl)
    · intro member
      cases member with
      | issue kind' => cases kind.symm.trans kind'
      | project kind' => cases kind.symm.trans kind'
      | @milestone project' milestone' projects' listing row _ listedProjects' only' listed' member named inside =>
        cases listedOnce listedProjects' listedProjects
        cases (only (project', milestone')).mp ((only' _).mpr rfl)
        refine ⟨row, listedOnce listed' listed ▸ member, named, inMilestoneIff.mpr fun m same => ?_⟩
        cases same
        exact inside
      | initiative kind' => cases kind.symm.trans kind'
  · rename_i kind
    obtain ⟨root, read, holding, keys, -⟩ := initiativesReturned ok
    refine ⟨holdingOf holding fun issue ⟨_, placed⟩ => .inl placed.1, fun key => ?_⟩
    rw [keys]
    constructor
    · rintro ⟨initiative, reached, project, holds, shows⟩
      exact .initiative kind read reached holds shows
    · intro member
      cases member with
      | issue kind' => cases kind.symm.trans kind'
      | project kind' => cases kind.symm.trans kind'
      | milestone kind' => cases kind.symm.trans kind'
      | @initiative root' key' project _ read' reached holds shows =>
        cases read.symm.trans read'
        exact ⟨key', reached, project, holds, shows⟩

/-- Whatever the backend answers, a scope that is returned holds what its listings show and nothing
else, each issue once and as its own read gave it, with no cycle among their parents. -/
theorem scopeReturned (ok : scopeIssues tools ref fuel = .ok issues) :
    (issues.map (·.issueKey)).Nodup ∧ (∀ key, key ∈ issues.map (·.issueKey) ↔ Members tools ref key) ∧
      (∀ issue ∈ issues, ReadAs tools ref issue) ∧ ∀ key, ¬ Relation.TransGen (ParentIn issues) key key := by
  obtain ⟨found, returned, rest⟩ := bindOk.mp ok
  obtain ⟨done, checked, same⟩ := bindOk.mp rest
  cases same
  obtain ⟨holding, keys⟩ := membersReturned returned
  refine ⟨valuesKeys holding ▸ holding.once, fun key => valuesKeys holding ▸ keys key, fun issue member => ?_, parentsChecked holding checked⟩
  obtain ⟨e, inside, rfl⟩ := List.mem_map.mp member
  exact holding.kind e inside

/-- A parent and its child, which the parent's listing shows on two pages. -/
def parent104 : ScopeIssue := { issueKey := ⟨"KOD-104", by decide⟩, priority := .none, stateKind := .started, createdAt := 0 }

def child105 : ScopeIssue :=
  { issueKey := ⟨"KOD-105", by decide⟩, priority := .none, stateKind := .started, createdAt := 1,
    parentKey := some parent104.issueKey }

def row105 : ScopeIssueWire := ⟨child105.issueKey, none⟩

def familyTools : Tools Unit where
  readIssue key := if key = parent104.issueKey then .ok parent104 else if key = child105.issueKey then .ok child105 else .error ()
  getProject _ := .error ()
  getInitiative _ := .error ()
  listIssuesUnder key cursor :=
    if key = parent104.issueKey then
      if cursor = none then .ok ⟨[row105], true, some "page-2"⟩ else .ok ⟨[row105], false, none⟩
    else .ok ⟨[], false, none⟩
  listIssuesOf _ _ := .ok ⟨[], false, none⟩
  listProjectsOf _ _ := .ok ⟨[], false, none⟩
  listProjects _ := .ok ⟨[], false, none⟩
  listMilestones _ := .ok []
  getMilestone _ _ := .error ()

def scope104 : ScopeRef := ⟨.issue, parent104.issueKey⟩

theorem familyReturned : scopeIssues familyTools scope104 3 = .ok [parent104, child105] ∧
    Members familyTools scope104 child105.issueKey := by
  have ok : scopeIssues familyTools scope104 3 = .ok [parent104, child105] := by decide
  exact ⟨ok, ((scopeReturned ok).2.1 child105.issueKey).mp (by decide)⟩

end Scopes
end Kodezart.ScopeReader
