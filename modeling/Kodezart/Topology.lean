import Mathlib
import Kodezart.AcyclicOrder
import Kodezart.Tracker

/-! Ready-set arithmetic over tracker facts, without dispatch or tracker writes. -/
namespace Kodezart.Topology
open Tracker AcyclicOrder Precedence

structure ReadyIssue where
  issue : TrackerIssue
  effectivePriority : IssuePriority
  deriving DecidableEq, Repr

structure BlockedIssue where
  issueKey : String
  blockerKeys : List String
  deriving DecidableEq, Repr

structure TopologyPlan where
  ready : List ReadyIssue
  blocked : List BlockedIssue
  deriving DecidableEq, Repr

inductive Refusal where
  | valueError (message : String)
  | halted (halt : Halt String)
  deriving DecidableEq, Repr

def joined (names : Finset String) : String := ", ".intercalate (names.sort (· ≤ ·))

/-- `dict.fromkeys(blocker_keys(issue))`: each blocker once, at its first mention. -/
def distinctBlockers (issue : TrackerIssue) : List String := (blockerKeys issue).reverse.dedup.reverse

abbrev Index := Dict String TrackerIssue

def indexed : List TrackerIssue → Index → Except Refusal Index
  | [], byKey => .ok byKey
  | issue :: issues, byKey =>
    if issue.issueKey.val ∈ byKey.keys then
      .error (.valueError s!"duplicate issue in topology snapshot: {issue.issueKey.val}")
    else indexed issues (byKey ++ [(issue.issueKey.val, issue)])

def blockerGraph (byKey : Index) : Graph String := byKey.map fun e => (e.1, distinctBlockers e.2)

def absent (byKey : Index) (keys : Finset String) : Finset String := keys.filter (· ∉ byKey.keys)

/-- The snapshot's refusals, in the order the source raises them. -/
def checked (issues : List TrackerIssue) (candidateKeys : Finset String)
    (blockingIssueKeys : Option (Finset String)) : Except Refusal Index := do
  let byKey ← indexed issues []
  let unknownCandidates := absent byKey candidateKeys
  if unknownCandidates ≠ ∅ then
    .error (.valueError s!"candidate issues absent from topology snapshot: {joined unknownCandidates}")
  else if ∃ keys ∈ blockingIssueKeys, absent byKey keys ≠ ∅ then
    .error (.valueError "blocking issues absent from topology snapshot")
  else
    let missing := absent byKey ((blockerGraph byKey).flatMap Prod.snd).toFinset
    if missing ≠ ∅ then
      .error (.valueError s!"blocker facts absent from topology snapshot: {joined missing}")
    else .ok byKey

def priorityOf (byKey : Index) (key : String) : IssuePriority :=
  ((byKey.get? key).map TrackerIssue.priority).getD .none

def live (byKey : Index) (blockingIssueKeys : Option (Finset String)) (blocker : String) : Bool :=
  match blockingIssueKeys with
  | none => (byKey.get? blocker).any fun issue => isOpen issue.stateKind
  | some keys => blocker ∈ keys

def readyKey (entry : ReadyIssue) : Nat ×ₗ Int :=
  toLex (priorityRank entry.effectivePriority, entry.issue.createdAt)

def liveBlockers (byKey : Index) (blockingIssueKeys : Option (Finset String)) (issue : TrackerIssue) :
    List String :=
  (distinctBlockers issue).filter (live byKey blockingIssueKeys)

def planTopology (issues : List TrackerIssue) (candidateKeys : Finset String)
    (blockingIssueKeys : Option (Finset String)) : Except Refusal TopologyPlan := do
  let byKey ← checked issues candidateKeys blockingIssueKeys
  let graph := blockerGraph byKey
  let ordered ← (acyclicOrder graph).mapError .halted
  -- The dictionary of effective priorities keeps the snapshot's keys throughout, so it is a function.
  let effective := relaxAll (successors graph) (priorityOf byKey) ordered.reverse
  let candidates := byKey.filter fun e => e.1 ∈ candidateKeys
  let ready := candidates.filter fun e => (liveBlockers byKey blockingIssueKeys e.2).isEmpty
  let blocked := candidates.filter fun e => !(liveBlockers byKey blockingIssueKeys e.2).isEmpty
  .ok ⟨sortBy readyKey (ready.map fun e => ⟨e.2, effective e.1⟩),
    blocked.map fun e => ⟨e.1, liveBlockers byKey blockingIssueKeys e.2⟩⟩

section Refusals

def entryOf (issue : TrackerIssue) : String × TrackerIssue := (issue.issueKey.val, issue)

theorem indexedEntries {issues : List TrackerIssue} {byKey result : Index} (unique : byKey.keys.Nodup)
    (accepted : indexed issues byKey = .ok result) :
    result = byKey ++ issues.map entryOf ∧ result.keys.Nodup := by
  induction issues generalizing byKey with
  | nil =>
    cases accepted
    exact ⟨by simp, unique⟩
  | cons issue issues ih =>
    simp only [indexed] at accepted
    split at accepted
    · cases accepted
    · rename_i fresh
      have grown : Dict.keys (byKey ++ [(issue.issueKey.val, issue)]) = byKey.keys ++ [issue.issueKey.val] := by
        simp [Dict.keys]
      have unique' : (Dict.keys (byKey ++ [(issue.issueKey.val, issue)])).Nodup := by
        rw [grown]
        exact List.nodup_append.mpr ⟨unique, by simp, by
          rintro a inside b last rfl
          exact fresh (by simpa [List.mem_singleton.mp last] using inside)⟩
      obtain ⟨shape, nodup⟩ := ih unique' accepted
      exact ⟨by simpa [entryOf] using shape, nodup⟩

theorem absentEmpty {byKey : Index} {keys : Finset String} :
    absent byKey keys = ∅ ↔ ∀ k ∈ keys, k ∈ byKey.keys := by
  simp [absent, Finset.filter_eq_empty_iff]

@[simp] theorem memDistinctBlockers {issue : TrackerIssue} {key : String} :
    key ∈ distinctBlockers issue ↔ key ∈ blockerKeys issue := by
  simp [distinctBlockers]

theorem distinctBlockersNodup (issue : TrackerIssue) : (distinctBlockers issue).Nodup := by
  simp [distinctBlockers, List.nodup_dedup]

theorem checkedFacts {issues : List TrackerIssue} {candidateKeys : Finset String}
    {blocking : Option (Finset String)} {byKey : Index}
    (accepted : checked issues candidateKeys blocking = .ok byKey) :
    byKey = issues.map entryOf ∧ byKey.keys.Nodup ∧ (∀ k ∈ candidateKeys, k ∈ byKey.keys) ∧
      ∀ e ∈ byKey, ∀ b ∈ blockerKeys e.2, b ∈ byKey.keys := by
  unfold checked at accepted
  cases index : indexed issues [] with
  | error refusal => simp [index, bind, Except.bind] at accepted
  | ok found =>
    simp only [index, bind, Except.bind] at accepted
    obtain ⟨shape, unique⟩ := indexedEntries (by simp [Dict.keys]) index
    split at accepted
    · cases accepted
    · rename_i known
      split at accepted
      · cases accepted
      · split at accepted
        · cases accepted
        · rename_i present
          cases accepted
          refine ⟨by simpa using shape, unique, absentEmpty.mp (not_not.mp known), ?_⟩
          intro e he b hb
          refine absentEmpty.mp (not_not.mp present) b ?_
          simp only [List.mem_toFinset, List.mem_flatMap, blockerGraph, List.mem_map]
          exact ⟨_, ⟨e, he, rfl⟩, by simpa using hb⟩

end Refusals

section Demand
variable (issues : List TrackerIssue) (blocking : Option (Finset String))

/-- One blockedBy edge of the snapshot, from an issue to what blocks it. -/
def BlockedBy (a b : String) : Prop := ∃ issue ∈ issues, issue.issueKey.val = a ∧ b ∈ blockerKeys issue

/-- A blocker is live while it is open, or while the caller's closure names it. -/
def Live (blocker : String) : Prop :=
  match blocking with
  | none => ∃ issue ∈ issues, issue.issueKey.val = blocker ∧ isOpen issue.stateKind
  | some keys => blocker ∈ keys

def Demands (issue : TrackerIssue) (key : String) : Prop :=
  issue ∈ issues ∧ Relation.ReflTransGen (BlockedBy issues) issue.issueKey.val key

structure BestDemand (entry : ReadyIssue) : Prop where
  attained : ∃ issue, Demands issues issue entry.issue.issueKey.val ∧ issue.priority = entry.effectivePriority
  best : ∀ issue, Demands issues issue entry.issue.issueKey.val →
    priorityRank entry.effectivePriority ≤ priorityRank issue.priority

def TopologyPlan.readyKeys (plan : TopologyPlan) : List String := plan.ready.map (·.issue.issueKey.val)
def TopologyPlan.blockedKeys (plan : TopologyPlan) : List String := plan.blocked.map BlockedIssue.issueKey

structure RanksTransitiveDemand (candidateKeys : Finset String) (plan : TopologyPlan) : Prop where
  ranked : ∀ entry ∈ plan.ready, entry.issue ∈ issues ∧ BestDemand issues entry
  partition : (plan.readyKeys ++ plan.blockedKeys).Nodup ∧
    ∀ key, key ∈ plan.readyKeys ++ plan.blockedKeys ↔ key ∈ candidateKeys
  blocked : ∀ issue ∈ issues, issue.issueKey.val ∈ candidateKeys →
    (issue.issueKey.val ∈ plan.blockedKeys ↔ ∃ blocker ∈ blockerKeys issue, Live issues blocking blocker)
  named : ∀ entry ∈ plan.blocked, entry.blockerKeys.Nodup ∧ ∃ issue ∈ issues,
    issue.issueKey.val = entry.issueKey ∧
    ∀ blocker, blocker ∈ entry.blockerKeys ↔ blocker ∈ blockerKeys issue ∧ Live issues blocking blocker
  ordered : plan.ready.Pairwise fun a b => readyKey a ≤ readyKey b
  stable : ∀ tie, ((plan.ready.filter fun entry => readyKey entry = tie).map ReadyIssue.issue).Sublist issues

end Demand

theorem graphGet (byKey : Index) (key : String) :
    (blockerGraph byKey).get? key = (byKey.get? key).map distinctBlockers := by
  induction byKey with
  | nil => rfl
  | cons e byKey ih =>
    change (if e.1 = key then some (distinctBlockers e.2) else Dict.get? (blockerGraph byKey) key) =
      (if e.1 = key then some e.2 else Dict.get? byKey key).map distinctBlockers
    split
    · rfl
    · exact ih

@[simp] theorem graphKeys (byKey : Index) : (blockerGraph byKey).keys = byKey.keys := by
  simp [blockerGraph, Dict.keys]

section Snapshot
variable {issues : List TrackerIssue} (unique : (Dict.keys (issues.map entryOf)).Nodup)
include unique

theorem getEntry (key : String) (issue : TrackerIssue) :
    Dict.get? (issues.map entryOf) key = some issue ↔ issue ∈ issues ∧ issue.issueKey.val = key := by
  constructor
  · intro found
    obtain ⟨item, inside, same⟩ := List.mem_map.mp (Dict.getMember found)
    cases same
    exact ⟨inside, rfl⟩
  · rintro ⟨inside, rfl⟩
    exact Dict.getOfMember unique (List.mem_map.mpr ⟨issue, inside, rfl⟩)

theorem successorsBlockedBy (a b : String) :
    b ∈ successors (blockerGraph (issues.map entryOf)) a ↔ BlockedBy issues a b := by
  simp only [successors, graphGet, BlockedBy]
  cases found : Dict.get? (issues.map entryOf) a with
  | none =>
    constructor
    · simp
    · rintro ⟨issue, inside, same, _⟩
      rw [(getEntry unique a issue).mpr ⟨inside, same⟩] at found
      cases found
  | some issue =>
    obtain ⟨inside, same⟩ := (getEntry unique a issue).mp found
    constructor
    · intro edge
      exact ⟨issue, inside, same, by simpa using edge⟩
    · rintro ⟨other, member, key, edge⟩
      cases (((getEntry unique a other).mpr ⟨member, key⟩).symm.trans found)
      simpa using edge

theorem liveIff (blocking : Option (Finset String)) (blocker : String) :
    live (issues.map entryOf) blocking blocker = true ↔ Live issues blocking blocker := by
  cases blocking with
  | some keys => simp [live, Live]
  | none =>
    simp only [live, Live, Option.any_eq_true]
    constructor
    · rintro ⟨issue, found, open_⟩
      obtain ⟨inside, same⟩ := (getEntry unique _ _).mp found
      exact ⟨issue, inside, same, open_⟩
    · rintro ⟨issue, inside, same, open_⟩
      exact ⟨issue, (getEntry unique _ _).mpr ⟨inside, same⟩, open_⟩

/-- Whatever demands an issue of the snapshot is an issue of the snapshot. -/
theorem demandInSnapshot {a b : String} (member : b ∈ Dict.keys (issues.map entryOf))
    (path : Relation.ReflTransGen (BlockedBy issues) a b) : ∃ issue ∈ issues, issue.issueKey.val = a := by
  rcases Relation.ReflTransGen.cases_head path with rfl | ⟨next, ⟨issue, inside, same, _⟩, _⟩
  · obtain ⟨issue, found⟩ := (Dict.getSome _ _).mp member
    exact ⟨issue, ((getEntry unique _ _).mp found).1, ((getEntry unique _ _).mp found).2⟩
  · exact ⟨issue, inside, same⟩

theorem priorityOfMember {issue : TrackerIssue} (inside : issue ∈ issues) :
    priorityOf (issues.map entryOf) issue.issueKey.val = issue.priority := by
  rw [priorityOf, (getEntry unique _ issue).mpr ⟨inside, rfl⟩]
  rfl

/-- The relaxed weight of an issue is the best priority that demands it. -/
theorem relaxedBest {ordered : List String} {issue : TrackerIssue} (inside : issue ∈ issues)
    (returned : acyclicOrder (blockerGraph (issues.map entryOf)) = .ok ordered) :
    BestDemand issues ⟨issue, relaxAll (successors (blockerGraph (issues.map entryOf)))
      (priorityOf (issues.map entryOf)) ordered.reverse issue.issueKey.val⟩ := by
  have keys : (blockerGraph (issues.map entryOf)).keys.Nodup := by simpa using unique
  obtain ⟨settled, complete⟩ := acyclicOrderSettled keys returned
  have everyNode : ∀ v, successors (blockerGraph (issues.map entryOf)) v ≠ [] → v ∈ ordered := by
    intro v some_edge
    obtain ⟨b, edge⟩ := List.exists_mem_of_ne_nil _ some_edge
    obtain ⟨item, member, same, _⟩ := (successorsBlockedBy unique v b).mp edge
    refine complete v ?_
    rw [graphKeys]
    exact List.mem_map.mpr ⟨entryOf item, List.mem_map.mpr ⟨item, member, rfl⟩, same⟩
  have paths : ∀ a b, Reaches (successors (blockerGraph (issues.map entryOf))) a b ↔
      Relation.ReflTransGen (BlockedBy issues) a b := by
    intro a b
    exact ⟨Relation.ReflTransGen.mono (fun x y => (successorsBlockedBy unique x y).mp) a b,
      Relation.ReflTransGen.mono (fun x y => (successorsBlockedBy unique x y).mpr) a b⟩
  obtain ⟨⟨source, path, value⟩, best⟩ := relaxAllBest settled everyNode
    (priorityOf (issues.map entryOf)) issue.issueKey.val
  constructor
  · have key : issue.issueKey.val ∈ Dict.keys (issues.map entryOf) :=
      List.mem_map.mpr ⟨entryOf issue, List.mem_map.mpr ⟨issue, inside, rfl⟩, rfl⟩
    obtain ⟨demander, member, rfl⟩ := demandInSnapshot unique key ((paths _ _).mp path)
    refine ⟨demander, ⟨member, (paths _ _).mp path⟩, ?_⟩
    rw [value, priorityOfMember unique member]
  · rintro demander ⟨member, demanded⟩
    have bound := best _ ((paths _ _).mpr demanded)
    rw [priorityOfMember unique member] at bound
    exact priorityLe.mp bound

end Snapshot

def snapshotCandidates (issues : List TrackerIssue) (candidateKeys : Finset String) : List TrackerIssue :=
  issues.filter fun issue => issue.issueKey.val ∈ candidateKeys

/-- The plan over a snapshot whose checks passed, given its traversal order. -/
theorem planShape {issues : List TrackerIssue} {candidateKeys : Finset String}
    {blocking : Option (Finset String)} {plan : TopologyPlan}
    (accepted : planTopology issues candidateKeys blocking = .ok plan) :
    checked issues candidateKeys blocking = .ok (issues.map entryOf) ∧
    ∃ ordered, acyclicOrder (blockerGraph (issues.map entryOf)) = .ok ordered ∧
      plan.ready = sortBy readyKey (((snapshotCandidates issues candidateKeys).filter fun issue =>
        (liveBlockers (issues.map entryOf) blocking issue).isEmpty).map
          fun issue => ⟨issue, relaxAll (successors (blockerGraph (issues.map entryOf)))
            (priorityOf (issues.map entryOf)) ordered.reverse issue.issueKey.val⟩) ∧
      plan.blocked = ((snapshotCandidates issues candidateKeys).filter fun issue =>
        !(liveBlockers (issues.map entryOf) blocking issue).isEmpty).map
          fun issue => ⟨issue.issueKey.val, liveBlockers (issues.map entryOf) blocking issue⟩ := by
  unfold planTopology at accepted
  cases checks : checked issues candidateKeys blocking with
  | error refusal => simp [checks, bind, Except.bind] at accepted
  | ok byKey =>
    obtain ⟨rfl, -⟩ := checkedFacts checks
    simp only [checks, bind, Except.bind] at accepted
    cases order : acyclicOrder (blockerGraph (issues.map entryOf)) with
    | error halt => simp [order, Except.mapError] at accepted
    | ok ordered =>
      simp only [order, Except.mapError] at accepted
      cases accepted
      refine ⟨rfl, ordered, rfl, ?_, ?_⟩
      · simp only [snapshotCandidates, List.filter_map, List.map_map]
        rfl
      · simp only [snapshotCandidates, List.filter_map, List.map_map]
        rfl

theorem checkedNeverHalts (issues : List TrackerIssue) (candidateKeys : Finset String)
    (blocking : Option (Finset String)) (halt : Halt String) :
    checked issues candidateKeys blocking ≠ .error (.halted halt) := by
  have index : ∀ byKey, indexed issues byKey ≠ .error (.halted halt) := by
    induction issues with
    | nil => exact fun _ => nofun
    | cons issue issues ih =>
      intro byKey
      simp only [indexed]
      split
      · simp
      · exact ih _
  unfold checked
  cases found : indexed issues [] with
  | error refusal =>
    intro stalled
    simp only [bind, Except.bind, Except.error.injEq] at stalled
    exact index [] (stalled ▸ found)
  | ok byKey =>
    simp only [bind, Except.bind]
    repeat' split
    all_goals simp

theorem planNeverRunsOut (issues : List TrackerIssue) (candidateKeys : Finset String)
    (blocking : Option (Finset String)) :
    planTopology issues candidateKeys blocking ≠ .error (.halted .outOfFuel) := by
  unfold planTopology
  cases checks : checked issues candidateKeys blocking with
  | error refusal =>
    rintro stalled
    cases stalled
    exact checkedNeverHalts _ _ _ _ checks
  | ok byKey =>
    cases order : acyclicOrder (blockerGraph byKey) with
    | ok ordered => simp [bind, Except.bind, order, Except.mapError]
    | error halt =>
      simp only [bind, Except.bind, order, Except.mapError, ne_eq, Except.error.injEq, Refusal.halted.injEq]
      rintro rfl
      exact acyclicOrderFuel _ order

section Plan
variable {issues : List TrackerIssue} (unique : (Dict.keys (issues.map entryOf)).Nodup)
include unique

theorem memLiveBlockers (blocking : Option (Finset String)) (issue : TrackerIssue) (blocker : String) :
    blocker ∈ liveBlockers (issues.map entryOf) blocking issue ↔
      blocker ∈ blockerKeys issue ∧ Live issues blocking blocker := by
  simp only [liveBlockers, List.mem_filter, memDistinctBlockers, liveIff unique]

theorem sameKeySameIssue {a b : TrackerIssue} (ha : a ∈ issues) (hb : b ∈ issues)
    (same : a.issueKey.val = b.issueKey.val) : a = b := by
  have left := (getEntry unique b.issueKey.val a).mpr ⟨ha, same⟩
  have right := (getEntry unique b.issueKey.val b).mpr ⟨hb, rfl⟩
  exact Option.some.inj (left.symm.trans right)

end Plan

theorem planRanksTransitiveDemand {issues : List TrackerIssue} {candidateKeys : Finset String}
    {blocking : Option (Finset String)} {plan : TopologyPlan}
    (accepted : planTopology issues candidateKeys blocking = .ok plan) :
    RanksTransitiveDemand issues blocking candidateKeys plan := by
  obtain ⟨checks, ordered, order, readyShape, blockedShape⟩ := planShape accepted
  obtain ⟨-, unique, known, -⟩ := checkedFacts checks
  have candidate : ∀ issue, issue ∈ snapshotCandidates issues candidateKeys ↔
      issue ∈ issues ∧ issue.issueKey.val ∈ candidateKeys := by
    simp [snapshotCandidates]
  have candidateNodup : ((snapshotCandidates issues candidateKeys).map (·.issueKey.val)).Nodup := by
    have all : (issues.map (·.issueKey.val)).Nodup := by
      simpa [Dict.keys, Function.comp_def, entryOf] using unique
    exact all.sublist (List.filter_sublist.map _)
  have keys : (plan.readyKeys ++ plan.blockedKeys).Perm
      ((snapshotCandidates issues candidateKeys).map (·.issueKey.val)) := by
    rw [TopologyPlan.readyKeys, TopologyPlan.blockedKeys, readyShape, blockedShape, List.map_map]
    refine (((sortByPerm _ _).map _).append_right _).trans ?_
    simp only [List.map_map, Function.comp_def]
    rw [← List.map_append]
    exact (List.filter_append_perm _ _).map _
  refine ⟨?_, ⟨keys.nodup_iff.mpr candidateNodup, ?_⟩, ?_, ?_, ?_, ?_⟩
  · intro entry member
    rw [readyShape, memSortBy] at member
    obtain ⟨issue, inside, rfl⟩ := List.mem_map.mp member
    have source := ((candidate issue).mp (List.mem_filter.mp inside).1).1
    exact ⟨source, relaxedBest unique source order⟩
  · intro key
    rw [keys.mem_iff]
    constructor
    · intro inside
      obtain ⟨issue, member, rfl⟩ := List.mem_map.mp inside
      exact ((candidate issue).mp member).2
    · intro wanted
      obtain ⟨e, inside, rfl⟩ := List.mem_map.mp (known key wanted)
      obtain ⟨issue, member, rfl⟩ := List.mem_map.mp inside
      exact List.mem_map.mpr ⟨issue, (candidate issue).mpr ⟨member, wanted⟩, rfl⟩
  · intro issue inside wanted
    rw [TopologyPlan.blockedKeys, blockedShape, List.map_map]
    constructor
    · intro blocked
      obtain ⟨other, member, same⟩ := List.mem_map.mp blocked
      obtain ⟨chosen, some_live⟩ := List.mem_filter.mp member
      cases sameKeySameIssue unique ((candidate other).mp chosen).1 inside same
      obtain ⟨blocker, live⟩ := List.exists_mem_of_ne_nil _ (by simpa using some_live)
      exact ⟨blocker, (memLiveBlockers unique blocking _ blocker).mp live⟩
    · rintro ⟨blocker, live⟩
      refine List.mem_map.mpr
        ⟨issue, List.mem_filter.mpr ⟨(candidate issue).mpr ⟨inside, wanted⟩, ?_⟩, rfl⟩
      simpa using List.ne_nil_of_mem ((memLiveBlockers unique blocking issue blocker).mpr live)
  · intro entry member
    rw [blockedShape] at member
    obtain ⟨issue, inside, rfl⟩ := List.mem_map.mp member
    exact ⟨(distinctBlockersNodup issue).filter _, issue,
      ((candidate issue).mp (List.mem_filter.mp inside).1).1, rfl, memLiveBlockers unique blocking issue⟩
  · rw [readyShape]
    exact sortByOrdered readyKey _
  · intro tie
    rw [readyShape, sortByFilter]
    refine (List.filter_sublist.map ReadyIssue.issue).trans ?_
    simp only [List.map_map, Function.comp_def, List.map_id']
    exact List.filter_sublist.trans List.filter_sublist

def lowBlocker : TrackerIssue :=
  { issueKey := ⟨"KOD-11", by decide⟩, priority := .low, stateKind := .started, createdAt := 30 }
def urgentDependent : TrackerIssue :=
  { issueKey := ⟨"KOD-12", by decide⟩, priority := .urgent, stateKind := .unstarted,
    relations := [⟨.blockedBy, ⟨"KOD-11", by decide⟩⟩], createdAt := 20 }
def highPeer : TrackerIssue :=
  { issueKey := ⟨"KOD-13", by decide⟩, priority := .high, stateKind := .unstarted, createdAt := 10 }

theorem urgentDemandRanksLowBlockerFirst :
    RanksTransitiveDemand [highPeer, lowBlocker, urgentDependent] none {"KOD-11", "KOD-12", "KOD-13"}
      ⟨[⟨lowBlocker, .urgent⟩, ⟨highPeer, .high⟩], [⟨"KOD-12", ["KOD-11"]⟩]⟩ :=
  planRanksTransitiveDemand (by decide)

end Kodezart.Topology
