import Mathlib
import Kodezart.SubtreeWalk

/-! Which walks of a closure end. Its table may be the union of several trees, where a key can
stand beneath itself: what has been read breaks a second visit of it, what is being read does not. -/
namespace Kodezart.IssueTree.SubtreeClosure
open Tracker Gap DepthFirst

variable (closure : SubtreeClosure)

/-- Walking a key, the walk comes to the child with every child it takes before that one read. -/
def Follows (key child : String) : Prop :=
  closure.refusal key = none ∧ ∃ before after, (closure.childKeys key).reverse = before ++ child :: after ∧
    ∀ sibling ∈ before, ∃ order, closure.Open sibling order

/-- A key the walk comes back to while it is still being read. -/
def Trapped (key : String) : Prop := Relation.TransGen closure.Follows key key

/-- A key whose walk meets a refusal. -/
inductive Refuses : String → Prop where
  | here {key : String} {e : Refusal} (refused : closure.refusal key = some e) : Refuses key
  | under {key child : String} (follows : closure.Follows key child) (refuses : Refuses child) : Refuses key

def Endless (key : String) : Prop := (¬ ∃ order, closure.Open key order) ∧ ¬ closure.Refuses key

variable {closure} {memo memo' : Memo} {key child : String} {order : List String} {pending : List (String × Bool)}

section Shapes

theorem openChild (opened : closure.Open key order) (member : child ∈ closure.childKeys key) :
    ∃ below, closure.Open child below ∧ below.length < order.length := by
  obtain ⟨below, rfl, descent⟩ := forestDescent opened.forest
  obtain ⟨inner, own, within⟩ := forestWithin descent (forestRoots descent child member)
  refine ⟨inner, ⟨own, fun x inside => opened.free x (List.mem_cons_of_mem _ (within.subset inside))⟩, ?_⟩
  exact Nat.lt_succ_of_le within.length_le

theorem followsChild (follows : closure.Follows key child) : child ∈ closure.childKeys key := by
  obtain ⟨-, before, after, split, -⟩ := follows
  exact List.mem_reverse.mp (split ▸ by simp)

theorem openNotRefuses (refuses : closure.Refuses key) : ¬ ∃ order, closure.Open key order := by
  induction refuses with
  | here refused =>
    rintro ⟨order, opened⟩
    have free := opened.free _ (forestRoots opened.forest _ (List.mem_singleton_self _))
    cases refused.symm.trans free
  | under follows refuses ih =>
    rintro ⟨order, opened⟩
    obtain ⟨below, inner, -⟩ := openChild opened (followsChild follows)
    exact ih ⟨below, inner⟩

theorem openShrinks {last : String} (along : Relation.TransGen closure.Follows key last) (opened : closure.Open key order) :
    ∃ below, closure.Open last below ∧ below.length < order.length := by
  induction along with
  | single follows => exact openChild opened (followsChild follows)
  | tail _ follows ih =>
    obtain ⟨middle, between, less⟩ := ih
    obtain ⟨below, inner, smaller⟩ := openChild between (followsChild follows)
    exact ⟨below, inner, smaller.trans less⟩

theorem trappedNotOpen (trapped : closure.Trapped key) : ¬ ∃ order, closure.Open key order := by
  rintro ⟨order, opened⟩
  obtain ⟨below, inner, less⟩ := openShrinks trapped opened
  rw [forestUnique inner.forest opened.forest] at less
  exact lt_irrefl _ less

/-- Among the children of a key the walk comes to one that is not read through, at most. -/
theorem followsUnique {other : String} (follows : closure.Follows key child) (follows' : closure.Follows key other)
    (stuck : ¬ ∃ order, closure.Open child order) (stuck' : ¬ ∃ order, closure.Open other order) : child = other := by
  obtain ⟨-, before, after, split, read⟩ := follows
  obtain ⟨-, before', after', split', read'⟩ := follows'
  rw [split] at split'
  rcases List.append_eq_append_iff.mp split' with ⟨more, rest, tail⟩ | ⟨more, rest, tail⟩
  · cases more with
    | nil => exact (List.cons.inj (by simpa using tail)).1
    | cons head more =>
      obtain ⟨rfl, -⟩ := List.cons.inj tail
      exact absurd (read' child (by simp [rest])) stuck
  · cases more with
    | nil => exact (List.cons.inj (by simpa using tail)).1.symm
    | cons head more =>
      obtain ⟨rfl, -⟩ := List.cons.inj tail
      exact absurd (read other (by simp [rest])) stuck'

theorem trappedNotRefuses (refuses : closure.Refuses key) : ¬ closure.Trapped key := by
  induction refuses with
  | here refused =>
    intro trapped
    obtain ⟨child, follows, -⟩ := Relation.TransGen.head'_iff.mp trapped
    cases refused.symm.trans follows.1
  | @under key child follows refuses ih =>
    intro trapped
    obtain ⟨other, next, rest⟩ := Relation.TransGen.head'_iff.mp trapped
    have onward : closure.Trapped other := Relation.TransGen.tail' rest next
    have same := followsUnique follows next (openNotRefuses refuses) (trappedNotOpen onward)
    exact ih (same ▸ onward)

theorem trappedEndless (trapped : closure.Trapped key) : closure.Endless key :=
  ⟨trappedNotOpen trapped, fun refuses => trappedNotRefuses refuses trapped⟩

/-- The first of some keys that is not read through. -/
theorem firstStuck {keys : List String} (stuck : ¬ ∀ k ∈ keys, ∃ order, closure.Open k order) :
    ∃ before k after, keys = before ++ k :: after ∧ (∀ sibling ∈ before, ∃ order, closure.Open sibling order) ∧
      ¬ ∃ order, closure.Open k order := by
  induction keys with
  | nil => simp at stuck
  | cons k keys ih =>
    by_cases opened : ∃ order, closure.Open k order
    · have later : ¬ ∀ k ∈ keys, ∃ order, closure.Open k order := fun all => stuck (by simpa using ⟨opened, all⟩)
      obtain ⟨before, next, after, rfl, read, here⟩ := ih later
      exact ⟨k :: before, next, after, rfl, by simpa using ⟨opened, read⟩, here⟩
    · exact ⟨[], k, keys, rfl, by simp, opened⟩

theorem endlessFollows (endless : closure.Endless key) : ∃ child, closure.Follows key child ∧ closure.Endless child := by
  obtain ⟨unread, unrefused⟩ := endless
  have free : closure.refusal key = none := by
    cases refused : closure.refusal key with
    | none => rfl
    | some e => exact absurd (.here refused) unrefused
  have stuck : ¬ ∀ k ∈ (closure.childKeys key).reverse, ∃ order, closure.Open k order := by
    intro all
    obtain ⟨below, forest, inner⟩ := openForest fun k member => all k (List.mem_reverse.mpr member)
    exact unread ⟨key :: below, forestSingle forest, List.forall_mem_cons.mpr ⟨free, inner⟩⟩
  obtain ⟨before, child, after, split, read, here⟩ := firstStuck stuck
  have follows : closure.Follows key child := ⟨free, before, after, split, read⟩
  exact ⟨child, follows, here, fun refuses => unrefused (.under follows refuses)⟩

theorem endlessKnown (endless : closure.Endless key) : key ∈ closure.facts.keys := by
  by_contra unknown
  have absent : closure.facts.get? key = none := by
    rw [← Option.not_isSome_iff_eq_none, Option.isSome_iff_exists, ← Dict.getSome]
    exact unknown
  exact endless.2 (.here (e := .keyError key) (by simp [refusal, absent]))

/-- Following endless keys on and on, in a finite table, comes round. -/
theorem endlessTrapped (endless : closure.Endless key) : ∃ trapped ∈ closure.facts.keys, closure.Trapped trapped := by
  choose next follows onward using fun k : { k // closure.Endless k } => endlessFollows k.2
  let walk : { k // closure.Endless k } → { k // closure.Endless k } := fun k => ⟨next k, onward k⟩
  have finite : Finite { k // closure.Endless k } :=
    (closure.facts.keys.toFinset.finite_toSet.subset fun k endless => by simpa using endlessKnown endless).to_subtype
  have along (start : { k // closure.Endless k }) (steps : Nat) :
      Relation.TransGen closure.Follows start.1 (walk^[steps + 1] start).1 := by
    induction steps with
    | zero => exact .single (follows start)
    | succ steps ih =>
      rw [Function.iterate_succ_apply']
      exact .tail ih (follows _)
  have come {early late : Nat} (before : early < late) (same : walk^[early] ⟨key, endless⟩ = walk^[late] ⟨key, endless⟩) :
      ∃ trapped ∈ closure.facts.keys, closure.Trapped trapped := by
    refine ⟨(walk^[early] ⟨key, endless⟩).1, endlessKnown (walk^[early] ⟨key, endless⟩).2, ?_⟩
    have round := along (walk^[early] ⟨key, endless⟩) (late - early - 1)
    rw [← Function.iterate_add_apply, show late - early - 1 + 1 + early = late by omega, ← same] at round
    exact round
  obtain ⟨one, other, different, same⟩ := Finite.exists_ne_map_eq_of_infinite fun steps => walk^[steps] ⟨key, endless⟩
  rcases Nat.lt_or_gt_of_ne different with before | after
  · exact come before same
  · exact come after same.symm

end Shapes

section Walks

def stopped (left : Memo × Except Refusal Unit) : Prop := left.2 ≠ .error .outOfFuel

/-- A walk that has stopped stops the same with more to spend. -/
theorem walkMore {fuel : Nat} (more : Nat) (ended : stopped (closure.walk fuel pending memo)) :
    closure.walk (fuel + more) pending memo = closure.walk fuel pending memo := by
  induction fuel generalizing pending memo with
  | zero => exact absurd rfl ended
  | succ fuel ih =>
    rw [Nat.succ_add]
    cases pending with
    | nil => rfl
    | cons head pending =>
      obtain ⟨current, expanded⟩ := head
      simp only [walk] at ended ⊢
      split
      · rfl
      · rename_i memo' pushed turned
        simp only [turned] at ended
        exact ih ended

theorem openNotFresh (settled : closure.Settled memo) (unread : ¬ ∃ order, closure.Open key order) : key ∉ memo.gaps.keys := by
  intro cached
  obtain ⟨order, opened, -⟩ := settledOpen settled cached
  exact unread ⟨order, opened⟩

/-- Children that are all read through, in the order the stack takes them. -/
theorem readThrough {keys : List String} (read : ∀ k ∈ keys, ∃ order, closure.Open k order) (settled : closure.Settled memo) :
    ∃ memo' order, closure.Through keys order memo memo' := by
  obtain ⟨below, forest, free⟩ := openForest fun k member => read k (List.mem_reverse.mp member)
  have turned : Forest (fun k => ((closure.childKeys k).reverse).reverse) keys.reverse below := by
    simpa only [List.reverse_reverse] using forest
  obtain ⟨mirrored, taken, perm⟩ := forestMirror turned
  rw [List.reverse_reverse] at taken
  obtain ⟨memo', through⟩ := walkThrough taken (fun x member => free x (perm.mem_iff.mp member)) memo settled
  exact ⟨memo', mirrored, through⟩

/-- From a key to the child that follows: one turn, and what is taken before the child. -/
theorem walkFollows (settled : closure.Settled memo) (fresh : key ∉ memo.gaps.keys) (follows : closure.Follows key child) :
    ∃ cost memo' after, closure.Settled memo' ∧ ∀ fuel pending,
      closure.walk (fuel + cost + 1) ((key, false) :: pending) memo =
        closure.walk fuel ((child, false) :: (after ++ pending)) memo' := by
  obtain ⟨free, before, after, split, read⟩ := follows
  have lane : ∃ issue, closure.facts.get? key = some issue ∧ isCriterion issue = false ∧
      closure.isRecord issue key = false ∧ (closure.children key).filter isCriterion ≠ [] := by
    have nested : closure.children key ≠ [] := by
      intro leaf
      simp [childKeys, leaf] at split
    cases stands free with
    | criterion _ _ _ leaf => exact absurd leaf nested
    | record _ _ _ _ leaf => exact absurd leaf nested
    | lane issue found deliverable walked own => exact ⟨issue, found, deliverable, walked, own⟩
  obtain ⟨issue, found, deliverable, walked, own⟩ := lane
  obtain ⟨memo', order, through⟩ := readThrough read settled
  obtain ⟨cost, -, spent⟩ := through.spent
  refine ⟨cost, memo', entries after ++ [(key, true)], through.settled, fun fuel pending => ?_⟩
  have pushed := walkNext (fuel + cost) pending (turnLane fresh found deliverable walked own)
  rw [pushed, split]
  simpa [entries] using spent fuel ((child, false) :: (entries after ++ (key, true) :: pending))

/-- The walk of an endless key never stops, whatever it is given to spend. -/
theorem endlessRuns (settled : closure.Settled memo) (endless : closure.Endless key) (fuel : Nat) (pending : List (String × Bool)) :
    ¬ stopped (closure.walk fuel ((key, false) :: pending) memo) := by
  induction fuel using Nat.strongRecOn generalizing key memo pending with
  | ind fuel ih =>
    intro ended
    cases fuel with
    | zero => exact ended rfl
    | succ fuel =>
      obtain ⟨child, follows, onward⟩ := endlessFollows endless
      obtain ⟨cost, memo', after, settled', step⟩ := walkFollows settled (openNotFresh settled endless.1) follows
      have same := walkMore cost ended
      rw [show fuel + 1 + cost = fuel + cost + 1 by omega, step fuel pending] at same
      rw [← same] at ended
      exact ih fuel (Nat.lt_succ_self fuel) settled' onward _ ended

/-- A key that meets a refusal ends its walk with one. -/
theorem refusesStops (refuses : closure.Refuses key) (settled : closure.Settled memo) : ∃ cost memo' e, closure.Settled memo' ∧
    e ≠ .outOfFuel ∧ ∀ fuel pending, closure.walk (fuel + cost) ((key, false) :: pending) memo = (memo', .error e) := by
  induction refuses generalizing memo with
  | @here key e refused =>
    have fresh := openNotFresh settled (openNotRefuses (.here refused))
    refine ⟨1, memo, e, settled, ?_, fun fuel pending => by simp [walk, turnRefused fresh refused]⟩
    rintro rfl
    unfold refusal at refused
    repeat' split at refused
    all_goals cases refused
  | @under key child follows refuses ih =>
    have fresh := openNotFresh settled (openNotRefuses (.under follows refuses))
    obtain ⟨first, mid, after, settled', step⟩ := walkFollows settled fresh follows
    obtain ⟨second, last, e, settled'', named, ended⟩ := ih settled'
    refine ⟨second + first + 1, last, e, settled'', named, fun fuel pending => ?_⟩
    rw [← Nat.add_assoc, ← Nat.add_assoc, step (fuel + second) pending]
    exact ended fuel _

theorem openStops (opened : ∃ order, closure.Open key order) (settled : closure.Settled memo) :
    ∃ cost memo', closure.Settled memo' ∧ (key ∈ memo'.gaps.keys) ∧ ∀ fuel, closure.walk (fuel + cost) [(key, false)] memo = (memo', .ok ()) := by
  obtain ⟨memo', order, through⟩ := readThrough (List.forall_mem_singleton.mpr opened) settled
  obtain ⟨cost, -, spent⟩ := through.spent
  refine ⟨cost + 1, memo', through.settled, through.cached key (List.mem_singleton_self key), fun fuel => ?_⟩
  have ended := spent (fuel + 1) []
  rw [show fuel + (cost + 1) = fuel + 1 + cost by omega]
  simpa [entries, walk] using ended

theorem stopsIff (settled : closure.Settled memo) :
    (∃ fuel, stopped (closure.walk fuel [(key, false)] memo)) ↔ ¬ closure.Endless key := by
  constructor
  · rintro ⟨fuel, ended⟩ endless
    exact endlessRuns settled endless fuel [] ended
  · intro ending
    by_cases opened : ∃ order, closure.Open key order
    · obtain ⟨cost, memo', -, -, ended⟩ := openStops opened settled
      refine ⟨0 + cost, ?_⟩
      rw [stopped, ended 0]
      simp
    · have refuses : closure.Refuses key := not_not.mp fun unrefused => ending ⟨opened, unrefused⟩
      obtain ⟨cost, memo', e, -, named, ended⟩ := refusesStops refuses settled
      refine ⟨0 + cost, ?_⟩
      rw [stopped, ended 0 []]
      simpa using named

theorem stoppedSettled {fuel : Nat} (settled : closure.Settled memo)
    (ended : stopped (closure.walk fuel [(key, false)] memo)) : closure.Settled (closure.walk fuel [(key, false)] memo).1 := by
  have ending := (stopsIff settled).mp ⟨fuel, ended⟩
  by_cases opened : ∃ order, closure.Open key order
  · obtain ⟨cost, memo', settled', -, whole⟩ := openStops opened settled
    rw [← walkMore cost ended, whole fuel]
    exact settled'
  · have refuses : closure.Refuses key := not_not.mp fun unrefused => ending ⟨opened, unrefused⟩
    obtain ⟨cost, memo', e, settled', -, whole⟩ := refusesStops refuses settled
    rw [← walkMore cost ended, whole fuel []]
    exact settled'

end Walks

section Reads

variable (closure)

/-- `read` of a walk given so much to spend. -/
def readFor (fuel : Nat) (reading : Memo → Dict String (List TrackerIssue)) (memo : Memo) (key : String) :
    Memo × Except Refusal (List TrackerIssue) :=
  let (memo', ended) := closure.walk fuel [(key, false)] memo
  (memo', do
    let _ ← ended
    match (reading memo').get? key with
    | none => .error (.keyError key)
    | some rows => .ok rows)

def isClosedFor (fuel : Nat) (memo : Memo) (key : String) : Memo × Except Refusal Bool :=
  let (memo', answer) := closure.readFor fuel Memo.gaps memo key
  (memo', do return (← answer).isEmpty)

/-- The three readings of a key return or raise. -/
structure Ends (memo : Memo) (key : String) : Prop where
  gap : ∃ fuel, (closure.readFor fuel Memo.gaps memo key).2 ≠ .error .outOfFuel
  roster : ∃ fuel, (closure.readFor fuel Memo.rosters memo key).2 ≠ .error .outOfFuel
  isClosed : ∃ fuel, (closure.isClosedFor fuel memo key).2 ≠ .error .outOfFuel

/-- The caches a closure is left with by earlier readings that ended. -/
inductive Left : Memo → Prop where
  | fresh : Left ⟨[], []⟩
  | read {memo : Memo} {key : String} {fuel : Nat} (before : Left memo)
      (ended : stopped (closure.walk fuel [(key, false)] memo)) : Left (closure.walk fuel [(key, false)] memo).1

variable {closure}

theorem readIsFor (reading : Memo → Dict String (List TrackerIssue)) :
    closure.read reading memo key = closure.readFor (2 * closure.facts.length + 3) reading memo key := rfl

theorem readForStops {fuel : Nat} (reading : Memo → Dict String (List TrackerIssue)) :
    (closure.readFor fuel reading memo key).2 ≠ .error .outOfFuel ↔ stopped (closure.walk fuel [(key, false)] memo) := by
  unfold readFor stopped
  generalize closure.walk fuel [(key, false)] memo = left
  obtain ⟨memo', ended⟩ := left
  cases ended with
  | error e => simp [bind, Except.bind]
  | ok ended => cases found : (reading memo').get? key <;> simp [bind, Except.bind, found]

theorem isClosedForStops {fuel : Nat} :
    (closure.isClosedFor fuel memo key).2 ≠ .error .outOfFuel ↔ stopped (closure.walk fuel [(key, false)] memo) := by
  rw [← readForStops Memo.gaps]
  unfold isClosedFor
  generalize closure.readFor fuel Memo.gaps memo key = left
  obtain ⟨memo', answer⟩ := left
  cases answer with
  | error e => simp [bind, Except.bind]
  | ok rows => simp [bind, Except.bind, pure, Except.pure]

theorem endsIff (settled : closure.Settled memo) : closure.Ends memo key ↔ ¬ closure.Endless key := by
  rw [← stopsIff settled]
  constructor
  · rintro ⟨⟨fuel, ended⟩, -, -⟩
    exact ⟨fuel, (readForStops _).mp ended⟩
  · rintro ⟨fuel, ended⟩
    exact ⟨⟨fuel, (readForStops _).mpr ended⟩, ⟨fuel, (readForStops _).mpr ended⟩, ⟨fuel, isClosedForStops.mpr ended⟩⟩

theorem leftSettled (left : closure.Left memo) : closure.Settled memo := by
  induction left with
  | fresh => exact settledEmpty
  | read before ended ih => exact stoppedSettled ih ended

/-- Every reading of every key ends, whatever was read before, exactly where no key is one
that a walk comes back to while it is still being read. -/
theorem readinessEndsIff (closure : SubtreeClosure) :
    (∀ memo, closure.Left memo → ∀ key ∈ closure.facts.keys, closure.Ends memo key) ↔
      ∀ key ∈ closure.facts.keys, ¬ closure.Trapped key := by
  constructor
  · intro ends key known trapped
    exact (endsIff settledEmpty).mp (ends _ .fresh key known) (trappedEndless trapped)
  · intro free memo left key known
    refine (endsIff (leftSettled left)).mpr fun endless => ?_
    obtain ⟨trapped, member, round⟩ := endlessTrapped endless
    exact free trapped member round

end Reads

end Kodezart.IssueTree.SubtreeClosure

namespace Kodezart.IssueTree
open Tracker Gap SubtreeClosure

/-- A tree's rows over the facts so far, which they may only repeat. -/
def overlaid (ref : ScopeRef) : Facts → Facts → Except Refusal Facts
  | [], facts => .ok facts
  | (childKey, child) :: tree, facts =>
    if (facts.get? childKey).any (· ≠ child) then .error (.scopeReadError "overlapping subtree facts changed" ref)
    else overlaid ref tree (facts.set childKey child)

/-- The tree of each member whose parent is none of the members, in turn. -/
def gathering (ref : ScopeRef) (rowsOf : String → List TrackerIssue) (members : Facts) :
    Facts → Facts → List String → Except Refusal (Facts × List String)
  | [], facts, covered => .ok (facts, covered)
  | (key, issue) :: rest, facts, covered =>
    if issue.parentKey.any fun parent => parent.val ∈ members.keys then gathering ref rowsOf members rest facts covered
    else do
      let tree ← indexIssueTree key (rowsOf key) ref
      let facts ← overlaid ref tree facts
      gathering ref rowsOf members rest facts (covered ++ tree.keys)

/-- The facts a readiness read assembles from its members and the rows it is answered for each root. -/
def assembled (ref : ScopeRef) (rowsOf : String → List TrackerIssue) (members : Facts) : Except Refusal Facts := do
  let (facts, covered) ← gathering ref rowsOf members members members []
  if ∃ key ∈ members.keys, key ∉ covered then .error (.scopeReadError "scope parentage is not rooted" ref)
  else .ok facts

def rowUnder (key : NonemptyStr) (parent : NonemptyStr) (labels : List String) : TrackerIssue where
  issueKey := key
  priority := .none
  stateKind := .started
  issueLabels := labels
  parentKey := some parent
  createdAt := 0

/-- Two lanes of a scope, each a root of its own tree and standing, in the other's, under a
lane of that one. -/
def crossedMembers : Facts :=
  [("KOD-87", rowUnder ⟨"KOD-87", by decide⟩ ⟨"KOD-90", by decide⟩ []),
    ("KOD-89", rowUnder ⟨"KOD-89", by decide⟩ ⟨"KOD-88", by decide⟩ [])]

def crossedRows (root : String) : List TrackerIssue :=
  if root = "KOD-87" then
    [rowUnder ⟨"KOD-87", by decide⟩ ⟨"KOD-90", by decide⟩ [], rowUnder ⟨"KOD-91", by decide⟩ ⟨"KOD-87", by decide⟩ ["criterion"],
      rowUnder ⟨"KOD-88", by decide⟩ ⟨"KOD-87", by decide⟩ [], rowUnder ⟨"KOD-92", by decide⟩ ⟨"KOD-88", by decide⟩ ["criterion"]]
  else
    [rowUnder ⟨"KOD-89", by decide⟩ ⟨"KOD-88", by decide⟩ [], rowUnder ⟨"KOD-93", by decide⟩ ⟨"KOD-89", by decide⟩ ["criterion"],
      rowUnder ⟨"KOD-90", by decide⟩ ⟨"KOD-89", by decide⟩ [], rowUnder ⟨"KOD-94", by decide⟩ ⟨"KOD-90", by decide⟩ ["criterion"]]

def crossedFacts : Facts :=
  crossedMembers ++ ((crossedRows "KOD-87").drop 1 ++ (crossedRows "KOD-89").drop 1).map fun row => (row.issueKey.val, row)

def crossedClosure : SubtreeClosure := ⟨crossedFacts, ⟨.project, ⟨"atlas", by decide⟩⟩, []⟩

theorem crossedLeaf {key : String} (free : crossedClosure.refusal key = none) (leaf : crossedClosure.childKeys key = []) :
    ∃ order, crossedClosure.Open key order := by
  refine ⟨[key], DepthFirst.forestSingle ?_, by simpa using free⟩
  rw [leaf]
  exact .nil

/-- Two trees that are each accepted, and together lead round: the walk never ends. -/
theorem crossedTreesNeverEnd : ¬ ∀ (ref : ScopeRef) (rowsOf : String → List TrackerIssue) (members facts : Facts)
    (held : List String), assembled ref rowsOf members = .ok facts → ∀ memo, SubtreeClosure.Left ⟨facts, ref, held⟩ memo →
      ∀ key ∈ facts.keys, SubtreeClosure.Ends ⟨facts, ref, held⟩ memo key := by
  intro claim
  have accepted : assembled crossedClosure.ref crossedRows crossedMembers = .ok crossedFacts := by rfl
  have ends := claim _ _ _ _ [] accepted
  have down : crossedClosure.Follows "KOD-87" "KOD-88" := ⟨by decide, [], ["KOD-91"], by decide, by simp⟩
  have across : crossedClosure.Follows "KOD-88" "KOD-89" :=
    ⟨by decide, ["KOD-92"], [], by decide, by simpa using crossedLeaf (by decide) (by decide)⟩
  have further : crossedClosure.Follows "KOD-89" "KOD-90" := ⟨by decide, [], ["KOD-93"], by decide, by simp⟩
  have back : crossedClosure.Follows "KOD-90" "KOD-87" :=
    ⟨by decide, ["KOD-94"], [], by decide, by simpa using crossedLeaf (by decide) (by decide)⟩
  have trapped : crossedClosure.Trapped "KOD-87" := .tail (.tail (.tail (.single down) across) further) back
  exact (endsIff settledEmpty).mp (ends _ .fresh "KOD-87" (by decide)) (trappedEndless trapped)

end Kodezart.IssueTree
