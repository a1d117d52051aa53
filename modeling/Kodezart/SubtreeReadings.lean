import Mathlib
import Kodezart.SubtreeWalk

/-! A table the index accepts is one tree, so its closure answers every key, and its
readings are two filters of one depth-first order. -/
namespace Kodezart.IssueTree
open Tracker Gap DepthFirst

abbrev keyOf (issue : TrackerIssue) : String := issue.issueKey.val

variable {root : String} {ref : ScopeRef} {rows : List TrackerIssue} {facts : Facts} {children : ChildKeys}

/-- The rows that name `key` their parent, the root aside. -/
def filedUnder (root key : String) (rows : List TrackerIssue) : List String :=
  (rows.filter fun issue => keyOf issue ≠ root ∧ issue.parentKey.any fun parent => parent.val = key).map keyOf

theorem ofSet (children : ChildKeys) (key key' : String) (keys : List String) :
    ChildKeys.of (children.set key keys) key' = if key = key' then keys else ChildKeys.of children key' := by
  rw [ChildKeys.of, Dict.getSet]
  split <;> rfl

theorem filedFrom {before : Facts} {known : ChildKeys} (unique : before.keys.Nodup)
    (ok : filed root ref rows before known = .ok (facts, children)) :
    facts = before ++ rows.map (fun issue => (keyOf issue, issue)) ∧ facts.keys.Nodup ∧
      ∀ key, ChildKeys.of children key = ChildKeys.of known key ++ filedUnder root key rows := by
  induction rows generalizing before known with
  | nil =>
    cases ok
    exact ⟨by simp, unique, fun key => by simp [filedUnder]⟩
  | cons issue rows ih =>
    simp only [filed] at ok
    split at ok
    · cases ok
    · rename_i fresh
      have grown := Dict.setFresh issue fresh
      have unique' := Dict.setNodup (keyOf issue) issue unique
      split at ok
      · rename_i member
        split at ok
        · cases ok
        · rename_i parent named
          obtain ⟨table, distinct, under⟩ := ih unique' ok
          refine ⟨by rw [table, grown]; simp, distinct, fun key => ?_⟩
          rw [under, ofSet]
          split
          · rename_i same
            simp [filedUnder, member, named, same]
          · rename_i different
            simp [filedUnder, named, different]
      · rename_i top
        obtain ⟨table, distinct, under⟩ := ih unique' ok
        refine ⟨by rw [table, grown]; simp, distinct, fun key => ?_⟩
        rw [under]
        simp [filedUnder, not_not.mp top]

/-- A visit that ends has popped a depth-first order of fresh keys. -/
theorem visitForest {fuel : Nat} {pending visited out : List String} (fresh : visited.Nodup)
    (ok : visit children ref fuel pending visited = .ok out) :
    ∃ order, Forest (fun key => (ChildKeys.of children key).reverse) pending order ∧
      out = visited ++ order ∧ out.Nodup := by
  induction fuel generalizing pending visited with
  | zero => cases ok
  | succ fuel ih =>
    cases pending with
    | nil =>
      cases ok
      exact ⟨[], .nil, by simp, fresh⟩
    | cons key pending =>
      simp only [visit] at ok
      split at ok
      · cases ok
      · rename_i unseen
        obtain ⟨order, forest, same, distinct⟩ := ih (by simpa using fresh.concat unseen) ok
        obtain ⟨below, after, rfl, descent, rest⟩ := forestSplit forest
        exact ⟨key :: (below ++ after), .cons descent rest, by simpa using same, distinct⟩

/-- Every turn of the visit takes a key of the table it has not taken. -/
theorem visitEnough {keys : List String} (inside : ∀ key, ∀ child ∈ ChildKeys.of children key, child ∈ keys)
    {fuel : Nat} {pending visited : List String} (known : ∀ key ∈ pending, key ∈ keys)
    (seen : visited.Nodup) (within : visited ⊆ keys) (enough : keys.length + 1 ≤ fuel + visited.length) :
    visit children ref fuel pending visited ≠ .error .outOfFuel := by
  induction fuel generalizing pending visited with
  | zero =>
    have few := (List.subperm_of_subset seen within).length_le
    omega
  | succ fuel ih =>
    cases pending with
    | nil => simp [visit]
    | cons key pending =>
      simp only [visit]
      split
      · simp
      · rename_i unseen
        refine ih ?_ (by simpa using seen.concat unseen) ?_ (by simp; omega)
        · intro other member
          rcases List.mem_append.mp member with child | later
          · exact inside key other (List.mem_reverse.mp child)
          · exact known other (List.mem_cons_of_mem _ later)
        · intro other member
          rcases List.mem_append.mp member with old | new
          · exact within old
          · rw [List.mem_singleton.mp new]
            exact known key List.mem_cons_self

theorem filedStarves {before : Facts} {known : ChildKeys} :
    filed root ref rows before known ≠ .error .outOfFuel := by
  induction rows generalizing before known with
  | nil => simp [filed]
  | cons issue rows ih =>
    simp only [filed]
    split
    · simp
    · split
      · split
        · simp
        · exact ih
      · exact ih

theorem factsKeys (ok : filed root ref rows [] [] = .ok (facts, children)) : facts.keys = rows.map keyOf := by
  rw [(filedFrom (by simp [Dict.keys]) ok).1]
  simp [Dict.keys, Function.comp_def]

/-- The visit has the fuel it needs, whatever the rows. -/
theorem indexNeverStarves : indexIssueTree root rows ref ≠ .error .outOfFuel := by
  simp only [indexIssueTree]
  cases ok : filed root ref rows [] [] with
  | error e =>
    have other : e ≠ .outOfFuel := fun same => filedStarves (same ▸ ok)
    simpa [bind, Except.bind] using other
  | ok pair =>
    obtain ⟨facts, children⟩ := pair
    obtain ⟨-, -, under⟩ := filedFrom (by simp [Dict.keys]) ok
    have inside : ∀ key, ∀ child ∈ ChildKeys.of children key, child ∈ facts.keys := by
      intro key child member
      rw [under] at member
      simp only [ChildKeys.of, Dict.getNil, Option.getD_none, List.nil_append, filedUnder, List.mem_map,
        List.mem_filter] at member
      obtain ⟨issue, ⟨inside, -⟩, rfl⟩ := member
      rw [factsKeys ok]
      exact List.mem_map.mpr ⟨issue, inside, rfl⟩
    simp only [bind, Except.bind]
    split
    · simp
    · rename_i present
      have sized : visit children ref (rows.length + 1) [root] [] ≠ .error .outOfFuel := by
        refine visitEnough inside ?_ .nil (List.nil_subset facts.keys) (by simp [factsKeys ok])
        simpa using present
      cases visited : visit children ref (rows.length + 1) [root] [] with
      | error e => simpa [visited] using sized
      | ok out =>
        simp only
        split
        · simp
        · split <;> simp

/-- What the index accepts: rows of distinct keys, and one tree that holds them all. -/
structure Indexed (root : String) (rows : List TrackerIssue) (facts : Facts) : Prop where
  table : facts = rows.map fun issue => (keyOf issue, issue)
  distinct : facts.keys.Nodup
  present : root ∈ facts.keys
  tree : ∀ ref held, ∃ order, Forest (fun key =>
    ((SubtreeClosure.mk facts ref held).childKeys key).reverse) [root] order ∧ order.Perm facts.keys

theorem childKeysRows {held : List String} {key : String} (table : facts = rows.map fun issue => (keyOf issue, issue))
    (present : key ∈ facts.keys) :
    (SubtreeClosure.mk facts ref held).childKeys key =
      (rows.filter fun issue => issue.parentKey.any fun parent => parent.val = key).map keyOf := by
  have values : facts.values = rows := by simp [table, Dict.values, Function.comp_def]
  simp [SubtreeClosure.childKeys, SubtreeClosure.children, values, present]

theorem indexAccepts (accepted : indexIssueTree root rows ref = .ok facts) : Indexed root rows facts := by
  simp only [indexIssueTree, bindOk] at accepted
  obtain ⟨⟨table, children⟩, ok, accepted⟩ := accepted
  obtain ⟨rows', distinct, under⟩ := filedFrom (by simp [Dict.keys]) ok
  split at accepted
  · cases accepted
  · rename_i present
    simp only [bindOk] at accepted
    obtain ⟨visited, walked, accepted⟩ := accepted
    split at accepted
    · cases accepted
    · rename_i everything
      split at accepted
      · cases accepted
      · rename_i outermost
        cases accepted
        obtain ⟨order, forest, rfl, fresh⟩ := visitForest .nil walked
        have members : ∀ key, key ∈ visited ↔ key ∈ facts.keys := by
          intro key
          rw [← List.mem_toFinset, not_not.mp everything, List.mem_toFinset]
        have table : facts = rows.map fun issue => (keyOf issue, issue) := by simpa using rows'
        -- the root's own parent is outside, so setting the root aside changes nothing
        have aside : ∀ key ∈ facts.keys, ∀ issue ∈ rows,
            (issue.parentKey.any fun parent => parent.val = key) = true → keyOf issue ≠ root := by
          intro key inside issue member named top
          have found : facts.get? root = some issue :=
            Dict.getOfMember distinct (table ▸ List.mem_map.mpr ⟨issue, member, by rw [top]⟩)
          refine outermost ?_
          obtain ⟨parent, own, same⟩ := (Option.any_eq_true _ _).mp named
          rw [decide_eq_true_eq] at same
          simp [parentIn, found, own, same, inside]
        refine ⟨table, distinct, not_not.mp present, fun ref held => ⟨visited, ?_, ?_⟩⟩
        · refine forestCongr forest fun key member => ?_
          have inside := (members key).mp member
          rw [under, childKeysRows table inside, filedUnder]
          simp only [ChildKeys.of, Dict.getNil, Option.getD_none, List.nil_append]
          congr 2
          refine List.filter_congr fun issue row => ?_
          cases named : issue.parentKey.any fun parent => decide (parent.val = key) with
          | false => simp
          | true => simpa using aside key inside issue row named
        · exact (List.perm_ext_iff_of_nodup fresh distinct).mpr members

section Readings
variable {held : List String} {key : String}

/-- The table as the indexed rows close over it. -/
abbrev closing (facts : Facts) (ref : ScopeRef) (held : List String) : SubtreeClosure := ⟨facts, ref, held⟩

theorem indexedGrounded (indexed : Indexed root rows facts) : (closing facts ref held).Grounded := by
  intro key
  by_cases present : key ∈ facts.keys
  · obtain ⟨order, forest, perm⟩ := indexed.tree ref held
    obtain ⟨inner, own, within⟩ := forestWithin forest (perm.mem_iff.mpr present)
    refine ⟨inner, own, ?_⟩
    have small := within.length_le.trans perm.length_eq.le
    simp only [Dict.keys, List.length_map] at small
    exact small.trans (Nat.le_succ _)
  · have none : (closing facts ref held).childKeys key = [] := by
      simp [SubtreeClosure.childKeys, SubtreeClosure.children, present]
    refine ⟨[key], forestSingle ?_, by simp⟩
    simp only [none, List.reverse_nil]
    exact .nil

theorem memValues (indexed : Indexed root rows facts) {row : TrackerIssue} :
    row ∈ facts.values ↔ facts.get? (keyOf row) = some row := by
  constructor
  · intro member
    obtain ⟨e, inside, rfl⟩ := List.mem_map.mp member
    have own := inside
    rw [indexed.table] at own
    obtain ⟨issue, -, rfl⟩ := List.mem_map.mp own
    exact Dict.getOfMember indexed.distinct inside
  · intro found
    exact List.mem_map.mpr ⟨_, Dict.getMember found, rfl⟩

theorem memListed {closure : SubtreeClosure} {keep : TrackerIssue → Bool} {order : List String}
    {row : TrackerIssue} : row ∈ closure.listed keep order ↔
      (∃ key ∈ order, closure.facts.get? key = some row) ∧ isCriterion row = true ∧ keep row = true := by
  simp only [SubtreeClosure.listed, List.mem_flatMap, Option.mem_toList, Option.filter_eq_some_iff,
    Bool.and_eq_true]
  constructor
  · rintro ⟨key, member, found, kept⟩
    exact ⟨⟨key, member, found⟩, kept⟩
  · rintro ⟨⟨key, member, found⟩, kept⟩
    exact ⟨key, member, found, kept⟩

theorem listedFilter (closure : SubtreeClosure) (keep : TrackerIssue → Bool) (order : List String) :
    closure.listed keep order = ((order.filterMap closure.facts.get?).filter isCriterion).filter keep := by
  induction order with
  | nil => rfl
  | cons key order ih =>
    have head : closure.listed keep (key :: order) =
        ((closure.facts.get? key).filter fun issue => isCriterion issue && keep issue).toList ++
          closure.listed keep order := rfl
    rw [head, ih]
    cases found : closure.facts.get? key with
    | none => simp [found]
    | some issue =>
      cases criterion : isCriterion issue <;> cases kept : keep issue <;>
        simp [found, criterion, kept, Option.filter]

theorem keyOfFound (indexed : Indexed root rows facts) {row : TrackerIssue} (found : facts.get? key = some row) :
    keyOf row = key := by
  have member := Dict.getMember found
  rw [indexed.table] at member
  obtain ⟨issue, -, same⟩ := List.mem_map.mp member
  cases same
  rfl

/-- The rows found along an order of distinct keys have distinct keys. -/
theorem listedNodup (indexed : Indexed root rows facts) {order : List String} (distinct : order.Nodup)
    (keep : TrackerIssue → Bool) : (((closing facts ref held).listed keep order).map keyOf).Nodup := by
  have found : ((order.filterMap facts.get?).map keyOf).Sublist order := by
    rw [List.map_filterMap]
    induction order with
    | nil => exact .slnil
    | cons key order ih =>
      have rest := ih (List.nodup_cons.mp distinct).2
      cases found : facts.get? key with
      | none =>
        rw [List.filterMap_cons_none (by simp [found])]
        exact rest.cons key
      | some row =>
        rw [List.filterMap_cons_some (by simpa [found] using keyOfFound indexed found)]
        exact rest.cons_cons key
  rw [listedFilter]
  exact distinct.sublist (((List.filter_sublist.trans List.filter_sublist).map keyOf).trans found)

theorem openOrder (indexed : Indexed root rows facts) {order : List String}
    (opened : (closing facts ref held).Open key order) : key ∈ facts.keys ∧ order.Nodup := by
  have present : key ∈ facts.keys := by
    have unrefused := opened.free key (forestRoots opened.forest key (List.mem_singleton_self key))
    cases SubtreeClosure.stands unrefused with
    | criterion issue found => exact (Dict.getSome _ _).mpr ⟨issue, found⟩
    | record issue found => exact (Dict.getSome _ _).mpr ⟨issue, found⟩
    | lane issue found => exact (Dict.getSome _ _).mpr ⟨issue, found⟩
  obtain ⟨whole, forest, perm⟩ := indexed.tree ref held
  obtain ⟨inner, own, within⟩ := forestWithin forest (perm.mem_iff.mpr present)
  obtain ⟨forward, same, mirrored⟩ := forestMirror own
  rw [List.reverse_singleton] at same
  refine ⟨present, ?_⟩
  rw [forestUnique opened.forest same, mirrored.nodup_iff]
  exact (perm.nodup_iff.mpr indexed.distinct).sublist within

theorem rootOrder (indexed : Indexed root rows facts) {order : List String}
    (opened : (closing facts ref held).Open root order) (k : String) : k ∈ order ↔ k ∈ facts.keys := by
  obtain ⟨whole, forest, perm⟩ := indexed.tree ref held
  obtain ⟨forward, same, mirrored⟩ := forestMirror forest
  rw [List.reverse_singleton] at same
  rw [forestUnique opened.forest same, mirrored.mem_iff, perm.mem_iff]

theorem scopeGapOk (indexed : Indexed root rows facts) (ref : ScopeRef) (held : List String) :
    ∃ excluded, (closing facts ref held).scopeGap = .ok ⟨(facts.values.filter isCriterion).filter owes, excluded⟩ := by
  have keys : facts.values.map keyOf = facts.keys := by
    simp [indexed.table, Dict.values, Dict.keys, Function.comp_def]
  have distinct : ((facts.values.filter isCriterion).map keyOf).Nodup :=
    (keys ▸ indexed.distinct).sublist (List.filter_sublist.map keyOf)
  obtain ⟨excluded, gap⟩ := computeGapOk (facts.values.filter isCriterion) (by simp) distinct
  exact ⟨excluded, mapErrorOk.mpr gap⟩

/-- Whatever was asked before: the gap is the owing part of the roster and closure its
emptiness, the roster is the criteria of the subtree in depth-first order, and the
root's gap is the whole table's. -/
theorem subtreeReadingsAgree (accepted : indexIssueTree root rows ref = .ok facts) (held : List String)
    (earlier : List SubtreeClosure.Query) (key : String) :
    let closure := closing facts ref held
    let gap := (closure.gap (closure.after earlier) key).2
    let roster := (closure.roster (closure.after earlier) key).2
    let isClosed := (closure.isClosed (closure.after earlier) key).2
    (gap = (closure.gap ⟨[], []⟩ key).2 ∧ roster = (closure.roster ⟨[], []⟩ key).2 ∧
      isClosed = (closure.isClosed ⟨[], []⟩ key).2) ∧
    gap = roster.map (List.filter owes) ∧
    isClosed = roster.map (fun listed => listed.all fun row => !owes row) ∧
    (∀ listed, roster = .ok listed → ∃ order, Forest closure.childKeys [key] order ∧
      listed = (order.filterMap facts.get?).filter isCriterion ∧ (listed.map keyOf).Nodup ∧
      ∀ row, row ∈ listed ↔
        row ∈ facts.values ∧ isCriterion row = true ∧ Beneath closure.childKeys key (keyOf row)) ∧
    (key = root → ∀ owed, gap = .ok owed → ∃ whole, closure.scopeGap = .ok whole ∧
      ∀ k, k ∈ owed.map keyOf ↔ k ∈ whole.owed.map keyOf) := by
  intro closure gap roster isClosed
  have indexed := indexAccepts accepted
  have grounded : closure.Grounded := indexedGrounded indexed
  obtain ⟨verdict, stands, gapRead, rosterRead⟩ :=
    SubtreeClosure.readVerdict grounded (SubtreeClosure.settledAfter grounded earlier) key
  have filtered : ∀ order, closure.listed owes order = (closure.listed SubtreeClosure.every order).filter owes := by
    intro order
    simp [listedFilter]
  have gapRoster : gap = roster.map (List.filter owes) := by
    show (closure.gap _ key).2 = (closure.roster _ key).2.map _
    rw [gapRead, rosterRead]
    cases verdict with
    | error e => rfl
    | ok order => exact congrArg Except.ok (filtered order)
  have members : ∀ order, closure.Open key order → ∀ keep row, row ∈ closure.listed keep order ↔
      row ∈ facts.values ∧ isCriterion row = true ∧ keep row = true ∧
        Beneath closure.childKeys key (keyOf row) := by
    intro order opened keep row
    rw [memListed, memValues indexed]
    constructor
    · rintro ⟨⟨k, member, found⟩, criterion, kept⟩
      have own := keyOfFound indexed found
      obtain ⟨top, single, beneath⟩ := (forestMember opened.forest).mp member
      rw [List.mem_singleton.mp single, ← own] at beneath
      exact ⟨own ▸ found, criterion, kept, beneath⟩
    · rintro ⟨found, criterion, kept, beneath⟩
      refine ⟨⟨keyOf row, ?_, found⟩, criterion, kept⟩
      exact (forestMember opened.forest).mpr ⟨key, List.mem_singleton_self key, beneath⟩
  refine ⟨SubtreeClosure.answersStand grounded earlier key, gapRoster, ?closed, ?listing, ?whole⟩
  case closed =>
    have read : isClosed = gap.map List.isEmpty := by
      show (do return (← (closure.gap _ key).2).isEmpty) = (closure.gap _ key).2.map List.isEmpty
      cases (closure.gap (closure.after earlier) key).2 <;> rfl
    rw [read, gapRoster]
    cases roster with
    | error e => rfl
    | ok listed =>
      simp only [Except.map]
      congr 1
      rw [Bool.eq_iff_iff]
      simp
  case listing =>
    intro listed answered
    have asked : (closure.roster (closure.after earlier) key).2 = .ok listed := answered
    rw [rosterRead] at asked
    cases stands with
    | refused => cases asked
    | @opened order opened =>
      cases asked
      refine ⟨order, opened.forest, (listedFilter _ _ _).trans (List.filter_eq_self.mpr (by simp)), ?_, ?_⟩
      · exact listedNodup indexed (openOrder indexed opened).2 _
      · intro row
        rw [members order opened]
        simp
  case whole =>
    rintro rfl owed answered
    have asked : (closure.gap (closure.after earlier) key).2 = .ok owed := answered
    rw [gapRead] at asked
    cases stands with
    | refused => cases asked
    | @opened order opened =>
      cases asked
      obtain ⟨excluded, scope⟩ := scopeGapOk indexed ref held
      refine ⟨_, scope, fun k => ?_⟩
      have same : ∀ row, row ∈ closure.listed owes order ↔ row ∈ (facts.values.filter isCriterion).filter owes := by
        intro row
        rw [memListed, List.mem_filter, List.mem_filter, memValues indexed, and_assoc]
        constructor
        · rintro ⟨⟨k, -, found⟩, rest⟩
          exact ⟨keyOfFound indexed found ▸ found, rest⟩
        · rintro ⟨found, rest⟩
          have inside := (rootOrder indexed opened (keyOf row)).mpr ((Dict.getSome _ _).mpr ⟨row, found⟩)
          exact ⟨⟨keyOf row, inside, found⟩, rest⟩
      simp only [List.mem_map, same]

def laneRow : TrackerIssue where
  issueKey := ⟨"KOD-50", by decide⟩
  priority := .none
  stateKind := .started
  createdAt := 0

def criterionRow : TrackerIssue where
  issueKey := ⟨"KOD-51", by decide⟩
  priority := .none
  stateKind := .unstarted
  issueLabels := ["criterion"]
  parentKey := some laneRow.issueKey
  createdAt := 0

theorem subtreeReadingsSample : ∃ facts,
    indexIssueTree "KOD-50" [laneRow, criterionRow] ⟨.issue, laneRow.issueKey⟩ = .ok facts ∧
    ∃ whole, (closing facts ⟨.issue, laneRow.issueKey⟩ []).scopeGap = .ok whole ∧
      ∀ k, k ∈ [criterionRow].map keyOf ↔ k ∈ whole.owed.map keyOf := by
  have accepted : indexIssueTree "KOD-50" [laneRow, criterionRow] ⟨.issue, laneRow.issueKey⟩ =
      .ok [("KOD-50", laneRow), ("KOD-51", criterionRow)] := by rfl
  obtain ⟨-, -, -, -, whole⟩ := subtreeReadingsAgree accepted [] [.roster "KOD-51"] "KOD-50"
  exact ⟨_, accepted, whole rfl [criterionRow] (by rfl)⟩

end Readings
end Kodezart.IssueTree
