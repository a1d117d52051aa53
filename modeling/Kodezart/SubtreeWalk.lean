import Mathlib
import Kodezart.IssueTree

/-! The walk against the depth-first order it assembles. What a key is answered depends
on the table alone: a cached reading is the one a fresh walk would give, and a key
beneath which something refuses is never cached. -/
namespace Kodezart.IssueTree.SubtreeClosure
open Tracker Gap DepthFirst

variable (closure : SubtreeClosure)

def childKeys (key : String) : List String := (closure.children key).map fun child => child.issueKey.val

/-- The refusal a key meets where it stands, whatever is beneath it. -/
def refusal (key : String) : Option Refusal :=
  match closure.facts.get? key with
  | none => some (.keyError key)
  | some issue =>
    if isCriterion issue then
      if closure.children key ≠ [] then some (.scopeReadError "criterion has child issues" closure.ref) else none
    else if closure.isRecord issue key then
      if closure.children key ≠ [] then some (.scopeReadError "record issue has child issues" closure.ref) else none
    else if (closure.children key).filter isCriterion = [] then some (.emptyFireCriteriaError key) else none

/-- The criterion rows of an order that `keep` keeps. -/
def listed (keep : TrackerIssue → Bool) (order : List String) : List TrackerIssue :=
  order.flatMap fun key => ((closure.facts.get? key).filter fun issue => isCriterion issue && keep issue).toList

/-- The rows a roster keeps. -/
abbrev every : TrackerIssue → Bool := fun _ => true

def learn (memo : Memo) (key : String) (order : List String) : Memo :=
  ⟨memo.gaps.set key (closure.listed owes order), memo.rosters.set key (closure.listed every order)⟩

/-- A key's subtree as its readings list it: in order, with nothing in it that refuses. -/
structure Open (key : String) (order : List String) : Prop where
  forest : Forest closure.childKeys [key] order
  free : ∀ x ∈ order, closure.refusal x = none

def Settled (memo : Memo) : Prop :=
  ∀ key gap, memo.gaps.get? key = some gap → ∃ order, closure.Open key order ∧
    gap = closure.listed owes order ∧ memo.rosters.get? key = some (closure.listed every order)

variable {closure} {memo : Memo} {key : String} {order : List String}

theorem settledEmpty : closure.Settled ⟨[], []⟩ := by
  intro key gap found
  simp at found

theorem settledLearn (settled : closure.Settled memo) (opened : closure.Open key order) :
    closure.Settled (closure.learn memo key order) := by
  intro other gap found
  by_cases same : key = other
  · subst same
    simp only [learn, Dict.getSetSame, Option.some.injEq] at found
    exact ⟨order, opened, found.symm, Dict.getSetSame _ _ _⟩
  · simp only [learn, Dict.getSetOther _ _ same] at found ⊢
    exact settled other gap found

theorem settledOpen (settled : closure.Settled memo) (cached : key ∈ memo.gaps.keys) :
    ∃ order, closure.Open key order ∧ memo.gaps.get? key = some (closure.listed owes order) ∧
      memo.rosters.get? key = some (closure.listed every order) := by
  obtain ⟨gap, found⟩ := (Dict.getSome _ _).mp cached
  obtain ⟨order, opened, rfl, rows⟩ := settled key gap found
  exact ⟨order, opened, found, rows⟩

theorem listedAppend (keep : TrackerIssue → Bool) (one other : List String) :
    closure.listed keep (one ++ other) = closure.listed keep one ++ closure.listed keep other := by
  simp [listed]

/-- A subtree read the other way round holds the same keys. -/
theorem openMirrored (opened : closure.Open key order) {mirrored : List String}
    (forest : Forest (fun k => (closure.childKeys k).reverse) [key] mirrored) :
    ∀ x ∈ mirrored, closure.refusal x = none := by
  obtain ⟨forward, same, perm⟩ := forestMirror forest
  intro x member
  rw [List.reverse_singleton] at same
  exact opened.free x (forestUnique same opened.forest ▸ perm.mem_iff.mpr member)

/-- Readings of children that are all cached join into the reading of their forest. -/
theorem gatheredListed (reading : Dict String (List TrackerIssue)) (keep : TrackerIssue → Bool)
    (children : List TrackerIssue)
    (cached : ∀ child ∈ children, ∃ order, closure.Open child.issueKey.val order ∧
      reading.get? child.issueKey.val = some (closure.listed keep order))
    {below : List String} (forest : Forest closure.childKeys (children.map fun child => child.issueKey.val) below) :
    gathered reading children = .ok (closure.listed keep below) := by
  induction children generalizing below with
  | nil =>
    cases forest
    rfl
  | cons child children ih =>
    obtain ⟨order, opened, found⟩ := cached child List.mem_cons_self
    cases forest with
    | cons descent rest =>
      have own := forestUnique opened.forest (forestSingle descent)
      have later := ih (fun c member => cached c (List.mem_cons_of_mem _ member)) rest
      rw [gathered, found, later, ← List.cons_append, listedAppend, own]
      rfl

theorem openForest {keys : List String} (opened : ∀ k ∈ keys, ∃ order, closure.Open k order) :
    ∃ below, Forest closure.childKeys keys below ∧ ∀ x ∈ below, closure.refusal x = none := by
  induction keys with
  | nil => exact ⟨[], .nil, by simp⟩
  | cons k keys ih =>
    obtain ⟨order, own⟩ := opened k List.mem_cons_self
    obtain ⟨below, rest, free⟩ := ih fun k member => opened k (List.mem_cons_of_mem _ member)
    refine ⟨order ++ below, forestAppend own.forest rest, fun x member => ?_⟩
    rcases List.mem_append.mp member with here | there
    · exact own.free x here
    · exact free x there

/-- A key that meets no refusal is a criterion or a record with nothing beneath it, or
a deliverable with criteria of its own. -/
inductive Stands (closure : SubtreeClosure) (key : String) : Prop where
  | criterion (issue : TrackerIssue) (found : closure.facts.get? key = some issue)
      (labelled : isCriterion issue = true) (leaf : closure.children key = [])
  | record (issue : TrackerIssue) (found : closure.facts.get? key = some issue)
      (deliverable : isCriterion issue = false) (labelled : closure.isRecord issue key = true)
      (leaf : closure.children key = [])
  | lane (issue : TrackerIssue) (found : closure.facts.get? key = some issue)
      (deliverable : isCriterion issue = false) (walked : closure.isRecord issue key = false)
      (own : (closure.children key).filter isCriterion ≠ [])

theorem stands (unrefused : closure.refusal key = none) : closure.Stands key := by
  simp only [refusal] at unrefused
  split at unrefused
  · cases unrefused
  · rename_i issue found
    split at unrefused
    · rename_i criterion
      split at unrefused
      · cases unrefused
      · rename_i leaf
        exact .criterion issue found criterion (not_not.mp leaf)
    · rename_i deliverable
      split at unrefused
      · rename_i record
        split at unrefused
        · cases unrefused
        · rename_i leaf
          exact .record issue found (Bool.eq_false_iff.mpr deliverable) record (not_not.mp leaf)
      · rename_i lane
        split at unrefused
        · cases unrefused
        · rename_i own
          exact .lane issue found (Bool.eq_false_iff.mpr deliverable) (Bool.eq_false_iff.mpr lane) own

theorem turnRefused {e : Refusal} (fresh : key ∉ memo.gaps.keys) (refused : closure.refusal key = some e) :
    closure.turn memo key false = .error e := by
  simp only [refusal] at refused
  cases found : closure.facts.get? key with
  | none =>
    simp only [found, Option.some.injEq] at refused
    simp [turn, if_neg fresh, found, refused]
  | some issue =>
    simp only [found] at refused
    simp only [turn, if_neg fresh, found]
    split at refused
    · rename_i criterion
      split at refused
      · rename_i nested
        cases refused
        simp [criterion, nested]
      · cases refused
    · rename_i deliverable
      split at refused
      · rename_i record
        split at refused
        · rename_i nested
          cases refused
          simp [deliverable, record, nested]
        · cases refused
      · rename_i lane
        split at refused
        · rename_i bare
          cases refused
          simp [deliverable, lane, criteria, bare, bind, Except.bind]
        · cases refused

theorem turnCached (expanded : Bool) (cached : key ∈ memo.gaps.keys) :
    closure.turn memo key expanded = .ok (memo, []) := by
  rw [turn, if_pos cached]

theorem turnCriterion (fresh : key ∉ memo.gaps.keys) {issue : TrackerIssue}
    (found : closure.facts.get? key = some issue) (labelled : isCriterion issue = true)
    (leaf : closure.children key = []) :
    closure.turn memo key false = .ok (closure.learn memo key [key], []) := by
  obtain ⟨excluded, gap⟩ := computeGapOk [issue] (by simpa using labelled) (by simp)
  have listing : ∀ keep, closure.listed keep [key] = [issue].filter keep := by
    intro keep
    cases kept : keep issue <;> simp [listed, found, labelled, kept, Option.filter]
  simp [turn, if_neg fresh, found, labelled, leaf, gap, learn, listing, bind, Except.bind, pure, Except.pure,
    Except.mapError]

theorem turnRecord (fresh : key ∉ memo.gaps.keys) {issue : TrackerIssue}
    (found : closure.facts.get? key = some issue) (deliverable : isCriterion issue = false)
    (labelled : closure.isRecord issue key = true) (leaf : closure.children key = []) :
    closure.turn memo key false = .ok (closure.learn memo key [key], []) := by
  have listing : ∀ keep, closure.listed keep [key] = [] := by
    intro keep
    simp [listed, found, deliverable, Option.filter]
  simp [turn, if_neg fresh, found, deliverable, labelled, leaf, learn, listing]

theorem turnLane (fresh : key ∉ memo.gaps.keys) {issue : TrackerIssue}
    (found : closure.facts.get? key = some issue) (deliverable : isCriterion issue = false)
    (walked : closure.isRecord issue key = false) (own : (closure.children key).filter isCriterion ≠ []) :
    closure.turn memo key false =
      .ok (memo, (closure.childKeys key).reverse.map (fun child => (child, false)) ++ [(key, true)]) := by
  simp [turn, if_neg fresh, found, deliverable, walked, criteria, own, childKeys, bind, Except.bind, pure,
    Except.pure, Function.comp_def]

/-- A deliverable whose children are all cached is closed over with its own reading. -/
theorem turnExpanded (settled : closure.Settled memo) (fresh : key ∉ memo.gaps.keys) {issue : TrackerIssue}
    (found : closure.facts.get? key = some issue) (deliverable : isCriterion issue = false)
    (walked : closure.isRecord issue key = false) (unrefused : closure.refusal key = none)
    (cached : ∀ child ∈ closure.childKeys key, child ∈ memo.gaps.keys) :
    ∃ order, closure.Open key order ∧ closure.turn memo key true = .ok (closure.learn memo key order, []) := by
  have shown : ∀ child ∈ closure.childKeys key, ∃ order, closure.Open child order ∧
      memo.gaps.get? child = some (closure.listed owes order) ∧
      memo.rosters.get? child = some (closure.listed every order) :=
    fun child member => settledOpen settled (cached child member)
  obtain ⟨below, forest, free⟩ := openForest fun child member => (shown child member).imp fun _ => And.left
  have opened : closure.Open key (key :: below) := by
    refine ⟨forestSingle forest, fun x member => ?_⟩
    rcases List.mem_cons.mp member with rfl | inside
    · exact unrefused
    · exact free x inside
  have rows := gatheredListed memo.rosters every (closure.children key)
    (fun child member => (shown _ (List.mem_map.mpr ⟨child, member, rfl⟩)).imp fun _ o => ⟨o.1, o.2.2⟩) forest
  have owed := gatheredListed memo.gaps owes (closure.children key)
    (fun child member => (shown _ (List.mem_map.mpr ⟨child, member, rfl⟩)).imp fun _ o => ⟨o.1, o.2.1⟩) forest
  have listing : ∀ keep, closure.listed keep (key :: below) = closure.listed keep below := by
    intro keep
    simp [listed, found, deliverable, Option.filter]
  refine ⟨key :: below, opened, ?_⟩
  simp [turn, if_neg fresh, found, deliverable, walked, rows, owed, learn, listing, bind, Except.bind, pure,
    Except.pure]

/-- The stack a walk pushes for keys, the last of them on top. -/
abbrev entries (keys : List String) : List (String × Bool) := keys.map fun k => (k, false)

section Walk
variable {keys : List String}

theorem walkNext {expanded : Bool} {memo' : Memo} {pushed : List (String × Bool)} (fuel : Nat)
    (pending : List (String × Bool)) (turned : closure.turn memo key expanded = .ok (memo', pushed)) :
    closure.walk (fuel + 1) ((key, expanded) :: pending) memo = closure.walk fuel (pushed ++ pending) memo' := by
  simp [walk, turned]

/-- A walk that has gone through its keys, at two turns a node or fewer. -/
structure Through (closure : SubtreeClosure) (keys order : List String) (memo memo' : Memo) : Prop where
  settled : closure.Settled memo'
  grown : ∀ k ∈ memo.gaps.keys, k ∈ memo'.gaps.keys
  cached : ∀ k ∈ keys, k ∈ memo'.gaps.keys
  spent : ∃ cost ≤ 2 * order.length, ∀ fuel pending,
    closure.walk (fuel + cost) (entries keys ++ pending) memo = closure.walk fuel pending memo'

theorem learnGrown {k : String} (member : k ∈ memo.gaps.keys) :
    k ∈ (closure.learn memo key order).gaps.keys := by
  obtain ⟨gap, found⟩ := (Dict.getSome _ _).mp member
  refine (Dict.getSome _ _).mpr ?_
  rw [learn, Dict.getSet]
  split
  · exact ⟨_, rfl⟩
  · exact ⟨gap, found⟩

theorem learnCached : key ∈ (closure.learn memo key order).gaps.keys :=
  (Dict.getSome _ _).mpr ⟨_, Dict.getSetSame _ _ _⟩

/-- One turn that pushes nothing, and then the rest of the keys. -/
theorem throughTurn {memo' memo'' : Memo} {below after : List String}
    (turned : closure.turn memo key false = .ok (memo', [])) (grown : ∀ k ∈ memo.gaps.keys, k ∈ memo'.gaps.keys)
    (cached : key ∈ memo'.gaps.keys) (rest : closure.Through keys after memo' memo'') :
    closure.Through (key :: keys) (key :: (below ++ after)) memo memo'' := by
  obtain ⟨cost, small, spent⟩ := rest.spent
  refine ⟨rest.settled, fun k member => rest.grown k (grown k member), ?_, cost + 1, ?_, fun fuel pending => ?_⟩
  · intro k member
    rcases List.mem_cons.mp member with rfl | later
    · exact rest.grown _ cached
    · exact rest.cached k later
  · simp only [List.length_cons, List.length_append]
    omega
  · rw [← Nat.add_assoc, entries, List.map_cons, List.cons_append, walkNext _ _ turned]
    exact spent fuel pending

/-- Keys with nothing refused at or beneath them are walked through. -/
theorem walkThrough (forest : Forest (fun k => (closure.childKeys k).reverse) keys order)
    (free : ∀ x ∈ order, closure.refusal x = none) (memo : Memo) (settled : closure.Settled memo) :
    ∃ memo', closure.Through keys order memo memo' := by
  induction forest generalizing memo with
  | nil =>
    exact ⟨memo, settled, fun _ member => member, by simp, 0, by simp, fun fuel pending => rfl⟩
  | @cons k ks below after descent rest ihDescent ihRest =>
    have unrefused := free k List.mem_cons_self
    have belowFree : ∀ x ∈ below, closure.refusal x = none := fun x member =>
      free x (List.mem_cons_of_mem _ (List.mem_append_left _ member))
    have afterFree : ∀ x ∈ after, closure.refusal x = none := fun x member =>
      free x (List.mem_cons_of_mem _ (List.mem_append_right _ member))
    -- a key that one turn settles, whatever stands beneath it
    have atOnce : ∀ memo', closure.turn memo k false = .ok (memo', []) → closure.Settled memo' →
        (∀ x ∈ memo.gaps.keys, x ∈ memo'.gaps.keys) → k ∈ memo'.gaps.keys →
        ∃ memo'', closure.Through (k :: ks) (k :: (below ++ after)) memo memo'' := by
      intro memo' turned settled grown cached
      obtain ⟨memo'', through⟩ := ihRest afterFree memo' settled
      exact ⟨memo'', throughTurn turned grown cached through⟩
    by_cases cached : k ∈ memo.gaps.keys
    · exact atOnce memo (turnCached false cached) settled (fun _ member => member) cached
    have leafOpen : closure.children k = [] → closure.Open k [k] := by
      intro leaf
      have none : closure.childKeys k = [] := by simp [childKeys, leaf]
      refine ⟨forestSingle ?_, by simpa using unrefused⟩
      rw [none]
      exact .nil
    cases stands unrefused with
    | criterion issue found labelled leaf =>
      exact atOnce _ (turnCriterion cached found labelled leaf) (settledLearn settled (leafOpen leaf))
        (fun _ => learnGrown) learnCached
    | record issue found deliverable labelled leaf =>
      exact atOnce _ (turnRecord cached found deliverable labelled leaf) (settledLearn settled (leafOpen leaf))
        (fun _ => learnGrown) learnCached
    | lane issue found deliverable walked own =>
      obtain ⟨memo₁, down⟩ := ihDescent belowFree memo settled
      obtain ⟨costDown, smallDown, spentDown⟩ := down.spent
      have children : ∀ child ∈ closure.childKeys k, child ∈ memo₁.gaps.keys :=
        fun child member => down.cached child (List.mem_reverse.mpr member)
      -- the second visit of the key finds it cached or closes over its children
      obtain ⟨memo₂, closed, settled₂, grown, known⟩ : ∃ memo₂, closure.turn memo₁ k true = .ok (memo₂, []) ∧
          closure.Settled memo₂ ∧ (∀ x ∈ memo₁.gaps.keys, x ∈ memo₂.gaps.keys) ∧ k ∈ memo₂.gaps.keys := by
        by_cases already : k ∈ memo₁.gaps.keys
        · exact ⟨memo₁, turnCached true already, down.settled, fun _ member => member, already⟩
        · obtain ⟨order, opened, turned⟩ :=
            turnExpanded down.settled already found deliverable walked unrefused children
          exact ⟨_, turned, settledLearn down.settled opened, fun _ => learnGrown, learnCached⟩
      obtain ⟨memo₃, along⟩ := ihRest afterFree memo₂ settled₂
      obtain ⟨costAlong, smallAlong, spentAlong⟩ := along.spent
      refine ⟨memo₃, along.settled, fun x member => along.grown x (grown x (down.grown x member)), ?_,
        costAlong + 1 + costDown + 1, ?_, fun fuel pending => ?_⟩
      · intro x member
        rcases List.mem_cons.mp member with rfl | later
        · exact along.grown _ known
        · exact along.cached x later
      · simp only [List.length_cons, List.length_append]
        omega
      · have first := walkNext (fuel + costAlong + 1 + costDown) (entries ks ++ pending)
          (turnLane cached found deliverable walked own)
        have second := spentDown (fuel + costAlong + 1) ((k, true) :: (entries ks ++ pending))
        have third := walkNext (fuel + costAlong) (entries ks ++ pending) closed
        simp only [← Nat.add_assoc, entries, List.map_cons, List.cons_append, List.append_assoc,
          List.nil_append] at first second third ⊢
        rw [first, second, third]
        exact spentAlong fuel pending

/-- The first refusal in the order the stack takes keys ends the walk, and what the walk
cached before it stands. -/
theorem walkRefused {e : Refusal} (forest : Forest (fun k => (closure.childKeys k).reverse) keys order)
    (refused : order.findSome? closure.refusal = some e) (memo : Memo) (settled : closure.Settled memo)
    (fuel : Nat) (enough : 2 * order.length ≤ fuel) (pending : List (String × Bool)) :
    ∃ memo', closure.Settled memo' ∧ closure.walk fuel (entries keys ++ pending) memo = (memo', .error e) := by
  induction forest generalizing memo fuel pending with
  | nil => simp at refused
  | @cons k ks below after descent rest ihDescent ihRest =>
    simp only [List.length_cons, List.length_append] at enough
    by_cases free : ∀ x ∈ k :: below, closure.refusal x = none
    · -- the first tree is walked through, and the refusal stands among the others
      obtain ⟨memo', through⟩ := walkThrough (forestSingle descent) free memo settled
      obtain ⟨cost, small, spent⟩ := through.spent
      simp only [List.length_cons] at small
      have later : after.findSome? closure.refusal = some e := by
        rw [← List.cons_append, List.findSome?_append,
          List.findSome?_eq_none_iff.mpr free] at refused
        exact refused
      obtain ⟨memo'', settled'', ended⟩ :=
        ihRest later memo' through.settled (fuel - cost) (by omega) pending
      refine ⟨memo'', settled'', ?_⟩
      have first := spent (fuel - cost) (entries ks ++ pending)
      rw [Nat.sub_add_cancel (by omega)] at first
      simp only [entries, List.map_cons, List.map_nil, List.cons_append, List.nil_append] at first ended ⊢
      rw [first, ended]
    · have fresh : k ∉ memo.gaps.keys := by
        intro cached
        obtain ⟨own, opened, -⟩ := settledOpen settled cached
        exact free (openMirrored opened (forestSingle descent))
      obtain ⟨fuel, rfl⟩ : ∃ less, fuel = less + 1 := ⟨fuel - 1, by omega⟩
      cases here : closure.refusal k with
      | some own =>
        have same : own = e := by simpa [here] using refused
        refine ⟨memo, settled, ?_⟩
        simp [walk, turnRefused fresh here, same]
      | none =>
        have inside : ∃ x ∈ below, closure.refusal x ≠ none := by
          simpa [here] using free
        cases down : below.findSome? closure.refusal with
        | none =>
          obtain ⟨x, member, stuck⟩ := inside
          exact absurd (List.findSome?_eq_none_iff.mp down x member) stuck
        | some first =>
          have same : first = e := by
            simpa [here, List.findSome?_append, down] using refused
          subst same
          cases stands here with
          | criterion issue found labelled leaf =>
            have none : closure.childKeys k = [] := by simp [childKeys, leaf]
            rw [none] at descent
            cases descent
            simp at down
          | record issue found deliverable labelled leaf =>
            have none : closure.childKeys k = [] := by simp [childKeys, leaf]
            rw [none] at descent
            cases descent
            simp at down
          | lane issue found deliverable walked own =>
            obtain ⟨memo', settled', ended⟩ :=
              ihDescent down memo settled fuel (by omega) ((k, true) :: (entries ks ++ pending))
            refine ⟨memo', settled', ?_⟩
            have pushed := walkNext fuel (entries ks ++ pending) (turnLane fresh found deliverable walked own)
            simp only [entries, List.map_cons, List.cons_append, List.append_assoc, List.nil_append] at pushed ended ⊢
            rw [pushed, ended]

end Walk

/-- A table whose every key's subtree is finite and no larger than the table allows. -/
def Grounded (closure : SubtreeClosure) : Prop :=
  ∀ key, ∃ order, Forest (fun k => (closure.childKeys k).reverse) [key] order ∧
    order.length ≤ closure.facts.length + 1

/-- What the table alone makes of a key: the first refusal at or beneath it, or its order. -/
inductive Verdict (closure : SubtreeClosure) (key : String) : Except Refusal (List String) → Prop where
  | refused {order : List String} {e : Refusal}
      (forest : Forest (fun k => (closure.childKeys k).reverse) [key] order)
      (first : order.findSome? closure.refusal = some e) : Verdict closure key (.error e)
  | opened {order : List String} (opened : closure.Open key order) : Verdict closure key (.ok order)

theorem verdictUnique {one other : Except Refusal (List String)} (verdict : closure.Verdict key one)
    (verdict' : closure.Verdict key other) : one = other := by
  have apart : ∀ {order mirrored e}, closure.Open key order →
      Forest (fun k => (closure.childKeys k).reverse) [key] mirrored →
      mirrored.findSome? closure.refusal = some e → False := by
    intro order mirrored e opened forest first
    rw [List.findSome?_eq_none_iff.mpr (openMirrored opened forest)] at first
    cases first
  cases verdict with
  | refused forest first =>
    cases verdict' with
    | refused forest' first' =>
      rw [forestUnique forest forest', first'] at first
      rw [Option.some.inj first]
    | opened opened => exact (apart opened forest first).elim
  | opened opened =>
    cases verdict' with
    | refused forest first => exact (apart opened forest first).elim
    | opened opened' => rw [forestUnique opened.forest opened'.forest]

theorem walkedVerdict (grounded : closure.Grounded) (settled : closure.Settled memo) (key : String) :
    closure.Settled (closure.walked memo key).1 ∧
      ∃ verdict, closure.Verdict key verdict ∧ (closure.walked memo key).2 = verdict.map (fun _ => ()) ∧
        ∀ order, verdict = .ok order →
          (closure.walked memo key).1.gaps.get? key = some (closure.listed owes order) ∧
          (closure.walked memo key).1.rosters.get? key = some (closure.listed every order) := by
  obtain ⟨order, forest, small⟩ := grounded key
  cases refused : order.findSome? closure.refusal with
  | some e =>
    obtain ⟨memo', settled', ended⟩ :=
      walkRefused forest refused memo settled (2 * closure.facts.length + 3) (by omega) []
    simp only [entries, List.map_cons, List.map_nil, List.append_nil] at ended
    rw [walked, ended]
    exact ⟨settled', _, .refused forest refused, rfl, by simp⟩
  | none =>
    obtain ⟨memo', through⟩ := walkThrough forest (List.findSome?_eq_none_iff.mp refused) memo settled
    obtain ⟨cost, cheap, spent⟩ := through.spent
    have ended := spent (2 * closure.facts.length + 3 - cost) []
    rw [Nat.sub_add_cancel (by omega)] at ended
    simp only [entries, List.map_cons, List.map_nil, List.append_nil] at ended
    obtain ⟨left, more⟩ : ∃ left, 2 * closure.facts.length + 3 - cost = left + 1 :=
      ⟨2 * closure.facts.length + 2 - cost, by omega⟩
    obtain ⟨order', opened, gap, roster⟩ :=
      settledOpen through.settled (through.cached key (List.mem_singleton_self key))
    rw [walked, ended, more, walk]
    refine ⟨through.settled, .ok order', .opened opened, rfl, ?_⟩
    rintro _ ⟨⟩
    exact ⟨gap, roster⟩

/-- Both readings of a key are the verdict's, read for its owing rows and for all. -/
theorem readVerdict (grounded : closure.Grounded) (settled : closure.Settled memo) (key : String) :
    ∃ verdict, closure.Verdict key verdict ∧
      (closure.gap memo key).2 = verdict.map (closure.listed owes) ∧
      (closure.roster memo key).2 = verdict.map (closure.listed every) := by
  obtain ⟨-, verdict, stands, ended, cached⟩ := walkedVerdict grounded settled key
  refine ⟨verdict, stands, ?_⟩
  cases verdict with
  | error e =>
    have stopped : (closure.walked memo key).2 = .error e := ended
    simp [gap, roster, read, stopped, bind, Except.bind, Except.map]
  | ok order =>
    have went : (closure.walked memo key).2 = .ok () := ended
    obtain ⟨owed, rows⟩ := cached order rfl
    simp [gap, roster, read, went, owed, rows, bind, Except.bind, Except.map]

/-- A query of either reading, or of closure, leaves the caches its walk left. -/
inductive Query where
  | gap (key : String)
  | roster (key : String)
  | isClosed (key : String)
  deriving DecidableEq, Repr

def asked (closure : SubtreeClosure) (memo : Memo) : Query → Memo
  | .gap key => (closure.gap memo key).1
  | .roster key => (closure.roster memo key).1
  | .isClosed key => (closure.isClosed memo key).1

/-- The caches of a closure after queries, in order. -/
def after (closure : SubtreeClosure) (queries : List Query) : Memo := queries.foldl closure.asked ⟨[], []⟩

theorem settledAfter (grounded : closure.Grounded) (queries : List Query) :
    closure.Settled (closure.after queries) := by
  have step : ∀ (queries : List Query) (memo : Memo), closure.Settled memo →
      closure.Settled (queries.foldl closure.asked memo) := by
    intro queries
    induction queries with
    | nil => exact fun _ settled => settled
    | cons query queries ih =>
      intro memo settled
      refine ih _ ?_
      cases query with
      | gap key => exact (walkedVerdict grounded settled key).1
      | roster key => exact (walkedVerdict grounded settled key).1
      | isClosed key => exact (walkedVerdict grounded settled key).1
  exact step queries _ settledEmpty

/-- Whatever was asked before, a key is answered, or refused, the same. -/
theorem answersStand (grounded : closure.Grounded) (queries : List Query) (key : String) :
    (closure.gap (closure.after queries) key).2 = (closure.gap ⟨[], []⟩ key).2 ∧
      (closure.roster (closure.after queries) key).2 = (closure.roster ⟨[], []⟩ key).2 ∧
      (closure.isClosed (closure.after queries) key).2 = (closure.isClosed ⟨[], []⟩ key).2 := by
  obtain ⟨late, lateStands, lateGap, lateRoster⟩ := readVerdict grounded (settledAfter grounded queries) key
  obtain ⟨first, firstStands, firstGap, firstRoster⟩ := readVerdict grounded settledEmpty key
  have same := verdictUnique lateStands firstStands
  subst same
  have gaps := lateGap.trans firstGap.symm
  exact ⟨gaps, lateRoster.trans firstRoster.symm, by simp only [isClosed, gaps]⟩

end Kodezart.IssueTree.SubtreeClosure
