import Mathlib
import Kodezart.Branch
import Kodezart.Dict

/-! Base resolution: dedupe the blockers' refs, reduce them to the frontier over
commits, combine what is left. Every git answer arrives as a resolved value. -/
namespace Kodezart.BaseResolution

structure BasePlan where
  spec : BaseSpec
  branchPoint : Option NonemptyStr := none
  mergeInputs : List NonemptyStr := []
  deriving DecidableEq, Repr

def BasePlan.requiresConstruction (plan : BasePlan) : Bool := plan.branchPoint.isSome

/-- What `BaseResolver._containment` collects, `isAncestor` being git's answer on two branch names. -/
def containment (isAncestor : NonemptyStr → NonemptyStr → Bool) (inputs : List BaseInput) :
    List (NonemptyStr × NonemptyStr) :=
  let branches := sortBy Subtype.val (inputs.map BaseInput.branch).dedup
  branches.flatMap fun contained =>
    (branches.filter fun containing =>
      contained ≠ containing && isAncestor contained containing).map fun containing =>
        (contained, containing)

def dedupedInDeterministicOrder (blockerInputs : List BaseInput) : List BaseInput :=
  let byBranch := Dict.groupFirst BaseInput.branch (sortBy (·.blockerIssueId.val) blockerInputs)
  sortBy (·.blockerIssueId.val) byBranch.values

def frontier (ordered : List BaseInput) (containment : List (NonemptyStr × NonemptyStr)) :
    List BaseInput :=
  ordered.filter fun item =>
    !ordered.any fun other => other.branch ≠ item.branch && (item.branch, other.branch) ∈ containment

section Combine
variable (sha256 : String → String)

def combine (issueId : NonemptyStr) (frontier : List BaseInput) (trunk : NonemptyStr) : BasePlan :=
  match frontier with
  | [] => { spec := ⟨[], trunk, none⟩ }
  | [head] => { spec := ⟨[head], head.branch, some .deliverable⟩ }
  | head :: next :: tail =>
    let inputs := head :: next :: tail
    let name : IntegrationBranchName := ⟨issueId, inputs⟩
    { spec := ⟨inputs, ⟨name.text sha256, name.textNonempty sha256⟩, some .integration⟩
      branchPoint := some head.branch
      mergeInputs := (next :: tail).map BaseInput.branch }

def resolveBase (issueId : NonemptyStr) (blockerInputs : List BaseInput)
    (containment : List (NonemptyStr × NonemptyStr)) (trunk : NonemptyStr) : BasePlan :=
  combine sha256 issueId (frontier (dedupedInDeterministicOrder blockerInputs) containment) trunk

@[simp] theorem combineInputs (issueId : NonemptyStr) (inputs : List BaseInput) (trunk : NonemptyStr) :
    (combine sha256 issueId inputs trunk).spec.inputs = inputs := by
  match inputs with
  | [] => rfl
  | [_] => rfl
  | _ :: _ :: _ => rfl

theorem combineRole (issueId : NonemptyStr) (inputs : List BaseInput) (trunk : NonemptyStr) :
    (combine sha256 issueId inputs trunk).spec.baseRole = none ↔ inputs = [] := by
  match inputs with
  | [] => exact iff_of_true rfl rfl
  | [_] => exact iff_of_false nofun nofun
  | _ :: _ :: _ => exact iff_of_false nofun nofun

theorem resolveInputs (issueId : NonemptyStr) (inputs : List BaseInput) (pairs : List (NonemptyStr × NonemptyStr))
    (trunk : NonemptyStr) : (resolveBase sha256 issueId inputs pairs trunk).spec.inputs =
      frontier (dedupedInDeterministicOrder inputs) pairs := combineInputs sha256 issueId _ trunk

end Combine

theorem memDeduped {inputs : List BaseInput} {item : BaseInput} : item ∈ dedupedInDeterministicOrder inputs ↔
    item ∈ (Dict.groupFirst BaseInput.branch (sortBy (·.blockerIssueId.val) inputs)).values := memSortBy

theorem dedupedSource {inputs : List BaseInput} {item : BaseInput}
    (member : item ∈ dedupedInDeterministicOrder inputs) : item ∈ inputs :=
  memSortBy.mp (Dict.groupFirstSource _ (memDeduped.mp member))

theorem dedupedKeepsBranch {inputs : List BaseInput} {item : BaseInput} (member : item ∈ inputs) :
    ∃ kept ∈ dedupedInDeterministicOrder inputs, kept.branch = item.branch := by
  have sorted : item ∈ sortBy (·.blockerIssueId.val) inputs := memSortBy.mpr member
  obtain ⟨kept, inside, same⟩ := Dict.groupFirstKept BaseInput.branch sorted
  exact ⟨kept, memDeduped.mpr inside, same⟩

theorem memFrontier {ordered : List BaseInput} {pairs : List (NonemptyStr × NonemptyStr)}
    {item : BaseInput} : item ∈ frontier ordered pairs ↔
      item ∈ ordered ∧ ∀ other ∈ ordered, other.branch ≠ item.branch →
        (item.branch, other.branch) ∉ pairs := by
  simp [frontier, List.mem_filter]

section Ancestry
/- A commit's preorder is the ancestry relation: `a ≤ b` when `a` is an ancestor of `b`.
Two branch names may stand at one commit, so `tip` need not be injective. -/
variable {Commit : Type*} [Preorder Commit] (tip : NonemptyStr → Commit)

/-- The containment pairs are the ordered pairs of distinct branches git answers yes to. -/
def ContainmentExact (inputs : List BaseInput) (pairs : List (NonemptyStr × NonemptyStr)) : Prop :=
  ∀ a b, (a, b) ∈ pairs ↔ a ∈ inputs.map BaseInput.branch ∧ b ∈ inputs.map BaseInput.branch ∧
    a ≠ b ∧ tip a ≤ tip b

theorem containmentExact [DecidableLE Commit] (inputs : List BaseInput) :
    ContainmentExact tip inputs (containment (fun a b => decide (tip a ≤ tip b)) inputs) := by
  intro a b
  simp only [containment, List.mem_flatMap, List.mem_map, List.mem_filter, memSortBy,
    List.mem_dedup, Prod.mk.injEq, Bool.and_eq_true, decide_eq_true_eq]
  constructor
  · rintro ⟨contained, left, containing, ⟨right, different, below⟩, rfl, rfl⟩
    exact ⟨left, right, by simpa using different, below⟩
  · rintro ⟨left, right, different, below⟩
    exact ⟨a, left, b, ⟨right, by simpa using different, below⟩, rfl, rfl⟩

/-- No blocker is lost: each input's branch is one of the plan's, or is contained in one. -/
def BlockersKept (inputs : List BaseInput) (plan : BasePlan) : Prop :=
  plan.spec.inputs ≠ [] ∧ plan.spec.baseRole ≠ none ∧
  ∀ item ∈ inputs, ∃ kept ∈ plan.spec.inputs,
    kept.branch = item.branch ∨ tip item.branch ≤ tip kept.branch

/-- Two distinct branches stand at one commit only below a third branch strictly ahead of both. -/
def TopsStandAlone (inputs : List BaseInput) : Prop :=
  ∀ a ∈ inputs, ∀ b ∈ inputs, a.branch ≠ b.branch →
    tip a.branch ≤ tip b.branch → tip b.branch ≤ tip a.branch →
    ∃ c ∈ inputs, tip a.branch < tip c.branch

theorem existsTopInput {inputs : List BaseInput} {item : BaseInput} (member : item ∈ inputs) :
    ∃ top ∈ inputs, tip item.branch ≤ tip top.branch ∧
      ∀ other ∈ inputs, ¬ tip top.branch < tip other.branch := by
  have finite : ((fun i : BaseInput => tip i.branch) '' {i | i ∈ inputs}).Finite :=
    (List.finite_toSet inputs).image _
  obtain ⟨commit, above, top⟩ :=
    finite.exists_le_maximal (Set.mem_image_of_mem (fun i : BaseInput => tip i.branch) member)
  obtain ⟨found, inside, same⟩ := top.prop
  refine ⟨found, inside, by simpa only [same] using above, ?_⟩
  intro other mem ahead
  exact top.not_gt (Set.mem_image_of_mem (fun i : BaseInput => tip i.branch) mem)
    (by simpa only [same] using ahead)

variable {tip} {inputs : List BaseInput} {pairs : List (NonemptyStr × NonemptyStr)}

/-- A topmost input whose commit carries no second branch survives the reduction. -/
theorem topInFrontier (exact : ContainmentExact tip inputs pairs) (alone : TopsStandAlone tip inputs)
    {top : BaseInput} (member : top ∈ inputs) (highest : ∀ other ∈ inputs, ¬ tip top.branch < tip other.branch) :
    ∃ kept ∈ frontier (dedupedInDeterministicOrder inputs) pairs, kept.branch = top.branch := by
  obtain ⟨kept, inside, same⟩ := dedupedKeepsBranch member
  refine ⟨kept, memFrontier.mpr ⟨inside, ?_⟩, same⟩
  intro other mem different contained
  have source := dedupedSource mem
  have below := ((exact _ _).mp contained).2.2.2
  rw [same] at below different
  have level : tip other.branch ≤ tip top.branch := by
    by_contra ahead
    exact highest other source (lt_of_le_not_ge below ahead)
  obtain ⟨third, hthird, ahead⟩ := alone top member other source different.symm below level
  exact highest third hthird ahead

theorem frontierMemberUncontained (exact : ContainmentExact tip inputs pairs) {kept other : BaseInput}
    (survives : kept ∈ frontier (dedupedInDeterministicOrder inputs) pairs) (member : other ∈ inputs)
    (below : tip kept.branch ≤ tip other.branch) : other.branch = kept.branch := by
  obtain ⟨inside, uncontained⟩ := memFrontier.mp survives
  obtain ⟨stand, hstand, same⟩ := dedupedKeepsBranch member
  by_contra different
  refine uncontained stand hstand (by simpa only [same] using different) ((exact _ _).mpr ?_)
  rw [same]
  exact ⟨List.mem_map.mpr ⟨kept, dedupedSource inside, rfl⟩, List.mem_map.mpr ⟨other, member, rfl⟩,
    Ne.symm different, below⟩

theorem keptOfTopsAlone (sha256 : String → String) (issueId trunk : NonemptyStr)
    (some_input : inputs ≠ []) (exact : ContainmentExact tip inputs pairs)
    (alone : TopsStandAlone tip inputs) :
    BlockersKept tip inputs (resolveBase sha256 issueId inputs pairs trunk) := by
  have covered : ∀ item ∈ inputs, ∃ kept ∈ frontier (dedupedInDeterministicOrder inputs) pairs,
      tip item.branch ≤ tip kept.branch := by
    intro item member
    obtain ⟨top, inside, above, highest⟩ := existsTopInput tip member
    obtain ⟨kept, survives, same⟩ := topInFrontier exact alone inside highest
    exact ⟨kept, survives, by rw [same]; exact above⟩
  have nonempty : frontier (dedupedInDeterministicOrder inputs) pairs ≠ [] := by
    obtain ⟨item, member⟩ := List.exists_mem_of_ne_nil inputs some_input
    obtain ⟨kept, survives, _⟩ := covered item member
    exact List.ne_nil_of_mem survives
  have planned := resolveInputs sha256 issueId inputs pairs trunk
  refine ⟨planned ▸ nonempty, ?_, ?_⟩
  · exact fun trunkArm => nonempty ((combineRole sha256 issueId _ trunk).mp trunkArm)
  · intro item member
    obtain ⟨kept, survives, above⟩ := covered item member
    exact ⟨kept, planned ▸ survives, Or.inr above⟩

theorem topsAloneOfKept (sha256 : String → String) (issueId trunk : NonemptyStr)
    (exact : ContainmentExact tip inputs pairs)
    (kept : BlockersKept tip inputs (resolveBase sha256 issueId inputs pairs trunk)) :
    TopsStandAlone tip inputs := by
  intro a ha b hb different below above
  obtain ⟨survivor, survives, covers⟩ := kept.2.2 a ha
  rw [resolveInputs] at survives
  have source := dedupedSource (memFrontier.mp survives).1
  have level : tip a.branch ≤ tip survivor.branch := by
    rcases covers with same | covers
    · rw [same]
    · exact covers
  refine ⟨survivor, source, lt_of_le_not_ge level ?_⟩
  -- A survivor back below `a` would be both `a` and `b`, and those two differ.
  intro back
  have same := frontierMemberUncontained exact survives ha back
  have other := frontierMemberUncontained exact survives hb (back.trans below)
  exact different (same.trans other.symm)

theorem blockersKeptIff (sha256 : String → String) (issueId trunk : NonemptyStr)
    (some_input : inputs ≠ []) (exact : ContainmentExact tip inputs pairs) :
    BlockersKept tip inputs (resolveBase sha256 issueId inputs pairs trunk) ↔
      TopsStandAlone tip inputs :=
  ⟨topsAloneOfKept sha256 issueId trunk exact, keptOfTopsAlone sha256 issueId trunk some_input exact⟩

end Ancestry

def issue : NonemptyStr := ⟨"KOD-9", by decide⟩
def mainBranch : NonemptyStr := ⟨"main", by decide⟩

def blockerOn (key branch sha : NonemptyStr) : BaseInput := ⟨key, branch, sha⟩

def chained : List BaseInput :=
  [blockerOn ⟨"KOD-1", by decide⟩ ⟨"a", by decide⟩ ⟨"s1", by decide⟩,
    blockerOn ⟨"KOD-2", by decide⟩ ⟨"ab", by decide⟩ ⟨"s2", by decide⟩]

theorem chainedBlockersKept :
    BlockersKept (fun branch => branch.val.length) chained
      (resolveBase id issue chained
        (containment (fun a b => decide (a.val.length ≤ b.val.length)) chained) mainBranch) :=
  (blockersKeptIff id issue mainBranch (by decide)
    (containmentExact (fun branch : NonemptyStr => branch.val.length) chained)).mpr
    (by unfold TopsStandAlone; decide)

def twins : List BaseInput :=
  [blockerOn ⟨"KOD-1", by decide⟩ ⟨"feat/a", by decide⟩ ⟨"s", by decide⟩,
    blockerOn ⟨"KOD-2", by decide⟩ ⟨"feat/b", by decide⟩ ⟨"s", by decide⟩]

def twinPairs : List (NonemptyStr × NonemptyStr) := containment (fun _ _ => true) twins

/-- Two branches at one commit contain each other: both are dropped and the lane gets the trunk. -/
theorem twinBranchesLoseEveryBlocker :
    twins ≠ [] ∧ ContainmentExact (fun _ => (0 : Nat)) twins twinPairs ∧
      (resolveBase id issue twins twinPairs mainBranch).spec = ⟨[], mainBranch, none⟩ ∧
      ¬ BlockersKept (fun _ => (0 : Nat)) twins (resolveBase id issue twins twinPairs mainBranch) := by
  have plan : (resolveBase id issue twins twinPairs mainBranch).spec = ⟨[], mainBranch, none⟩ := by decide
  refine ⟨by decide, containmentExact (fun _ => (0 : Nat)) twins, plan, ?_⟩
  rintro ⟨nonempty, -⟩
  exact nonempty (by rw [plan])

end Kodezart.BaseResolution
