import Kodezart.Dict
import Kodezart.PartialWalk

/-! A repository's check chain: what makes one unfit to classify by, and the failures of a run
split into causes and consequences. -/
namespace Kodezart.CheckChain
open PartialWalk

structure CheckStep where
  name : String
  dependsOn : Option String
  deriving DecidableEq, Repr

/-- `by_name`; of two steps of one name the later stands. -/
def byName (steps : List CheckStep) : Dict String CheckStep := Dict.build CheckStep.name steps

def dependency (steps : List CheckStep) (name : String) : Option String :=
  ((byName steps).get? name).bind CheckStep.dependsOn

section Failures
-- `!r` of a step name
variable (repr : String → String) (fuel : Nat) (steps : List CheckStep)

def duplicateFailures : List String → List CheckStep → List String
  | _, [] => []
  | seen, step :: rest =>
    if step.name ∈ seen then s!"duplicate step name {repr step.name}" :: duplicateFailures (step.name :: seen) rest
    else duplicateFailures (step.name :: seen) rest

def stepFailures (step : CheckStep) : Option (List String) :=
  match step.dependsOn with
  | none => some []
  | some name =>
    if (byName steps).get? name = none then
      some [s!"step {repr step.name} depends on unknown step {repr name}"]
    else
      (meetsAgain (dependency steps) fuel [step.name] (some name)).map fun closes =>
        if closes then [s!"step {repr step.name} closes a dependency cycle"] else []

def dependencyFailures : List CheckStep → Option (List String)
  | [] => some []
  | step :: rest => do
    let here ← stepFailures repr fuel steps step
    let later ← dependencyFailures rest
    return here ++ later

def checkChainFailures : Option (List String) :=
  (dependencyFailures repr fuel steps steps).map (duplicateFailures repr [] steps ++ ·)

end Failures

structure CheckFailureClassification where
  roots : List String
  cascades : List String
  deriving DecidableEq, Repr

section Classify
variable (fuel : Nat) (steps : List CheckStep) (failed : List String)

def hasFailedAncestor (name : String) : Option Bool :=
  meetsKind (dependency steps) (fun cursor => cursor ∈ failed) fuel (dependency steps name)

/-- The declared order, and the names no step declares behind it. -/
def reportOrder : List String :=
  steps.map CheckStep.name ++ sortBy id (failed.dedup.filter fun name => (byName steps).get? name = none)

def classifyFrom : List String → CheckFailureClassification → Option CheckFailureClassification
  | [], found => some found
  | name :: rest, found =>
    if name ∈ failed then do
      let cascade ← hasFailedAncestor fuel steps failed name
      classifyFrom rest
        (if cascade then { found with cascades := found.cascades ++ [name] }
        else { found with roots := found.roots ++ [name] })
    else classifyFrom rest found

def classifyCheckFailures : Option CheckFailureClassification :=
  classifyFrom fuel steps failed (reportOrder steps failed) ⟨[], []⟩

end Classify

/-- One step of the chain is conditional on another. -/
def DependsOn (steps : List CheckStep) (name other : String) : Prop :=
  ∃ step ∈ steps, step.name = name ∧ step.dependsOn = some other

/-- Every name declared once, every dependency declared, and no step behind itself. -/
structure WellFormed (steps : List CheckStep) : Prop where
  unique : (steps.map CheckStep.name).Nodup
  declared : ∀ step ∈ steps, ∀ name, step.dependsOn = some name → name ∈ steps.map CheckStep.name
  acyclic : ∀ name, ¬ Relation.TransGen (DependsOn steps) name name

/-- Every failed name once, the declared ones in the chain's order and the others sorted behind
them: consequences where something they rest on failed, and of each a cause among the roots. -/
structure Classified (steps : List CheckStep) (failed : List String) (found : CheckFailureClassification) : Prop where
  once : (found.roots ++ found.cascades).Perm failed.dedup
  ordered : ∃ undeclared : List String, undeclared.Pairwise (· ≤ ·) ∧
    (∀ name, name ∈ undeclared ↔ name ∈ failed ∧ name ∉ steps.map CheckStep.name) ∧
    found.roots.Sublist (steps.map CheckStep.name ++ undeclared) ∧
    found.cascades.Sublist (steps.map CheckStep.name ++ undeclared)
  cascade : ∀ name ∈ failed, name ∈ found.cascades ↔ ∃ other ∈ failed, Relation.TransGen (DependsOn steps) name other
  rooted : ∀ name ∈ found.cascades, ∃ root ∈ found.roots, Relation.TransGen (DependsOn steps) name root

section Walks
variable {steps : List CheckStep} {fuel : Nat}

theorem undeclaredIff {name : String} : (byName steps).get? name = none ↔ name ∉ steps.map CheckStep.name := by
  rw [byName, Dict.buildGetNone]
  simp

theorem dependencySource {name other : String} (leads : dependency steps name = some other) : DependsOn steps name other := by
  obtain ⟨step, found, depends⟩ := Option.bind_eq_some_iff.mp leads
  obtain ⟨member, same⟩ := Dict.buildGetSome _ found
  exact ⟨step, member, same, depends⟩

theorem dependencyIff (unique : (steps.map CheckStep.name).Nodup) {name other : String} :
    dependency steps name = some other ↔ DependsOn steps name other := by
  refine ⟨dependencySource, ?_⟩
  rintro ⟨step, member, rfl, depends⟩
  rw [dependency, byName, Dict.buildGetUnique _ unique member]
  exact depends

theorem ancestorIff (unique : (steps.map CheckStep.name).Nodup) {name other : String} :
    Ancestor (dependency steps) name other ↔ Relation.TransGen (DependsOn steps) name other := by
  have same : (fun x y => dependency steps x = some y) = DependsOn steps := by
    funext x y
    exact propext (dependencyIff unique)
  rw [Ancestor, same]

/-- The names something is conditional on. -/
def targets (steps : List CheckStep) : Finset String := (steps.filterMap CheckStep.dependsOn).toFinset

theorem dependencyTarget (name other : String) (leads : dependency steps name = some other) : other ∈ targets steps := by
  obtain ⟨step, member, -, depends⟩ := dependencySource leads
  exact List.mem_toFinset.mpr (List.mem_filterMap.mpr ⟨step, member, depends⟩)

theorem targetsFew (walked : List String) : (targets steps \ walked.toFinset).card ≤ steps.length :=
  (Finset.card_le_card Finset.sdiff_subset).trans ((List.toFinset_card_le _).trans (List.length_filterMap_le _ _))

theorem walkTotal (enough : steps.length < fuel) (walked : List String) {cursor : Option String}
    (started : ∀ name, cursor = some name → name ∈ targets steps) :
    ∃ met, meetsAgain (dependency steps) fuel walked cursor = some met :=
  meetsAgainTotal dependencyTarget started ((targetsFew walked).trans_lt enough)

/-- A step's path meets nothing again where no step stands behind itself. -/
theorem walkFree (enough : steps.length < fuel) (acyclic : ∀ name, ¬ Ancestor (dependency steps) name name)
    (name : String) : meetsAgain (dependency steps) fuel [name] (dependency steps name) = some false := by
  obtain ⟨met, walked⟩ := walkTotal enough [name] (dependencyTarget name)
  cases met with
  | false => exact walked
  | true =>
    have behind : ∀ w ∈ [name], ∀ x, On (dependency steps) (dependency steps name) x → Ancestor (dependency steps) w x := by
      intro w member x on
      rw [List.mem_singleton.mp member]
      exact onIff.mp on
    obtain ⟨x, cycle⟩ := meetsAgainCycle behind walked
    exact absurd cycle (acyclic x)

end Walks

section Failures
variable {repr : String → String} {fuel : Nat} {steps : List CheckStep}

theorem duplicateFailuresIff (seen : List String) : duplicateFailures repr seen steps = [] ↔
    (steps.map CheckStep.name).Nodup ∧ ∀ name ∈ steps.map CheckStep.name, name ∉ seen := by
  induction steps generalizing seen with
  | nil => simp [duplicateFailures]
  | cons step rest ih =>
    rw [duplicateFailures]
    split
    · rename_i again
      refine iff_of_false (by simp) fun clean => ?_
      exact clean.2 step.name (by simp) again
    · rename_i fresh
      rw [ih, List.map_cons, List.nodup_cons]
      constructor
      · intro clean
        obtain ⟨once, unseen⟩ := clean
        refine ⟨⟨fun again => unseen step.name again (by simp), once⟩, ?_⟩
        intro name member old
        rcases List.mem_cons.mp member with rfl | later
        · exact fresh old
        · exact unseen name later (List.mem_cons_of_mem _ old)
      · intro clean
        obtain ⟨⟨first, once⟩, unseen⟩ := clean
        refine ⟨once, fun name member old => ?_⟩
        rcases List.mem_cons.mp old with rfl | older
        · exact first member
        · exact unseen name (List.mem_cons_of_mem _ member) older

/-- A step's dependency is declared, and the path behind it meets nothing again. -/
def Sound (fuel : Nat) (steps : List CheckStep) (step : CheckStep) : Prop :=
  ∀ name, step.dependsOn = some name → name ∈ steps.map CheckStep.name ∧
    meetsAgain (dependency steps) fuel [step.name] (some name) = some false

theorem stepFailuresIff (enough : steps.length < fuel) {step : CheckStep} (member : step ∈ steps) :
    ∃ failures, stepFailures repr fuel steps step = some failures ∧ (failures = [] ↔ Sound fuel steps step) := by
  unfold stepFailures Sound
  cases depends : step.dependsOn with
  | none => exact ⟨[], rfl, iff_of_true rfl nofun⟩
  | some name =>
    dsimp only
    split
    · rename_i unknown
      refine ⟨_, rfl, iff_of_false (by simp) fun sound => ?_⟩
      exact undeclaredIff.mp unknown (sound name rfl).1
    · rename_i known
      have declared : name ∈ steps.map CheckStep.name := by
        by_contra undeclared
        exact known (undeclaredIff.mpr undeclared)
      have started : ∀ other, some name = some other → other ∈ targets steps := by
        intro other same
        cases same
        exact List.mem_toFinset.mpr (List.mem_filterMap.mpr ⟨step, member, depends⟩)
      obtain ⟨met, walked⟩ := walkTotal enough [step.name] started
      rw [walked]
      refine ⟨_, rfl, ?_⟩
      cases met with
      | false =>
        refine iff_of_true rfl fun other same => ?_
        cases same
        exact ⟨declared, walked⟩
      | true =>
        refine iff_of_false (by simp) fun sound => ?_
        rw [(sound name rfl).2] at walked
        cases walked

theorem dependencyFailuresIff (enough : steps.length < fuel) {some_steps : List CheckStep}
    (inside : ∀ step ∈ some_steps, step ∈ steps) :
    ∃ failures, dependencyFailures repr fuel steps some_steps = some failures ∧
      (failures = [] ↔ ∀ step ∈ some_steps, Sound fuel steps step) := by
  induction some_steps with
  | nil => exact ⟨[], rfl, by simp⟩
  | cons step rest ih =>
    obtain ⟨here, found, first⟩ := @stepFailuresIff repr fuel steps enough step (inside step (by simp))
    obtain ⟨later, others, behind⟩ := ih fun other member => inside other (by simp [member])
    refine ⟨here ++ later, by simp [dependencyFailures, found, others], ?_⟩
    rw [List.append_eq_nil_iff, first, behind, List.forall_mem_cons]

theorem soundWellFormed : (steps.map CheckStep.name).Nodup ∧ (∀ step ∈ steps, Sound fuel steps step) →
    WellFormed steps := by
  rintro ⟨unique, sound⟩
  refine ⟨unique, fun step member name depends => (sound step member name depends).1, ?_⟩
  intro name cycle
  obtain ⟨other, ⟨step, member, rfl, depends⟩, -⟩ := Relation.TransGen.head'_iff.mp cycle
  have stops := meetsAgainStops (sound step member other depends).2
  have leads : dependency steps step.name = some other := (dependencyIff unique).mpr ⟨step, member, rfl, depends⟩
  have round := (ancestorIff unique).mpr cycle
  rw [← leads] at stops
  exact cycleEndless stops (onIff.mpr round) round

theorem wellFormedSound (enough : steps.length < fuel) (wellFormed : WellFormed steps) :
    ∀ step ∈ steps, Sound fuel steps step := by
  intro step member name depends
  have acyclic : ∀ name, ¬ Ancestor (dependency steps) name name := by
    intro name cycle
    exact wellFormed.acyclic name ((ancestorIff wellFormed.unique).mp cycle)
  have leads : dependency steps step.name = some name := (dependencyIff wellFormed.unique).mpr ⟨step, member, rfl, depends⟩
  refine ⟨wellFormed.declared step member name depends, ?_⟩
  rw [← leads]
  exact walkFree enough acyclic step.name

theorem checkChainIff (enough : steps.length < fuel) :
    ∃ failures, checkChainFailures repr fuel steps = some failures ∧ (failures = [] ↔ WellFormed steps) := by
  obtain ⟨failures, found, means⟩ := @dependencyFailuresIff repr fuel steps enough steps fun _ => id
  refine ⟨duplicateFailures repr [] steps ++ failures, by rw [checkChainFailures, found]; rfl, ?_⟩
  rw [List.append_eq_nil_iff, duplicateFailuresIff, means]
  constructor
  · intro clean
    exact soundWellFormed ⟨clean.1.1, clean.2⟩
  · intro wellFormed
    exact ⟨⟨wellFormed.unique, by simp⟩, wellFormedSound enough wellFormed⟩

end Failures

section Classify
variable {fuel : Nat} {steps : List CheckStep} {failed : List String}

theorem wellFormedStops (enough : steps.length < fuel) (wellFormed : WellFormed steps) (name : String) :
    Stops (dependency steps) fuel (dependency steps name) :=
  meetsAgainStops (walkFree enough
    (fun name cycle => wellFormed.acyclic name ((ancestorIff wellFormed.unique).mp cycle)) name)

theorem hasFailedAncestorIff (enough : steps.length < fuel) (wellFormed : WellFormed steps) (name : String) :
    ∃ cascade, hasFailedAncestor fuel steps failed name = some cascade ∧
      (cascade = true ↔ ∃ other ∈ failed, Relation.TransGen (DependsOn steps) name other) := by
  obtain ⟨met, answered, means⟩ := @meetsKindIff _ _ (fun cursor => decide (cursor ∈ failed)) _ _
    (wellFormedStops enough wellFormed name)
  refine ⟨met, answered, means.trans ?_⟩
  simp only [decide_eq_true_eq, onIff, ancestorIff wellFormed.unique]

/-- Where every walk ends, the names are split by what each walk met. -/
theorem classifyFromSplit {cascade : String → Bool}
    (answered : ∀ name, hasFailedAncestor fuel steps failed name = some (cascade name)) (names : List String)
    (found : CheckFailureClassification) : classifyFrom fuel steps failed names found = some
      ⟨found.roots ++ (names.filter (· ∈ failed)).filter (fun name => !cascade name),
        found.cascades ++ (names.filter (· ∈ failed)).filter cascade⟩ := by
  induction names generalizing found with
  | nil => simp [classifyFrom]
  | cons name rest ih =>
    rw [classifyFrom]
    split
    · rename_i member
      rw [answered name, Option.bind_eq_bind, Option.bind_some, ih]
      cases kind : cascade name <;> simp [member, kind]
    · rename_i other
      rw [ih]
      simp [other]

theorem reportOrderNodup (unique : (steps.map CheckStep.name).Nodup) : (reportOrder steps failed).Nodup := by
  refine List.nodup_append.mpr ⟨unique, ?_, ?_⟩
  · exact ((sortByPerm id _).nodup_iff).mpr (failed.nodup_dedup.filter _)
  · intro name declared other undeclared same
    subst same
    rw [memSortBy, List.mem_filter, decide_eq_true_eq] at undeclared
    exact undeclaredIff.mp undeclared.2 declared

theorem reportOrderCovers {name : String} (member : name ∈ failed) : name ∈ reportOrder steps failed := by
  by_cases declared : name ∈ steps.map CheckStep.name
  · exact List.mem_append_left _ declared
  · refine List.mem_append_right _ ?_
    rw [memSortBy, List.mem_filter, decide_eq_true_eq]
    exact ⟨List.mem_dedup.mpr member, undeclaredIff.mpr declared⟩

theorem classifiedExact (enough : steps.length < fuel) (wellFormed : WellFormed steps) (failed : List String) :
    ∃ found, classifyCheckFailures fuel steps failed = some found ∧ Classified steps failed found := by
  choose cascade answered means using @hasFailedAncestorIff fuel steps failed enough wellFormed
  refine ⟨_, classifyFromSplit answered _ _, ?_⟩
  rw [List.nil_append, List.nil_append]
  generalize order : reportOrder steps failed = names
  have once : names.Nodup := by
    rw [← order]
    exact reportOrderNodup wellFormed.unique
  have covered : ∀ name, name ∈ names.filter (· ∈ failed) ↔ name ∈ failed := by
    intro name
    rw [List.mem_filter, decide_eq_true_eq, and_iff_right_iff_imp, ← order]
    exact reportOrderCovers
  refine ⟨?_, ?_, ?_, ?_⟩
  · have split := List.filter_append_perm (fun name => !cascade name) (names.filter (· ∈ failed))
    simp only [Bool.not_not] at split
    refine split.trans ?_
    rw [List.perm_ext_iff_of_nodup (once.filter _) failed.nodup_dedup]
    intro name
    rw [covered, List.mem_dedup]
  · refine ⟨sortBy id (failed.dedup.filter fun name => (byName steps).get? name = none), sortByOrdered id _, ?_, ?_, ?_⟩
    · intro name
      rw [memSortBy, List.mem_filter, decide_eq_true_eq, List.mem_dedup, undeclaredIff]
    · rw [← reportOrder, order]
      exact List.filter_sublist.trans List.filter_sublist
    · rw [← reportOrder, order]
      exact List.filter_sublist.trans List.filter_sublist
  · intro name member
    rw [List.mem_filter, covered, means]
    exact and_iff_right member
  · intro name inside
    obtain ⟨member, kind⟩ := List.mem_filter.mp inside
    obtain ⟨other, fell, behind⟩ := (means name).mp kind
    have on : On (dependency steps) (dependency steps name) other :=
      onIff.mpr ((ancestorIff wellFormed.unique).mpr behind)
    obtain ⟨root, fell_root, on_root, last⟩ := @lastOfKind _ _ (fun cursor => decide (cursor ∈ failed)) _ _
      (wellFormedStops enough wellFormed name) other (decide_eq_true fell) on
    have root_failed : root ∈ failed := of_decide_eq_true fell_root
    refine ⟨root, List.mem_filter.mpr ⟨(covered root).mpr root_failed, ?_⟩,
      (ancestorIff wellFormed.unique).mp (onIff.mp on_root)⟩
    rw [Bool.not_eq_true', ← Bool.not_eq_true, means]
    rintro ⟨further, fell_further, beyond⟩
    exact last further (decide_eq_true fell_further) (onIff.mpr ((ancestorIff wellFormed.unique).mpr beyond))

/-- The check refuses exactly the chains that cannot be classified by, and on every chain it
accepts the classification ends and is the split there is. One cursor more than there are steps
is enough for both walks. -/
theorem chainExact (repr : String → String) (steps : List CheckStep) (more : Nat) :
    ∃ failures, checkChainFailures repr (steps.length + 1 + more) steps = some failures ∧
      (failures = [] ↔ WellFormed steps) ∧
      (failures = [] → ∀ failed, ∃ found,
        classifyCheckFailures (steps.length + 1 + more) steps failed = some found ∧ Classified steps failed found) := by
  have enough : steps.length < steps.length + 1 + more := by omega
  obtain ⟨failures, found, means⟩ := @checkChainIff repr _ steps enough
  exact ⟨failures, found, means, fun accepted => classifiedExact enough (means.mp accepted)⟩

end Classify
end Kodezart.CheckChain
