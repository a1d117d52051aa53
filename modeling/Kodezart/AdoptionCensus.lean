import Kodezart.AdoptionGrowth

/-! The census that withdraws until nothing is withdrawn: it ends, its answer has no order in it,
and what each grant of the growth it returns rests on. -/
namespace Kodezart.WriteAdoption
open Saturation

section Rounds
variable {index : SourceIndex} {entry : DriveEntry} {orders : Orders} {withheld : Finset Source}

/-- What a fixed point of the grants holds, said without the loop that found it. -/
structure Grown (index : SourceIndex) (entry : DriveEntry) (withheld : Finset Source) (growth : Growth) : Prop where
  driven : ∀ function, function ∈ growth.driven ↔ Derives (GrowthRule index entry withheld) (.driven function)
  appliers : ∀ applier mention, (applier, mention) ∈ growth.appliers ↔ Derives (GrowthRule index entry withheld) (.applier applier mention)
  steps : ∀ function, function ∈ growth.steps ↔ Derives (GrowthRule index entry withheld) (.step function)
  handed : ∀ applier owner parameter, (applier, owner, parameter) ∈ growth.handed ↔
    Derives (GrowthRule index entry withheld) (.handed applier owner parameter)

theorem growGrown {round fuel : Nat} {growth : Growth} (grown : grow index entry orders withheld round fuel = some growth) :
    Grown index entry withheld growth := by
  obtain ⟨s, found, rfl⟩ := Option.map_eq_some_iff.mp grown
  have exact' := growFromExact startSane found
  exact ⟨fun function => exact' (.driven function), fun applier mention => exact' (.applier applier mention),
    fun function => exact' (.step function), fun applier owner parameter => exact' (.handed applier owner parameter)⟩

theorem grownUnique {growth other : Growth} (grown : Grown index entry withheld growth) (grown' : Grown index entry withheld other) :
    growth = other := by
  have driven : growth.driven = other.driven := by
    ext function
    rw [grown.driven, grown'.driven]
  have appliers : growth.appliers = other.appliers := by
    ext ⟨applier, mention⟩
    rw [grown.appliers, grown'.appliers]
  have steps : growth.steps = other.steps := by
    ext function
    rw [grown.steps, grown'.steps]
  have handed : growth.handed = other.handed := by
    ext ⟨applier, owner, parameter⟩
    rw [grown.handed, grown'.handed]
  cases growth
  cases other
  simp_all

/-- A fact about a function that is not withheld. -/
def Free (withheld : Finset Source) : Fact → Prop
  | .sink _ | .grounded _ => True
  | .driven function | .applier function _ | .handed function _ _ | .step function => function ∉ withheld

theorem rulesFree : Closed (GrowthRule index entry withheld) (Free withheld) := by
  rintro rule (_ | ⟨member⟩ | ⟨clear⟩ | ⟨member, free⟩) met fact concluded
  · obtain rfl : fact = _ := concluded
    trivial
  · cases fact with
    | driven function =>
      obtain ⟨_, _, free⟩ := concluded
      exact free
    | applier function mention => exact concluded.2
    | handed applier owner parameter => exact concluded.2
    | step function => exact concluded.elim
    | sink slot | grounded owner => trivial
  · cases fact with
    | driven function | step function =>
      exact fun kept => clear ⟨function, Finset.mem_inter.mpr ⟨concluded, kept⟩⟩
    | applier function mention | handed applier owner parameter => exact concluded.elim
    | sink slot | grounded owner => trivial
  · obtain rfl : fact = _ := concluded
    exact free

/-- What is withdrawn was granted, so it is something a growth can grant and is not yet withheld. -/
theorem withdrawnGranted {growth : Growth} (grown : Grown index entry withheld growth) {function : Source}
    (gone : function ∈ withdrawn index entry growth) :
    function ∉ withheld ∧ function ∈ allDriven index entry ∪ allHanded index := by
  have granted : (∃ mention, (function, mention) ∈ growth.appliers) ∨ function ∈ growth.steps ∨
      ∃ to', (function, to') ∈ growth.handed := by
    simp only [withdrawn, appliersOf, Finset.mem_union, Finset.mem_filter, Finset.mem_image] at gone
    rcases gone with ((⟨⟨⟨_, mention⟩, member, rfl⟩ | step, -⟩) | ⟨⟨⟨_, to'⟩, member, rfl⟩, -⟩) | ⟨⟨⟨_, mention⟩, member, rfl⟩, -⟩
    · exact .inl ⟨mention, member⟩
    · exact .inr (.inl step)
    · exact .inr (.inr ⟨to', member⟩)
    · exact .inl ⟨mention, member⟩
  rcases granted with ⟨mention, applier⟩ | step | ⟨⟨owner, parameter⟩, handed⟩
  · have derives := (grown.appliers function mention).mp applier
    exact ⟨derivesWithin rulesFree derives, Finset.mem_union_left _ (derivesWithin rulesPossible derives)⟩
  · have derives := (grown.steps function).mp step
    exact ⟨derivesWithin rulesFree derives, Finset.mem_union_left _ (derivesWithin rulesPossible derives)⟩
  · have derives := (grown.handed function owner parameter).mp handed
    exact ⟨derivesWithin rulesFree derives, Finset.mem_union_right _ (derivesWithin rulesPossible derives)⟩

theorem growEnds (round : Nat) {fuel : Nat} (enough : growthBound index entry < fuel) :
    (grow index entry orders withheld round fuel).isSome := by
  rw [grow, Option.isSome_map]
  exact growFromEnds round startSane (by omega)

/-- Every round that withdraws something withholds more of the finitely many that can be granted. -/
theorem drivenFromEnds {passes fuel round : Nat} (bound : growthBound index entry < passes)
    (enough : ((allDriven index entry ∪ allHanded index) \ withheld).card < fuel) :
    (drivenFrom index entry orders passes fuel round withheld).isSome := by
  induction fuel generalizing round withheld with
  | zero => omega
  | succ fuel ih =>
    obtain ⟨growth, grown⟩ := Option.isSome_iff_exists.mp
      (@growEnds index entry orders withheld round passes bound)
    simp only [drivenFrom, grown, Option.bind_eq_bind, Option.bind_some]
    split
    · rfl
    · next more =>
      obtain ⟨function, gone, -⟩ := Finset.not_subset.mp more
      obtain ⟨free, possible⟩ := withdrawnGranted (growGrown grown) gone
      apply ih
      have fewer : ((allDriven index entry ∪ allHanded index) \ (withheld ∪ withdrawn index entry growth)).card <
          ((allDriven index entry ∪ allHanded index) \ withheld).card := by
        apply Finset.card_lt_card
        refine ⟨Finset.sdiff_subset_sdiff (Finset.Subset.refl _) Finset.subset_union_left, fun back => ?_⟩
        have kept := back (Finset.mem_sdiff.mpr ⟨possible, free⟩)
        exact (Finset.mem_sdiff.mp kept).2 (Finset.mem_union_right _ gone)
      omega

theorem drivenFromSame {orders' : Orders} {passes passes' fuel fuel' round round' : Nat} {growth other : Growth}
    (found : drivenFrom index entry orders passes fuel round withheld = some growth)
    (found' : drivenFrom index entry orders' passes' fuel' round' withheld = some other) : growth = other := by
  induction fuel generalizing round withheld fuel' round' with
  | zero => cases found
  | succ fuel ih =>
    cases fuel' with
    | zero => cases found'
    | succ fuel' =>
      obtain ⟨first, grown, found⟩ := Option.bind_eq_some_iff.mp found
      obtain ⟨first', grown', found'⟩ := Option.bind_eq_some_iff.mp found'
      obtain rfl := grownUnique (growGrown grown) (growGrown grown')
      dsimp only at found found'
      split at found
      · next still =>
        rw [if_pos still] at found'
        exact (Option.some.inj found).symm.trans (Option.some.inj found')
      · next more =>
        rw [if_neg more] at found'
        exact ih found found'

/-- The growth the census returns withdraws nothing. -/
theorem drivenFromSettled {passes fuel round : Nat} {growth : Growth}
    (found : drivenFrom index entry orders passes fuel round withheld = some growth) :
    ∃ kept, Grown index entry kept growth ∧ withdrawn index entry growth = ∅ := by
  induction fuel generalizing round withheld with
  | zero => cases found
  | succ fuel ih =>
    obtain ⟨first, grown, found⟩ := Option.bind_eq_some_iff.mp found
    dsimp only at found
    split at found
    · next still =>
      obtain rfl := Option.some.inj found
      refine ⟨withheld, growGrown grown, Finset.eq_empty_of_forall_notMem fun function gone => ?_⟩
      exact (withdrawnGranted (growGrown grown) gone).1 (still gone)
    · exact ih found

/-- What is driven and was neither granted to an applier nor to a step was delegated. -/
theorem drivenDelegated {growth : Growth} (grown : Grown index entry withheld growth) {holder : Source}
    (driven : holder ∈ growth.driven) (noApplier : holder ∉ appliersOf growth) (noStep : holder ∉ growth.steps) :
    holder ∈ index.functions ∧ ∃ calling, delegation index holder = some calling ∧ calling ⊆ growth.driven := by
  cases (grown.driven holder).mp driven with
  | fire known met concluded =>
    cases known with
    | entry => cases concluded
    | handed member =>
      obtain ⟨mention, has, free⟩ := concluded
      have applier : (holder, mention) ∈ growth.appliers := (grown.appliers holder mention).mpr (.fire (.handed member) met ⟨has, free⟩)
      exact absurd (Finset.mem_image_of_mem _ applier) noApplier
    | step clear => exact absurd ((grown.steps holder).mpr (.fire (.step clear) met concluded)) noStep
    | delegated member free =>
      cases concluded
      obtain ⟨known, found⟩ := delegationsMember member
      refine ⟨known, _, found, fun caller calls => ?_⟩
      exact (grown.driven caller).mpr (met (.driven caller) ⟨caller, calls, rfl⟩)

end Rounds

section Census
variable {index : SourceIndex}

/-- Every function that calls another also calls it by a mention of its own name: none is reached
only under a name it was imported as. -/
def ByOwnName (index : SourceIndex) : Prop :=
  ∀ holder ∈ index.functions, ∀ caller ∈ resolvedCallers index holder, ∃ reference,
    (some caller, reference) ∈ index.references (index.functionName holder) ∧
      (index.callOf reference).bind (index.resolve caller) = some holder

theorem tallyNamed {holder : Source} {mentions : List (Option Source × Node)} {callers all : Finset Source}
    (tallied : tallyCallers index holder mentions callers = some all) :
    callers ⊆ all ∧ ∀ caller reference, (some caller, reference) ∈ mentions →
      (index.callOf reference).bind (index.resolve caller) = some holder → caller ∈ all := by
  induction mentions generalizing callers with
  | nil =>
    obtain rfl : callers = all := Option.some.inj tallied
    exact ⟨Finset.Subset.refl _, by simp⟩
  | cons mention rest ih =>
    obtain ⟨_ | first, reference⟩ := mention
    · cases tallied
    · rw [tallyCallers] at tallied
      cases found : (index.callOf reference).bind (index.resolve first) with
      | none =>
        rw [found] at tallied
        cases tallied
      | some target =>
        rw [found] at tallied
        dsimp only at tallied
        split at tallied
        · obtain ⟨more, named⟩ := ih tallied
          refine ⟨(Finset.subset_insert _ _).trans more, ?_⟩
          intro caller other member resolves
          rcases List.mem_cons.mp member with head | later
          · cases head
            exact more (Finset.mem_insert_self _ _)
          · exact named caller other later resolves
        · next elsewhere =>
          obtain ⟨more, named⟩ := ih tallied
          refine ⟨more, ?_⟩
          intro caller other member resolves
          rcases List.mem_cons.mp member with head | later
          · cases head
            rw [found] at resolves
            exact absurd (.inl (Option.some.inj resolves)) elsewhere
          · exact named caller other later resolves

theorem delegationNamed {holder : Source} {calling : Finset Source} (known : holder ∈ index.functions) (own : ByOwnName index)
    (delegated : delegation index holder = some calling) : resolvedCallers index holder ⊆ calling := by
  intro caller calls
  unfold delegation at delegated
  split at delegated
  · cases delegated
  · have tallied := (Option.filter_eq_some_iff.mp delegated).1
    obtain ⟨reference, mentioned, resolves⟩ := own holder known caller calls
    exact (tallyNamed tallied).2 caller reference mentioned resolves

end Census
section Aliased

def laneSource (function : String) : Source := ⟨"lane.py".toList, function.toList⟩

def verify : Source := laneSource "Verifier.verify"
def stepTake : Source := laneSource "Step.take"
def writeTake : Source := laneSource "Write.take"
def helper : Source := laneSource "helper"
def fire : Source := laneSource "fire"
def rogue : Source := ⟨"rogue.py".toList, "rogue".toList⟩

def laneEntry : DriveEntry := ⟨verify, laneSource "Step", "step".toList, "take".toList⟩

/-- Two modules: a verifier that calls `step.take()`, a step whose `take` calls `helper()`, a `fire`
that calls `verifier.verify(step=Write())`; and a `rogue` that imports `helper as other` and calls `other()`. -/
def aliasedIndex : SourceIndex where
  functions := {verify, stepTake, writeTake, helper, fire, rogue}
  functionName := Source.name
  assigns _ := []
  classes := {laneSource "Verifier", laneSource "Step", laneSource "Write"}
  bases _ := []
  methods owner := if owner = laneSource "Verifier" then ["verify".toList] else ["take".toList]
  shape
    | 0 => .name "helper".toList true
    | 1 => .call 0
    | 2 => .call 3
    | 3 => .name "Write".toList true
    | 4 => .member 5 "verify".toList true
    | 5 => .name "verifier".toList true
    | 6 => .call 4
    | 7 => .name "other".toList true
    | 8 => .call 7
    | 9 => .name "step".toList true
    | 10 => .member 9 "take".toList true
    | 11 => .call 10
    | _ => .other
  directCalls holder :=
    if holder = writeTake then [1] else if holder = fire then [6, 2] else if holder = rogue then [8]
    else if holder = verify then [11] else []
  references name :=
    if name = "helper".toList then [(some writeTake, 0)] else if name = "verify".toList then [(some fire, 4)]
    else if name = "take".toList then [(some verify, 10)] else []
  callOf
    | 0 => some 1
    | 3 => some 2
    | 4 => some 6
    | 7 => some 8
    | 10 => some 11
    | _ => none
  nested _ _ := none
  resolve _
    | 1 | 8 => some helper
    | 2 => some (laneSource "Write")
    | 6 => some verify
    | 11 => some stepTake
    | _ => none
  arguments _ call := if call = 6 then [(some "step".toList, 2)] else []
  parameterNames _ := {"self".toList}
  bindings _ := []
  typeOf _ _ := none
  annotated _ _ := none

theorem aliasedHanded : handedArguments aliasedIndex = {((verify, "step".toList), fire, 2)} := by decide

theorem aliasedDelegations : delegations aliasedIndex = {(verify, {fire}), (stepTake, {verify}), (helper, {writeTake})} := by
  decide

theorem aliasedGrant : (grant aliasedIndex fire 2).grounded = {laneSource "Write"} ∧ (grant aliasedIndex fire 2).sinks = ∅ ∧
    (grant aliasedIndex fire 2).appliers = ∅ ∧ (grant aliasedIndex fire 2).handed = ∅ := by
  decide

theorem aliasedStep : (stepGrant aliasedIndex (laneSource "Write") laneEntry.stepMethod).driven = {writeTake} ∧
    (stepGrant aliasedIndex (laneSource "Write") laneEntry.stepMethod).sinks = ∅ := by
  decide

/-- What the census of the two modules can come to. -/
def AliasedFact : Fact → Prop
  | .sink slot => slot = (verify, "step".toList)
  | .grounded owner => owner = laneSource "Write"
  | .driven function => function = writeTake ∨ function = helper
  | .step function => function = writeTake
  | .applier _ _ | .handed _ _ _ => False

theorem aliasedClosed : Closed (GrowthRule aliasedIndex laneEntry ∅) AliasedFact := by
  rintro rule (_ | ⟨member⟩ | ⟨clear⟩ | ⟨member, free⟩) met fact concluded
  · obtain rfl : fact = _ := concluded
    rfl
  · have known := handedMember member
    rw [aliasedHanded] at known
    cases Finset.mem_singleton.mp known
    obtain ⟨grounded, sinks, appliers, handed⟩ := aliasedGrant
    cases fact <;> simp_all [grantFacts, AliasedFact]
  · obtain rfl : _ = laneSource "Write" := met (.grounded _) rfl
    obtain ⟨driven, sinks⟩ := aliasedStep
    cases fact <;> simp_all [stepFacts, AliasedFact]
  · obtain rfl : fact = _ := concluded
    rw [aliasedDelegations] at member
    have undriven {caller : Source} (calls : AliasedFact (.driven caller)) : caller ≠ fire ∧ caller ≠ verify := by
      rcases calls with rfl | rfl <;> decide
    rcases Finset.mem_insert.mp member with first | rest
    · cases first
      exact absurd rfl (undriven (met (.driven fire) ⟨fire, by simp, rfl⟩)).1
    · rcases Finset.mem_insert.mp rest with second | last
      · cases second
        exact absurd rfl (undriven (met (.driven verify) ⟨verify, by simp, rfl⟩)).2
      · cases Finset.mem_singleton.mp last
        exact .inr rfl

theorem aliasedHelperDriven : Derives (GrowthRule aliasedIndex laneEntry ∅) (.driven helper) := by
  have sink : Derives (GrowthRule aliasedIndex laneEntry ∅) (.sink (verify, "step".toList)) :=
    .fire .entry (fun _ none' => none'.elim) rfl
  have given : ((fire, 2) : Source × Node) ∈ handed aliasedIndex (verify, "step".toList) := by
    rw [handed, aliasedHanded]
    decide
  have grounded : Derives (GrowthRule aliasedIndex laneEntry ∅) (.grounded (laneSource "Write")) := by
    refine .fire (.handed given) (by rintro _ rfl; exact sink) ?_
    show laneSource "Write" ∈ (grant aliasedIndex fire 2).grounded
    rw [aliasedGrant.1]
    exact Finset.mem_singleton_self _
  have step : Derives (GrowthRule aliasedIndex laneEntry ∅) (.driven writeTake) := by
    refine .fire (.step ?_) (by rintro _ rfl; exact grounded) ?_
    · simp [Clear]
    · show writeTake ∈ (stepGrant aliasedIndex (laneSource "Write") laneEntry.stepMethod).driven
      rw [aliasedStep.1]
      exact Finset.mem_singleton_self _
  have delegated : (helper, {writeTake}) ∈ delegations aliasedIndex := by
    rw [aliasedDelegations]
    simp
  refine .fire (.delegated delegated (Finset.notMem_empty _)) ?_ rfl
  rintro _ ⟨caller, calls, rfl⟩
  rw [Finset.mem_singleton.mp calls]
  exact step

theorem aliasedUnweighed (growth : Growth) :
    ∀ target ∈ reached aliasedIndex laneEntry growth writeTake, weighed aliasedIndex laneEntry target = ∅ := by
  have bases : (aliasedIndex.functions.filter fun base => writeTake ∈ overrides aliasedIndex base) = ∅ := by decide
  have member : weighed aliasedIndex laneEntry writeTake = ∅ := by decide
  have protocol : weighed aliasedIndex laneEntry (protocolMember laneEntry) = ∅ := by decide
  intro target known
  rw [reached, bases] at known
  split at known
  · rcases Finset.mem_insert.mp known with rfl | own
    · exact protocol
    · rw [Finset.mem_singleton.mp own]
      exact member
  · rw [Finset.mem_singleton.mp known]
    exact member

noncomputable def someOrders : Orders where
  sinks _ _ all := all.toList
  arguments _ _ _ all := all.toList
  grounded _ _ all := all.toList
  delegations _ _ all := all.toList
  sinksAll _ _ _ _ := Finset.mem_toList
  argumentsAll _ _ _ _ _ := Finset.mem_toList
  groundedAll _ _ _ _ := Finset.mem_toList
  delegationsAll _ _ _ _ := Finset.mem_toList

end Aliased

end Kodezart.WriteAdoption
