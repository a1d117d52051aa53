import Kodezart.Saturation
import Kodezart.WriteAdoption

/-! The growth of the grants as the least set its rules keep to: every pass derives, the last one
has nothing left to do, and passes end. -/
namespace Kodezart.WriteAdoption
open Saturation

inductive Fact where
  | sink (slot : Slot)
  | grounded (owner : Source)
  | driven (function : Source)
  | applier (function : Source) (mention : Node)
  | handed (applier owner : Source) (parameter : Text)
  | step (function : Source)

def Growing.facts (s : Growing) : Fact → Prop
  | .sink slot => slot ∈ s.sinks
  | .grounded owner => owner ∈ s.grounded
  | .driven function => function ∈ s.driven
  | .applier function mention => (function, mention) ∈ s.appliers
  | .handed applier owner parameter => (applier, owner, parameter) ∈ s.handed
  | .step function => function ∈ s.steps

def grantFacts (withheld : Finset Source) (given : Grant) : Fact → Prop
  | .sink slot => slot ∈ given.sinks
  | .grounded owner => owner ∈ given.grounded
  | .driven function => ∃ mention, (function, mention) ∈ given.appliers ∧ function ∉ withheld
  | .applier function mention => (function, mention) ∈ given.appliers ∧ function ∉ withheld
  | .handed applier owner parameter => (applier, owner, parameter) ∈ given.handed ∧ applier ∉ withheld
  | .step _ => False

def stepFacts (step : Grant) : Fact → Prop
  | .sink slot => slot ∈ step.sinks
  | .driven function | .step function => function ∈ step.driven
  | _ => False

section Rules
variable (index : SourceIndex) (entry : DriveEntry) (withheld : Finset Source)

/-- A grounded class whose step member is not withheld. -/
def Clear (owner : Source) : Prop := ¬((stepGrant index owner entry.stepMethod).driven ∩ withheld).Nonempty

/-- What a growth without `withheld` may conclude, and from what. -/
inductive GrowthRule : Rule Fact → Prop where
  | entry : GrowthRule ⟨fun _ => False, (· = .sink (entry.verifier, entry.stepParameter))⟩
  | handed {slot given} (member : given ∈ handed index slot) :
      GrowthRule ⟨(· = .sink slot), grantFacts withheld (grant index given.1 given.2)⟩
  | step {owner} (clear : Clear index entry withheld owner) :
      GrowthRule ⟨(· = .grounded owner), stepFacts (stepGrant index owner entry.stepMethod)⟩
  | delegated {holder calling} (member : (holder, calling) ∈ delegations index) (free : holder ∉ withheld) :
      GrowthRule ⟨fun f => ∃ caller ∈ calling, f = .driven caller, (· = .driven holder)⟩

end Rules

/-- What a stretch of the growing does: nothing, or it marks the pass changed and gets further. -/
structure Grows (s s' : Growing) : Prop where
  facts : ∀ fact, s.facts fact → s'.facts fact
  spent : s.spent ⊆ s'.spent
  settled : s.settled ⊆ s'.settled
  moves : s' = s ∨ s'.changed = true ∧
    s.spent.card + s.settled.card + s.driven.card < s'.spent.card + s'.settled.card + s'.driven.card

def Growing.size (s : Growing) : Nat := s.spent.card + s.settled.card + s.driven.card

theorem Grows.refl (s : Growing) : Grows s s := ⟨fun _ holds => holds, Finset.Subset.refl _, Finset.Subset.refl _, .inl rfl⟩

theorem Grows.trans {s s' s'' : Growing} (first : Grows s s') (second : Grows s' s'') : Grows s s'' := by
  refine ⟨fun fact holds => second.facts fact (first.facts fact holds), first.spent.trans second.spent, first.settled.trans second.settled, ?_⟩
  rcases first.moves with rfl | ⟨changed, further⟩
  · exact second.moves
  · rcases second.moves with rfl | ⟨changed', further'⟩
    · exact .inr ⟨changed, further⟩
    · exact .inr ⟨changed', further.trans further'⟩

theorem foldGrows {α : Type} {step : Growing → α → Growing} (grows : ∀ s x, Grows s (step s x)) (items : List α) (s : Growing) :
    Grows s (items.foldl step s) := by
  induction items generalizing s with
  | nil => exact .refl s
  | cons x rest ih => exact (grows s x).trans (ih (step s x))

/-- A stretch that leaves the pass unchanged did nothing at any of its items. -/
theorem foldStill {α : Type} {step : Growing → α → Growing} (grows : ∀ s x, Grows s (step s x)) {items : List α} {s : Growing}
    (still : (items.foldl step s).changed = false) (before : s.changed = false) :
    items.foldl step s = s ∧ ∀ x ∈ items, step s x = s := by
  induction items generalizing s with
  | nil => exact ⟨rfl, by simp⟩
  | cons x rest ih =>
    have same : step s x = s := by
      rcases (grows s x).moves with same | ⟨changed, -⟩
      · exact same
      · rcases (foldGrows grows rest (step s x)).moves with same' | ⟨changed', -⟩
        · rw [List.foldl_cons, same', changed] at still
          cases still
        · rw [List.foldl_cons, changed'] at still
          cases still
    rw [List.foldl_cons, same] at still ⊢
    obtain ⟨end', rest'⟩ := ih still before
    exact ⟨end', List.forall_mem_cons.mpr ⟨same, rest'⟩⟩

section Steps
variable (index : SourceIndex) (entry : DriveEntry) (orders : Orders) (withheld : Finset Source)

theorem takeGrantFacts (s : Growing) (given : Grant) (fact : Fact) :
    (takeGrant withheld s given).facts fact ↔ s.facts fact ∨ grantFacts withheld given fact := by
  cases fact <;> simp [takeGrant, Growing.facts, grantFacts]

theorem takeGrantsFacts (s : Growing) (all : List (Source × Node)) (fact : Fact) :
    (all.foldl (fun s given => takeGrant withheld s (grant index given.1 given.2)) s).facts fact ↔
      s.facts fact ∨ ∃ given ∈ all, grantFacts withheld (grant index given.1 given.2) fact := by
  induction all generalizing s with
  | nil => simp
  | cons given rest ih => rw [List.foldl_cons, ih, takeGrantFacts, List.exists_mem_cons_iff, or_assoc]

/-- Taking grants adds facts, and leaves what is spent, settled and said of the pass alone. -/
theorem takeGrantsKeep (s : Growing) (all : List (Source × Node)) :
    let s' := all.foldl (fun s given => takeGrant withheld s (grant index given.1 given.2)) s
    s'.spent = s.spent ∧ s'.settled = s.settled ∧ s'.changed = s.changed ∧ s.driven ⊆ s'.driven := by
  induction all generalizing s with
  | nil => exact ⟨rfl, rfl, rfl, Finset.Subset.refl _⟩
  | cons given rest ih =>
    obtain ⟨spent, settled, changed, driven⟩ := ih (takeGrant withheld s (grant index given.1 given.2))
    exact ⟨spent, settled, changed, Finset.subset_union_left.trans driven⟩

section Passes
variable (round pass : Nat)

theorem spendFacts {s : Growing} {sink : Slot} (unspent : sink ∉ s.spent) (fact : Fact) :
    (spend index orders withheld round pass s sink).facts fact ↔
      s.facts fact ∨ ∃ given ∈ handed index sink, grantFacts withheld (grant index given.1 given.2) fact := by
  have start : ∀ fact, { s with spent := insert sink s.spent, changed := true : Growing }.facts fact ↔ s.facts fact := by
    intro fact
    cases fact <;> rfl
  rw [spend, if_neg unspent, takeGrantsFacts, start]
  simp only [orders.argumentsAll]

theorem spendKeeps {s : Growing} {sink : Slot} (unspent : sink ∉ s.spent) :
    (spend index orders withheld round pass s sink).spent = insert sink s.spent ∧
      (spend index orders withheld round pass s sink).settled = s.settled ∧
      (spend index orders withheld round pass s sink).changed = true ∧
      s.driven ⊆ (spend index orders withheld round pass s sink).driven := by
  rw [spend, if_neg unspent]
  exact takeGrantsKeep index withheld { s with spent := insert sink s.spent, changed := true } _

theorem spendGrows (s : Growing) (sink : Slot) : Grows s (spend index orders withheld round pass s sink) := by
  by_cases unspent : sink ∈ s.spent
  · rw [spend, if_pos unspent]
    exact .refl s
  · have facts := spendFacts index orders withheld round pass unspent
    obtain ⟨spent, settled, changed, driven⟩ := spendKeeps index orders withheld round pass unspent
    refine ⟨fun fact holds => (facts fact).mpr (.inl holds), ?_, ?_, .inr ⟨changed, ?_⟩⟩
    · rw [spent]
      exact Finset.subset_insert _ _
    · rw [settled]
    · rw [spent, settled, Finset.card_insert_of_notMem unspent]
      have more := Finset.card_le_card driven
      omega

theorem settleFacts {s : Growing} {owner : Source} (unsettled : owner ∉ s.settled) (fact : Fact) :
    (settleOwner index entry withheld s owner).facts fact ↔
      s.facts fact ∨ Clear index entry withheld owner ∧ stepFacts (stepGrant index owner entry.stepMethod) fact := by
  rw [settleOwner, if_neg unsettled]
  dsimp only
  split
  · next kept =>
    have unclear : ¬Clear index entry withheld owner := fun clear => clear kept
    cases fact <;> simp [Growing.facts, unclear]
  · next clear =>
    have clear : Clear index entry withheld owner := clear
    cases fact <;> simp [Growing.facts, stepFacts, clear]

theorem settleKeeps {s : Growing} {owner : Source} (unsettled : owner ∉ s.settled) :
    (settleOwner index entry withheld s owner).settled = insert owner s.settled ∧
      (settleOwner index entry withheld s owner).spent = s.spent ∧
      (settleOwner index entry withheld s owner).changed = true ∧
      s.driven ⊆ (settleOwner index entry withheld s owner).driven := by
  rw [settleOwner, if_neg unsettled]
  dsimp only
  split
  · exact ⟨rfl, rfl, rfl, Finset.Subset.refl _⟩
  · exact ⟨rfl, rfl, rfl, Finset.subset_union_left⟩

theorem settleGrows (s : Growing) (owner : Source) : Grows s (settleOwner index entry withheld s owner) := by
  by_cases unsettled : owner ∈ s.settled
  · rw [settleOwner, if_pos unsettled]
    exact .refl s
  · have facts := settleFacts index entry withheld unsettled
    obtain ⟨settled, spent, changed, driven⟩ := settleKeeps index entry withheld unsettled
    refine ⟨fun fact holds => (facts fact).mpr (.inl holds), ?_, ?_, .inr ⟨changed, ?_⟩⟩
    · rw [spent]
    · rw [settled]
      exact Finset.subset_insert _ _
    · rw [spent, settled, Finset.card_insert_of_notMem unsettled]
      have more := Finset.card_le_card driven
      omega

theorem delegateFacts {s : Growing} {delegated : Source × Finset Source} {fact : Fact}
    (holds : (delegate withheld s delegated).facts fact) :
    s.facts fact ∨ delegated.1 ∉ withheld ∧ delegated.2 ⊆ s.driven ∧ fact = .driven delegated.1 := by
  unfold delegate at holds
  split at holds
  · next free =>
    cases fact with
    | driven function =>
      rcases Finset.mem_insert.mp holds with rfl | early
      · exact .inr ⟨free.2.1, free.2.2, rfl⟩
      · exact .inl early
    | _ => exact .inl holds
  · exact .inl holds

theorem delegateGrows (s : Growing) (delegated : Source × Finset Source) : Grows s (delegate withheld s delegated) := by
  unfold delegate
  split
  · next free =>
    refine ⟨?_, Finset.Subset.refl _, Finset.Subset.refl _, .inr ⟨rfl, ?_⟩⟩
    · intro fact holds
      cases fact with
      | driven function => exact Finset.mem_insert_of_mem holds
      | _ => exact holds
    · have more := Finset.card_insert_of_notMem free.1
      simp only
      omega
  · exact .refl s

end Passes

/-- What the growing has come to is derivable, and what it has dealt with has been taken in. -/
structure Sane (s : Growing) : Prop where
  sound : ∀ fact, s.facts fact → Derives (GrowthRule index entry withheld) fact
  entered : (entry.verifier, entry.stepParameter) ∈ s.sinks
  spent : ∀ slot ∈ s.spent, slot ∈ s.sinks ∧
    ∀ given ∈ handed index slot, ∀ fact, grantFacts withheld (grant index given.1 given.2) fact → s.facts fact
  settled : ∀ owner ∈ s.settled, owner ∈ s.grounded ∧
    (Clear index entry withheld owner → ∀ fact, stepFacts (stepGrant index owner entry.stepMethod) fact → s.facts fact)

variable {index entry orders withheld}

theorem Sane.grown {s s' : Growing} (sane : Sane index entry withheld s) (grows : Grows s s')
    (sound : ∀ fact, s'.facts fact → Derives (GrowthRule index entry withheld) fact)
    (spent : ∀ slot ∈ s'.spent, slot ∈ s.spent ∨ slot ∈ s'.sinks ∧
      ∀ given ∈ handed index slot, ∀ fact, grantFacts withheld (grant index given.1 given.2) fact → s'.facts fact)
    (settled : ∀ owner ∈ s'.settled, owner ∈ s.settled ∨ owner ∈ s'.grounded ∧
      (Clear index entry withheld owner → ∀ fact, stepFacts (stepGrant index owner entry.stepMethod) fact → s'.facts fact)) :
    Sane index entry withheld s' where
  sound := sound
  entered := grows.facts (.sink _) sane.entered
  spent slot member := by
    rcases spent slot member with early | now
    · obtain ⟨known, taken⟩ := sane.spent slot early
      exact ⟨grows.facts (.sink slot) known, fun given handed fact holds => grows.facts fact (taken given handed fact holds)⟩
    · exact now
  settled owner member := by
    rcases settled owner member with early | now
    · obtain ⟨known, taken⟩ := sane.settled owner early
      exact ⟨grows.facts (.grounded owner) known, fun clear fact holds => grows.facts fact (taken clear fact holds)⟩
    · exact now

theorem spendSane (round pass : Nat) {s : Growing} {sink : Slot} (sane : Sane index entry withheld s) (known : sink ∈ s.sinks) :
    Sane index entry withheld (spend index orders withheld round pass s sink) := by
  have grows := spendGrows index orders withheld round pass s sink
  by_cases unspent : sink ∈ s.spent
  · rw [spend, if_pos unspent]
    exact sane
  · have facts := spendFacts index orders withheld round pass unspent
    obtain ⟨spent, settled, -, -⟩ := spendKeeps index orders withheld round pass unspent
    refine sane.grown grows ?_ ?_ ?_
    · intro fact holds
      rcases (facts fact).mp holds with early | ⟨given, member, granted⟩
      · exact sane.sound fact early
      · refine .fire (.handed member) ?_ granted
        rintro _ rfl
        exact sane.sound (.sink sink) known
    · intro slot member
      rw [spent] at member
      rcases Finset.mem_insert.mp member with rfl | early
      · refine .inr ⟨grows.facts (.sink slot) known, fun given handed fact holds => ?_⟩
        exact (facts fact).mpr (.inr ⟨given, handed, holds⟩)
      · exact .inl early
    · intro owner member
      rw [settled] at member
      exact .inl member

theorem settleSane {s : Growing} {owner : Source} (sane : Sane index entry withheld s) (known : owner ∈ s.grounded) :
    Sane index entry withheld (settleOwner index entry withheld s owner) := by
  have grows := settleGrows index entry withheld s owner
  by_cases unsettled : owner ∈ s.settled
  · rw [settleOwner, if_pos unsettled]
    exact sane
  · have facts := settleFacts index entry withheld unsettled
    obtain ⟨settled, spent, -, -⟩ := settleKeeps index entry withheld unsettled
    refine sane.grown grows ?_ ?_ ?_
    · intro fact holds
      rcases (facts fact).mp holds with early | ⟨clear, granted⟩
      · exact sane.sound fact early
      · refine .fire (.step clear) ?_ granted
        rintro _ rfl
        exact sane.sound (.grounded owner) known
    · intro slot member
      rw [spent] at member
      exact .inl member
    · intro other member
      rw [settled] at member
      rcases Finset.mem_insert.mp member with rfl | early
      · refine .inr ⟨grows.facts (.grounded other) known, fun clear fact holds => ?_⟩
        exact (facts fact).mpr (.inr ⟨clear, holds⟩)
      · exact .inl early

theorem delegateSane {s : Growing} {delegated : Source × Finset Source} (sane : Sane index entry withheld s)
    (known : delegated ∈ delegations index) : Sane index entry withheld (delegate withheld s delegated) := by
  have grows := delegateGrows withheld s delegated
  have same : (delegate withheld s delegated).spent = s.spent ∧ (delegate withheld s delegated).settled = s.settled := by
    unfold delegate
    split <;> exact ⟨rfl, rfl⟩
  refine sane.grown grows ?_ ?_ ?_
  · intro fact holds
    rcases delegateFacts withheld holds with early | ⟨free, calling, rfl⟩
    · exact sane.sound fact early
    · refine .fire (.delegated known free) ?_ rfl
      rintro _ ⟨caller, member, rfl⟩
      exact sane.sound (.driven caller) (calling member)
  · intro slot member
    rw [same.1] at member
    exact .inl member
  · intro owner member
    rw [same.2] at member
    exact .inl member

theorem foldSane {α : Type} {step : Growing → α → Growing} (known : Growing → α → Prop) (grows : ∀ s x, Grows s (step s x))
    (later : ∀ s s' x, Grows s s' → known s x → known s' x)
    (keeps : ∀ s x, Sane index entry withheld s → known s x → Sane index entry withheld (step s x))
    {items : List α} {s : Growing} (sane : Sane index entry withheld s) (all : ∀ x ∈ items, known s x) :
    Sane index entry withheld (items.foldl step s) := by
  induction items generalizing s with
  | nil => exact sane
  | cons x rest ih =>
    refine ih (keeps s x sane (all x List.mem_cons_self)) fun y member => ?_
    exact later s _ y (grows s x) (all y (List.mem_cons_of_mem x member))

theorem Sane.marked {s : Growing} (sane : Sane index entry withheld s) (changed : Bool) :
    Sane index entry withheld { s with changed := changed } where
  sound fact holds := sane.sound fact (by cases fact <;> exact holds)
  entered := sane.entered
  spent slot member := ⟨(sane.spent slot member).1, fun given handed fact holds => by
    have known := (sane.spent slot member).2 given handed fact holds
    cases fact <;> exact known⟩
  settled owner member := ⟨(sane.settled owner member).1, fun clear fact holds => by
    have known := (sane.settled owner member).2 clear fact holds
    cases fact <;> exact known⟩

theorem passSane (round pass : Nat) {s : Growing} (sane : Sane index entry withheld s) :
    Sane index entry withheld (growPass index entry orders withheld round pass s) := by
  have first : Sane index entry withheld
      ((orders.sinks round pass s.sinks).foldl (spend index orders withheld round pass) { s with changed := false }) :=
    foldSane (fun s sink => sink ∈ s.sinks) (spendGrows index orders withheld round pass)
      (fun _ _ sink grows known => grows.facts (.sink sink) known) (fun _ _ sane known => spendSane round pass sane known)
      (sane.marked false) fun sink member => (orders.sinksAll _ _ _ _).mp member
  have second := foldSane (fun s owner => owner ∈ s.grounded) (settleGrows index entry withheld)
    (fun _ _ owner grows known => grows.facts (.grounded owner) known) (fun _ _ sane known => settleSane sane known)
    first fun owner member => (orders.groundedAll round pass _ owner).mp member
  exact foldSane (fun _ delegated => delegated ∈ delegations index) (delegateGrows withheld)
    (fun _ _ _ _ known => known) (fun _ _ sane known => delegateSane sane known)
    second fun delegated member => (orders.delegationsAll round pass _ delegated).mp member

theorem Grows.still {s s' : Growing} (grows : Grows s s') (unchanged : s'.changed = false) : s' = s := by
  rcases grows.moves with same | ⟨changed, -⟩
  · exact same
  · rw [unchanged] at changed
    cases changed

/-- A pass that changes nothing has nothing left to do: the growing keeps to every rule. -/
theorem passClosed {round pass : Nat} {s : Growing} (sane : Sane index entry withheld s)
    (unchanged : (growPass index entry orders withheld round pass s).changed = false) :
    Closed (GrowthRule index entry withheld) (growPass index entry orders withheld round pass s).facts := by
  let start : Growing := { s with changed := false }
  let afterSinks := (orders.sinks round pass s.sinks).foldl (spend index orders withheld round pass) start
  let afterOwners := (orders.grounded round pass afterSinks.grounded).foldl (settleOwner index entry withheld) afterSinks
  have spending : Grows start afterSinks := foldGrows (spendGrows index orders withheld round pass) _ start
  have settling : Grows afterSinks afterOwners := foldGrows (settleGrows index entry withheld) _ afterSinks
  have delegating : Grows afterOwners (growPass index entry orders withheld round pass s) :=
    foldGrows (delegateGrows withheld) _ afterOwners
  have last := delegating.still unchanged
  have ownersStill : afterOwners.changed = false := by rw [← last]; exact unchanged
  have middle := settling.still ownersStill
  have sinksStill : afterSinks.changed = false := by rw [← middle]; exact ownersStill
  have early : afterSinks = start := spending.still sinksStill
  have spent : ∀ slot ∈ orders.sinks round pass s.sinks, spend index orders withheld round pass start slot = start :=
    (foldStill (spendGrows index orders withheld round pass) sinksStill rfl).2
  have settled : ∀ owner ∈ orders.grounded round pass afterSinks.grounded,
      settleOwner index entry withheld afterSinks owner = afterSinks :=
    (foldStill (settleGrows index entry withheld) ownersStill sinksStill).2
  have delegated : ∀ d ∈ orders.delegations round pass (delegations index), delegate withheld afterOwners d = afterOwners :=
    (foldStill (delegateGrows withheld) unchanged ownersStill).2
  have same : growPass index entry orders withheld round pass s = start := last.trans (middle.trans early)
  have sane' : Sane index entry withheld start := sane.marked false
  rw [middle, early] at delegated
  rw [early] at settled
  rw [same]
  rintro rule (_ | ⟨member⟩ | ⟨clear⟩ | ⟨member, free⟩) met fact concluded
  · obtain rfl : fact = _ := concluded
    exact sane'.entered
  · next slot given =>
    have known : slot ∈ s.sinks := met (.sink slot) rfl
    have still := spent slot ((orders.sinksAll _ _ _ _).mpr known)
    have done : slot ∈ start.spent := by
      by_contra unspent
      obtain ⟨-, -, changed, -⟩ := spendKeeps index orders withheld round pass unspent
      rw [still] at changed
      cases changed
    exact (sane'.spent slot done).2 given member fact concluded
  · next owner =>
    have known : owner ∈ start.grounded := met (.grounded owner) rfl
    have still := settled owner ((orders.groundedAll _ _ _ _).mpr known)
    have done : owner ∈ start.settled := by
      by_contra unsettled
      obtain ⟨-, -, changed, -⟩ := settleKeeps index entry withheld unsettled
      rw [still] at changed
      cases changed
    exact (sane'.settled owner done).2 clear fact concluded
  · next holder calling =>
    obtain rfl : fact = _ := concluded
    have still := delegated (holder, calling) ((orders.delegationsAll _ _ _ _).mpr member)
    by_contra undriven
    have all : calling ⊆ start.driven := fun caller calls => met (.driven caller) ⟨caller, calls, rfl⟩
    have changed : (delegate withheld start (holder, calling)).changed = true := by
      rw [delegate, if_pos ⟨undriven, free, all⟩]
    rw [still] at changed
    cases changed

theorem passGrows (round pass : Nat) (s : Growing) :
    Grows { s with changed := false } (growPass index entry orders withheld round pass s) := by
  let start : Growing := { s with changed := false }
  let afterSinks := (orders.sinks round pass s.sinks).foldl (spend index orders withheld round pass) start
  let afterOwners := (orders.grounded round pass afterSinks.grounded).foldl (settleOwner index entry withheld) afterSinks
  have spending : Grows start afterSinks := foldGrows (spendGrows index orders withheld round pass) _ start
  have settling : Grows afterSinks afterOwners := foldGrows (settleGrows index entry withheld) _ afterSinks
  have delegating : Grows afterOwners (growPass index entry orders withheld round pass s) :=
    foldGrows (delegateGrows withheld) _ afterOwners
  exact (spending.trans settling).trans delegating

theorem passProgress {round pass : Nat} {s : Growing}
    (changed : (growPass index entry orders withheld round pass s).changed = true) :
    s.size < (growPass index entry orders withheld round pass s).size := by
  rcases (@passGrows index entry orders withheld round pass s).moves with same | ⟨-, further⟩
  · have unchanged : (growPass index entry orders withheld round pass s).changed = false := congrArg Growing.changed same
    rw [unchanged] at changed
    cases changed
  · exact further

variable (index entry)

/-- What a growth can ground, make a sink, drive and hand on, whatever is withheld. -/
def allGrounded : Finset Source := (handedArguments index).biUnion fun at' => (grant index at'.2.1 at'.2.2).grounded

def allSinks : Finset Slot :=
  insert (entry.verifier, entry.stepParameter)
    (((handedArguments index).biUnion fun at' => (grant index at'.2.1 at'.2.2).sinks) ∪
      (allGrounded index).biUnion fun owner => (stepGrant index owner entry.stepMethod).sinks)

def allDriven : Finset Source :=
  ((handedArguments index).biUnion fun at' => (grant index at'.2.1 at'.2.2).appliers.image (·.1)) ∪
    ((allGrounded index).biUnion fun owner => (stepGrant index owner entry.stepMethod).driven) ∪ index.functions

def allHanded : Finset Source :=
  (handedArguments index).biUnion fun at' => (grant index at'.2.1 at'.2.2).handed.image (·.1)

def Possible : Fact → Prop
  | .sink slot => slot ∈ allSinks index entry
  | .grounded owner => owner ∈ allGrounded index
  | .driven function | .applier function _ | .step function => function ∈ allDriven index entry
  | .handed applier _ _ => applier ∈ allHanded index

variable {index entry}

theorem handedMember {slot : Slot} {given : Source × Node} (member : given ∈ handed index slot) :
    (slot, given) ∈ handedArguments index := by
  obtain ⟨⟨slot', given'⟩, found, rfl⟩ := Finset.mem_image.mp member
  obtain ⟨known, rfl⟩ := Finset.mem_filter.mp found
  exact known

theorem delegationsMember {holder : Source} {calling : Finset Source} (member : (holder, calling) ∈ delegations index) :
    holder ∈ index.functions ∧ delegation index holder = some calling := by
  obtain ⟨other, known, found⟩ := Finset.mem_biUnion.mp member
  obtain ⟨calling', has, same⟩ := Finset.mem_image.mp found
  obtain ⟨rfl, rfl⟩ := Prod.mk.inj same
  exact ⟨known, Option.mem_toFinset.mp has⟩

theorem grantPossible {slot : Slot} {given : Source × Node} (known : (slot, given) ∈ handedArguments index) {fact : Fact}
    (concluded : grantFacts withheld (grant index given.1 given.2) fact) : Possible index entry fact := by
  cases fact with
  | sink sink =>
    simp only [Possible, allSinks, Finset.mem_insert, Finset.mem_union, Finset.mem_biUnion]
    exact .inr (.inl ⟨_, known, concluded⟩)
  | grounded owner =>
    simp only [Possible, allGrounded, Finset.mem_biUnion]
    exact ⟨_, known, concluded⟩
  | driven function =>
    obtain ⟨mention, has, -⟩ := concluded
    simp only [Possible, allDriven, Finset.mem_union, Finset.mem_biUnion, Finset.mem_image]
    exact .inl (.inl ⟨_, known, _, has, rfl⟩)
  | applier function mention =>
    simp only [Possible, allDriven, Finset.mem_union, Finset.mem_biUnion, Finset.mem_image]
    exact .inl (.inl ⟨_, known, _, concluded.1, rfl⟩)
  | handed applier owner parameter =>
    simp only [Possible, allHanded, Finset.mem_biUnion, Finset.mem_image]
    exact ⟨_, known, _, concluded.1, rfl⟩
  | step function => exact concluded.elim

theorem stepPossible {owner : Source} (known : owner ∈ allGrounded index) {fact : Fact}
    (concluded : stepFacts (stepGrant index owner entry.stepMethod) fact) : Possible index entry fact := by
  cases fact with
  | sink slot =>
    simp only [Possible, allSinks, Finset.mem_insert, Finset.mem_union, Finset.mem_biUnion]
    exact .inr (.inr ⟨_, known, concluded⟩)
  | driven function | step function =>
    simp only [Possible, allDriven, Finset.mem_union, Finset.mem_biUnion]
    exact .inl (.inr ⟨_, known, concluded⟩)
  | grounded owner | applier function mention | handed applier owner parameter => exact concluded.elim

theorem rulesPossible : Closed (GrowthRule index entry withheld) (Possible index entry) := by
  rintro rule (_ | ⟨member⟩ | ⟨clear⟩ | ⟨member, free⟩) met fact concluded
  · obtain rfl : fact = _ := concluded
    exact Finset.mem_insert_self _ _
  · exact grantPossible (handedMember member) concluded
  · exact stepPossible (met (.grounded _) rfl) concluded
  · obtain rfl : fact = _ := concluded
    exact Finset.mem_union_right _ (delegationsMember member).1

variable (index entry) in
def growthBound : Nat := (allSinks index entry).card + (allGrounded index).card + (allDriven index entry).card

theorem Sane.bounded {s : Growing} (sane : Sane index entry withheld s) : s.size ≤ growthBound index entry := by
  have possible (fact : Fact) (holds : s.facts fact) : Possible index entry fact :=
    derivesWithin rulesPossible (sane.sound fact holds)
  have spent : s.spent ⊆ allSinks index entry := fun slot member => possible (.sink slot) (sane.spent slot member).1
  have settled : s.settled ⊆ allGrounded index := fun owner member => possible (.grounded owner) (sane.settled owner member).1
  have driven : s.driven ⊆ allDriven index entry := fun function member => possible (.driven function) member
  have sinks := Finset.card_le_card spent
  have owners := Finset.card_le_card settled
  have functions := Finset.card_le_card driven
  unfold Growing.size growthBound
  omega

theorem startSane : Sane index entry withheld (growStart entry) where
  sound fact holds := by
    cases fact with
    | sink slot =>
      obtain rfl := Finset.mem_singleton.mp holds
      exact .fire .entry (fun _ none' => none'.elim) rfl
    | _ => cases holds
  entered := Finset.mem_singleton_self _
  spent _ member := by cases member
  settled _ member := by cases member

/-- The growing ends once every pass that changed something has been taken. -/
theorem growFromEnds (round : Nat) {fuel pass : Nat} {s : Growing} (sane : Sane index entry withheld s)
    (enough : growthBound index entry < s.size + fuel) : (growFrom index entry orders withheld round fuel pass s).isSome := by
  induction fuel generalizing pass s with
  | zero =>
    have bound := sane.bounded
    omega
  | succ fuel ih =>
    rw [growFrom]
    split
    · next changed =>
      have further := passProgress changed
      exact ih (passSane round pass sane) (by omega)
    · rfl

/-- However it got there, the growing ends in exactly the facts its rules derive. -/
theorem growFromExact {round fuel pass : Nat} {s s' : Growing} (sane : Sane index entry withheld s)
    (grown : growFrom index entry orders withheld round fuel pass s = some s') (fact : Fact) :
    s'.facts fact ↔ Derives (GrowthRule index entry withheld) fact := by
  induction fuel generalizing pass s with
  | zero => cases grown
  | succ fuel ih =>
    have sane' : Sane index entry withheld (growPass index entry orders withheld round pass s) := passSane round pass sane
    rw [growFrom] at grown
    split at grown
    · exact ih sane' grown
    · next unchanged =>
      obtain rfl := Option.some.inj grown
      exact derivesExactly sane'.sound (passClosed sane (by simpa using unchanged)) fact

end Steps
end Kodezart.WriteAdoption
