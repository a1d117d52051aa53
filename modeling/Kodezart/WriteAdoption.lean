import Kodezart.TextLines

/-! Which functions the verifier drives: grants grown from the entry over a source index, and the
grants withdrawn because something outside a write-back uses them. -/
namespace Kodezart.WriteAdoption
open TextLines

structure Source where
  module : Text
  function : Text
  deriving DecidableEq

def Source.within (owner : Source) (name : Text) : Source := ⟨owner.module, owner.function ++ '.' :: name⟩

/-- The name a definition is mentioned under: the last part of its address. -/
def Source.name (source : Source) : Text := (source.function.reverse.takeWhile (· ≠ '.')).reverse

structure DriveEntry where
  verifier : Source
  step : Source
  stepParameter : Text
  stepMethod : Text

/-- An expression of the parsed tree, by its identity. -/
abbrev Node := Nat

inductive Shape where
  | name (id : Text) (load : Bool)
  | member (value : Node) (attr : Text) (load : Bool)
  | call (func : Node)
  | tuple (elts : List Node)
  | other
  deriving DecidableEq

/-- The lookups of the index, each of them finite. -/
structure SourceIndex where
  functions : Finset Source
  functionName : Source → Text
  -- a function's assignments, wherever in it they stand
  assigns : Source → List (List Node × Node)
  classes : Finset Source
  bases : Source → List Node
  methods : Source → List Text
  shape : Node → Shape
  directCalls : Source → List Node
  references : Text → List (Option Source × Node)
  callOf : Node → Option Node
  nested : Source → Text → Option Source
  resolve : Source → Node → Option Source
  arguments : Source → Node → List (Option Text × Node)
  parameterNames : Source → Finset Text
  bindings : Source → List (Text × List Node)
  typeOf : Source → Node → Option Source
  annotated : Text → Node → Option Source

abbrev Slot := Source × Text

def baseDepth : Nat := 10
def ownReceivers : List Text := ["self".toList, "cls".toList]

section Lookups
variable (index : SourceIndex)

def handedArguments : Finset (Slot × Source × Node) :=
  index.functions.biUnion fun holder =>
    ((index.directCalls holder).flatMap fun call =>
      match index.resolve holder call with
      | none => []
      | some target => (index.arguments target call).filterMap fun passed =>
          passed.1.map fun name => ((target, name), holder, passed.2)).toFinset

def handed (slot : Slot) : Finset (Source × Node) := ((handedArguments index).filter (·.1 = slot)).image (·.2)

def resolvedCallers (target : Source) : Finset Source :=
  index.functions.filter fun holder => ∃ call ∈ index.directCalls holder, index.resolve holder call = some target

def ancestorsFrom : Nat → Finset Source → List Source → Finset Source
  | 0, reached, _ => reached
  | rounds + 1, reached, frontier =>
    let bases := frontier.flatMap fun current => (index.bases current).filterMap (index.annotated current.module)
    let next := bases.foldl (fun found base =>
      if base ∈ found.1 then found else (insert base found.1, found.2 ++ [base])) (reached, [])
    if next.2 = [] then next.1 else ancestorsFrom rounds next.1 next.2

def ancestors (owner : Source) : Finset Source := (ancestorsFrom index baseDepth ∅ [owner]).erase owner

/-- The methods that subclasses define over `method`. -/
def overrides (method : Source) : Finset Source :=
  index.classes.biUnion fun owner =>
    (((index.methods owner).filter fun item =>
      ∃ ancestor ∈ ancestors index owner, ancestor.within item = method ∧ method ∈ index.functions).map owner.within).toFinset

/-- The callers a function's mentions name; none when a mention does not resolve. -/
def tallyCallers (holder : Source) : List (Option Source × Node) → Finset Source → Option (Finset Source)
  | [], callers => some callers
  | (none, _) :: _, _ => none
  | (some caller, reference) :: rest, callers =>
    match (index.callOf reference).bind (index.resolve caller) with
    | none => none
    | some target =>
      if target = holder ∨ holder ∈ overrides index target then tallyCallers holder rest (insert caller callers)
      else tallyCallers holder rest callers

def delegation (holder : Source) : Option (Finset Source) :=
  if "__".toList.isPrefixOf (index.functionName holder) then none
  else (tallyCallers index holder (index.references (index.functionName holder)) ∅).filter (· ≠ ∅)

def delegations : Finset (Source × Finset Source) :=
  index.functions.biUnion fun holder => (delegation index holder).toFinset.image fun callers => (holder, callers)

def paired (target value : Node) : List (Node × Node) :=
  match index.shape target, index.shape value with
  | .tuple targets, .tuple values => if targets.length = values.length then targets.zip values else [(target, value)]
  | _, _ => [(target, value)]

/-- Every target of a function's assignments beside its value, element by element. -/
def assigned (initializer : Source) : List (Node × Node) :=
  (index.assigns initializer).flatMap fun statement => statement.1.flatMap fun target => paired index target statement.2

def heldParameters (initializer : Source) (field : Text) (owner : Source) : Finset Slot :=
  ((assigned index initializer).filterMap fun pair =>
    match index.shape pair.1, index.shape pair.2 with
    | .member _ attr _, .name id _ => if attr = field then some (owner, id) else none
    | _, _ => none).toFinset

def holdingAttributes (initializer : Source) (parameter : Text) : Finset Text :=
  ((assigned index initializer).filterMap fun pair =>
    match index.shape pair.1, index.shape pair.2 with
    | .member value attr _, .name id _ =>
      match index.shape value with
      | .name receiver _ => if receiver ∈ ownReceivers ∧ id = parameter then some attr else none
      | _ => none
    | _, _ => none).toFinset

end Lookups

/-- What becomes driven, grounded or a sink once one sink is reached. -/
structure Grant where
  grounded : Finset Source
  driven : Finset Source
  sinks : Finset Slot
  appliers : Finset (Source × Node)
  handed : Finset (Source × Source × Text)

def Grant.empty : Grant := ⟨∅, ∅, ∅, ∅, ∅⟩

section Grants
variable (index : SourceIndex)

/-- The local functions a grounded constructor is handed, with the parameter of each. -/
def localsHanded (holder target : Source) (call : Node) : List (Source × Node × Option Text) :=
  (index.arguments target call).filterMap fun passed =>
    match index.shape passed.2 with
    | .name id _ => (index.nested holder id).map fun local' => (local', passed.2, passed.1)
    | _ => none

def boundTo (holder : Source) (name : Text) : List Node :=
  (((index.bindings holder).find? (·.1 = name)).map (·.2)).getD []

/-- What one expression grants, and the expressions it stands for. -/
def visit (holder : Source) (grant : Grant) (expression : Node) : Grant × List Node :=
  match index.shape expression with
  | .call _ =>
    match index.resolve holder expression with
    | none => (grant, [])
    | some target =>
      if target ∉ index.classes then (grant, [])
      else
        let locals := localsHanded index holder target expression
        ({ grant with
            grounded := insert target grant.grounded
            driven := grant.driven ∪ (locals.map (·.1)).toFinset
            appliers := grant.appliers ∪ (locals.map fun found => (found.1, found.2.1)).toFinset
            handed := grant.handed ∪
              (locals.filterMap fun found => found.2.2.map fun parameter => (found.1, target, parameter)).toFinset }, [])
  | .name id _ =>
    if id ∈ index.parameterNames holder then ({ grant with sinks := insert (holder, id) grant.sinks }, [])
    else (grant, boundTo index holder id)
  | _ => (grant, [])

-- the newest pending expression stands first
def grantLoop (holder : Source) : Nat → List Node → Finset Node → Grant → Option Grant
  | _, [], _, grant => some grant
  | 0, _ :: _, _, _ => none
  | fuel + 1, expression :: pending, seen, grant =>
    if expression ∈ seen then grantLoop holder fuel pending seen grant
    else
      let visited := visit index holder grant expression
      grantLoop holder fuel (visited.2.reverse ++ pending) (insert expression seen) visited.1

def boundNodes (holder : Source) : List Node := (index.bindings holder).flatMap (·.2)

def grantFuel (holder : Source) : Nat :=
  ((boundNodes index holder).length + 1) * (boundNodes index holder).length + 1

theorem boundToShort (holder : Source) (name : Text) : (boundTo index holder name).length ≤ (boundNodes index holder).length := by
  unfold boundTo
  cases found : (index.bindings holder).find? (·.1 = name) with
  | none => simp
  | some binding =>
    have member := List.mem_of_find?_eq_some found
    obtain ⟨early, late, split⟩ := List.append_of_mem member
    simp [boundNodes, split]
    omega

theorem boundToKnown (holder : Source) (name : Text) : ∀ node ∈ boundTo index holder name, node ∈ boundNodes index holder := by
  intro node member
  unfold boundTo at member
  cases found : (index.bindings holder).find? (·.1 = name) with
  | none => simp [found] at member
  | some binding =>
    rw [found] at member
    exact List.mem_flatMap.mpr ⟨binding, List.mem_of_find?_eq_some found, member⟩

theorem visitStands (holder : Source) (grant : Grant) (expression : Node) :
    (visit index holder grant expression).2.length ≤ (boundNodes index holder).length ∧
      ∀ node ∈ (visit index holder grant expression).2, node ∈ boundNodes index holder := by
  unfold visit
  split
  · split
    · simp
    · split <;> simp
  · split
    · simp
    · exact ⟨boundToShort index holder _, boundToKnown index holder _⟩
  · simp

/-- Every expression is taken up once, so the loop ends. -/
theorem grantLoopEnds (holder : Source) {known : Finset Node} (bound : ∀ node ∈ boundNodes index holder, node ∈ known)
    {fuel : Nat} {pending : List Node} {seen : Finset Node} (within : ∀ node ∈ pending, node ∈ known)
    (enough : (known \ seen).card * (boundNodes index holder).length + pending.length ≤ fuel) (grant : Grant) :
    (grantLoop index holder fuel pending seen grant).isSome := by
  induction fuel generalizing pending seen grant with
  | zero =>
    have none' : pending = [] := List.length_eq_zero_iff.mp (by omega)
    subst none'
    rw [grantLoop]
    rfl
  | succ fuel ih =>
    cases pending with
    | nil =>
      rw [grantLoop]
      rfl
    | cons expression pending =>
      rw [List.length_cons] at enough
      have later : ∀ node ∈ pending, node ∈ known := fun node member => within node (List.mem_cons_of_mem _ member)
      rw [grantLoop]
      split
      · exact ih later (by omega) grant
      · next unseen =>
        obtain ⟨short, stands⟩ := visitStands index holder grant expression
        apply ih
        · intro node member
          rcases List.mem_append.mp member with pushed | early
          · exact bound node (stands node (List.mem_reverse.mp pushed))
          · exact later node early
        · have fewer : (known \ seen).card = (known \ insert expression seen).card + 1 := by
            rw [Finset.sdiff_insert, Finset.card_erase_of_mem, Nat.sub_add_cancel]
            · exact Finset.card_pos.mpr ⟨expression, by simp [unseen, within]⟩
            · simp [unseen, within]
          rw [fewer, Nat.add_mul, Nat.one_mul] at enough
          rw [List.length_append, List.length_reverse]
          omega

theorem grantSettles (holder : Source) (argument : Node) :
    (grantLoop index holder (grantFuel index holder) [argument] ∅ .empty).isSome := by
  apply grantLoopEnds index holder (fun node member => Finset.mem_insert_of_mem (List.mem_toFinset.mpr member))
  · intro node member
    rw [List.mem_singleton.mp member]
    exact Finset.mem_insert_self argument (boundNodes index holder).toFinset
  · rw [Finset.sdiff_empty, grantFuel, List.length_singleton]
    have few : (insert argument (boundNodes index holder).toFinset).card ≤ (boundNodes index holder).length + 1 :=
      (Finset.card_insert_le _ _).trans (Nat.add_le_add_right (List.toFinset_card_le _) 1)
    exact Nat.add_le_add_right (Nat.mul_le_mul_right _ few) 1

/-- What handing `argument` to a sink says about the tree around it. -/
def grant (holder : Source) (argument : Node) : Grant :=
  (grantLoop index holder (grantFuel index holder) [argument] ∅ .empty).get (grantSettles index holder argument)

/-- The attributes of the step's own receiver whose step method a step member calls. -/
def forwardedFields (address : Source) (stepMethod : Text) : List Text :=
  (index.directCalls address).filterMap fun call =>
    match index.shape call with
    | .call func =>
      match index.shape func with
      | .member value attr _ =>
        match index.shape value with
        | .member receiver field _ =>
          match index.shape receiver with
          | .name id _ => if attr = stepMethod ∧ id ∈ ownReceivers then some field else none
          | _ => none
        | _ => none
      | _ => none
    | _ => none

def stepGrant (owner : Source) (stepMethod : Text) : Grant :=
  let address := owner.within stepMethod
  let initializer := owner.within "__init__".toList
  if address ∉ index.functions then .empty
  else
    { Grant.empty with
      driven := {address}
      sinks := if initializer ∉ index.functions then ∅
        else (forwardedFields index address stepMethod).toFinset.biUnion fun field => heldParameters index initializer field owner }

def fieldReaders (handed : Finset (Source × Text)) : Finset Source :=
  handed.biUnion fun slot =>
    let initializer := slot.1.within "__init__".toList
    let fields := if initializer ∈ index.functions then holdingAttributes index initializer slot.2 else {slot.2}
    fields.biUnion fun field => ((index.references field).filterMap fun mention =>
      match mention.1, index.shape mention.2 with
      | some holder, .member value _ load => if load ∧ index.typeOf holder value = some slot.1 then some holder else none
      | _, _ => none).toFinset

end Grants

/-- One fixed point of the grants: what is driven, and by which grant. -/
structure Growth where
  driven : Finset Source
  appliers : Finset (Source × Node)
  steps : Finset Source
  handed : Finset (Source × Source × Text)
  deriving DecidableEq

/-- The variables of `_grow`; the mappings are kept as the pairs they hold. -/
structure Growing extends Growth where
  sinks : Finset Slot
  grounded : Finset Source
  spent : Finset Slot
  settled : Finset Source
  changed : Bool

/-- In which order the sets and mappings are enumerated, in each round and pass. -/
structure Orders where
  sinks : Nat → Nat → Finset Slot → List Slot
  arguments : Nat → Nat → Slot → Finset (Source × Node) → List (Source × Node)
  grounded : Nat → Nat → Finset Source → List Source
  delegations : Nat → Nat → Finset (Source × Finset Source) → List (Source × Finset Source)
  sinksAll : ∀ round pass all slot, slot ∈ sinks round pass all ↔ slot ∈ all
  argumentsAll : ∀ round pass slot all handed, handed ∈ arguments round pass slot all ↔ handed ∈ all
  groundedAll : ∀ round pass all owner, owner ∈ grounded round pass all ↔ owner ∈ all
  delegationsAll : ∀ round pass all delegated, delegated ∈ delegations round pass all ↔ delegated ∈ all

section Growth
variable (index : SourceIndex) (entry : DriveEntry) (orders : Orders) (withheld : Finset Source)

def takeGrant (s : Growing) (given : Grant) : Growing :=
  let appliers := given.appliers.filter (·.1 ∉ withheld)
  { s with
    grounded := s.grounded ∪ given.grounded
    sinks := s.sinks ∪ given.sinks
    appliers := s.appliers ∪ appliers
    driven := s.driven ∪ appliers.image (·.1)
    handed := s.handed ∪ given.handed.filter (·.1 ∉ withheld) }

def spend (round pass : Nat) (s : Growing) (sink : Slot) : Growing :=
  if sink ∈ s.spent then s
  else (orders.arguments round pass sink (handed index sink)).foldl
    (fun s given => takeGrant withheld s (grant index given.1 given.2)) { s with spent := insert sink s.spent, changed := true }

def settleOwner (s : Growing) (owner : Source) : Growing :=
  if owner ∈ s.settled then s
  else
    let s := { s with settled := insert owner s.settled, changed := true }
    let step := stepGrant index owner entry.stepMethod
    if (step.driven ∩ withheld).Nonempty then s
    else { s with driven := s.driven ∪ step.driven, steps := s.steps ∪ step.driven, sinks := s.sinks ∪ step.sinks }

def delegate (s : Growing) (delegated : Source × Finset Source) : Growing :=
  if delegated.1 ∉ s.driven ∧ delegated.1 ∉ withheld ∧ delegated.2 ⊆ s.driven then
    { s with driven := insert delegated.1 s.driven, changed := true }
  else s

def growPass (round pass : Nat) (s : Growing) : Growing :=
  let s := { s with changed := false }
  let s := (orders.sinks round pass s.sinks).foldl (spend index orders withheld round pass) s
  let s := (orders.grounded round pass s.grounded).foldl (settleOwner index entry withheld) s
  (orders.delegations round pass (delegations index)).foldl (delegate withheld) s

def growFrom (round : Nat) : Nat → Nat → Growing → Option Growing
  | 0, _, _ => none
  | fuel + 1, pass, s =>
    let s := growPass index entry orders withheld round pass s
    if s.changed then growFrom round fuel (pass + 1) s else some s

def growStart : Growing where
  driven := ∅
  appliers := ∅
  steps := ∅
  handed := ∅
  sinks := {(entry.verifier, entry.stepParameter)}
  grounded := ∅
  spent := ∅
  settled := ∅
  changed := true

/-- Grows the grants from the entry, granting nothing in `withheld`. -/
def grow (round fuel : Nat) : Option Growth :=
  (growFrom index entry orders withheld round fuel 0 (growStart entry)).map (·.toGrowth)

end Growth

section Census
variable (index : SourceIndex) (entry : DriveEntry)

def protocolMember : Source := entry.step.within entry.stepMethod

def weighed (target : Source) : Finset Source :=
  if target = protocolMember entry then (resolvedCallers index target).erase entry.verifier else resolvedCallers index target

/-- The functions a granted one may be called as. -/
def reached (growth : Growth) (granted : Source) : Finset Source :=
  let bases := index.functions.filter fun base => granted ∈ overrides index base
  let targets := insert granted bases
  if granted ∈ growth.steps then insert (protocolMember entry) targets else targets

/-- A mention of an applier that the grant cannot vouch for. -/
def loose (growth : Growth) (applier : Source) (mention : Option Source × Node) : Bool :=
  match mention.1, index.shape mention.2 with
  | some holder, .name _ _ =>
    index.nested holder applier.name = some applier && (applier, mention.2) ∉ growth.appliers &&
      (index.callOf mention.2).bind (index.resolve holder) ≠ some applier
  | _, _ => false

def appliersOf (growth : Growth) : Finset Source := growth.appliers.image (·.1)

def withdrawn (growth : Growth) : Finset Source :=
  ((appliersOf growth ∪ growth.steps).filter fun granted =>
    ¬∀ target ∈ reached index entry growth granted, weighed index entry target ⊆ growth.driven) ∪
  ((growth.handed.image (·.1)).filter fun applier =>
    ¬fieldReaders index ((growth.handed.filter (·.1 = applier)).image (·.2)) ⊆ growth.driven) ∪
  (appliersOf growth).filter fun applier => ∃ mention ∈ index.references applier.name, loose index growth applier mention

/-- Grows again without what was withdrawn until nothing more is. -/
def drivenFrom (orders : Orders) (passes : Nat) : Nat → Nat → Finset Source → Option Growth
  | 0, _, _ => none
  | fuel + 1, round, withheld => do
    let growth ← grow index entry orders withheld round passes
    let gone := withdrawn index entry growth
    if gone ⊆ withheld then some growth else drivenFrom orders passes fuel (round + 1) (withheld ∪ gone)

def drivenFunctions (orders : Orders) (fuel : Nat) : Option (Finset Source) :=
  (drivenFrom index entry orders fuel fuel 0 ∅).map (·.driven)

end Census
end Kodezart.WriteAdoption
