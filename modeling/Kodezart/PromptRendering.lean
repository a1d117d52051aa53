import Kodezart.TemplateParsing

/-! Rendering a prompt template: paths resolved innermost scope first, and how far the renderer
and the checker of free names read a template alike. -/
namespace Kodezart.PromptRendering
open TextLines

/-- What the renderer asks of a bound object. -/
structure Objects (V : Type) where
  isNone : V → Bool
  mapping : V → Option (Text → Option V)
  getattr : V → Text → Option V
  sequence : V → Option (List V)
  number : Nat → V
  str : V → Text
  typeText : V → Text

abbrev Bindings (V : Type) := Text → Option V

structure Scope (V : Type) where
  names : Bindings V
  item : Option V

section Renderer
variable {V : Type} (objects : Objects V)

def member (container : V) (name : Text) : Option V :=
  match objects.mapping container with
  | some entries => entries name
  | none => objects.getattr container name

def Scope.read (scope : Scope V) (name : Text) : Option V :=
  match scope.names name with
  | some value => some value
  | none => scope.item.bind (member objects · name)

-- The scopes stand innermost first.
def resolve (path : Text) (scopes : List (Scope V)) : Option V :=
  (scopes.findSome? (·.read objects (head path))).bind fun current =>
    (parts path).foldlM (member objects) current

/-- A resolved value that is neither absent nor none. -/
def present (path : Text) (scopes : List (Scope V)) : Option V :=
  (resolve objects path scopes).filter fun value => !objects.isNone value

def frame (index : Nat) (item : V) : Scope V where
  names name :=
    if name = indexName then some (objects.number index)
    else if name = itemName then some item
    else none
  item := some item

def noteMissing (missing : List Text) (path : Text) : List Text :=
  if path ∈ missing then missing else missing ++ [path]

def notList (path : Text) (value : V) : PromptRenderError :=
  ⟨braced ("\x23each ".toList ++ path) ++ " requires a list, got ".toList ++ objects.typeText value, []⟩

def renderItems (render : Scope V → List Text → Except PromptRenderError (Text × List Text)) :
    Nat → List V → List Text → Except PromptRenderError (Text × List Text)
  | _, [], missing => .ok ([], missing)
  | index, item :: rest, missing => do
    let (text, missing) ← render (frame objects index item) missing
    let (more, missing) ← renderItems render (index + 1) rest missing
    .ok (text ++ more, missing)

mutual
def renderNode : Node → List (Scope V) → List Text → Except PromptRenderError (Text × List Text)
  | .text text, _, missing => .ok (text, missing)
  | .name path, scopes, missing =>
    match present objects path scopes with
    | some value => .ok (objects.str value, missing)
    | none => .ok ([], noteMissing missing path)
  | .block .presence path body, scopes, missing =>
    match present objects path scopes with
    | some _ => renderNodes body scopes missing
    | none => .ok ([], missing)
  | .block .each path body, scopes, missing =>
    match present objects path scopes with
    | none => .ok ([], noteMissing missing path)
    | some value =>
      match objects.sequence value with
      | none => .error (notList objects path value)
      | some items =>
        renderItems objects (fun scope missing => renderNodes body (scope :: scopes) missing) 1 items missing

def renderNodes : List Node → List (Scope V) → List Text → Except PromptRenderError (Text × List Text)
  | [], _, missing => .ok ([], missing)
  | node :: rest, scopes, missing => do
    let (text, missing) ← renderNode node scopes missing
    let (more, missing) ← renderNodes rest scopes missing
    .ok (text ++ more, missing)
end

def bindingScope (bindings : Bindings V) : Scope V := ⟨bindings, none⟩

def unbound (missing : List Text) : PromptRenderError :=
  ⟨"Unbound template placeholders: ".toList ++ List.intercalate ", ".toList missing, missing⟩

def renderTemplate (body : Text) (bindings : Bindings V) : Except PromptRenderError Text := do
  let nodes ← parse body
  let (rendered, missing) ← renderNodes objects nodes [bindingScope bindings] []
  if missing = [] then .ok rendered else .error (unbound missing)

/-- The scopes inside the each-frames of `frames`, innermost first. -/
def scopesUnder (bindings : Bindings V) (frames : List (V × Nat)) : List (Scope V) :=
  frames.map (fun current => frame objects current.2 current.1) ++ [bindingScope bindings]

/-- The places of a template that rendering it reads, with the frames they are read in. -/
inductive Reads (bindings : Bindings V) : List Node → List (V × Nat) → Node → List (V × Nat) → Prop where
  | here {nodes node} (frames) (member : node ∈ nodes) : Reads bindings nodes frames node frames
  | shown {nodes frames path body node inner value} (member : .block .presence path body ∈ nodes)
      (bound : present objects path (scopesUnder objects bindings frames) = some value)
      (deeper : Reads bindings body frames node inner) : Reads bindings nodes frames node inner
  | iterated {nodes frames path body node inner value items current}
      (member : .block .each path body ∈ nodes)
      (bound : present objects path (scopesUnder objects bindings frames) = some value)
      (listed : objects.sequence value = some items) (item : current ∈ items.zipIdx 1)
      (deeper : Reads bindings body (current :: frames) node inner) : Reads bindings nodes frames node inner

def follow (path : Text) (current : V) : Option V := (parts path).foldlM (member objects) current

variable {objects} {bindings other : Bindings V}

theorem resolveUnder (path : Text) (frames : List (V × Nat)) :
    resolve objects path (scopesUnder objects bindings frames) =
      ((frames.findSome? fun current => (frame objects current.2 current.1).read objects (head path)).or
        (bindings (head path))).bind (follow objects path) := by
  have base : (bindingScope bindings).read objects (head path) = bindings (head path) := by
    simp only [Scope.read, bindingScope, Option.bind_none]
    split
    · next found => rw [found]
    · next absent => rw [absent]
  simp only [resolve, scopesUnder, List.findSome?_append, List.findSome?_map, List.findSome?_cons, List.findSome?_nil, base]
  cases bindings (head path) <;> rfl

theorem frameSupplies {path : Text} {frames : List (V × Nat)} (supplied : isLoopLocal path (!frames.isEmpty) = true) :
    (frames.findSome? fun current => (frame objects current.2 current.1).read objects (head path)).isSome := by
  cases frames with
  | nil => simp [isLoopLocal] at supplied
  | cons current outer =>
    have rooted : head path = itemName ∨ head path = indexName := by simpa [isLoopLocal] using supplied
    rcases rooted with item | index
    · simp [Scope.read, frame, item, itemName, indexName]
    · simp [Scope.read, frame, index]

theorem frameReads {path : Text} {current : V × Nat} (loose : isLoopLocal path true = false) :
    (frame objects current.2 current.1).read objects (head path) = member objects current.1 (head path) := by
  have unrooted : head path ≠ itemName ∧ head path ≠ indexName := by simpa [isLoopLocal] using loose
  simp [Scope.read, frame, unrooted]

/-- A free path is read from the innermost item that has a member by its head, and from the
bindings when none has. -/
theorem resolveFree {path : Text} {frames : List (V × Nat)} (loose : isLoopLocal path (!frames.isEmpty) = false) :
    resolve objects path (scopesUnder objects bindings frames) =
      ((frames.findSome? fun current => member objects current.1 (head path)).or (bindings (head path))).bind
        (follow objects path) := by
  rw [resolveUnder]
  cases frames with
  | nil => rfl
  | cons current outer =>
    have reads : (fun current : V × Nat => (frame objects current.2 current.1).read objects (head path)) =
        fun current => member objects current.1 (head path) := by
      funext current
      exact frameReads loose
    rw [reads]

theorem resolveSame {path : Text} {frames : List (V × Nat)}
    (same : isLoopLocal path (!frames.isEmpty) = false → bindings (head path) = other (head path)) :
    resolve objects path (scopesUnder objects bindings frames) = resolve objects path (scopesUnder objects other frames) := by
  rw [resolveUnder, resolveUnder]
  cases supplied : isLoopLocal path (!frames.isEmpty) with
  | true =>
    obtain ⟨value, found⟩ := Option.isSome_iff_exists.mp (@frameSupplies V objects path frames supplied)
    rw [found, Option.some_or, Option.some_or]
  | false => rw [same supplied]

theorem presentSame {path : Text} {frames : List (V × Nat)}
    (same : isLoopLocal path (!frames.isEmpty) = false → bindings (head path) = other (head path)) :
    present objects path (scopesUnder objects bindings frames) = present objects path (scopesUnder objects other frames) := by
  rw [present, resolveSame same, present]

theorem renderItemsSame {render render' : Scope V → List Text → Except PromptRenderError (Text × List Text)}
    (same : ∀ index item missing, render (frame objects index item) missing = render' (frame objects index item) missing)
    (index : Nat) (items : List V) (missing : List Text) :
    renderItems objects render index items missing = renderItems objects render' index items missing := by
  induction items generalizing index missing with
  | nil => rfl
  | cons item rest ih =>
    rw [renderItems, renderItems, same]
    simp only [ih]

/-- Two bindings agree on what a template reads free. -/
def AgreeOn (bindings other : Bindings V) (nodes : List Node) (inEach : Bool) : Prop :=
  ∀ path, FreeIn nodes inEach path → bindings (head path) = other (head path)

mutual
theorem renderNodeSame (frames : List (V × Nat)) (missing : List Text) : ∀ node,
    AgreeOn bindings other [node] (!frames.isEmpty) →
      renderNode objects node (scopesUnder objects bindings frames) missing =
        renderNode objects node (scopesUnder objects other frames) missing
  | .text _, _ => by rw [renderNode, renderNode]
  | .name path, agree => by
    have same := agree path ∘ freeHere (List.mem_singleton_self (Node.name path)) rfl
    rw [renderNode, renderNode, presentSame same]
  | .block .presence path body, agree => by
    have same := agree path ∘ freeHere (List.mem_singleton_self (Node.block .presence path body)) rfl
    have deeper : AgreeOn bindings other body (!frames.isEmpty) := by
      intro path free
      apply agree path
      apply FreeIn.inside (List.mem_singleton_self (Node.block .presence _ body))
      simpa using free
    rw [renderNode, renderNode, presentSame same, renderNodesSame frames missing body deeper]
  | .block .each path body, agree => by
    have same := agree path ∘ freeHere (List.mem_singleton_self (Node.block .each path body)) rfl
    have deeper : ∀ current : V × Nat, AgreeOn bindings other body (!(current :: frames).isEmpty) := by
      intro current path free
      apply agree path
      apply FreeIn.inside (List.mem_singleton_self (Node.block .each _ body))
      simpa using free
    have items := @renderItemsSame V objects
      (fun scope missing => renderNodes objects body (scope :: scopesUnder objects bindings frames) missing)
      (fun scope missing => renderNodes objects body (scope :: scopesUnder objects other frames) missing)
      fun index item missing => renderNodesSame ((item, index) :: frames) missing body (deeper (item, index))
    simp only [renderNode, presentSame same, items]

theorem renderNodesSame (frames : List (V × Nat)) (missing : List Text) : ∀ nodes,
    AgreeOn bindings other nodes (!frames.isEmpty) →
      renderNodes objects nodes (scopesUnder objects bindings frames) missing =
        renderNodes objects nodes (scopesUnder objects other frames) missing
  | [], _ => by rw [renderNodes, renderNodes]
  | node :: rest, agree => by
    have first : AgreeOn bindings other [node] (!frames.isEmpty) := fun path free => agree path (free.mono (by simp))
    have later : AgreeOn bindings other rest (!frames.isEmpty) := fun path free =>
      agree path (free.mono fun node member => List.mem_cons_of_mem _ member)
    simp only [renderNodes, renderNodeSame frames missing node first, fun missing => renderNodesSame frames missing rest later]
end

theorem Reads.stands {nodes : List Node} {frames inner : List (V × Nat)} {node : Node}
    (reads : Reads objects bindings nodes frames node inner) : Stands nodes (!frames.isEmpty) node (!inner.isEmpty) := by
  induction reads with
  | here frames member => exact .here _ member
  | shown member bound deeper ih => exact .inside member (by simpa using ih)
  | iterated member bound listed item deeper ih => exact .inside member (by simpa using ih)

theorem Reads.mono {nodes more : List Node} {frames inner : List (V × Nat)} {node : Node}
    (reads : Reads objects bindings nodes frames node inner) (sub : ∀ node ∈ nodes, node ∈ more) :
    Reads objects bindings more frames node inner := by
  cases reads with
  | here frames member => exact .here frames (sub _ member)
  | shown member bound deeper => exact .shown (sub _ member) bound deeper
  | iterated member bound listed item deeper => exact .iterated (sub _ member) bound listed item deeper

/-- A place where rendering does not find what it needs: a value, and a list to iterate. -/
def Fails (objects : Objects V) (bindings : Bindings V) : Node → List (V × Nat) → Prop
  | .text _, _ => False
  | .name path, frames => present objects path (scopesUnder objects bindings frames) = none
  | .block .presence _ _, _ => False
  | .block .each path _, frames =>
    ∀ value, present objects path (scopesUnder objects bindings frames) = some value → objects.sequence value = none

/-- Some place read below `nodes` fails, and reads `path`. -/
def FailsAt (objects : Objects V) (bindings : Bindings V) (nodes : List Node) (frames : List (V × Nat)) (path : Text) : Prop :=
  ∃ node inner, Reads objects bindings nodes frames node inner ∧ node.path? = some path ∧ Fails objects bindings node inner

theorem FailsAt.mono {nodes more : List Node} {frames : List (V × Nat)} {path : Text}
    (fails : FailsAt objects bindings nodes frames path) (sub : ∀ node ∈ nodes, node ∈ more) :
    FailsAt objects bindings more frames path := by
  obtain ⟨node, inner, reads, named, failed⟩ := fails
  exact ⟨node, inner, reads.mono sub, named, failed⟩

/-- What a rendering may end with, given which paths can fail: more missing paths, or a refused list. -/
def Accounted (objects : Objects V) (fails : Text → Prop) (missing : List Text) :
    Except PromptRenderError (Text × List Text) → Prop
  | .ok (_, noted) => ∀ path ∈ noted, path ∈ missing ∨ fails path
  | .error e => ∃ path value, e = notList objects path value ∧ fails path

theorem Accounted.mono {fails more : Text → Prop} {missing : List Text} {result : Except PromptRenderError (Text × List Text)}
    (accounted : Accounted objects fails missing result) (sub : ∀ path, fails path → more path) :
    Accounted objects more missing result := by
  cases result with
  | ok rendered => exact fun path member => (accounted path member).imp_right (sub path)
  | error e =>
    obtain ⟨path, value, same, failed⟩ := accounted
    exact ⟨path, value, same, sub path failed⟩

theorem Accounted.bind {fails : Text → Prop} {missing : List Text} {first : Except PromptRenderError (Text × List Text)}
    {next : Text × List Text → Except PromptRenderError (Text × List Text)} (accounted : Accounted objects fails missing first)
    (continued : ∀ text noted, Accounted objects fails noted (next (text, noted))) :
    Accounted objects fails missing (first >>= next) := by
  cases first with
  | error e => exact accounted
  | ok rendered =>
    obtain ⟨text, noted⟩ := rendered
    have after := continued text noted
    show Accounted objects fails missing (next (text, noted))
    cases result : next (text, noted) with
    | error e => rwa [result] at after
    | ok rest =>
      rw [result] at after
      intro path member
      rcases after path member with early | failed
      · exact accounted path early
      · exact .inr failed

theorem accountedText {fails : Text → Prop} {missing noted : List Text} (text : Text)
    (known : ∀ path ∈ noted, path ∈ missing ∨ fails path) : Accounted objects fails missing (.ok (text, noted)) := known

theorem accountedMissing {fails : Text → Prop} {missing : List Text} {path : Text} (failed : fails path) :
    ∀ other ∈ noteMissing missing path, other ∈ missing ∨ fails other := by
  intro other member
  unfold noteMissing at member
  split at member
  · exact .inl member
  · rcases List.mem_append.mp member with early | last
    · exact .inl early
    · obtain rfl := List.mem_singleton.mp last
      exact .inr failed

theorem renderItemsAccounted {fails : Text → Prop} {render : Scope V → List Text → Except PromptRenderError (Text × List Text)}
    {index : Nat} {items : List V} (each : ∀ current ∈ items.zipIdx index, ∀ missing,
      Accounted objects fails missing (render (frame objects current.2 current.1) missing)) (missing : List Text) :
    Accounted objects fails missing (renderItems objects render index items missing) := by
  induction items generalizing index missing with
  | nil => exact accountedText [] fun path member => .inl member
  | cons item rest ih =>
    rw [renderItems]
    refine (each (item, index) (by simp) missing).bind fun text noted => ?_
    have later := @ih (index + 1) (fun current member => each current (by simp [member])) noted
    refine later.bind fun more noted => accountedText _ fun path member => .inl member

mutual
theorem renderNodeAccounted (frames : List (V × Nat)) : ∀ node missing,
    Accounted objects (FailsAt objects bindings [node] frames) missing
      (renderNode objects node (scopesUnder objects bindings frames) missing)
  | .text text, missing => by
    rw [renderNode]
    exact accountedText text fun path member => .inl member
  | .name path, missing => by
    rw [renderNode]
    split
    · exact accountedText _ fun path member => .inl member
    · next absent =>
      apply accountedText
      exact accountedMissing ⟨.name path, frames, .here frames (List.mem_singleton_self _), rfl, absent⟩
  | .block .presence path body, missing => by
    rw [renderNode]
    split
    · next value bound =>
      refine (renderNodesAccounted frames body missing).mono fun other fails => ?_
      obtain ⟨node, inner, reads, named, failed⟩ := fails
      exact ⟨node, inner, .shown (List.mem_singleton_self _) bound reads, named, failed⟩
    · exact accountedText _ fun path member => .inl member
  | .block .each path body, missing => by
    rw [renderNode]
    split
    · next absent =>
      have failed : Fails objects bindings (.block .each path body) frames := by
        intro value bound
        rw [absent] at bound
        cases bound
      apply accountedText
      exact accountedMissing ⟨.block .each path body, frames, .here frames (List.mem_singleton_self _), rfl, failed⟩
    · next value bound =>
      split
      · next unlisted =>
        have failed : Fails objects bindings (.block .each path body) frames := by
          intro other bound'
          obtain rfl := Option.some.inj (bound.symm.trans bound')
          exact unlisted
        exact ⟨path, value, rfl, .block .each path body, frames, .here frames (List.mem_singleton_self _), rfl, failed⟩
      · next items listed =>
        apply renderItemsAccounted
        intro current member missing
        refine (renderNodesAccounted (current :: frames) body missing).mono fun other fails => ?_
        obtain ⟨node, inner, reads, named, failed⟩ := fails
        exact ⟨node, inner, .iterated (List.mem_singleton_self _) bound listed member reads, named, failed⟩

theorem renderNodesAccounted (frames : List (V × Nat)) : ∀ nodes missing,
    Accounted objects (FailsAt objects bindings nodes frames) missing
      (renderNodes objects nodes (scopesUnder objects bindings frames) missing)
  | [], missing => by
    rw [renderNodes]
    exact accountedText [] fun path member => .inl member
  | node :: rest, missing => by
    rw [renderNodes]
    have first := (renderNodeAccounted frames node missing).mono fun path (fails : FailsAt objects bindings [node] frames path) =>
      @FailsAt.mono V objects bindings _ (node :: rest) _ _ fails (by simp)
    refine first.bind fun text noted => ?_
    have later := (renderNodesAccounted frames rest noted).mono fun path (fails : FailsAt objects bindings rest frames path) =>
      @FailsAt.mono V objects bindings _ (node :: rest) _ _ fails fun other member => List.mem_cons_of_mem _ member
    exact later.bind fun more noted => accountedText _ fun path member => .inl member
end

/-- Every free name has a value in the bindings alone, and a list where the template iterates it. -/
structure Supplied (objects : Objects V) (bindings : Bindings V) (nodes : List Node) (names : Finset Text) : Prop where
  bound : ∀ path ∈ names, (present objects path [bindingScope bindings]).isSome
  listed : ∀ path body flag, Stands nodes false (.block .each path body) flag → isLoopLocal path flag = false →
    ∀ value, present objects path [bindingScope bindings] = some value → (objects.sequence value).isSome

/-- An item being iterated has a member by the name of the path's head. -/
def Covered (objects : Objects V) (inner : List (V × Nat)) (path : Text) : Prop :=
  ∃ current ∈ inner, (member objects current.1 (head path)).isSome

/-- Somewhere the path is read as a loop's own, or under an item that covers it. -/
def Astray (objects : Objects V) (bindings : Bindings V) (nodes : List Node) (path : Text) : Prop :=
  ∃ node inner, Reads objects bindings nodes [] node inner ∧ node.path? = some path ∧
    (isLoopLocal path (!inner.isEmpty) = true ∨ Covered objects inner path)

theorem resolveUncovered {path : Text} {inner : List (V × Nat)} (loose : isLoopLocal path (!inner.isEmpty) = false)
    (clear : ¬Covered objects inner path) :
    resolve objects path (scopesUnder objects bindings inner) = resolve objects path [bindingScope bindings] := by
  have silent : (inner.findSome? fun current => member objects current.1 (head path)) = none := by
    rw [List.findSome?_eq_none_iff]
    intro current member'
    cases found : member objects current.1 (head path) with
    | none => rfl
    | some value => exact absurd ⟨current, member', by rw [found]; rfl⟩ clear
  rw [resolveFree loose, silent]
  exact (@resolveUnder V objects bindings path []).symm

theorem uncoveredBound {nodes : List Node} {names : Finset Text} {node : Node} {inner : List (V × Nat)} {path : Text}
    (collected : ∀ path, FreeIn nodes false path → path ∈ names) (supplied : Supplied objects bindings nodes names)
    (reads : Reads objects bindings nodes [] node inner) (named : node.path? = some path)
    (loose : isLoopLocal path (!inner.isEmpty) = false) (clear : ¬Covered objects inner path) :
    (∃ value, present objects path [bindingScope bindings] = some value ∧
      present objects path (scopesUnder objects bindings inner) = some value) ∧ ¬Fails objects bindings node inner := by
  have stands := reads.stands
  obtain ⟨value, bound⟩ := Option.isSome_iff_exists.mp (supplied.bound path (collected path ⟨node, _, stands, named, loose⟩))
  have same : present objects path (scopesUnder objects bindings inner) = some value := by
    rw [present, resolveUncovered loose clear]
    exact bound
  refine ⟨⟨value, bound, same⟩, ?_⟩
  intro fails
  match node, named with
  | .name _, rfl => simp [Fails, same] at fails
  | .block .presence _ _, rfl => exact fails
  | .block .each _ _, rfl =>
    have listed := supplied.listed _ _ _ stands loose value bound
    rw [fails value same] at listed
    cases listed

theorem failsAstray {nodes : List Node} {names : Finset Text} {path : Text}
    (collected : ∀ path, FreeIn nodes false path → path ∈ names) (supplied : Supplied objects bindings nodes names)
    (fails : FailsAt objects bindings nodes [] path) : Astray objects bindings nodes path := by
  obtain ⟨node, inner, reads, named, failed⟩ := fails
  refine ⟨node, inner, reads, named, ?_⟩
  cases loose : isLoopLocal path (!inner.isEmpty) with
  | true => exact .inl rfl
  | false =>
    refine .inr (Classical.byContradiction fun clear => ?_)
    exact (uncoveredBound collected supplied reads named loose clear).2 failed

/-- What the renderer and the checker agree on: the bindings matter at the heads of the free
names only, and with those supplied a free path is the bindings' own wherever no item covers it. -/
theorem checkerAgrees (objects : Objects V) {body : Text} {nodes : List Node} (accepted : parse body = .ok nodes) :
    ∃ names, freeBindingNames body = .ok names ∧
      (∀ bindings other : Bindings V, (∀ path ∈ names, bindings (head path) = other (head path)) →
        renderTemplate objects body bindings = renderTemplate objects body other) ∧
      ∀ bindings, Supplied objects bindings nodes names →
        (∀ node inner path, Reads objects bindings nodes [] node inner → node.path? = some path →
          isLoopLocal path (!inner.isEmpty) = false →
          resolve objects path (scopesUnder objects bindings inner) =
            ((inner.findSome? fun current => member objects current.1 (head path)).or (bindings (head path))).bind
              (follow objects path) ∧
          (¬Covered objects inner path → ∃ value, present objects path [bindingScope bindings] = some value ∧
            present objects path (scopesUnder objects bindings inner) = some value ∧
            (node = .name path → ∀ missing, renderNode objects node (scopesUnder objects bindings inner) missing =
              .ok (objects.str value, missing)))) ∧
        ∀ e, renderTemplate objects body bindings = .error e →
          (∃ path value, e = notList objects path value ∧ Astray objects bindings nodes path) ∨
            e = unbound e.missing ∧ ∀ path ∈ e.missing, Astray objects bindings nodes path := by
  have collected : ∀ path, FreeIn nodes false path → path ∈ collectFree ∅ false nodes := fun path free => freeCollected free ∅
  have rendered : ∀ bindings : Bindings V, renderTemplate objects body bindings =
      (renderNodes objects nodes (scopesUnder objects bindings []) [] >>= fun (text, missing) =>
        if missing = [] then .ok text else .error (unbound missing)) := by
    intro bindings
    rw [renderTemplate, accepted]
    rfl
  refine ⟨collectFree ∅ false nodes, by rw [freeBindingNames, accepted]; rfl, ?_, ?_⟩
  · intro bindings other agree
    rw [rendered, rendered, @renderNodesSame V objects bindings other [] [] nodes fun path free => agree path (collected path free)]
  · intro bindings supplied
    refine ⟨?_, ?_⟩
    · intro node inner path reads named loose
      refine ⟨resolveFree loose, fun clear => ?_⟩
      obtain ⟨⟨value, bound, same⟩, -⟩ := uncoveredBound collected supplied reads named loose clear
      refine ⟨value, bound, same, ?_⟩
      rintro rfl missing
      rw [renderNode, same]
    · intro e refused
      have accounted := (@renderNodesAccounted V objects bindings [] nodes []).mono
        fun path fails => failsAstray collected supplied fails
      rw [rendered] at refused
      cases result : renderNodes objects nodes (scopesUnder objects bindings []) [] with
      | error e' =>
        rw [result] at accounted refused
        obtain rfl : e' = e := Except.error.inj refused
        exact .inl accounted
      | ok end_ =>
        obtain ⟨text, missing⟩ := end_
        rw [result] at accounted refused
        have last : (if missing = [] then (.ok text : Except PromptRenderError Text) else .error (unbound missing)) = .error e :=
          refused
        split at last
        · cases last
        · obtain rfl := Except.error.inj last
          refine .inr ⟨rfl, fun path member => ?_⟩
          exact (accounted path member).resolve_left (by simp)

end Renderer

inductive Datum where
  | null
  | number (n : Nat)
  | text (text : String)
  | list (items : List Datum)
  | row (entries : List (Text × Datum))

def plainObjects : Objects Datum where
  isNone
    | .null => true
    | _ => false
  mapping
    | .row entries => some fun name => (entries.find? (·.1 = name)).map (·.2)
    | _ => none
  getattr _ _ := none
  sequence
    | .list items => some items
    | _ => none
  number := .number
  str
    | .text text => text.toList
    | .number n => (toString n).toList
    | _ => []
  typeText _ := "<class 'object'>".toList

def rowsTemplate : Text := "\x7b\x7b\x23each rows\x7d\x7d\x7b\x7bname\x7d\x7d\x7b\x7b/each\x7d\x7d".toList

def rowsNodes : List Node := [.block .each "rows".toList [.name "name".toList]]

def rowsBindings (rows : List Datum) : Bindings Datum := fun name =>
  if name = "rows".toList then some (.list rows)
  else if name = "name".toList then some (.text "lane")
  else none

theorem rowsParsed : parse rowsTemplate = .ok rowsNodes := rfl

theorem rowsStands {path : Text} {body : List Node} {flag : Bool} (stands : Stands rowsNodes false (.block .each path body) flag) :
    path = "rows".toList := by
  cases stands with
  | here inEach member => simp_all [rowsNodes]
  | inside member deeper =>
    obtain ⟨rfl, rfl, rfl⟩ : _ = BlockKind.each ∧ _ = "rows".toList ∧ _ = [Node.name "name".toList] := by
      simpa [rowsNodes] using member
    cases deeper with
    | here inEach member => simp at member
    | inside member deeper => simp at member

theorem rowsSupplied (rows : List Datum) :
    Supplied plainObjects (rowsBindings rows) rowsNodes {"name".toList, "rows".toList} where
  bound path member := by
    rcases Finset.mem_insert.mp member with rfl | last
    · rfl
    · obtain rfl := Finset.mem_singleton.mp last
      rfl
  listed path body flag stands _ value bound := by
    obtain rfl := rowsStands stands
    obtain rfl : Datum.list rows = value := Option.some.inj bound
    rfl

theorem rowsChecked : freeBindingNames rowsTemplate = .ok {"name".toList, "rows".toList} := by
  rw [freeBindingNames, rowsParsed]
  rfl

theorem rowsRead (item : Datum) :
    Reads plainObjects (rowsBindings [item]) rowsNodes [] (.name "name".toList) [(item, 1)] := by
  apply Reads.iterated (List.mem_singleton_self _) rfl rfl (List.mem_singleton_self _)
  exact .here _ (List.mem_singleton_self _)

theorem rowsOutsideItem :
    renderTemplate plainObjects rowsTemplate (rowsBindings [.row [("number".toList, .number 1)]]) =
        renderTemplate plainObjects rowsTemplate (fun name =>
          if name = "unread".toList then some .null else rowsBindings [.row [("number".toList, .number 1)]] name) ∧
      ∃ value, present plainObjects "name".toList [bindingScope (rowsBindings [.row [("number".toList, .number 1)]])] = some value ∧
        present plainObjects "name".toList (scopesUnder plainObjects (rowsBindings [.row [("number".toList, .number 1)]])
          [(.row [("number".toList, .number 1)], 1)]) = some value := by
  obtain ⟨names, checked, same, supplied⟩ := checkerAgrees plainObjects rowsParsed
  obtain rfl := Except.ok.inj (rowsChecked.symm.trans checked)
  refine ⟨same _ _ ?_, ?_⟩
  · intro path member
    rcases Finset.mem_insert.mp member with rfl | last
    · rfl
    · obtain rfl := Finset.mem_singleton.mp last
      rfl
  · obtain ⟨reads, -⟩ := supplied _ (rowsSupplied [.row [("number".toList, .number 1)]])
    have clear : ¬Covered plainObjects [(Datum.row [("number".toList, .number 1)], 1)] "name".toList := by
      rintro ⟨current, member', covers⟩
      obtain rfl := List.mem_singleton.mp member'
      cases covers
    obtain ⟨value, bound, inside, -⟩ := (reads _ _ _ (rowsRead _) rfl rfl).2 clear
    exact ⟨value, bound, inside⟩

/-- A free path stands in an each-block, and the item's member is rendered in place of the bindings' value. -/
theorem itemMemberRead :
    freeBindingNames rowsTemplate = .ok {"name".toList, "rows".toList} ∧
      Supplied plainObjects (rowsBindings [.row [("name".toList, .text "kept")]]) rowsNodes {"name".toList, "rows".toList} ∧
      isLoopLocal "name".toList true = false ∧
      renderTemplate plainObjects rowsTemplate (rowsBindings [.row [("name".toList, .text "kept")]]) = .ok "kept".toList ∧
      resolve plainObjects "name".toList [bindingScope (rowsBindings [.row [("name".toList, .text "kept")]])] = some (.text "lane") := by
  refine ⟨rowsChecked, rowsSupplied _, rfl, ?_, rfl⟩
  rw [renderTemplate, rowsParsed]
  rfl

end Kodezart.PromptRendering
