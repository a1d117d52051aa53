import Mathlib
import Kodezart.AcyclicOrder

/-! What the traversal says of a graph it refuses: the nodes it names close a cycle. On a
closed graph it refuses the cyclic ones, and orders every other. -/
namespace Kodezart.AcyclicOrder
open Precedence

variable {α : Type*} [DecidableEq α]

/-- Every node that the graph names as a prerequisite is a node of it. -/
def Closed (graph : Graph α) : Prop := ∀ e ∈ graph, ∀ s ∈ e.2, s ∈ graph.keys

instance (graph : Graph α) : Decidable (Closed graph) := by unfold Closed; infer_instance

/-- The traversal stops short of an order in one way only. -/
def Halts (graph : Graph α) (halt : Halt α) : Prop := ∃ issueKeys, halt = .cycle issueKeys ∧ Round (successors graph) issueKeys

theorem closedSuccessors {graph : Graph α} (closed : Closed graph) {node s : α} (edge : s ∈ successors graph node) :
    s ∈ graph.keys := by
  unfold successors at edge
  cases found : graph.get? node with
  | none => simp [found] at edge
  | some prerequisites =>
    rw [found] at edge
    exact closed _ (Dict.getMember found) s edge

/-- Outward along the frames, each node is a prerequisite of the next. -/
theorem trailChain {graph : Graph α} {done waiting : List α} {frames : List (Frame α)} (trail : Trail graph done waiting frames) :
    (frames.map Frame.node).IsChain fun a b => a ∈ successors graph b := by
  induction frames generalizing waiting with
  | nil => exact .nil
  | cons frame outer ih =>
    refine List.isChain_cons.mpr ⟨?_, ih trail.2⟩
    intro node first
    cases outer with
    | nil => cases first
    | cons next outer =>
      cases first
      obtain ⟨⟨examined, shape, -⟩, -⟩ := trail.2
      simp [shape]

/-- The path from a node still open round to it again. -/
theorem cycleRound {graph : Graph α} {frame : Frame α} {outer : List (Frame α)} {child : α}
    (chain : ((frame :: outer).map Frame.node).IsChain fun a b => a ∈ successors graph b)
    (edge : child ∈ successors graph frame.node) (inside : child ∈ (frame :: outer).map Frame.node) :
    Round (successors graph) (cyclePath (frame :: outer) child) := by
  have split : ∃ after, (frame :: outer).map Frame.node =
      (((frame :: outer).map Frame.node).takeWhile (· ≠ child) ++ [child]) ++ after := by
    generalize (frame :: outer).map Frame.node = nodes at inside
    induction nodes with
    | nil => simp at inside
    | cons node nodes ih =>
      by_cases same : node = child
      · exact ⟨nodes, by simp [same]⟩
      · obtain ⟨after, rest⟩ := ih ((List.mem_cons.mp inside).resolve_left (Ne.symm same))
        exact ⟨after, by simpa [same] using rest⟩
  obtain ⟨after, split⟩ := split
  unfold cyclePath
  generalize ((frame :: outer).map Frame.node).takeWhile (· ≠ child) = before at split
  refine ⟨List.cons_ne_nil _ _, ?_⟩
  have back : child :: before.reverse = (before ++ [child]).reverse := by simp
  have along : (before ++ [child]).IsChain fun a b => a ∈ successors graph b := chain.prefix ⟨after, split.symm⟩
  rw [back]
  refine List.isChain_append.mpr ⟨List.isChain_reverse.mpr along, by simp, ?_⟩
  intro last isLast first isFirst
  have innermost : last = frame.node := by
    have head : (before ++ [child]).head? = some frame.node := by
      have whole := congrArg List.head? split
      rw [List.head?_append_of_ne_nil _ (by simp)] at whole
      exact whole.symm
    rw [List.getLast?_reverse, head] at isLast
    exact (Option.some.inj isLast).symm
  have start : first = child := by simpa [back.symm] using isFirst.symm
  rw [innermost, start]
  exact edge

theorem stepHalts {graph : Graph α} {walk : Walk α} {frame : Frame α} {outer : List (Frame α)} {halt : Halt α}
    (closed : Closed graph) (top : walk.frames = frame :: outer) (sound : Sound graph walk)
    (stopped : step graph walk frame outer = .error halt) : Halts graph halt := by
  have trail := sound.trail
  rw [top] at trail
  have pendingSuccessor (child : α) (inside : child ∈ frame.pending) : child ∈ successors graph frame.node := by
    obtain ⟨⟨examined, shape, -⟩, -⟩ := trail
    rw [shape]
    exact List.mem_append_right _ inside
  unfold step at stopped
  split at stopped
  · cases stopped
  · rename_i child rest pending
    have edge := pendingSuccessor child (by simp [pending])
    split at stopped
    · rename_i active
      cases stopped
      refine ⟨_, rfl, ?_⟩
      have inside := (sound.active child).mp active
      rw [top] at inside ⊢
      exact cycleRound (trailChain trail) edge inside
    · split at stopped
      · cases stopped
      · split at stopped
        · rename_i unknown
          obtain ⟨prerequisites, known⟩ := (Dict.getSome graph child).mp (closedSuccessors closed edge)
          cases unknown.symm.trans known
        · cases stopped

theorem drainHalts {graph : Graph α} {fuel : Nat} {walk : Walk α} {halt : Halt α} (closed : Closed graph)
    (sound : Sound graph walk) (enough : remaining graph walk < fuel) (stopped : drain graph fuel walk = .error halt) :
    Halts graph halt := by
  induction fuel generalizing walk with
  | zero => omega
  | succ fuel ih =>
    unfold drain at stopped
    split at stopped
    · cases stopped
    · rename_i frame outer top
      cases moved : step graph walk frame outer with
      | error first =>
        simp only [moved, bind, Except.bind] at stopped
        cases stopped
        exact stepHalts closed top sound moved
      | ok next =>
        simp only [moved, bind, Except.bind] at stopped
        have less := stepDecreases top moved
        exact ih (stepSound top sound moved) (by omega) stopped

theorem visitRootsHalts {graph roots : Graph α} {visited : Finset α} {ordered : List α} {halt : Halt α}
    (closed : Closed graph) (entries : ∀ e ∈ roots, graph.get? e.1 = some e.2)
    (settled : Settled (successors graph) ordered) (same : ∀ x, x ∈ visited ↔ x ∈ ordered)
    (stopped : visitRoots graph roots visited ordered = .error halt) : Halts graph halt := by
  induction roots generalizing visited ordered with
  | nil => cases stopped
  | cons root roots ih =>
    obtain ⟨root, prerequisites⟩ := root
    have entry := entries _ List.mem_cons_self
    have others : ∀ e ∈ roots, graph.get? e.1 = some e.2 := fun e member => entries e (List.mem_cons_of_mem _ member)
    simp only [visitRoots] at stopped
    split at stopped
    · exact ih others settled same stopped
    · rename_i unvisited
      cases walked : visitRoot graph visited ordered root prerequisites with
      | error first =>
        simp only [walked, bind, Except.bind] at stopped
        cases stopped
        exact drainHalts closed (rootSound entry settled same unvisited) (Nat.lt_succ_self _) walked
      | ok walk =>
        simp only [walked, bind, Except.bind] at stopped
        obtain ⟨settled', same', -, -⟩ := visitRootSound entry settled same unvisited walked
        exact ih others settled' same' stopped

section Known

/-- Only nodes of the graph are opened. -/
def Known (graph : Graph α) (walk : Walk α) : Prop :=
  ∀ x, x ∈ walk.ordered ∨ x ∈ walk.frames.map Frame.node → x ∈ graph.keys

theorem stepKnown {graph : Graph α} {walk walk' : Walk α} {frame : Frame α} {outer : List (Frame α)}
    (top : walk.frames = frame :: outer) (known : Known graph walk) (moved : step graph walk frame outer = .ok walk') :
    Known graph walk' := by
  intro x member
  rw [Known, top] at known
  rcases stepCases moved with ⟨_, rfl⟩ | ⟨child, rest, _, _, ⟨_, rfl⟩ | ⟨_, prerequisites, found, rfl⟩⟩
  · refine known x ?_
    simp only [List.map_cons, List.mem_cons, List.mem_append] at member ⊢
    tauto
  · exact known x member
  · simp only [List.map_cons, List.mem_cons] at member known
    rcases member with done | rfl | inside
    · exact known x (.inl done)
    · exact (Dict.getSome graph x).mpr ⟨prerequisites, found⟩
    · exact known x (.inr inside)

theorem drainKnown {graph : Graph α} {fuel : Nat} {walk walk' : Walk α} (known : Known graph walk)
    (drained : drain graph fuel walk = .ok walk') : Known graph walk' := by
  induction fuel generalizing walk with
  | zero => cases drained
  | succ fuel ih =>
    unfold drain at drained
    split at drained
    · cases drained
      exact known
    · rename_i frame outer top
      cases moved : step graph walk frame outer with
      | error halt => simp [moved, bind, Except.bind] at drained
      | ok next =>
        simp only [moved, bind, Except.bind] at drained
        exact ih (stepKnown top known moved) drained

theorem visitRootsKnown {graph roots : Graph α} {visited : Finset α} {ordered result : List α}
    (entries : ∀ e ∈ roots, e.1 ∈ graph.keys) (known : ∀ x ∈ ordered, x ∈ graph.keys)
    (done : visitRoots graph roots visited ordered = .ok result) : ∀ x ∈ result, x ∈ graph.keys := by
  induction roots generalizing visited ordered with
  | nil =>
    cases done
    exact known
  | cons root roots ih =>
    obtain ⟨root, prerequisites⟩ := root
    have others : ∀ e ∈ roots, e.1 ∈ graph.keys := fun e member => entries e (List.mem_cons_of_mem _ member)
    simp only [visitRoots] at done
    split at done
    · exact ih others known done
    · cases walked : visitRoot graph visited ordered root prerequisites with
      | error halt => simp [walked, bind, Except.bind] at done
      | ok walk =>
        simp only [walked, bind, Except.bind] at done
        have start : Known graph ⟨[⟨root, prerequisites⟩], {root}, visited, ordered⟩ := by
          rintro x (old | first)
          · exact known x old
          · exact List.mem_singleton.mp first ▸ entries _ List.mem_cons_self
        have final : Known graph walk := drainKnown start walked
        exact ih others (fun x member => final x (.inl member)) done

end Known

/-- Blockers first, each node once: what an order that is returned amounts to. -/
def Ordered (graph : Graph α) (ordered : List α) : Prop :=
  ordered.Perm graph.keys ∧
    ∀ before node after, ordered = before ++ node :: after → ∀ blocker ∈ successors graph node, blocker ∈ before

def Cyclic (graph : Graph α) : Prop := ∃ node, Relation.TransGen (fun x y => y ∈ successors graph x) node node

theorem orderReturned {graph : Graph α} {ordered : List α} (unique : graph.keys.Nodup)
    (returned : acyclicOrder graph = .ok ordered) : Ordered graph ordered ∧ ∀ node ∈ graph.keys,
      ¬ Relation.TransGen (fun x y => y ∈ successors graph x) node node := by
  obtain ⟨settled, all⟩ := acyclicOrderSettled unique returned
  have known : ∀ x ∈ ordered, x ∈ graph.keys :=
    visitRootsKnown (fun e member => List.mem_map_of_mem member) (by simp) returned
  refine ⟨⟨?_, fun _ _ _ split => settledBefore settled split⟩, fun node member => settledAcyclic settled (all node member)⟩
  exact (List.perm_ext_iff_of_nodup (settledNodup settled) unique).mpr fun k => ⟨known k, all k⟩

theorem orderHalts {graph : Graph α} {halt : Halt α} (unique : graph.keys.Nodup) (closed : Closed graph)
    (stopped : acyclicOrder graph = .error halt) : Halts graph halt :=
  visitRootsHalts closed (fun e member => Dict.getOfMember unique member) .nil (by simp) stopped

/-- On a closed graph the traversal either orders the nodes, blockers first, or names a cycle; it
does the second exactly on the graphs that have one. -/
theorem acyclicOrderExact (graph : Graph α) (unique : graph.keys.Nodup) (closed : Closed graph) :
    (∀ ordered, acyclicOrder graph = .ok ordered → Ordered graph ordered) ∧
    (∀ halt, acyclicOrder graph = .error halt → Halts graph halt) ∧
    ((∃ issueKeys, acyclicOrder graph = .error (.cycle issueKeys)) ↔ Cyclic graph) := by
  refine ⟨fun ordered returned => (orderReturned unique returned).1, fun halt => orderHalts unique closed, ?_, ?_⟩
  · rintro ⟨issueKeys, stopped⟩
    obtain ⟨_, same, round⟩ := orderHalts unique closed stopped
    cases same
    exact roundReturns round
  · rintro ⟨node, returns⟩
    cases answer : acyclicOrder graph with
    | error halt =>
      obtain ⟨issueKeys, same, -⟩ := orderHalts unique closed answer
      exact ⟨issueKeys, congrArg Except.error same⟩
    | ok ordered =>
      obtain ⟨_, _, edge⟩ := Relation.TransGen.tail'_iff.mp returns
      exact absurd returns ((orderReturned unique answer).2 node (closedSuccessors closed edge))

/-- A chain of two with a node blocked by itself beside it, and the order of the chain alone. -/
theorem selfLoopNamed :
    Halts [(1, [2]), (2, []), (3, [3])] (Halt.cycle [3]) ∧ Ordered [(1, [2]), (2, [])] [2, 1] :=
  ⟨(acyclicOrderExact [(1, [2]), (2, []), (3, [3])] (by decide) (by decide)).2.1 _ (by decide),
    (acyclicOrderExact [(1, [2]), (2, [])] (by decide) (by decide)).1 _ (by decide)⟩

end Kodezart.AcyclicOrder
