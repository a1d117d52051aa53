import Mathlib

/-! Orders that settle a graph, and one pass of relaxation along such an order.
Nothing here names a program: nodes and weights are arbitrary. -/
namespace Kodezart.Precedence

section Order
variable {α : Type*} (succ : α → List α)

/-- Every listed node comes after all of its successors, and is listed once. -/
inductive Settled : List α → Prop where
  | nil : Settled []
  | snoc {done v} (before : Settled done) (successors : ∀ s ∈ succ v, s ∈ done)
      (fresh : v ∉ done) : Settled (done ++ [v])

abbrev Reaches (a b : α) : Prop := Relation.ReflTransGen (fun x y => y ∈ succ x) a b

variable {succ}

theorem settledClosed {ordered : List α} (settled : Settled succ ordered) {v s : α}
    (member : v ∈ ordered) (edge : s ∈ succ v) : s ∈ ordered := by
  induction settled with
  | nil => simp at member
  | snoc before successors fresh ih =>
    rcases List.mem_append.mp member with old | new
    · exact List.mem_append_left _ (ih old)
    · rw [List.mem_singleton.mp new] at edge
      exact List.mem_append_left _ (successors s edge)

theorem settledNodup {ordered : List α} (settled : Settled succ ordered) : ordered.Nodup := by
  induction settled with
  | nil => simp
  | snoc before successors fresh ih =>
    refine List.nodup_append.mpr ⟨ih, by simp, ?_⟩
    rintro a inside b last rfl
    exact fresh (by simpa [List.mem_singleton.mp last] using inside)

/-- Each node's successors stand in the part of the order before it. -/
theorem settledBefore {ordered : List α} (settled : Settled succ ordered) {pre post : List α} {v : α}
    (split : ordered = pre ++ v :: post) : ∀ s ∈ succ v, s ∈ pre := by
  induction settled generalizing post with
  | nil => simp at split
  | @snoc done last before successors fresh ih =>
    rcases List.eq_nil_or_concat post with rfl | ⟨rest, final, rfl⟩
    · obtain ⟨rfl, same⟩ := List.append_inj' split rfl
      cases same
      exact successors
    · rw [List.concat_eq_append, ← List.cons_append, ← List.append_assoc] at split
      exact ih (List.append_inj' split rfl).1

/-- The named nodes close a cycle: the next is a successor of each, and the first of the last. -/
def Round (succ : α → List α) (nodes : List α) : Prop :=
  nodes ≠ [] ∧ (nodes ++ nodes.head?.toList).IsChain fun a b => b ∈ succ a

theorem roundReturns {nodes : List α} (round : Round succ nodes) :
    ∃ v, Relation.TransGen (fun x y => y ∈ succ x) v v := by
  obtain ⟨some_node, chain⟩ := round
  cases nodes with
  | nil => exact absurd rfl some_node
  | cons v rest =>
    have along : (v :: (rest ++ [v])).IsChain fun a b => b ∈ succ a := chain
    refine ⟨v, ?_⟩
    cases rest with
    | nil => exact .single (List.isChain_cons_cons.mp along).1
    | cons second rest =>
      obtain ⟨first, later⟩ := List.isChain_cons_cons.mp along
      have walked := List.relationReflTransGen_of_exists_isChain _ later (List.cons_ne_nil _ _)
      have back : (second :: (rest ++ [v])).getLast (List.cons_ne_nil _ _) = v := by simp
      exact .head' first (back ▸ walked)

/-- A settled node never comes back to itself. -/
theorem settledAcyclic {ordered : List α} (settled : Settled succ ordered) {v : α} (member : v ∈ ordered) :
    ¬ Relation.TransGen (fun x y => y ∈ succ x) v v := by
  induction settled with
  | nil => simp at member
  | @snoc done last before successors fresh ih =>
    have closed {x : α} (inside : x ∈ done) {y : α} (reached : Relation.TransGen (fun x y => y ∈ succ x) x y) : y ∈ done := by
      induction reached with
      | single edge => exact settledClosed before inside edge
      | tail _ edge known => exact settledClosed before known edge
    intro returns
    rcases List.mem_append.mp member with old | new
    · exact ih old returns
    · rw [List.mem_singleton.mp new] at returns
      obtain ⟨s, edge, rest⟩ := Relation.TransGen.head'_iff.mp returns
      rcases Relation.reflTransGen_iff_eq_or_transGen.mp rest with same | further
      · exact fresh (same ▸ successors s edge)
      · exact fresh (closed (successors s edge) further)

end Order

section Relax
variable {α ω : Type*} [DecidableEq α] [LinearOrder ω] (succ : α → List α)

def handOn (node : α) (weight : α → ω) (s : α) : α → ω :=
  Function.update weight s (min (weight s) (weight node))

/-- Hand a node's weight on to each of its successors that holds a worse one. -/
def relax (weight : α → ω) (node : α) : α → ω := (succ node).foldl (handOn node) weight

def relaxAll (weight : α → ω) (nodes : List α) : α → ω := nodes.foldl (relax succ) weight

theorem relaxFoldLe (targets : List α) (node : α) (weight : α → ω) (x : α) :
    targets.foldl (handOn node) weight x ≤
      weight x := by
  induction targets generalizing weight with
  | nil => exact le_rfl
  | cons s targets ih =>
    refine (ih _).trans ?_
    rw [handOn, Function.update_apply]
    split
    · rename_i same
      rw [same]
      exact min_le_left _ _
    · exact le_rfl

theorem relaxFoldOther {targets : List α} {node x : α} (weight : α → ω) (outside : x ∉ targets) :
    targets.foldl (handOn node) weight x =
      weight x := by
  induction targets generalizing weight with
  | nil => rfl
  | cons s targets ih =>
    obtain ⟨here, later⟩ := not_or.mp (List.mem_cons.not.mp outside)
    rw [List.foldl_cons, ih _ later, handOn, Function.update_of_ne here]

/-- Provided the node is none of the targets, each target ends no worse than the node. -/
theorem relaxFoldReached {targets : List α} {node s : α} (weight : α → ω) (self : node ∉ targets)
    (member : s ∈ targets) :
    targets.foldl (handOn node) weight s ≤
      weight node := by
  induction targets generalizing weight with
  | nil => simp at member
  | cons t targets ih =>
    obtain ⟨here, later⟩ := not_or.mp (List.mem_cons.not.mp self)
    simp only [List.foldl_cons]
    rcases List.mem_cons.mp member with rfl | inside
    · refine (relaxFoldLe targets node _ s).trans ?_
      rw [handOn, Function.update_self]
      exact min_le_right _ _
    · have bound := ih (handOn node weight t) later inside
      rwa [handOn, Function.update_of_ne here] at bound

theorem relaxAllLe (nodes : List α) (weight : α → ω) (x : α) :
    relaxAll succ weight nodes x ≤ weight x := by
  induction nodes generalizing weight with
  | nil => exact le_rfl
  | cons v nodes ih => exact (ih _).trans (relaxFoldLe _ _ _ _)

theorem relaxAllOther {nodes : List α} {x : α} (weight : α → ω)
    (outside : ∀ v ∈ nodes, x ∉ succ v) : relaxAll succ weight nodes x = weight x := by
  induction nodes generalizing weight with
  | nil => rfl
  | cons v nodes ih =>
    have rest := ih (relax succ weight v) (fun u hu => outside u (List.mem_cons_of_mem _ hu))
    rw [relaxAll, List.foldl_cons, ← relaxAll, rest]
    exact relaxFoldOther weight (outside v List.mem_cons_self)

/-- Whatever value a node ends with, it is the weight of some node that reaches it. -/
theorem relaxSource {origin weight : α → ω} (targets : List α) (node : α)
    (edges : ∀ s ∈ targets, s ∈ succ node)
    (source : ∀ x, ∃ y, Reaches succ y x ∧ weight x = origin y) (x : α) :
    ∃ y, Reaches succ y x ∧
      targets.foldl (handOn node) weight x =
        origin y := by
  induction targets generalizing weight with
  | nil => exact source x
  | cons s targets ih =>
    refine ih (fun t ht => edges t (List.mem_cons_of_mem _ ht)) ?_
    intro z
    rw [handOn, Function.update_apply]
    split
    · rename_i same
      subst same
      rcases min_choice (weight z) (weight node) with keep | take
      · rw [keep]
        exact source z
      · rw [take]
        obtain ⟨y, path, value⟩ := source node
        exact ⟨y, path.tail (edges z List.mem_cons_self), value⟩
    · exact source z

theorem relaxAllSource {origin weight : α → ω} (nodes : List α)
    (source : ∀ x, ∃ y, Reaches succ y x ∧ weight x = origin y) (x : α) :
    ∃ y, Reaches succ y x ∧ relaxAll succ weight nodes x = origin y := by
  induction nodes generalizing weight with
  | nil => exact source x
  | cons v nodes ih => exact ih (relaxSource succ (succ v) v (fun _ h => h) source)

variable {succ}

/-- Relaxed from the last settled node back, no edge is left improvable. -/
theorem relaxAllStable {ordered : List α} (settled : Settled succ ordered) (weight : α → ω) {v s : α}
    (member : v ∈ ordered) (edge : s ∈ succ v) :
    relaxAll succ weight ordered.reverse s ≤ relaxAll succ weight ordered.reverse v := by
  induction settled generalizing weight with
  | nil => simp at member
  | @snoc done last before successors fresh ih =>
    rw [List.reverse_concat]
    change relaxAll succ (relax succ weight last) done.reverse s ≤
      relaxAll succ (relax succ weight last) done.reverse v
    rcases List.mem_append.mp member with old | new
    · exact ih _ old
    · cases List.mem_singleton.mp new
      have self : v ∉ succ v := fun loop => fresh (successors v loop)
      -- The node settled last is nobody's successor, so its own weight never moves again.
      have still : relaxAll succ (relax succ weight v) done.reverse v = weight v := by
        rw [relaxAllOther]
        · exact relaxFoldOther weight self
        · intro u inside back
          exact fresh (settledClosed before (List.mem_reverse.mp inside) back)
      rw [still]
      exact (relaxAllLe succ _ _ _).trans (relaxFoldReached weight self edge)

/-- One pass leaves each node the best weight among the nodes that reach it. -/
theorem relaxAllBest {ordered : List α} (settled : Settled succ ordered)
    (complete : ∀ v, succ v ≠ [] → v ∈ ordered) (weight : α → ω) (x : α) :
    (∃ y, Reaches succ y x ∧ relaxAll succ weight ordered.reverse x = weight y) ∧
    ∀ y, Reaches succ y x → relaxAll succ weight ordered.reverse x ≤ weight y := by
  refine ⟨relaxAllSource succ _ (fun z => ⟨z, .refl, rfl⟩) x, ?_⟩
  intro y path
  induction path with
  | refl => exact relaxAllLe succ _ _ _
  | @tail a b before edge ih =>
    exact (relaxAllStable settled weight (complete a (List.ne_nil_of_mem edge)) edge).trans ih

end Relax
end Kodezart.Precedence
