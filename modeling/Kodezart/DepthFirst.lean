import Mathlib

/-! Depth-first order over any child relation. A forest's order lists each node before
what is beneath it and each tree before the next; it exists where the descent ends. -/
namespace Kodezart.DepthFirst
variable {κ : Type*} (children : κ → List κ)

inductive Forest : List κ → List κ → Prop where
  | nil : Forest [] []
  | cons {k : κ} {ks below after : List κ} (descent : Forest (children k) below) (rest : Forest ks after) :
      Forest (k :: ks) (k :: (below ++ after))

/-- `x` is `k` itself or stands somewhere under it. -/
abbrev Beneath (k x : κ) : Prop := Relation.ReflTransGen (fun a b => b ∈ children a) k x

variable {children} {k x : κ} {ks ks' order order' : List κ}

theorem forestUnique (one : Forest children ks order) (other : Forest children ks order') : order = order' := by
  induction one generalizing order' with
  | nil => cases other; rfl
  | cons descent rest ihDescent ihRest =>
    cases other with
    | cons descent' rest' => rw [ihDescent descent', ihRest rest']

theorem forestAppend (one : Forest children ks order) (other : Forest children ks' order') :
    Forest children (ks ++ ks') (order ++ order') := by
  induction one with
  | nil => exact other
  | cons descent rest ihDescent ihRest =>
    simp only [List.cons_append, List.append_assoc]
    exact .cons descent ihRest

theorem forestSplit (both : Forest children (ks ++ ks') order) :
    ∃ one other, order = one ++ other ∧ Forest children ks one ∧ Forest children ks' other := by
  induction ks generalizing order with
  | nil => exact ⟨[], order, rfl, .nil, both⟩
  | cons k ks ih =>
    cases both with
    | cons descent rest =>
      obtain ⟨one, other, rfl, first, second⟩ := ih rest
      exact ⟨_, other, by simp, .cons descent first, second⟩

theorem forestSingle (descent : Forest children (children k) order) : Forest children [k] (k :: order) := by
  simpa using Forest.cons descent .nil

theorem forestDescent (single : Forest children [k] order) :
    ∃ below, order = k :: below ∧ Forest children (children k) below := by
  cases single with
  | cons descent rest =>
    cases rest
    exact ⟨_, by rw [List.append_nil], descent⟩

theorem forestRoots (forest : Forest children ks order) : ∀ k ∈ ks, k ∈ order := by
  induction forest with
  | nil => simp
  | cons descent rest ihDescent ihRest =>
    intro k member
    rcases List.mem_cons.mp member with rfl | later
    · exact List.mem_cons_self
    · exact List.mem_cons_of_mem _ (List.mem_append_right _ (ihRest k later))

/-- Every node of an order has its own subtree inside that order. -/
theorem forestWithin (forest : Forest children ks order) (member : x ∈ order) :
    ∃ inner, Forest children [x] inner ∧ inner.Sublist order := by
  induction forest with
  | nil => simp at member
  | @cons k ks below after descent rest ihDescent ihRest =>
    rcases List.mem_cons.mp member with rfl | inside
    · exact ⟨_, forestSingle descent, (List.sublist_append_left below after).cons_cons x⟩
    · rcases List.mem_append.mp inside with down | along
      · obtain ⟨inner, own, within⟩ := ihDescent down
        exact ⟨inner, own, (within.trans (List.sublist_append_left below after)).cons k⟩
      · obtain ⟨inner, own, within⟩ := ihRest along
        exact ⟨inner, own, (within.trans (List.sublist_append_right below after)).cons k⟩

/-- Only the children of the nodes listed matter. -/
theorem forestCongr {children' : κ → List κ} (forest : Forest children ks order)
    (agree : ∀ k ∈ order, children k = children' k) : Forest children' ks order := by
  induction forest with
  | nil => exact .nil
  | @cons k ks below after descent rest ihDescent ihRest =>
    refine .cons ?_ (ihRest fun x member => agree x (by simp [member]))
    rw [← agree k List.mem_cons_self]
    exact ihDescent fun x member => agree x (by simp [member])

/-- A forest's order holds exactly what stands at or beneath its roots. -/
theorem forestMember (forest : Forest children ks order) : x ∈ order ↔ ∃ k ∈ ks, Beneath children k x := by
  constructor
  · intro member
    induction forest with
    | nil => simp at member
    | @cons k ks below after descent rest ihDescent ihRest =>
      rcases List.mem_cons.mp member with rfl | inside
      · exact ⟨x, List.mem_cons_self, .refl⟩
      · rcases List.mem_append.mp inside with down | along
        · obtain ⟨child, edge, beneath⟩ := ihDescent down
          exact ⟨k, List.mem_cons_self, .head edge beneath⟩
        · obtain ⟨root, edge, beneath⟩ := ihRest along
          exact ⟨root, List.mem_cons_of_mem _ edge, beneath⟩
  · rintro ⟨k, root, beneath⟩
    induction beneath with
    | refl => exact forestRoots forest k root
    | tail _ edge ih =>
      obtain ⟨inner, own, within⟩ := forestWithin forest ih
      obtain ⟨below, rfl, descent⟩ := forestDescent own
      exact within.subset (List.mem_cons_of_mem _ (forestRoots descent _ edge))

/-- Descending the other way round lists the same nodes. -/
theorem forestMirror (forest : Forest (fun k => (children k).reverse) ks order) :
    ∃ mirrored, Forest children ks.reverse mirrored ∧ mirrored.Perm order := by
  induction forest with
  | nil => exact ⟨[], .nil, .refl _⟩
  | @cons k ks below after descent rest ihDescent ihRest =>
    obtain ⟨down, own, downPerm⟩ := ihDescent
    obtain ⟨along, others, alongPerm⟩ := ihRest
    rw [List.reverse_reverse] at own
    refine ⟨along ++ (k :: down), by simpa using forestAppend others (forestSingle own), ?_⟩
    exact (alongPerm.append (downPerm.cons k)).trans (List.perm_middle.trans (List.perm_append_comm.cons k))

end Kodezart.DepthFirst
