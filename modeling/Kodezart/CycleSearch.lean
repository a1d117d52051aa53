import Mathlib

/-! Two searches for a cycle that remember what they have cleared: one over a child relation, with
a mark on the stack for leaving each node, and one along a partial function. Both clear a node only
behind everything it leads to, so what is cleared lies on no cycle. -/
namespace Kodezart.CycleSearch
variable {κ : Type*}

inductive Halt where
  | cycle | outOfFuel
  deriving DecidableEq

/-- `y` is reached from `x` in one step or more. -/
abbrev Leads (children : κ → List κ) (x y : κ) : Prop := Relation.TransGen (fun a b => b ∈ children a) x y

/-- Every node of the list is behind its children. -/
inductive Layered (children : κ → List κ) : List κ → Prop where
  | nil : Layered children []
  | cons {k : κ} {cleared : List κ} (behind : ∀ c ∈ children k, c ∈ cleared) (rest : Layered children cleared) :
      Layered children (k :: cleared)

section Layers
variable {children : κ → List κ} {cleared : List κ} {x y : κ}

theorem layeredClosed (layered : Layered children cleared) (held : x ∈ cleared) : ∀ c ∈ children x, c ∈ cleared := by
  induction layered with
  | nil => cases held
  | cons behind rest ih =>
    intro c child
    rcases List.mem_cons.mp held with rfl | older
    · exact List.mem_cons_of_mem _ (behind c child)
    · exact List.mem_cons_of_mem _ (ih older c child)

theorem layeredLeads (layered : Layered children cleared) (held : x ∈ cleared) (leads : Leads children x y) : y ∈ cleared := by
  induction leads with
  | single step => exact layeredClosed layered held _ step
  | tail _ step ih => exact layeredClosed layered ih _ step

theorem layeredFree (layered : Layered children cleared) (held : x ∈ cleared) : ¬ Leads children x x := by
  induction layered with
  | nil => cases held
  | @cons k cleared behind rest ih =>
    intro cycle
    by_cases older : x ∈ cleared
    · exact ih older cycle
    · obtain rfl : x = k := (List.mem_cons.mp held).resolve_right older
      obtain ⟨c, step, back⟩ := Relation.TransGen.head'_iff.mp cycle
      have inside : c ∈ cleared := behind c step
      rcases Relation.reflTransGen_iff_eq_or_transGen.mp back with same | leads
      · exact older (same ▸ inside)
      · exact older (layeredLeads rest inside leads)

end Layers

section Within
variable {r s : κ → κ → Prop} {P : κ → Prop} {x y : κ}

/-- Paths that start where two relations agree, and cannot leave it, are paths of both. -/
theorem reachWithin (step : ∀ a b, P a → r a b → s a b ∧ P b) (start : P x) (reached : Relation.ReflTransGen r x y) :
    Relation.ReflTransGen s x y ∧ P y := by
  induction reached with
  | refl => exact ⟨.refl, start⟩
  | tail _ edge ih =>
    obtain ⟨same, inside⟩ := step _ _ ih.2 edge
    exact ⟨.tail ih.1 same, inside⟩

theorem leadsWithin (step : ∀ a b, P a → r a b → s a b ∧ P b) (start : P x) (leads : Relation.TransGen r x y) :
    Relation.TransGen s x y ∧ P y := by
  obtain ⟨mid, edge, rest⟩ := Relation.TransGen.head'_iff.mp leads
  obtain ⟨same, inside⟩ := step _ _ start edge
  obtain ⟨path, last⟩ := reachWithin step inside rest
  exact ⟨Relation.TransGen.head'_iff.mpr ⟨mid, same, path⟩, last⟩

end Within

section Marks
variable {children : κ → List κ} {fuel : Nat} {stack : List (κ × Bool)} {start x : κ}

structure Search (κ : Type*) where
  active : List κ
  checked : List κ

variable {s s' : Search κ}

structure Sound (children : κ → List κ) (start : κ) (stack : List (κ × Bool)) (s : Search κ) : Prop where
  active : s.active.Nodup ∧ ∀ x, x ∈ s.active ↔ (x, true) ∈ stack
  marks : ((stack.filter (·.2)).map Prod.fst).Nodup
  layered : Layered children s.checked
  above : ∀ up a below, stack = up ++ (a, true) :: below → ∀ e ∈ up, Leads children a e.1
  covered : ∀ up a below, stack = up ++ (a, true) :: below → ∀ c ∈ children a, c ∈ s.checked ∨ c ∈ up.map Prod.fst
  started : start ∈ s.checked ∨ start ∈ stack.map Prod.fst

theorem soundStart (start : κ) (layered : Layered children s.checked) (idle : s.active = []) : Sound children start [(start, false)] s where
  active := ⟨by simp [idle], by simp [idle]⟩
  marks := by simp
  layered := layered
  above up a below same := by
    have member : (a, true) ∈ [(start, false)] := by rw [same]; simp
    simp at member
  covered up a below same := by
    have member : (a, true) ∈ [(start, false)] := by rw [same]; simp
    simp at member
  started := by simp

theorem soundSkip {current : κ} (sound : Sound children start ((current, false) :: stack) s) (checked : current ∈ s.checked) :
    Sound children start stack s where
  active := ⟨sound.active.1, fun x => by rw [sound.active.2]; simp⟩
  marks := by simpa using sound.marks
  layered := sound.layered
  above up a below same e member := sound.above ((current, false) :: up) a below (by rw [same]; rfl) e (List.mem_cons_of_mem _ member)
  covered up a below same c child := by
    rcases sound.covered ((current, false) :: up) a below (by rw [same]; rfl) c child with known | higher
    · exact .inl known
    · rcases List.mem_cons.mp higher with rfl | higher
      · exact .inl checked
      · exact .inr higher
  started := by
    rcases sound.started with known | waiting
    · exact .inl known
    · rcases List.mem_cons.mp waiting with rfl | waiting
      · exact .inl checked
      · exact .inr waiting

theorem marksBelow {kids rest up below : List (κ × Bool)} {a : κ} (plain : ∀ e ∈ kids, e.2 = false)
    (same : kids ++ rest = up ++ (a, true) :: below) : ∃ up', up = kids ++ up' ∧ rest = up' ++ (a, true) :: below := by
  induction kids generalizing up with
  | nil => exact ⟨up, rfl, same⟩
  | cons kid kids ih =>
    cases up with
    | nil =>
      obtain ⟨first, -⟩ := List.cons.inj same
      have marked := plain kid (List.mem_cons_self ..)
      rw [first] at marked
      cases marked
    | cons first up =>
      obtain ⟨rfl, tails⟩ := List.cons.inj same
      obtain ⟨up', rfl, rests⟩ := ih (fun e member => plain e (List.mem_cons_of_mem _ member)) tails
      exact ⟨up', rfl, rests⟩

theorem soundEnter {current : κ} (sound : Sound children start ((current, false) :: stack) s) (idle : current ∉ s.active) :
    Sound children start ((children current).reverse.map (·, false) ++ (current, true) :: stack)
      ⟨current :: s.active, s.checked⟩ := by
  have plain : ∀ e ∈ (children current).reverse.map (·, false), e.2 = false := by
    intro e member
    obtain ⟨c, -, rfl⟩ := List.mem_map.mp member
    rfl
  have unmarked : ((children current).reverse.map (·, false)).filter (·.2) = [] :=
    List.filter_eq_nil_iff.mpr fun e member => by simp [plain e member]
  have fresh : current ∉ (stack.filter (·.2)).map Prod.fst := by
    intro member
    obtain ⟨⟨x, marked⟩, inside, rfl⟩ := List.mem_map.mp member
    obtain ⟨inside, marks⟩ := List.mem_filter.mp inside
    have marks : marked = true := marks
    subst marks
    exact idle ((sound.active.2 _).mpr (List.mem_cons_of_mem _ inside))
  refine ⟨⟨List.nodup_cons.mpr ⟨idle, sound.active.1⟩, fun x => ?_⟩, ?_, sound.layered, ?_, ?_, ?_⟩
  · have known := sound.active.2 x
    simp only [List.mem_cons, Prod.mk.injEq, Bool.true_eq_false, and_false, false_or] at known
    simp [known]
  · rw [List.filter_append, unmarked, List.nil_append, List.filter_cons_of_pos rfl, List.map_cons, List.nodup_cons]
    refine ⟨fresh, ?_⟩
    simpa using sound.marks
  · intro up a below same e member
    obtain ⟨up', rfl, rest⟩ := marksBelow plain same
    cases up' with
    | nil =>
      obtain ⟨first, -⟩ := List.cons.inj rest
      cases first
      rw [List.append_nil] at member
      obtain ⟨c, child, rfl⟩ := List.mem_map.mp member
      exact .single (List.mem_reverse.mp child)
    | cons top up' =>
      obtain ⟨rfl, rests⟩ := List.cons.inj rest
      have reached := sound.above ((current, false) :: up') a below (congrArg _ rests)
      rcases List.mem_append.mp member with kid | higher
      · obtain ⟨c, child, rfl⟩ := List.mem_map.mp kid
        exact .tail (reached (current, false) (List.mem_cons_self ..)) (List.mem_reverse.mp child)
      · rcases List.mem_cons.mp higher with rfl | higher
        · exact reached (current, false) (List.mem_cons_self ..)
        · exact reached e (List.mem_cons_of_mem _ higher)
  · intro up a below same c child
    obtain ⟨up', rfl, rest⟩ := marksBelow plain same
    cases up' with
    | nil =>
      obtain ⟨first, -⟩ := List.cons.inj rest
      cases first
      exact .inr (by simpa using child)
    | cons top up' =>
      obtain ⟨rfl, rests⟩ := List.cons.inj rest
      rcases sound.covered ((current, false) :: up') a below (congrArg _ rests) c child with checked | higher
      · exact .inl checked
      · refine .inr ?_
        rw [List.map_append, List.mem_append]
        exact .inr higher
  · rcases sound.started with checked | waiting
    · exact .inl checked
    · refine .inr ?_
      rw [List.map_append, List.mem_append]
      exact .inr waiting

section Searching
variable [DecidableEq κ]

/-- The stack, its top first; a marked entry is a node to leave. -/
def search (children : κ → List κ) : Nat → List (κ × Bool) → Search κ → Except Halt (Search κ)
  | _, [], s => .ok s
  | 0, _ :: _, _ => .error .outOfFuel
  | fuel + 1, (current, true) :: stack, s => search children fuel stack ⟨s.active.erase current, current :: s.checked⟩
  | fuel + 1, (current, false) :: stack, s =>
    if current ∈ s.active then .error .cycle
    else if current ∈ s.checked then search children fuel stack s
    else search children fuel ((children current).reverse.map (·, false) ++ (current, true) :: stack) ⟨current :: s.active, s.checked⟩

theorem searchEmpty (children : κ → List κ) : search children fuel [] s = .ok s := by
  cases fuel <;> rfl

/-- A search from each start, with nothing active and what the ones before have checked. -/
def searchAll (children : κ → List κ) (fuel : Nat) (starts checked : List κ) : Except Halt (List κ) :=
  starts.foldlM (fun checked start => (search children fuel [(start, false)] ⟨[], checked⟩).map Search.checked) checked

theorem searchAllCons (children : κ → List κ) (start : κ) (starts checked : List κ) :
    searchAll children fuel (start :: starts) checked =
      (search children fuel [(start, false)] ⟨[], checked⟩).map Search.checked >>= searchAll children fuel starts :=
  List.foldlM_cons

theorem soundLeave {current : κ} (sound : Sound children start ((current, true) :: stack) s) :
    Sound children start stack ⟨s.active.erase current, current :: s.checked⟩ where
  active := by
    refine ⟨sound.active.1.erase _, fun x => ?_⟩
    rw [sound.active.1.mem_erase_iff, sound.active.2, List.mem_cons]
    have once := sound.marks
    rw [List.filter_cons_of_pos rfl, List.map_cons, List.nodup_cons] at once
    constructor
    · rintro ⟨other, same | inside⟩
      · cases same
        exact absurd rfl other
      · exact inside
    · intro inside
      refine ⟨?_, .inr inside⟩
      rintro rfl
      exact once.1 (List.mem_map.mpr ⟨_, List.mem_filter.mpr ⟨inside, rfl⟩, rfl⟩)
  marks := by
    have once := sound.marks
    rw [List.filter_cons_of_pos rfl, List.map_cons, List.nodup_cons] at once
    exact once.2
  layered := .cons (fun c child => (sound.covered [] current stack rfl c child).resolve_right (by simp)) sound.layered
  above up a below same e member := sound.above ((current, true) :: up) a below (by rw [same]; rfl) e (List.mem_cons_of_mem _ member)
  covered up a below same c child := by
    rcases sound.covered ((current, true) :: up) a below (by rw [same]; rfl) c child with checked | higher
    · exact .inl (List.mem_cons_of_mem _ checked)
    · rcases List.mem_cons.mp higher with rfl | higher
      · exact .inl (List.mem_cons_self ..)
      · exact .inr higher
  started := by
    rcases sound.started with checked | waiting
    · exact .inl (List.mem_cons_of_mem _ checked)
    · rcases List.mem_cons.mp waiting with rfl | waiting
      · exact .inl (List.mem_cons_self ..)
      · exact .inr waiting

theorem searchEnds (sound : Sound children start [] s) :
    (∀ s', search children fuel [] s = .ok s' → Layered children s'.checked ∧ start ∈ s'.checked ∧ ∀ x ∈ s.checked, x ∈ s'.checked) ∧
    (search children fuel [] s = .error .cycle → ∃ x, Leads children x x) := by
  rw [searchEmpty]
  constructor
  · intro s' same
    cases same
    exact ⟨sound.layered, sound.started.resolve_right (by simp), fun x => id⟩
  · intro stopped
    cases stopped

/-- A search that ends has cleared its start, and one that is stopped has met a cycle. -/
theorem searchTells (fuel : Nat) (sound : Sound children start stack s) :
    (∀ s', search children fuel stack s = .ok s' → Layered children s'.checked ∧ start ∈ s'.checked ∧ ∀ x ∈ s.checked, x ∈ s'.checked) ∧
    (search children fuel stack s = .error .cycle → ∃ x, Leads children x x) := by
  induction fuel generalizing stack s with
  | zero =>
    cases stack with
    | nil =>
      exact searchEnds sound
    | cons e stack =>
      obtain ⟨k, mark⟩ := e
      constructor
      · intro s' same
        cases mark <;> cases same
      · intro stopped
        cases mark <;> cases stopped
  | succ fuel ih =>
    cases stack with
    | nil =>
      exact searchEnds sound
    | cons e stack =>
      obtain ⟨current, mark⟩ := e
      cases mark with
      | true =>
        obtain ⟨ends, stops⟩ := ih (soundLeave sound)
        refine ⟨fun s' same => ?_, stops⟩
        obtain ⟨layered, cleared, kept⟩ := ends s' same
        exact ⟨layered, cleared, fun x held => kept x (List.mem_cons_of_mem _ held)⟩
      | false =>
        rw [search]
        split
        · rename_i active
          constructor
          · intro s' same
            cases same
          · intro _
            have marked := (sound.active.2 current).mp active
            obtain ⟨up, below, same⟩ := List.append_of_mem (List.mem_of_ne_of_mem (by simp) marked)
            exact ⟨current, sound.above ((current, false) :: up) current below (by rw [same]; rfl) _ (List.mem_cons_self ..)⟩
        · split
          · rename_i checked
            exact ih (soundSkip sound checked)
          · rename_i idle _
            exact ih (soundEnter sound idle)

/-- What is left to do: the stack, and each node not yet entered with its children. -/
def left (children : κ → List κ) (nodes : List κ) (stack : List (κ × Bool)) (s : Search κ) : Nat :=
  stack.length + ((nodes.filter fun x => x ∉ s.active ∧ x ∉ s.checked).map fun x => (children x).length + 1).sum

theorem leftEntered (children : κ → List κ) (stack : List (κ × Bool)) {nodes : List κ} {current : κ} (once : nodes.Nodup) (listed : current ∈ nodes)
    (idle : current ∉ s.active) (unchecked : current ∉ s.checked) :
    left children nodes ((children current).reverse.map (·, false) ++ (current, true) :: stack) ⟨current :: s.active, s.checked⟩ + 1 =
      left children nodes ((current, false) :: stack) s := by
  have open_ : current ∈ nodes.filter fun x => x ∉ s.active ∧ x ∉ s.checked :=
    List.mem_filter.mpr ⟨listed, by simp [idle, unchecked]⟩
  have rest : (nodes.filter fun x => x ∉ current :: s.active ∧ x ∉ s.checked) =
      (nodes.filter fun x => x ∉ s.active ∧ x ∉ s.checked).erase current := by
    rw [(once.filter _).erase_eq_filter, List.filter_filter]
    refine List.filter_congr fun x _ => ?_
    by_cases same : x = current <;> simp [same]
  have total := List.sum_map_erase (fun x => (children x).length + 1) open_
  simp only [left, rest, List.length_append, List.length_map, List.length_reverse, List.length_cons]
  omega

theorem leftLeft (children : κ → List κ) (nodes : List κ) (stack : List (κ × Bool)) (s : Search κ) (current : κ) :
    left children nodes stack ⟨s.active.erase current, current :: s.checked⟩ + 1 ≤ left children nodes ((current, true) :: stack) s := by
  have fewer : List.Sublist (nodes.filter fun x => x ∉ s.active.erase current ∧ x ∉ current :: s.checked)
      (nodes.filter fun x => x ∉ s.active ∧ x ∉ s.checked) := by
    refine List.monotone_filter_right _ fun x kept => ?_
    obtain ⟨idle, unchecked⟩ := of_decide_eq_true kept
    obtain ⟨other, unchecked⟩ := not_or.mp (fun held => unchecked (List.mem_cons.mpr held))
    exact decide_eq_true ⟨fun active => idle ((List.mem_erase_of_ne other).mpr active), unchecked⟩
  have less := (fewer.map fun x => (children x).length + 1).sum_le_sum fun _ _ => Nat.zero_le _
  simp only [left, List.length_cons]
  omega

theorem leftStart (children : κ → List κ) (nodes : List κ) (start : κ) (s : Search κ) :
    left children nodes [(start, false)] s ≤ 1 + (nodes.map fun x => (children x).length + 1).sum := by
  have less := ((List.filter_sublist (l := nodes) (p := fun x => x ∉ s.active ∧ x ∉ s.checked)).map
    fun x => (children x).length + 1).sum_le_sum fun _ _ => Nat.zero_le _
  exact Nat.add_le_add_left less 1

/-- A search over finitely many nodes ends. -/
theorem searchHalts {nodes : List κ} (once : nodes.Nodup) (within : ∀ x, ∀ c ∈ children x, x ∈ nodes ∧ c ∈ nodes)
    (inside : ∀ e ∈ stack, e.1 ∈ nodes) (enough : left children nodes stack s ≤ fuel) :
    search children fuel stack s ≠ .error .outOfFuel := by
  induction fuel generalizing stack s with
  | zero =>
    cases stack with
    | nil => exact fun same => by cases same
    | cons e stack =>
      simp only [left, List.length_cons] at enough
      omega
  | succ fuel ih =>
    cases stack with
    | nil => exact fun same => by cases same
    | cons e stack =>
      obtain ⟨current, mark⟩ := e
      have below : ∀ e ∈ stack, e.1 ∈ nodes := fun e member => inside e (List.mem_cons_of_mem _ member)
      have listed : current ∈ nodes := inside _ (List.mem_cons_self ..)
      cases mark with
      | true => exact ih below (by have := leftLeft children nodes stack s current; omega)
      | false =>
        rw [search]
        split
        · exact fun same => by cases same
        · split
          · refine ih below ?_
            simp only [left, List.length_cons] at enough ⊢
            omega
          · rename_i idle unchecked
            refine ih (fun e member => ?_) (by have := leftEntered children stack once listed idle unchecked; omega)
            rcases List.mem_append.mp member with kid | member
            · obtain ⟨c, child, rfl⟩ := List.mem_map.mp kid
              exact (within current c (List.mem_reverse.mp child)).2
            · rcases List.mem_cons.mp member with rfl | member
              · exact listed
              · exact below e member

/-- Searches that all end have cleared every start, and one that is stopped has met a cycle. -/
theorem searchesTell {starts checked : List κ} (layered : Layered children checked) :
    (∀ checked', searchAll children fuel starts checked = .ok checked' → Layered children checked' ∧
        (∀ x ∈ checked, x ∈ checked') ∧ ∀ x ∈ starts, x ∈ checked') ∧
      (searchAll children fuel starts checked = .error .cycle → ∃ x, Leads children x x) := by
  induction starts generalizing checked with
  | nil =>
    constructor
    · intro checked' same
      cases same
      exact ⟨layered, fun x => id, fun x member => absurd member List.not_mem_nil⟩
    · intro stopped
      cases stopped
  | cons start starts ih =>
    have sound : Sound children start [(start, false)] ⟨[], checked⟩ := soundStart start layered rfl
    obtain ⟨ends, stops⟩ := searchTells fuel sound
    rw [searchAllCons]
    cases found : search children fuel [(start, false)] ⟨[], checked⟩ with
    | error halt =>
      constructor
      · intro checked' same
        cases same
      · intro stopped
        cases stopped
        exact stops found
    | ok s =>
      obtain ⟨layered', cleared, kept⟩ := ends s found
      obtain ⟨all, stop⟩ := ih layered'
      refine ⟨fun checked' same => ?_, stop⟩
      obtain ⟨last, held, rest⟩ := all checked' same
      refine ⟨last, fun x inside => held x (kept x inside), fun x member => ?_⟩
      rcases List.mem_cons.mp member with rfl | member
      · exact held _ cleared
      · exact rest x member

theorem searchesHalt {nodes starts checked : List κ} (once : nodes.Nodup) (within : ∀ x, ∀ c ∈ children x, x ∈ nodes ∧ c ∈ nodes)
    (started : ∀ x ∈ starts, x ∈ nodes) (enough : 1 + (nodes.map fun x => (children x).length + 1).sum ≤ fuel) :
    searchAll children fuel starts checked ≠ .error .outOfFuel := by
  induction starts generalizing checked with
  | nil => exact fun same => by cases same
  | cons start starts ih =>
    have halts : search children fuel [(start, false)] ⟨[], checked⟩ ≠ .error .outOfFuel :=
      searchHalts once within (by simpa using started start (List.mem_cons_self ..)) (le_trans (leftStart ..) enough)
    rw [searchAllCons]
    cases found : search children fuel [(start, false)] ⟨[], checked⟩ with
    | error halt =>
      intro same
      cases same
      exact halts found
    | ok s =>
      show searchAll children fuel starts s.checked ≠ .error .outOfFuel
      exact ih fun x member => started x (List.mem_cons_of_mem _ member)

/-- Searches from every node that all end show that there is no cycle. -/
theorem searchAllFree {nodes checked : List κ} (within : ∀ x, ∀ c ∈ children x, x ∈ nodes)
    (ended : searchAll children fuel nodes [] = .ok checked) : ∀ x, ¬ Leads children x x := by
  intro x cycle
  obtain ⟨c, step, -⟩ := Relation.TransGen.head'_iff.mp cycle
  obtain ⟨layered, -, all⟩ := (searchesTell .nil).1 checked ended
  exact layeredFree layered (all x (within x c step)) cycle

/-- A search from every node ends, and stops at a cycle exactly when there is one. -/
theorem searchAllExact {nodes : List κ} (once : nodes.Nodup) (within : ∀ x, ∀ c ∈ children x, x ∈ nodes ∧ c ∈ nodes)
    (enough : 1 + (nodes.map fun x => (children x).length + 1).sum ≤ fuel) :
    (∃ checked, searchAll children fuel nodes [] = .ok checked) ∧ (∀ x, ¬ Leads children x x) ∨
      searchAll children fuel nodes [] = .error .cycle ∧ ∃ x, Leads children x x := by
  cases found : searchAll children fuel nodes [] with
  | ok checked => exact .inl ⟨⟨checked, rfl⟩, searchAllFree (fun x c child => (within x c child).1) found⟩
  | error halt =>
    cases halt with
    | cycle => exact .inr ⟨rfl, (searchesTell .nil).2 found⟩
    | outOfFuel => exact absurd found (searchesHalt once within (fun x => id) enough)

end Searching
end Marks

section Walking
variable [DecidableEq κ] {next : κ → Option κ} {inside path checked checked' : List κ} {cursor : Option κ} {fuel : Nat}

/-- The walk along `next` from a cursor, while it stays inside and off what is checked. -/
def walk (next : κ → Option κ) (inside checked : List κ) : Nat → List κ → Option κ → Except Halt (List κ)
  | _, path, none => .ok (path ++ checked)
  | 0, _, some _ => .error .outOfFuel
  | fuel + 1, path, some key =>
    if key ∈ inside ∧ key ∉ checked then
      if key ∈ path then .error .cycle else walk next inside checked fuel (path ++ [key]) (next key)
    else .ok (path ++ checked)

def walkAll (next : κ → Option κ) (inside : List κ) (fuel : Nat) (starts checked : List κ) : Except Halt (List κ) :=
  starts.foldlM (fun checked start => walk next inside checked fuel [] (some start)) checked

/-- Where a walk goes on to. -/
def onward (next : κ → Option κ) (inside : List κ) (x : κ) : List κ := (next x).toList.filter (· ∈ inside)

theorem walkNone (fuel : Nat) (path : List κ) : walk next inside checked fuel path none = .ok (path ++ checked) := by
  cases fuel <;> rfl

theorem walkSome (key : κ) : walk next inside checked (fuel + 1) path (some key) =
    if key ∈ inside ∧ key ∉ checked then
      if key ∈ path then .error .cycle else walk next inside checked fuel (path ++ [key]) (next key)
    else .ok (path ++ checked) := rfl

theorem walkAllCons (start : κ) (starts : List κ) : walkAll next inside fuel (start :: starts) checked =
    walk next inside checked fuel [] (some start) >>= walkAll next inside fuel starts := List.foldlM_cons

theorem memOnward {x y : κ} : y ∈ onward next inside x ↔ next x = some y ∧ y ∈ inside := by
  simp [onward]

/-- A walk that ends checks its path, and one that is stopped has met a cycle. -/
theorem walkTells (fuel : Nat) (layered : Layered (onward next inside) checked)
    (reached : ∀ p ∈ path, ∀ k, cursor = some k → k ∈ inside → Leads (onward next inside) p k) :
    (∀ checked', walk next inside checked fuel path cursor = .ok checked' → ∃ tail, checked' = path ++ tail ∧
        Layered (onward next inside) tail ∧ (∀ x ∈ checked, x ∈ tail) ∧ ∀ k, cursor = some k → k ∈ inside → k ∈ tail) ∧
      (walk next inside checked fuel path cursor = .error .cycle → ∃ x, Leads (onward next inside) x x) := by
  induction fuel generalizing path cursor with
  | zero =>
    cases cursor with
    | none =>
      rw [walkNone]
      constructor
      · intro checked' same
        cases same
        exact ⟨checked, rfl, layered, fun x => id, fun k same => by cases same⟩
      · intro stopped
        cases stopped
    | some key =>
      constructor
      · intro checked' same
        cases same
      · intro stopped
        cases stopped
  | succ fuel ih =>
    cases cursor with
    | none =>
      rw [walkNone]
      constructor
      · intro checked' same
        cases same
        exact ⟨checked, rfl, layered, fun x => id, fun k same => by cases same⟩
      · intro stopped
        cases stopped
    | some key =>
      rw [walkSome]
      split
      · rename_i open_
        split
        · rename_i met
          constructor
          · intro checked' same
            cases same
          · exact fun _ => ⟨key, reached key met key rfl open_.1⟩
        · have further : ∀ p ∈ path ++ [key], ∀ k, next key = some k → k ∈ inside → Leads (onward next inside) p k := by
            intro p member k named held
            have step : k ∈ onward next inside key := memOnward.mpr ⟨named, held⟩
            rcases List.mem_append.mp member with earlier | last
            · exact .tail (reached p earlier key rfl open_.1) step
            · obtain rfl := List.mem_singleton.mp last
              exact .single step
          obtain ⟨ends, stops⟩ := ih further
          refine ⟨fun checked' same => ?_, stops⟩
          obtain ⟨tail, rfl, rest, kept, on⟩ := ends checked' same
          refine ⟨key :: tail, by simp, .cons (fun c child => ?_) rest, fun x held => List.mem_cons_of_mem _ (kept x held), ?_⟩
          · obtain ⟨named, held⟩ := memOnward.mp child
            exact on c named held
          · intro k same _
            cases same
            exact List.mem_cons_self ..
      · rename_i stays
        constructor
        · intro checked' same
          cases same
          refine ⟨checked, rfl, layered, fun x => id, fun k same held => ?_⟩
          cases same
          exact not_not.mp fun unchecked => stays ⟨held, unchecked⟩
        · intro stopped
          cases stopped

theorem walkHalts (once : path.Nodup) (kept : ∀ p ∈ path, p ∈ inside) (enough : inside.length < fuel + path.length) :
    walk next inside checked fuel path cursor ≠ .error .outOfFuel := by
  induction fuel generalizing path cursor with
  | zero =>
    have short := once.subperm kept |>.length_le
    omega
  | succ fuel ih =>
    cases cursor with
    | none => exact fun same => by cases same
    | some key =>
      rw [walkSome]
      split
      · rename_i open_
        split
        · exact fun same => by cases same
        · rename_i fresh
          refine ih (List.nodup_append_comm.mp (List.nodup_cons.mpr ⟨fresh, once⟩)) (fun p member => ?_) (by simp; omega)
          rcases List.mem_append.mp member with earlier | last
          · exact kept p earlier
          · exact (List.mem_singleton.mp last) ▸ open_.1
      · exact fun same => by cases same

theorem walksTell {starts : List κ} (layered : Layered (onward next inside) checked) :
    (∀ checked', walkAll next inside fuel starts checked = .ok checked' → Layered (onward next inside) checked' ∧
        (∀ x ∈ checked, x ∈ checked') ∧ ∀ x ∈ starts, x ∈ inside → x ∈ checked') ∧
      (walkAll next inside fuel starts checked = .error .cycle → ∃ x, Leads (onward next inside) x x) := by
  induction starts generalizing checked with
  | nil =>
    constructor
    · intro checked' same
      cases same
      exact ⟨layered, fun x => id, fun x member => absurd member List.not_mem_nil⟩
    · intro stopped
      cases stopped
  | cons start starts ih =>
    have fresh : ∀ p ∈ ([] : List κ), ∀ k, some start = some k → k ∈ inside → Leads (onward next inside) p k :=
      fun p member => absurd member List.not_mem_nil
    obtain ⟨ends, stops⟩ := walkTells fuel layered fresh
    rw [walkAllCons]
    cases found : walk next inside checked fuel [] (some start) with
    | error halt =>
      constructor
      · intro checked' same
        cases same
      · intro stopped
        cases stopped
        exact stops found
    | ok s =>
      obtain ⟨tail, rfl, layered', kept, on⟩ := ends s found
      obtain ⟨all, stop⟩ := ih layered'
      refine ⟨fun checked' same => ?_, stop⟩
      obtain ⟨last, held, rest⟩ := all checked' same
      refine ⟨last, fun x member => held x (kept x member), fun x member stays => ?_⟩
      rcases List.mem_cons.mp member with rfl | member
      · exact held _ (on _ rfl stays)
      · exact rest x member stays

theorem walksHalt {starts : List κ} (enough : inside.length < fuel) : walkAll next inside fuel starts checked ≠ .error .outOfFuel := by
  induction starts generalizing checked with
  | nil => exact fun same => by cases same
  | cons start starts ih =>
    have halts : walk next inside checked fuel [] (some start) ≠ .error .outOfFuel :=
      walkHalts List.nodup_nil (fun p member => absurd member List.not_mem_nil) enough
    rw [walkAllCons]
    cases found : walk next inside checked fuel [] (some start) with
    | error halt =>
      intro same
      cases same
      exact halts found
    | ok s =>
      show walkAll next inside fuel starts s ≠ .error .outOfFuel
      exact ih

/-- Walks from every node that all end show that there is no cycle. -/
theorem walkAllFree (ended : walkAll next inside fuel inside [] = .ok checked) : ∀ x ∈ inside, ¬ Leads (onward next inside) x x := by
  obtain ⟨layered, -, all⟩ := (walksTell .nil).1 checked ended
  exact fun x held => layeredFree layered (all x held held)

/-- The walks from every node end, and one stops at a cycle exactly when there is one. -/
theorem walkAllExact (next : κ → Option κ) (enough : inside.length < fuel) :
    (∃ checked, walkAll next inside fuel inside [] = .ok checked) ∧ (∀ x ∈ inside, ¬ Leads (onward next inside) x x) ∨
      walkAll next inside fuel inside [] = .error .cycle ∧ ∃ x, Leads (onward next inside) x x := by
  cases found : walkAll next inside fuel inside [] with
  | ok checked => exact .inl ⟨⟨checked, rfl⟩, walkAllFree found⟩
  | error halt =>
    cases halt with
    | cycle => exact .inr ⟨rfl, (walksTell .nil).2 found⟩
    | outOfFuel => exact absurd found (walksHalt enough)

end Walking
end Kodezart.CycleSearch
