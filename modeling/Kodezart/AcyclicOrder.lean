import Mathlib
import Kodezart.Dict
import Kodezart.Precedence

/-! The explicit-stack traversal behind priority propagation: prerequisites first,
a cycle refused by name. -/
namespace Kodezart.AcyclicOrder
open Precedence

variable {α : Type*} [DecidableEq α]

/-- One open node and what its iterator has still to give. -/
structure Frame (α : Type*) where
  node : α
  pending : List α

/- `path` and `stack` are pushed and popped together, so they are one list here, innermost first. -/
structure Walk (α : Type*) where
  frames : List (Frame α)
  active : Finset α
  visited : Finset α
  ordered : List α

inductive Halt (α : Type*) where
  | cycle (issueKeys : List α)
  | keyError (key : α)
  | outOfFuel
  deriving DecidableEq, Repr

abbrev Graph (α : Type*) := Dict α (List α)

/-- `path[path.index(child):]` of a path kept innermost first. -/
def cyclePath (frames : List (Frame α)) (child : α) : List α :=
  child :: ((frames.map Frame.node).takeWhile (· ≠ child)).reverse

def step (graph : Graph α) (walk : Walk α) (frame : Frame α) (outer : List (Frame α)) :
    Except (Halt α) (Walk α) :=
  match frame.pending with
  | [] => .ok ⟨outer, walk.active.erase frame.node, insert frame.node walk.visited,
      walk.ordered ++ [frame.node]⟩
  | child :: rest =>
    if child ∈ walk.active then .error (.cycle (cyclePath walk.frames child))
    else if child ∈ walk.visited then .ok { walk with frames := ⟨frame.node, rest⟩ :: outer }
    else match graph.get? child with
      | none => .error (.keyError child)
      | some prerequisites => .ok { walk with
          frames := ⟨child, prerequisites⟩ :: ⟨frame.node, rest⟩ :: outer
          active := insert child walk.active }

def drain (graph : Graph α) : Nat → Walk α → Except (Halt α) (Walk α)
  | 0, _ => .error .outOfFuel
  | fuel + 1, walk =>
    match walk.frames with
    | [] => .ok walk
    | frame :: outer => do drain graph fuel (← step graph walk frame outer)

def Walk.opened (walk : Walk α) (x : α) : Prop := x ∈ walk.visited ∨ x ∈ walk.active

instance (walk : Walk α) (x : α) : Decidable (walk.opened x) := by unfold Walk.opened; infer_instance

/-- Work that opening the unopened nodes of a graph still costs. -/
def unopened (walk : Walk α) : Graph α → Nat
  | [] => 0
  | e :: graph => (if walk.opened e.1 then 0 else e.2.length + 2) + unopened walk graph

/-- Steps left at most: one for each item still pending, one for each pop. -/
def remaining (graph : Graph α) (walk : Walk α) : Nat :=
  unopened walk graph + (walk.frames.map (·.pending.length + 1)).sum

def visitRoot (graph : Graph α) (visited : Finset α) (ordered : List α) (root : α)
    (prerequisites : List α) : Except (Halt α) (Walk α) :=
  let walk : Walk α := ⟨[⟨root, prerequisites⟩], {root}, visited, ordered⟩
  drain graph (remaining graph walk + 1) walk

def visitRoots (graph : Graph α) : Graph α → Finset α → List α → Except (Halt α) (List α)
  | [], _, ordered => .ok ordered
  | (root, prerequisites) :: roots, visited, ordered =>
    if root ∈ visited then visitRoots graph roots visited ordered
    else do
      let walk ← visitRoot graph visited ordered root prerequisites
      visitRoots graph roots walk.visited walk.ordered

def acyclicOrder (graph : Graph α) : Except (Halt α) (List α) := visitRoots graph graph ∅ []

section Termination

theorem unopenedLe {walk walk' : Walk α} (graph : Graph α)
    (opened : ∀ x, walk.opened x → walk'.opened x) : unopened walk' graph ≤ unopened walk graph := by
  induction graph with
  | nil => exact Nat.le_refl _
  | cons e graph ih =>
    simp only [unopened]
    by_cases now : walk'.opened e.1
    · simp only [if_pos now]
      omega
    · simp only [if_neg now, if_neg (mt (opened e.1) now)]
      omega

theorem unopenedOpen {walk walk' : Walk α} {graph : Graph α} {child : α} {prerequisites : List α}
    (entry : (child, prerequisites) ∈ graph) (fresh : ¬ walk.opened child)
    (opened : ∀ x, walk.opened x → walk'.opened x) (here : walk'.opened child) :
    unopened walk' graph + (prerequisites.length + 2) ≤ unopened walk graph := by
  induction graph with
  | nil => simp at entry
  | cons e graph ih =>
    simp only [unopened]
    rcases List.mem_cons.mp entry with rfl | inside
    · have rest := unopenedLe graph opened
      simp only [if_pos here, if_neg fresh]
      omega
    · have rest := ih inside
      by_cases now : walk'.opened e.1
      · simp only [if_pos now]
        omega
      · simp only [if_neg now, if_neg (mt (opened e.1) now)]
        omega

/-- Every step leaves strictly less to do, whatever the graph. -/
theorem stepDecreases {graph : Graph α} {walk walk' : Walk α} {frame : Frame α} {outer : List (Frame α)}
    (top : walk.frames = frame :: outer) (moved : step graph walk frame outer = .ok walk') :
    remaining graph walk' < remaining graph walk := by
  unfold step at moved
  simp only [remaining, top, List.map_cons, List.sum_cons]
  split at moved
  · cases moved
    have smaller : unopened ⟨outer, walk.active.erase frame.node, insert frame.node walk.visited,
        walk.ordered ++ [frame.node]⟩ graph ≤ unopened walk graph := by
      refine unopenedLe graph fun x open_ => ?_
      simp only [Walk.opened, Finset.mem_insert, Finset.mem_erase] at open_ ⊢
      tauto
    rename_i empty
    simp only [empty, List.length_nil]
    omega
  · rename_i child rest pending
    split at moved
    · cases moved
    · rename_i inactive
      split at moved
      · cases moved
        simp only [List.map_cons, List.sum_cons, pending, List.length_cons]
        have same : unopened { walk with frames := ⟨frame.node, rest⟩ :: outer } graph ≤ unopened walk graph :=
          unopenedLe graph fun _ open_ => open_
        omega
      · rename_i unvisited
        split at moved
        · cases moved
        · rename_i prerequisites found
          cases moved
          have smaller : unopened { walk with
              frames := ⟨child, prerequisites⟩ :: ⟨frame.node, rest⟩ :: outer
              active := insert child walk.active } graph + (prerequisites.length + 2) ≤
              unopened walk graph :=
            unopenedOpen (Dict.getMember found)
              (by simpa only [Walk.opened, not_or] using ⟨unvisited, inactive⟩)
              (fun x (open_ : x ∈ walk.visited ∨ x ∈ walk.active) => open_.imp_right Finset.mem_insert_of_mem)
              (Or.inr (Finset.mem_insert_self _ _))
          simp only [List.map_cons, List.sum_cons, pending, List.length_cons]
          omega

theorem drainFuel (graph : Graph α) {fuel : Nat} {walk : Walk α} (enough : remaining graph walk < fuel) :
    drain graph fuel walk ≠ .error .outOfFuel := by
  induction fuel generalizing walk with
  | zero => omega
  | succ fuel ih =>
    unfold drain
    split
    · exact nofun
    · rename_i frame outer top
      cases moved : step graph walk frame outer with
      | error halt =>
        rintro stalled
        cases stalled
        simp only [step] at moved
        repeat' split at moved
        all_goals cases moved
      | ok next =>
        have less := stepDecreases top moved
        exact ih (by omega)

theorem visitRootsFuel (graph roots : Graph α) (visited : Finset α) (ordered : List α) :
    visitRoots graph roots visited ordered ≠ .error .outOfFuel := by
  induction roots generalizing visited ordered with
  | nil => exact nofun
  | cons root roots ih =>
    obtain ⟨root, prerequisites⟩ := root
    simp only [visitRoots]
    split
    · exact ih _ _
    · cases walked : visitRoot graph visited ordered root prerequisites with
      | error halt =>
        rintro stalled
        cases stalled
        simp only [visitRoot] at walked
        exact drainFuel graph (Nat.lt_succ_self _) walked
      | ok walk => exact ih _ _

/-- The traversal ends by itself on every graph. -/
theorem acyclicOrderFuel (graph : Graph α) : acyclicOrder graph ≠ .error .outOfFuel :=
  visitRootsFuel graph graph ∅ []

end Termination

section Correctness

def successors (graph : Graph α) (node : α) : List α := (graph.get? node).getD []

/-- Each frame has examined only settled nodes, and waits for the frame opened from it. -/
def Trail (graph : Graph α) (done : List α) : List α → List (Frame α) → Prop
  | _, [] => True
  | waiting, frame :: outer =>
    (∃ examined, successors graph frame.node = examined ++ waiting ++ frame.pending ∧
      ∀ x ∈ examined, x ∈ done) ∧ Trail graph done [frame.node] outer

structure Sound (graph : Graph α) (walk : Walk α) : Prop where
  settled : Settled (successors graph) walk.ordered
  visited : ∀ x, x ∈ walk.visited ↔ x ∈ walk.ordered
  active : ∀ x, x ∈ walk.active ↔ x ∈ walk.frames.map Frame.node
  distinct : (walk.frames.map Frame.node).Nodup
  fresh : ∀ x ∈ walk.active, x ∉ walk.ordered
  trail : Trail graph walk.ordered [] walk.frames

theorem trailMono {graph : Graph α} {done done' : List α} (more : ∀ x ∈ done, x ∈ done')
    {waiting : List α} {frames : List (Frame α)} (trail : Trail graph done waiting frames) :
    Trail graph done' waiting frames := by
  induction frames generalizing waiting with
  | nil => exact trivial
  | cons frame outer ih =>
    obtain ⟨⟨examined, shape, settled⟩, rest⟩ := trail
    exact ⟨⟨examined, shape, fun x hx => more x (settled x hx)⟩, ih rest⟩

/-- The node a frame waits for is settled: the frame has examined it. -/
theorem trailResume {graph : Graph α} {done : List α} {node : α} {frames : List (Frame α)}
    (settled : node ∈ done) (trail : Trail graph done [node] frames) : Trail graph done [] frames := by
  cases frames with
  | nil => exact trivial
  | cons frame outer =>
    obtain ⟨⟨examined, shape, before⟩, rest⟩ := trail
    refine ⟨⟨examined ++ [node], by simpa using shape, ?_⟩, rest⟩
    intro x hx
    rcases List.mem_append.mp hx with old | new
    · exact before x old
    · rwa [List.mem_singleton.mp new]

/-- What one step does: it closes the inner frame, passes over a settled child, or opens a new one. -/
theorem stepCases {graph : Graph α} {walk walk' : Walk α} {frame : Frame α} {outer : List (Frame α)}
    (moved : step graph walk frame outer = .ok walk') :
    (frame.pending = [] ∧ walk' = ⟨outer, walk.active.erase frame.node,
      insert frame.node walk.visited, walk.ordered ++ [frame.node]⟩) ∨
    ∃ child rest, frame.pending = child :: rest ∧ child ∉ walk.active ∧
      ((child ∈ walk.visited ∧ walk' = { walk with frames := ⟨frame.node, rest⟩ :: outer }) ∨
      (child ∉ walk.visited ∧ ∃ prerequisites, graph.get? child = some prerequisites ∧
        walk' = { walk with
          frames := ⟨child, prerequisites⟩ :: ⟨frame.node, rest⟩ :: outer
          active := insert child walk.active })) := by
  unfold step at moved
  split at moved
  · rename_i empty
    cases moved
    exact Or.inl ⟨empty, rfl⟩
  · rename_i child rest pending
    split at moved
    · cases moved
    · rename_i inactive
      refine Or.inr ⟨child, rest, pending, inactive, ?_⟩
      split at moved
      · rename_i visited
        cases moved
        exact Or.inl ⟨visited, rfl⟩
      · rename_i unvisited
        split at moved
        · cases moved
        · rename_i prerequisites found
          cases moved
          exact Or.inr ⟨unvisited, prerequisites, found, rfl⟩

theorem stepSound {graph : Graph α} {walk walk' : Walk α} {frame : Frame α} {outer : List (Frame α)}
    (top : walk.frames = frame :: outer) (sound : Sound graph walk)
    (moved : step graph walk frame outer = .ok walk') : Sound graph walk' := by
  obtain ⟨settled, visited, active, distinct, fresh, trail⟩ := sound
  simp only [top, List.map_cons, List.mem_cons] at active distinct trail
  obtain ⟨alone, apart⟩ := List.nodup_cons.mp distinct
  obtain ⟨⟨examined, shape, before⟩, waiting⟩ := trail
  have open_ : frame.node ∉ walk.ordered := fresh _ ((active _).mpr (Or.inl rfl))
  rcases stepCases moved with ⟨empty, rfl⟩ | ⟨child, rest, pending, inactive, ⟨old, rfl⟩ | ⟨new, prerequisites, found, rfl⟩⟩
  · have all : ∀ s ∈ successors graph frame.node, s ∈ walk.ordered := by
      intro s hs
      rw [shape, empty] at hs
      exact before s (by simpa using hs)
    refine ⟨.snoc settled all open_, ?_, ?_, apart, ?_, ?_⟩
    · intro x
      simp only [Finset.mem_insert, List.mem_append, List.mem_singleton, visited]
      tauto
    · intro x
      simp only [Finset.mem_erase, active]
      constructor
      · tauto
      · intro inside
        exact ⟨fun same => alone (same ▸ inside), Or.inr inside⟩
    · intro x inside
      obtain ⟨other, was⟩ := Finset.mem_erase.mp inside
      simp only [List.mem_append, List.mem_singleton, not_or]
      exact ⟨fresh x was, other⟩
    · exact trailResume (by simp) (trailMono (fun x hx => List.mem_append_left _ hx) waiting)
  · refine ⟨settled, visited, by simpa only [List.map_cons, List.mem_cons] using active, distinct, fresh, ?_⟩
    refine ⟨⟨examined ++ [child], by simpa [pending] using shape, ?_⟩, waiting⟩
    intro x hx
    rcases List.mem_append.mp hx with seen | last
    · exact before x seen
    · rw [List.mem_singleton.mp last]
      exact (visited child).mp old
  · refine ⟨settled, visited, ?_, ?_, ?_, ?_⟩
    · intro x
      simp only [Finset.mem_insert, List.map_cons, List.mem_cons, active]
    · refine List.nodup_cons.mpr ⟨?_, distinct⟩
      exact fun inside => inactive ((active child).mpr (by simpa only [List.map_cons, List.mem_cons] using inside))
    · intro x inside
      rcases Finset.mem_insert.mp inside with rfl | was
      · exact fun done => new ((visited x).mpr done)
      · exact fresh x was
    · refine ⟨⟨[], by simp [successors, found], by simp⟩, ⟨examined, by simpa [pending] using shape, before⟩, waiting⟩

/-- Settled nodes stay settled, and a node once opened is open still or settled. -/
theorem stepKeeps {graph : Graph α} {walk walk' : Walk α} {frame : Frame α} {outer : List (Frame α)}
    (top : walk.frames = frame :: outer) (moved : step graph walk frame outer = .ok walk') {x : α}
    (member : x ∈ walk.ordered ∨ x ∈ walk.frames.map Frame.node) :
    x ∈ walk'.ordered ∨ x ∈ walk'.frames.map Frame.node := by
  rw [top] at member
  rcases stepCases moved with ⟨_, rfl⟩ | ⟨child, rest, _, _, ⟨_, rfl⟩ | ⟨_, _, _, rfl⟩⟩ <;>
    simp only [List.map_cons, List.mem_cons, List.mem_append] at member ⊢ <;> tauto

theorem drainSound {graph : Graph α} {fuel : Nat} {walk walk' : Walk α} (sound : Sound graph walk)
    (drained : drain graph fuel walk = .ok walk') :
    Sound graph walk' ∧ walk'.frames = [] ∧
      ∀ x, x ∈ walk.ordered ∨ x ∈ walk.frames.map Frame.node → x ∈ walk'.ordered := by
  induction fuel generalizing walk with
  | zero => cases drained
  | succ fuel ih =>
    unfold drain at drained
    split at drained
    · rename_i empty
      cases drained
      exact ⟨sound, empty, fun x member => by simpa [empty] using member⟩
    · rename_i frame outer top
      cases moved : step graph walk frame outer with
      | error halt => simp [moved, bind, Except.bind] at drained
      | ok next =>
        simp only [moved, bind, Except.bind] at drained
        obtain ⟨final, closed, kept⟩ := ih (stepSound top sound moved) drained
        exact ⟨final, closed, fun x member => kept x (stepKeeps top moved member)⟩

theorem rootSound {graph : Graph α} {visited : Finset α} {ordered : List α} {root : α} {prerequisites : List α}
    (entry : graph.get? root = some prerequisites) (settled : Settled (successors graph) ordered)
    (same : ∀ x, x ∈ visited ↔ x ∈ ordered) (unvisited : root ∉ visited) :
    Sound graph ⟨[⟨root, prerequisites⟩], {root}, visited, ordered⟩ := by
  refine ⟨settled, same, by simp, by simp, ?_, ⟨⟨[], by simp [successors, entry], by simp⟩, trivial⟩⟩
  intro x inside done
  rw [Finset.mem_singleton.mp inside] at done
  exact unvisited ((same root).mpr done)

theorem visitRootSound {graph : Graph α} {visited : Finset α} {ordered : List α} {root : α}
    {prerequisites : List α} {walk : Walk α} (entry : graph.get? root = some prerequisites)
    (settled : Settled (successors graph) ordered) (same : ∀ x, x ∈ visited ↔ x ∈ ordered)
    (unvisited : root ∉ visited) (walked : visitRoot graph visited ordered root prerequisites = .ok walk) :
    Settled (successors graph) walk.ordered ∧ (∀ x, x ∈ walk.visited ↔ x ∈ walk.ordered) ∧
      root ∈ walk.ordered ∧ ∀ x ∈ ordered, x ∈ walk.ordered := by
  obtain ⟨final, _, kept⟩ := drainSound (rootSound entry settled same unvisited) walked
  exact ⟨final.settled, final.visited, kept root (Or.inr (by simp)), fun x hx => kept x (Or.inl hx)⟩

theorem visitRootsSound {graph roots : Graph α} {visited : Finset α} {ordered result : List α}
    (entries : ∀ e ∈ roots, graph.get? e.1 = some e.2) (settled : Settled (successors graph) ordered)
    (same : ∀ x, x ∈ visited ↔ x ∈ ordered)
    (done : visitRoots graph roots visited ordered = .ok result) :
    Settled (successors graph) result ∧ (∀ x ∈ ordered, x ∈ result) ∧ ∀ e ∈ roots, e.1 ∈ result := by
  induction roots generalizing visited ordered with
  | nil =>
    cases done
    exact ⟨settled, fun _ hx => hx, by simp⟩
  | cons root roots ih =>
    obtain ⟨root, prerequisites⟩ := root
    have entry := entries _ List.mem_cons_self
    have others : ∀ e ∈ roots, graph.get? e.1 = some e.2 :=
      fun e he => entries e (List.mem_cons_of_mem _ he)
    simp only [visitRoots] at done
    split at done
    · rename_i seen
      obtain ⟨final, kept, reached⟩ := ih others settled same done
      refine ⟨final, kept, ?_⟩
      rintro e he
      rcases List.mem_cons.mp he with rfl | later
      · exact kept root ((same root).mp seen)
      · exact reached e later
    · rename_i unvisited
      cases walked : visitRoot graph visited ordered root prerequisites with
      | error halt => simp [walked, bind, Except.bind] at done
      | ok walk =>
        simp only [walked, bind, Except.bind] at done
        obtain ⟨settled', same', here, grown⟩ := visitRootSound entry settled same unvisited walked
        obtain ⟨final, kept, reached⟩ := ih others settled' same' done
        refine ⟨final, fun x hx => kept x (grown x hx), ?_⟩
        rintro e he
        rcases List.mem_cons.mp he with rfl | later
        · exact kept root here
        · exact reached e later

/-- An order that is returned settles every node, prerequisites first. -/
theorem acyclicOrderSettled {graph : Graph α} {ordered : List α} (unique : graph.keys.Nodup)
    (returned : acyclicOrder graph = .ok ordered) :
    Settled (successors graph) ordered ∧ ∀ k ∈ graph.keys, k ∈ ordered := by
  obtain ⟨settled, _, reached⟩ := visitRootsSound (fun e he => Dict.getOfMember unique he) .nil
    (by simp) returned
  refine ⟨settled, ?_⟩
  intro k hk
  obtain ⟨e, he, rfl⟩ := List.mem_map.mp hk
  exact reached e he

end Correctness
end Kodezart.AcyclicOrder
