import Mathlib

/-! Labelled spans of a text, their maximal unions, and the text with each union cut out
for a mark in one pass over the spans in order. -/
namespace Kodezart.Spans
variable {α κ : Type*}

structure Span (κ : Type*) where
  start : Nat
  stop : Nat
  label : κ
  nonempty : start < stop

namespace Span

def Covers (span : Span κ) (i : Nat) : Prop := span.start ≤ i ∧ i < span.stop

instance (span : Span κ) (i : Nat) : Decidable (span.Covers i) := inferInstanceAs (Decidable (_ ∧ _))

def Overlaps (span other : Span κ) : Prop := span.start < other.stop ∧ other.start < span.stop

def Within (span region : Span κ) : Prop := region.start ≤ span.start ∧ span.stop ≤ region.stop

theorem overlapsSymm {span other : Span κ} (both : span.Overlaps other) : other.Overlaps span := ⟨both.2, both.1⟩

end Span

/-- Two spans with a chain of overlaps between them. -/
def Chained (spans : List (Span κ)) : Span κ → Span κ → Prop :=
  Relation.ReflTransGen fun span other => other ∈ spans ∧ span.Overlaps other

theorem chainedMono {spans spans' : List (Span κ)} (subset : spans ⊆ spans') {span other : Span κ}
    (chained : Chained spans span other) : Chained spans' span other := by
  induction chained with
  | refl => exact .refl
  | tail _ step ih => exact ih.tail ⟨subset step.1, step.2⟩

/-- The regions are the maximal unions of overlapping spans, in order. -/
structure Unions (spans regions : List (Span κ)) : Prop where
  apart : regions.Pairwise fun region later => region.stop ≤ later.start
  within : ∀ span ∈ spans, ∃ region ∈ regions, span.Within region
  filled : ∀ region ∈ regions, ∀ i, region.Covers i → ∃ span ∈ spans, span.Within region ∧ span.Covers i
  joined : ∀ region ∈ regions, ∀ span ∈ spans, ∀ other ∈ spans, span.Within region → other.Within region →
    Chained spans span other
  named : ∀ region ∈ regions, ∃ span ∈ spans, span.Within region ∧ span.start = region.start ∧
    span.label = region.label

/-- A region with the spans it has taken in, the last of which start no earlier than the rest. -/
structure Region (spans : List (Span κ)) (region : Span κ) : Prop where
  within : ∀ span ∈ spans, span.Within region
  filled : ∀ i, region.Covers i → ∃ span ∈ spans, span.Covers i
  joined : ∀ span ∈ spans, ∀ other ∈ spans, Chained spans span other
  named : ∃ span ∈ spans, span.start = region.start ∧ span.label = region.label
  reached : ∃ span ∈ spans, span.stop = region.stop

def absorb (region : Span κ) : List (Span κ) → List (Span κ)
  | [] => [region]
  | span :: rest =>
    if span.start < region.stop then
      absorb ⟨region.start, max region.stop span.stop, region.label, lt_of_lt_of_le region.nonempty (le_max_left _ _)⟩ rest
    else region :: absorb span rest

def unions : List (Span κ) → List (Span κ)
  | [] => []
  | span :: rest => absorb span rest

section Merge
variable {spans rest : List (Span κ)} {region span : Span κ}

theorem absorbStart (rest : List (Span κ)) (region : Span κ) (ordered : (region :: rest).Pairwise fun a b => a.start ≤ b.start) :
    ∀ later ∈ absorb region rest, region.start ≤ later.start := by
  induction rest generalizing region with
  | nil => simp [absorb]
  | cons span rest ih =>
    obtain ⟨before, ordered⟩ := List.pairwise_cons.mp ordered
    rw [absorb]
    split
    · refine ih _ (List.pairwise_cons.mpr ⟨fun later member => before later (List.mem_cons_of_mem _ member), ?_⟩)
      exact (List.pairwise_cons.mp ordered).2
    · intro later member
      rcases List.mem_cons.mp member with rfl | inside
      · exact le_rfl
      · exact (before span List.mem_cons_self).trans (ih span ordered later inside)

theorem regionSingle (span : Span κ) : Region [span] span where
  within := by simp [Span.Within]
  filled := fun i covers => ⟨span, List.mem_singleton_self _, covers⟩
  joined := by
    intro a left b right
    cases List.mem_singleton.mp left
    cases List.mem_singleton.mp right
    exact .refl
  named := ⟨span, List.mem_singleton_self _, rfl, rfl⟩
  reached := ⟨span, List.mem_singleton_self _, rfl⟩

theorem regionGrows (taken : Region spans region) (ordered : ∀ other ∈ spans, other.start ≤ span.start)
    (touches : span.start < region.stop) : Region (spans ++ [span])
      ⟨region.start, max region.stop span.stop, region.label, lt_of_lt_of_le region.nonempty (le_max_left _ _)⟩ := by
  obtain ⟨last, member, reaches⟩ := taken.reached
  have wider : spans ⊆ spans ++ [span] := List.subset_append_left _ _
  have overlaps : last.Overlaps span :=
    ⟨lt_of_le_of_lt (ordered last member) span.nonempty, reaches ▸ touches⟩
  have join : ∀ other ∈ spans, Chained (spans ++ [span]) other span := fun other inside =>
    (chainedMono wider (taken.joined other inside last member)).tail ⟨by simp, overlaps⟩
  have back : ∀ other ∈ spans, Chained (spans ++ [span]) span other := fun other inside =>
    .head ⟨wider member, Span.overlapsSymm overlaps⟩ (chainedMono wider (taken.joined last member other inside))
  refine ⟨fun other inside => ?_, fun i covers => ?_, fun a left b right => ?_, ?_, ?_⟩
  · rcases List.mem_append.mp inside with old | new
    · exact ⟨(taken.within other old).1, (taken.within other old).2.trans (le_max_left _ _)⟩
    · cases List.mem_singleton.mp new
      exact ⟨((taken.within last member).1).trans (ordered last member), le_max_right _ _⟩
  · by_cases inside : i < region.stop
    · obtain ⟨other, old, at'⟩ := taken.filled i ⟨covers.1, inside⟩
      exact ⟨other, wider old, at'⟩
    · have past : i < span.stop := (lt_max_iff.mp covers.2).resolve_left inside
      exact ⟨span, by simp, by have := touches; omega, past⟩
  · rcases List.mem_append.mp left with old | new <;> rcases List.mem_append.mp right with old' | new'
    · exact chainedMono wider (taken.joined a old b old')
    · cases List.mem_singleton.mp new'
      exact join a old
    · cases List.mem_singleton.mp new
      exact back b old'
    · cases List.mem_singleton.mp new
      cases List.mem_singleton.mp new'
      exact .refl
  · obtain ⟨first, old, same⟩ := taken.named
    exact ⟨first, wider old, same⟩
  · rcases max_choice region.stop span.stop with same | same
    · exact ⟨last, wider member, reaches.trans same.symm⟩
    · exact ⟨span, by simp, same.symm⟩

theorem absorbUnions (rest : List (Span κ)) (spans : List (Span κ)) (region : Span κ) (taken : Region spans region)
    (before : ∀ span ∈ spans, ∀ later ∈ rest, span.start ≤ later.start)
    (ordered : rest.Pairwise fun a b => a.start ≤ b.start) : Unions (spans ++ rest) (absorb region rest) := by
  induction rest generalizing spans region with
  | nil =>
    rw [List.append_nil]
    refine ⟨List.pairwise_singleton _ _, fun span member => ⟨region, by simp [absorb], taken.within span member⟩,
      fun other inside i covers => ?_, fun other inside a left b right _ _ => taken.joined a left b right,
      fun other inside => ?_⟩
    · cases List.mem_singleton.mp inside
      obtain ⟨span, member, at'⟩ := taken.filled i covers
      exact ⟨span, member, taken.within span member, at'⟩
    · cases List.mem_singleton.mp inside
      obtain ⟨first, member, starts, label⟩ := taken.named
      exact ⟨first, member, taken.within first member, starts, label⟩
  | cons span rest ih =>
    obtain ⟨first, later⟩ := List.pairwise_cons.mp ordered
    rw [absorb]
    split
    · rename_i touches
      have grown := ih (spans ++ [span]) _ (regionGrows taken (fun other member => before other member span
        List.mem_cons_self) touches) ?_ later
      · rwa [List.append_assoc] at grown
      · intro other member late inside
        rcases List.mem_append.mp member with old | new
        · exact before other old late (List.mem_cons_of_mem _ inside)
        · cases List.mem_singleton.mp new
          exact first late inside
    · -- The next span starts a region of its own, past everything taken in so far.
      rename_i clear
      have clear : region.stop ≤ span.start := not_lt.mp clear
      have next := ih [span] span (regionSingle span) (fun other member late inside => by
        cases List.mem_singleton.mp member
        exact first late inside) later
      have starts := absorbStart rest span ordered
      have past : ∀ other ∈ span :: rest, region.stop ≤ other.start := by
        intro other member
        rcases List.mem_cons.mp member with rfl | inside
        · exact clear
        · exact clear.trans (first other inside)
      have notHere : ∀ other ∈ span :: rest, ¬ other.Within region := fun other member within => by
        have := past other member
        have := other.nonempty
        have := within.2
        omega
      have notThere : ∀ other ∈ spans, ∀ late ∈ absorb span rest, ¬ other.Within late := fun other member late inside within => by
        have := (taken.within other member).2
        have := starts late inside
        have := other.nonempty
        have := within.1
        omega
      refine ⟨List.pairwise_cons.mpr ⟨fun late inside => clear.trans (starts late inside), next.apart⟩,
        fun other member => ?_, fun late inside i covers => ?_, fun late inside a left b right withinA withinB => ?_,
        fun late inside => ?_⟩
      · rcases List.mem_append.mp member with old | new
        · exact ⟨region, List.mem_cons_self, taken.within other old⟩
        · obtain ⟨late, inside, within⟩ := next.within other new
          exact ⟨late, List.mem_cons_of_mem _ inside, within⟩
      · rcases List.mem_cons.mp inside with rfl | inside
        · obtain ⟨other, old, at'⟩ := taken.filled i covers
          exact ⟨other, List.mem_append_left _ old, taken.within other old, at'⟩
        · obtain ⟨other, new, within, at'⟩ := next.filled late inside i covers
          exact ⟨other, List.mem_append_right _ new, within, at'⟩
      · rcases List.mem_cons.mp inside with rfl | inside
        · have old := (List.mem_append.mp left).resolve_right fun new => notHere a new withinA
          have old' := (List.mem_append.mp right).resolve_right fun new => notHere b new withinB
          exact chainedMono (List.subset_append_left _ _) (taken.joined a old b old')
        · have new := (List.mem_append.mp left).resolve_left fun old => notThere a old late inside withinA
          have new' := (List.mem_append.mp right).resolve_left fun old => notThere b old late inside withinB
          exact chainedMono (List.subset_append_right _ _) (next.joined late inside a new b new' withinA withinB)
      · rcases List.mem_cons.mp inside with rfl | inside
        · obtain ⟨other, old, starts, label⟩ := taken.named
          exact ⟨other, List.mem_append_left _ old, taken.within other old, starts, label⟩
        · obtain ⟨other, new, within, starts, label⟩ := next.named late inside
          exact ⟨other, List.mem_append_right _ new, within, starts, label⟩

theorem unionsSound (ordered : spans.Pairwise fun a b => a.start ≤ b.start) : Unions spans (unions spans) := by
  cases spans with
  | nil => exact ⟨List.Pairwise.nil, by simp, by simp [unions], by simp [unions], by simp [unions]⟩
  | cons span rest =>
    obtain ⟨first, later⟩ := List.pairwise_cons.mp ordered
    refine absorbUnions rest [span] span (regionSingle span) (fun other member late inside => ?_) later
    cases List.mem_singleton.mp member
    exact first late inside

end Merge

section Text
variable (text : List α) (mark : κ → List α)

/-- The text cut at each region: what stands between two of them, and each region's label. -/
def pieces (text : List α) (cursor : Nat) : List (Span κ) → List (List α ⊕ κ)
  | [] => [.inl (text.drop cursor)]
  | region :: rest => .inl ((text.take region.start).drop cursor) :: .inr region.label :: pieces text region.stop rest

def render : List (List α ⊕ κ) → List α
  | [] => []
  | .inl kept :: rest => kept ++ render rest
  | .inr label :: rest => mark label ++ render rest

/-- One pass over the spans, each marked where it starts past all before it. -/
def sweep (text : List α) (mark : κ → List α) (cursor : Nat) : List (Span κ) → List α
  | [] => text.drop cursor
  | span :: rest =>
    if span.start < cursor then sweep text mark (max cursor span.stop) rest
    else (text.take span.start).drop cursor ++ mark span.label ++ sweep text mark span.stop rest

/-- The text outside every span, in order. -/
def outside (text : List α) (spans : List (Span κ)) : List α :=
  (text.zipIdx.filter fun e => ∀ span ∈ spans, ¬ span.Covers e.2).map Prod.fst

variable {text mark} {spans regions : List (Span κ)}

theorem sweepAbsorbed (rest : List (Span κ)) (region : Span κ) (cursor : Nat) :
    render mark (pieces text cursor (absorb region rest)) =
      (text.take region.start).drop cursor ++ mark region.label ++ sweep text mark region.stop rest := by
  induction rest generalizing region cursor with
  | nil => simp [absorb, pieces, render, sweep]
  | cons span rest ih =>
    simp only [absorb, sweep]
    split
    · rw [ih]
    · simp only [pieces, render, ih, List.append_assoc]

theorem sweepUnions (text : List α) (mark : κ → List α) (spans : List (Span κ)) :
    sweep text mark 0 spans = render mark (pieces text 0 (unions spans)) := by
  cases spans with
  | nil => simp [sweep, unions, pieces, render]
  | cons span rest => simp [sweep, unions, sweepAbsorbed]

theorem coversUnions (unions : Unions spans regions) (i : Nat) :
    (∃ span ∈ spans, span.Covers i) ↔ ∃ region ∈ regions, region.Covers i := by
  constructor
  · rintro ⟨span, member, covers⟩
    obtain ⟨region, inside, within⟩ := unions.within span member
    exact ⟨region, inside, within.1.trans covers.1, lt_of_lt_of_le covers.2 within.2⟩
  · rintro ⟨region, inside, covers⟩
    obtain ⟨span, member, -, at'⟩ := unions.filled region inside i covers
    exact ⟨span, member, at'⟩

theorem dropSplit {β : Type*} (items : List β) {a b : Nat} (le : a ≤ b) :
    items.drop a = (items.take b).drop a ++ items.drop b := by
  have later : items.drop b = (items.drop a).drop (b - a) := by rw [List.drop_drop, Nat.add_sub_cancel' le]
  rw [List.drop_take, later, List.take_append_drop]

theorem indexBetween {a b : Nat} {e : α × Nat} (member : e ∈ (text.zipIdx.take b).drop a) : a ≤ e.2 ∧ e.2 < b := by
  obtain ⟨k, at'⟩ := List.mem_iff_getElem?.mp member
  rw [List.getElem?_drop, List.getElem?_take] at at'
  split at at'
  · rename_i before
    rw [List.getElem?_zipIdx] at at'
    obtain ⟨c, -, rfl⟩ := Option.map_eq_some_iff.mp at'
    exact ⟨by simp, by simpa using before⟩
  · cases at'

theorem indexAfter {a : Nat} {e : α × Nat} (member : e ∈ text.zipIdx.drop a) : a ≤ e.2 := by
  obtain ⟨k, at'⟩ := List.mem_iff_getElem?.mp member
  rw [List.getElem?_drop, List.getElem?_zipIdx] at at'
  obtain ⟨c, -, rfl⟩ := Option.map_eq_some_iff.mp at'
  simp

/-- Between two marks the text stands as it was. -/
theorem piecesOutside (apart : regions.Pairwise fun region later => region.stop ≤ later.start) (cursor : Nat)
    (after : ∀ region ∈ regions, cursor ≤ region.start) :
    render (fun _ => []) (pieces text cursor regions) =
      ((text.zipIdx.drop cursor).filter fun e => ∀ region ∈ regions, ¬ region.Covers e.2).map Prod.fst := by
  induction regions generalizing cursor with
  | nil => simp [pieces, render]
  | cons region rest ih =>
    obtain ⟨later, apart⟩ := List.pairwise_cons.mp apart
    have here := after region List.mem_cons_self
    have before : ((text.zipIdx.take region.start).drop cursor).filter
        (fun e => ∀ other ∈ region :: rest, ¬ other.Covers e.2) = (text.zipIdx.take region.start).drop cursor := by
      refine List.filter_eq_self.mpr fun e member => decide_eq_true fun other inside covers => ?_
      have := (indexBetween member).2
      have start : region.start ≤ other.start := by
        rcases List.mem_cons.mp inside with rfl | inside
        · exact le_rfl
        · exact region.nonempty.le.trans (later other inside)
      exact absurd covers.1 (by omega)
    have within : ((text.zipIdx.take region.stop).drop region.start).filter
        (fun e => ∀ other ∈ region :: rest, ¬ other.Covers e.2) = [] := by
      refine List.filter_eq_nil_iff.mpr fun e member => ?_
      have covers : region.Covers e.2 := indexBetween member
      simp [covers]
    have past : (text.zipIdx.drop region.stop).filter (fun e => ∀ other ∈ region :: rest, ¬ other.Covers e.2) =
        (text.zipIdx.drop region.stop).filter (fun e => ∀ other ∈ rest, ¬ other.Covers e.2) := by
      refine List.filter_congr fun e member => ?_
      have uncovered : ¬ region.Covers e.2 := fun covers => absurd covers.2 (not_lt.mpr (indexAfter member))
      simp [uncovered]
    calc render (fun _ => []) (pieces text cursor (region :: rest))
        = (text.take region.start).drop cursor ++ render (fun _ => []) (pieces text region.stop rest) := by
          simp [pieces, render]
      _ = ((text.zipIdx.drop cursor).filter fun e => ∀ other ∈ region :: rest, ¬ other.Covers e.2).map Prod.fst := by
          rw [ih apart region.stop later, dropSplit text.zipIdx here, dropSplit text.zipIdx region.nonempty.le]
          simp only [List.filter_append, before, within, past, List.map_append, List.nil_append, List.map_drop,
            List.map_take, List.zipIdx_map_fst]

/-- What a cut text keeps is what no span covers. -/
theorem unionsOutside (unions : Unions spans regions) :
    render (fun _ => []) (pieces text 0 regions) = outside text spans := by
  rw [piecesOutside unions.apart 0 fun _ _ => Nat.zero_le _, List.drop_zero, outside]
  congr 1
  refine List.filter_congr fun e _ => ?_
  have same := coversUnions unions e.2
  simp only [decide_eq_decide]
  constructor
  · rintro clear span member covers
    obtain ⟨region, inside, at'⟩ := same.mp ⟨span, member, covers⟩
    exact clear region inside at'
  · rintro clear region inside covers
    obtain ⟨span, member, at'⟩ := same.mpr ⟨region, inside, covers⟩
    exact clear span member at'

/-- Unions are of the spans there are, in whatever order they came. -/
theorem unionsCongr {spans' : List (Span κ)} (same : ∀ span, span ∈ spans ↔ span ∈ spans') (unions : Unions spans regions) :
    Unions spans' regions where
  apart := unions.apart
  within := fun span member => unions.within span ((same span).mpr member)
  filled := fun region inside i covers =>
    have ⟨span, member, within⟩ := unions.filled region inside i covers
    ⟨span, (same span).mp member, within⟩
  joined := fun region inside span member other member' within within' => chainedMono (fun _ => (same _).mp)
    (unions.joined region inside span ((same span).mpr member) other ((same other).mpr member') within within')
  named := fun region inside =>
    have ⟨span, member, named⟩ := unions.named region inside
    ⟨span, (same span).mp member, named⟩

end Text
end Kodezart.Spans
