import Kodezart.Fallible

/-! Listings read page by page, each page naming the cursor of the next. A traversal runs its
caller's work on the rows of a page before it asks whether the cursor advances. -/
namespace Kodezart.Paging
variable {α ε σ : Type}

structure Page (α : Type) where
  rows : List α
  hasMore : Bool
  cursor : Option String

/-- The pages a reader delivers from a cursor on, so many of them, each continued by a fresh cursor. -/
inductive Delivers (read : Option String → Except ε (Page α)) : List String → Option String → Nat → List α → Prop where
  | last {seen : List String} {cursor : Option String} {page : Page α} (answered : read cursor = .ok page)
      (ends : page.hasMore = false) : Delivers read seen cursor 1 page.rows
  | more {seen : List String} {cursor : Option String} {page : Page α} {next : String} {count : Nat} {rows : List α}
      (answered : read cursor = .ok page) (continues : page.hasMore = true) (named : page.cursor = some next)
      (filled : next ≠ "") (fresh : next ∉ seen) (rest : Delivers read (next :: seen) (some next) count rows) :
      Delivers read seen cursor (count + 1) (page.rows ++ rows)

section Traversal
variable (read : Option String → Except ε (Page α)) (refusal : Option String → ε) (unfinished : ε)
  (body : σ → α → Except ε σ)

def cursorPages : Nat → List String → Option String → σ → Except ε σ
  | 0, _, _, _ => .error unfinished
  | fuel + 1, seen, cursor, state => do
    let page ← read cursor
    let state ← page.rows.foldlM body state
    if page.hasMore then
      match page.cursor with
      | none => .error (refusal none)
      | some next =>
        if next = "" ∨ next ∈ seen then .error (refusal (some next))
        else cursorPages fuel (next :: seen) (some next) state
    else return state

end Traversal

variable {read : Option String → Except ε (Page α)} {refusal : Option String → ε} {unfinished : ε}
  {body : σ → α → Except ε σ} {seen : List String} {cursor : Option String} {count fuel : Nat} {rows rows' : List α}
  {state state' : σ}

theorem deliversEnd {next : Option String} (answered : read cursor = .ok ⟨rows, false, next⟩) : Delivers read seen cursor 1 rows :=
  .last answered rfl

theorem deliversOn {next : String} (answered : read cursor = .ok ⟨rows, true, some next⟩) (filled : next ≠ "") (fresh : next ∉ seen)
    (rest : Delivers read (next :: seen) (some next) count rows') : Delivers read seen cursor (count + 1) (rows ++ rows') :=
  .more answered rfl rfl filled fresh rest

theorem deliversOnce {count' : Nat} (one : Delivers read seen cursor count rows)
    (other : Delivers read seen cursor count' rows') : rows = rows' := by
  induction one generalizing count' rows' with
  | last answered ends =>
    cases other with
    | last answered' _ =>
      cases answered.symm.trans answered'
      rfl
    | more answered' continues' =>
      cases answered.symm.trans answered'
      cases ends.symm.trans continues'
  | more answered continues named _ _ _ ih =>
    cases other with
    | last answered' ends' =>
      cases answered.symm.trans answered'
      cases continues.symm.trans ends'
    | more answered' _ named' _ _ rest' =>
      cases answered.symm.trans answered'
      cases named.symm.trans named'
      rw [ih rest']

theorem pageAnswered {page : Page α} (answered : read cursor = .ok page) :
    cursorPages read refusal unfinished body (fuel + 1) seen cursor state = (page.rows.foldlM body state >>= fun state =>
      if page.hasMore then
        match page.cursor with
        | none => .error (refusal none)
        | some next =>
          if next = "" ∨ next ∈ seen then .error (refusal (some next))
          else cursorPages read refusal unfinished body fuel (next :: seen) (some next) state
      else .ok state) := by
  rw [cursorPages, answered]
  rfl

/-- A traversal with the fuel for the pages delivered is the work on their rows, one after the other. -/
theorem pagesFold (delivers : Delivers read seen cursor count rows) (enough : count ≤ fuel) :
    cursorPages read refusal unfinished body fuel seen cursor state = rows.foldlM body state := by
  induction delivers generalizing fuel state with
  | @last seen cursor page answered ends =>
    obtain ⟨fuel, rfl⟩ : ∃ more, fuel = more + 1 := ⟨fuel - 1, by omega⟩
    rw [pageAnswered answered]
    cases page.rows.foldlM body state with
    | error e => rfl
    | ok mid => exact if_neg (ne_true_of_eq_false ends)
  | @more seen cursor page next count rows answered continues named filled fresh rest ih =>
    obtain ⟨fuel, rfl⟩ : ∃ more, fuel = more + 1 := ⟨fuel - 1, by omega⟩
    have advances : ¬ (next = "" ∨ next ∈ seen) := not_or.mpr ⟨filled, fresh⟩
    rw [pageAnswered answered, List.foldlM_append]
    refine congrArg (page.rows.foldlM body state >>= ·) (funext fun mid => ?_)
    rw [if_pos continues, named]
    exact (if_neg advances).trans (ih (Nat.le_of_succ_le_succ enough))

/-- A traversal that returns has worked on every row delivered, in order. -/
theorem pagesDelivered (ok : cursorPages read refusal unfinished body fuel seen cursor state = .ok state') :
    ∃ count rows, Delivers read seen cursor count rows ∧ rows.foldlM body state = .ok state' := by
  induction fuel generalizing seen cursor state with
  | zero => cases ok
  | succ fuel ih =>
    obtain ⟨page, answered, -⟩ := bindOk.mp ok
    rw [pageAnswered answered] at ok
    obtain ⟨mid, worked, ok⟩ := bindOk.mp ok
    split at ok
    · rename_i continues
      split at ok
      · cases ok
      · rename_i next named
        split at ok
        · cases ok
        · rename_i advances
          obtain ⟨filled, fresh⟩ := not_or.mp advances
          obtain ⟨count, rows, rest, folded⟩ := ih ok
          refine ⟨count + 1, page.rows ++ rows, .more answered continues named filled fresh rest, ?_⟩
          rw [List.foldlM_append, worked]
          exact folded
    · rename_i ends
      cases ok
      exact ⟨1, page.rows, .last answered (Bool.not_eq_true _ ▸ ends), worked⟩

theorem foldKeepsFrom {Kept : List α → σ → Prop} {before : List α} (start : Kept before state)
    (row : ∀ before r state, Kept before state → r ∈ rows → ∃ state', body state r = .ok state' ∧ Kept (before ++ [r]) state') :
    ∃ state', rows.foldlM body state = .ok state' ∧ Kept (before ++ rows) state' := by
  induction rows generalizing before state with
  | nil => exact ⟨state, rfl, by simpa using start⟩
  | cons r rows ih =>
    obtain ⟨mid, worked, kept⟩ := row before r state start (List.mem_cons_self ..)
    obtain ⟨last, folded, all⟩ := ih kept fun before r' state held member => row before r' state held (List.mem_cons_of_mem _ member)
    refine ⟨last, ?_, by simpa using all⟩
    rw [List.foldlM_cons, worked]
    exact folded

/-- What each row keeps, whatever rows came before it, a fold over rows keeps. -/
theorem foldKeeps (Kept : List α → σ → Prop) (body : σ → α → Except ε σ) (rows : List α) (start : Kept [] state)
    (row : ∀ before r state, Kept before state → r ∈ rows → ∃ state', body state r = .ok state' ∧ Kept (before ++ [r]) state') :
    ∃ state', rows.foldlM body state = .ok state' ∧ Kept rows state' :=
  foldKeepsFrom start row

theorem foldKeptFrom {Kept : List α → σ → Prop} {before : List α} (start : Kept before state)
    (row : ∀ before r state state', Kept before state → r ∈ rows → body state r = .ok state' → Kept (before ++ [r]) state')
    (folded : rows.foldlM body state = .ok state') : Kept (before ++ rows) state' := by
  induction rows generalizing before state with
  | nil =>
    cases folded
    simpa using start
  | cons r rows ih =>
    rw [List.foldlM_cons] at folded
    obtain ⟨mid, worked, folded⟩ := bindOk.mp folded
    have kept := row before r state mid start (List.mem_cons_self ..) worked
    simpa using ih kept (fun before r' state state' held member => row before r' state state' held (List.mem_cons_of_mem _ member)) folded

/-- What each row that is handled keeps, a fold that ends has kept. -/
theorem foldKept (Kept : List α → σ → Prop) (start : Kept [] state)
    (row : ∀ before r state state', Kept before state → r ∈ rows → body state r = .ok state' → Kept (before ++ [r]) state')
    (folded : rows.foldlM body state = .ok state') : Kept rows state' :=
  foldKeptFrom start row folded

theorem deliversRenamed {ε' : Type} {rename : ε → ε'} :
    Delivers (fun cursor => (read cursor).mapError rename) seen cursor count rows ↔ Delivers read seen cursor count rows := by
  constructor
  · intro delivers
    induction delivers with
    | last answered ends => exact .last (mapErrorOk.mp answered) ends
    | more answered continues named filled fresh _ ih => exact .more (mapErrorOk.mp answered) continues named filled fresh ih
  · intro delivers
    induction delivers with
    | last answered ends => exact .last (mapErrorOk.mpr answered) ends
    | more answered continues named filled fresh _ ih => exact .more (mapErrorOk.mpr answered) continues named filled fresh ih

end Kodezart.Paging
