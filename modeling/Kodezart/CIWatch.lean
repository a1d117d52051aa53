import Kodezart.CheckRuns

/-! One watch over a ref's check runs: grace polls while no run has been observed, then polls
of the run set, and the counters that end it. -/
namespace Kodezart.CIWatch
open TextLines

/-- What the repository's workflow listing says, where it can be read. -/
structure WorkflowsResponse where
  totalCount : Int
  states : List String
  deriving DecidableEq, Repr

inductive WorkflowsProbeResult where
  | active | noneActive | indeterminate
  deriving DecidableEq, Repr

/-- A listing that cannot be read classifies nothing. -/
def probeWorkflows : Option WorkflowsResponse → WorkflowsProbeResult
  | none => .indeterminate
  | some listing =>
    if listing.states.any (· = "active") ∨ (listing.states.length : Int) < listing.totalCount then .active
    else .noneActive

structure Bounds where
  pollMaxAttempts : Nat
  noChecksGracePolls : Nat
  noWorkflowsGracePolls : Nat
  refNotFoundGracePolls : Nat
  checkRunsMaxPages : Nat
  deriving DecidableEq, Repr

def Bounds.gracePollsFor (bounds : Bounds) : WorkflowsProbeResult → Nat
  | .noneActive => bounds.noWorkflowsGracePolls
  | _ => bounds.noChecksGracePolls

structure IncompleteChecks where
  commitShas : Finset String
  checkNames : Finset String
  failedCheckNames : Finset String
  observedCount : Nat
  expectedCount : Nat
  summary : String
  deriving DecidableEq

inductive CIWatchResult where
  | observed (checks : ObservedChecks)
  | absent (summary : String)
  | incomplete (checks : IncompleteChecks)
  deriving DecidableEq

def noChecksSummary (probe : WorkflowsProbeResult) (gracePolls : Nat) : String :=
  if probe = .noneActive then "No CI checks configured: repository has no active workflows."
  else s!"No CI checks appeared for this ref after {gracePolls} polls."

/-- What the watch carries from one poll to the next. -/
structure Watch where
  probe : Option WorkflowsProbeResult := none
  runsObserved : Bool := false
  emptyPolls : Nat := 0
  notFoundPolls : Nat := 0
  pollsUsed : Nat := 0
  deriving DecidableEq, Repr

inductive Polled where
  | again (watch : Watch)
  | ends (result : Except Raised CIWatchResult)

/-- The last partial observation; a count below zero is no count the model admits. -/
def incompleteChecks (attempts : Nat) (page : CheckRunsResponse) : Except Raised CIWatchResult :=
  match page.totalCount with
  | .ofNat expected => .ok (.incomplete
      ⟨(page.checkRuns.filterMap fun check => check.headSha.filter (· ≠ "")).toFinset,
        (page.checkRuns.map CheckRun.name).toFinset,
        ((page.checkRuns.filter CheckRun.failed).map CheckRun.name).toFinset, page.checkRuns.length, expected,
        s!"CI checks still running after {attempts} polls."⟩)
  | .negSucc _ => .error (.validationError "expected_count")

section Waits
variable (bounds : Bounds) (ref : String) (workflows : Option WorkflowsResponse)

def Watch.poll (watch : Watch) : Except Raised (Option CheckRunsResponse) → Polled
  | .error raised => .ends (.error raised)
  | .ok none =>
    let notFoundPolls := watch.notFoundPolls + 1
    if bounds.refNotFoundGracePolls < notFoundPolls then
      .ends (.error (.transientAPIError s!"Check runs for {ref} not found after {notFoundPolls} consecutive polls."))
    else .again { watch with notFoundPolls }
  | .ok (some page) =>
    if watch.runsObserved = false ∧ page.totalCount = 0 then
      let emptyPolls := watch.emptyPolls + 1
      let probe := watch.probe.getD (probeWorkflows workflows)
      if bounds.gracePollsFor probe ≤ emptyPolls then
        .ends (.ok (.absent (noChecksSummary probe (bounds.gracePollsFor probe))))
      else .again { watch with notFoundPolls := 0, emptyPolls, probe := some probe }
    else
      let pollsUsed := watch.pollsUsed + 1
      match verdict page with
      | some (passed, summary) => .ends ((completedWatch ref page passed summary).map .observed)
      | none =>
        if bounds.pollMaxAttempts ≤ pollsUsed then .ends (incompleteChecks bounds.pollMaxAttempts page)
        else .again { watch with runsObserved := true, notFoundPolls := 0, pollsUsed }

variable (answers : Nat → Nat → PageAnswer)

/-- As many polls as the configured counters leave a watch. -/
def Bounds.pollBound (bounds : Bounds) : Nat :=
  (bounds.refNotFoundGracePolls + 1) *
    (max bounds.noChecksGracePolls bounds.noWorkflowsGracePolls + bounds.pollMaxAttempts + 1)

/-- What poll `k` comes to. -/
def polled (k : Nat) : Except Raised (Option CheckRunsResponse) :=
  fetchCheckRuns (answers k) true bounds.checkRunsMaxPages

/-- The watch from poll `k` on, for `fuel` polls at most, with the poll it ends at. -/
def watchFrom : (fuel k : Nat) → Watch → Option (Nat × Except Raised CIWatchResult)
  | 0, _, _ => none
  | fuel + 1, k, watch =>
    match watch.poll bounds ref workflows (polled bounds answers k) with
    | .again watch => watchFrom fuel (k + 1) watch
    | .ends result => some (k, result)

def waitForChecks (fuel : Nat) : Option (Nat × Except Raised CIWatchResult) :=
  watchFrom bounds ref workflows answers fuel 0 {}

/-- The watch stands so before poll `k`. -/
inductive Reaches : Nat → Watch → Prop where
  | start : Reaches 0 {}
  | next {k : Nat} {watch watch' : Watch} (early : Reaches k watch)
      (goes : watch.poll bounds ref workflows (polled bounds answers k) = .again watch') : Reaches (k + 1) watch'

def Missing (k : Nat) : Prop := polled bounds answers k = .ok none

def Empty (k : Nat) : Prop := ∃ page, polled bounds answers k = .ok (some page) ∧ page.totalCount = 0

instance (k : Nat) : Decidable (Missing bounds answers k) := by
  unfold Missing
  infer_instance

instance (k : Nat) : Decidable (Empty bounds answers k) :=
  match found : polled bounds answers k with
  | .ok (some page) =>
    if none_reported : page.totalCount = 0 then isTrue ⟨page, found, none_reported⟩
    else isFalse fun ⟨other, same, zero⟩ => none_reported (by rw [found] at same; cases same; exact zero)
  | .ok none => isFalse fun ⟨other, same, _⟩ => by rw [found] at same; cases same
  | .error raised => isFalse fun ⟨other, same, _⟩ => by rw [found] at same; cases same

/-- The polls that have found the ref at all. -/
abbrev emptyBefore (k : Nat) : Nat := Nat.count (Empty bounds answers) k

/-- What the counters have counted, before poll `k`. -/
structure Stands (k : Nat) (watch : Watch) : Prop where
  unobserved : watch.runsObserved = false → ∀ j < k, Missing bounds answers j ∨ Empty bounds answers j
  empties : watch.runsObserved = false → watch.emptyPolls = emptyBefore bounds answers k
  probed : watch.probe.getD (probeWorkflows workflows) = probeWorkflows workflows
  graced : 0 < watch.emptyPolls → watch.emptyPolls < bounds.gracePollsFor (probeWorkflows workflows)
  attempted : 0 < watch.pollsUsed → watch.pollsUsed < bounds.pollMaxAttempts
  tolerated : watch.notFoundPolls ≤ bounds.refNotFoundGracePolls
  within : watch.notFoundPolls ≤ k
  streak : ∀ j < k, k - watch.notFoundPolls ≤ j → Missing bounds answers j
  broken : watch.notFoundPolls < k → ¬ Missing bounds answers (k - watch.notFoundPolls - 1)
  windows : ∀ j, j + bounds.refNotFoundGracePolls < k →
    ∃ i ≤ bounds.refNotFoundGracePolls, ¬ Missing bounds answers (j + i)
  polls : k ≤ (bounds.refNotFoundGracePolls + 1) * (watch.emptyPolls + watch.pollsUsed) + watch.notFoundPolls

/-- The three ways a poll leaves the watch going. -/
inductive Goes (watch : Watch) : Except Raised (Option CheckRunsResponse) → Watch → Prop where
  | missing (tolerated : watch.notFoundPolls + 1 ≤ bounds.refNotFoundGracePolls) :
    Goes watch (.ok none) { watch with notFoundPolls := watch.notFoundPolls + 1 }
  | empty {page : CheckRunsResponse} (unobserved : watch.runsObserved = false) (zero : page.totalCount = 0)
    (graced : watch.emptyPolls + 1 < bounds.gracePollsFor (watch.probe.getD (probeWorkflows workflows))) :
    Goes watch (.ok (some page)) { watch with
      notFoundPolls := 0
      emptyPolls := watch.emptyPolls + 1
      probe := some (watch.probe.getD (probeWorkflows workflows)) }
  | pending {page : CheckRunsResponse} (reported : ¬ (watch.runsObserved = false ∧ page.totalCount = 0))
    (attempted : watch.pollsUsed + 1 < bounds.pollMaxAttempts) :
    Goes watch (.ok (some page)) { watch with
      runsObserved := true
      notFoundPolls := 0
      pollsUsed := watch.pollsUsed + 1 }

variable {bounds ref workflows answers} {watch watch' : Watch} {k : Nat}

theorem pollGoes {page : Except Raised (Option CheckRunsResponse)}
    (goes : watch.poll bounds ref workflows page = .again watch') : Goes bounds workflows watch page watch' := by
  unfold Watch.poll at goes
  dsimp only at goes
  split at goes
  · cases goes
  · split at goes
    · cases goes
    · rename_i tolerated
      cases goes
      exact .missing (by omega)
  · split at goes
    · rename_i page first
      split at goes
      · cases goes
      · rename_i graced
        cases goes
        exact .empty first.1 first.2 (by omega)
    · rename_i page reported
      split at goes
      · cases goes
      · split at goes
        · cases goes
        · rename_i attempted
          cases goes
          exact .pending reported (by omega)

theorem notMissing {page : CheckRunsResponse} (seen : polled bounds answers k = .ok (some page)) :
    ¬ Missing bounds answers k := by
  intro missing
  rw [Missing, seen] at missing
  cases missing

theorem notEmpty (missing : Missing bounds answers k) : ¬ Empty bounds answers k :=
  fun ⟨_, seen, _⟩ => notMissing seen missing

/-- A poll that finds the ref starts its streak of 404s again. -/
theorem windowsFound (stands : Stands bounds workflows answers k watch) (found : ¬ Missing bounds answers k) :
    ∀ j, j + bounds.refNotFoundGracePolls < k + 1 →
      ∃ i ≤ bounds.refNotFoundGracePolls, ¬ Missing bounds answers (j + i) := by
  intro j inside
  by_cases early : j + bounds.refNotFoundGracePolls < k
  · exact stands.windows j early
  · have last : j + bounds.refNotFoundGracePolls = k := by omega
    exact ⟨_, le_refl _, by rw [last]; exact found⟩

theorem standsNext (stands : Stands bounds workflows answers k watch)
    (goes : Goes bounds workflows watch (polled bounds answers k) watch') :
    Stands bounds workflows answers (k + 1) watch' := by
  generalize seen : polled bounds answers k = page at goes
  cases goes with
  | missing tolerated =>
    have missing : Missing bounds answers k := seen
    refine ⟨?_, ?_, stands.probed, stands.graced, stands.attempted, tolerated, ?_, ?_, ?_, ?_, ?_⟩
    · intro unobserved j before
      rcases Nat.lt_succ_iff_lt_or_eq.mp before with early | rfl
      · exact stands.unobserved unobserved j early
      · exact Or.inl missing
    · intro unobserved
      rw [emptyBefore, Nat.count_succ, if_neg (notEmpty missing)]
      exact stands.empties unobserved
    · have within := stands.within
      dsimp only
      omega
    · intro j before recent
      dsimp only at recent
      rcases Nat.lt_succ_iff_lt_or_eq.mp before with early | rfl
      · exact stands.streak j early (by omega)
      · exact missing
    · intro short
      dsimp only at short ⊢
      rw [show k + 1 - (watch.notFoundPolls + 1) - 1 = k - watch.notFoundPolls - 1 by omega]
      exact stands.broken (by omega)
    · intro j inside
      by_cases early : j + bounds.refNotFoundGracePolls < k
      · exact stands.windows j early
      · have within := stands.within
        refine ⟨k - watch.notFoundPolls - 1 - j, by omega, ?_⟩
        rw [show j + (k - watch.notFoundPolls - 1 - j) = k - watch.notFoundPolls - 1 by omega]
        exact stands.broken (by omega)
    · have polls := stands.polls
      dsimp only
      omega
  | empty unobserved zero graced =>
    have empty : Empty bounds answers k := ⟨_, seen, zero⟩
    have found : ¬ Missing bounds answers k := notMissing seen
    rw [stands.probed] at graced
    refine ⟨?_, ?_, stands.probed, fun _ => graced, stands.attempted, Nat.zero_le _, Nat.zero_le _, ?_, fun _ => found,
      windowsFound stands found, ?_⟩
    · intro _ j before
      rcases Nat.lt_succ_iff_lt_or_eq.mp before with early | rfl
      · exact stands.unobserved unobserved j early
      · exact Or.inr empty
    · intro _
      rw [emptyBefore, Nat.count_succ, if_pos empty]
      exact congrArg (· + 1) (stands.empties unobserved)
    · intro j before recent
      dsimp only at recent
      omega
    · have polls := stands.polls
      have tolerated := stands.tolerated
      dsimp only
      nlinarith
  | pending reported attempted =>
    have found : ¬ Missing bounds answers k := notMissing seen
    refine ⟨by simp, by simp, stands.probed, stands.graced, fun _ => attempted, Nat.zero_le _, Nat.zero_le _, ?_,
      fun _ => found, windowsFound stands found, ?_⟩
    · intro j before recent
      dsimp only at recent
      omega
    · have polls := stands.polls
      have tolerated := stands.tolerated
      dsimp only
      nlinarith

theorem reachesStands (early : Reaches bounds ref workflows answers k watch) :
    Stands bounds workflows answers k watch := by
  induction early with
  | start => exact ⟨by simp, by simp, rfl, by simp, by simp, Nat.zero_le _, le_refl _, by simp, by simp, by simp, by simp⟩
  | next early goes ih => exact standsNext ih (pollGoes goes)

/-- The watch ends at poll `n` with this result. -/
def EndsAt (bounds : Bounds) (ref : String) (workflows : Option WorkflowsResponse)
    (answers : Nat → Nat → PageAnswer) (n : Nat) (result : Except Raised CIWatchResult) : Prop :=
  ∃ watch, Reaches bounds ref workflows answers n watch ∧
    watch.poll bounds ref workflows (polled bounds answers n) = .ends result

theorem watchFromEnds {fuel n : Nat} {result : Except Raised CIWatchResult}
    (early : Reaches bounds ref workflows answers k watch)
    (ended : watchFrom bounds ref workflows answers fuel k watch = some (n, result)) :
    EndsAt bounds ref workflows answers n result := by
  induction fuel generalizing k watch with
  | zero => cases ended
  | succ fuel ih =>
    rw [watchFrom] at ended
    split at ended
    · rename_i goes
      exact ih (.next early goes) ended
    · rename_i ends
      cases ended
      exact ⟨watch, early, ends⟩

theorem watchFromReaches (early : Reaches bounds ref workflows answers k watch) (fuel : Nat) :
    watchFrom bounds ref workflows answers (k + fuel) 0 {} = watchFrom bounds ref workflows answers fuel k watch := by
  induction early generalizing fuel with
  | start => rw [Nat.zero_add]
  | @next k watch watch' early goes ih =>
    rw [show k + 1 + fuel = k + (fuel + 1) by omega, ih, watchFrom, goes]

theorem waitEndsIff {n : Nat} {result : Except Raised CIWatchResult} :
    (∃ fuel, waitForChecks bounds ref workflows answers fuel = some (n, result)) ↔
      EndsAt bounds ref workflows answers n result := by
  constructor
  · rintro ⟨fuel, ended⟩
    exact watchFromEnds .start ended
  · rintro ⟨watch, early, ends⟩
    refine ⟨n + 1, ?_⟩
    rw [waitForChecks, watchFromReaches early, watchFrom, ends]

theorem reachesBound (early : Reaches bounds ref workflows answers k watch) : k < bounds.pollBound := by
  have stands := reachesStands early
  have polls := stands.polls
  have tolerated := stands.tolerated
  have graced : watch.emptyPolls ≤ max bounds.noChecksGracePolls bounds.noWorkflowsGracePolls := by
    have some_poll := stands.graced
    have within : bounds.gracePollsFor (probeWorkflows workflows) ≤
        max bounds.noChecksGracePolls bounds.noWorkflowsGracePolls := by
      cases probeWorkflows workflows <;> simp [Bounds.gracePollsFor]
    omega
  have attempted : watch.pollsUsed ≤ bounds.pollMaxAttempts := by
    have some_poll := stands.attempted
    omega
  have counted : (bounds.refNotFoundGracePolls + 1) * (watch.emptyPolls + watch.pollsUsed) ≤
      (bounds.refNotFoundGracePolls + 1) *
        (max bounds.noChecksGracePolls bounds.noWorkflowsGracePolls + bounds.pollMaxAttempts) :=
    Nat.mul_le_mul_left _ (Nat.add_le_add graced attempted)
  rw [Bounds.pollBound, Nat.mul_add, Nat.mul_one]
  omega

theorem watchFromTotal (early : Reaches bounds ref workflows answers k watch) (fuel : Nat)
    (enough : bounds.pollBound ≤ k + fuel) :
    ∃ n result, watchFrom bounds ref workflows answers fuel k watch = some (n, result) := by
  induction fuel generalizing k watch with
  | zero =>
    have before := reachesBound early
    omega
  | succ fuel ih =>
    rw [watchFrom]
    cases goes : watch.poll bounds ref workflows (polled bounds answers k) with
    | again watch' => exact ih (.next early goes) (by omega)
    | ends result => exact ⟨k, result, rfl⟩

/-- What makes a watch end absent at poll `n`: found with nothing reported as often as the grace
window asks, at poll `n` for the last time, and never missing for longer than is tolerated. -/
structure GraceFills (bounds : Bounds) (workflows : Option WorkflowsResponse)
    (answers : Nat → Nat → PageAnswer) (n : Nat) : Prop where
  unobserved : ∀ k ≤ n, Missing bounds answers k ∨ Empty bounds answers k
  last : Empty bounds answers n
  filled : emptyBefore bounds answers (n + 1) = max 1 (bounds.gracePollsFor (probeWorkflows workflows))
  tolerated : ∀ k, k + bounds.refNotFoundGracePolls ≤ n →
    ∃ i ≤ bounds.refNotFoundGracePolls, ¬ Missing bounds answers (k + i)

theorem pollAbsent {page : Except Raised (Option CheckRunsResponse)} {summary : String}
    (ends : watch.poll bounds ref workflows page = .ends (.ok (.absent summary))) :
    ∃ reported, page = .ok (some reported) ∧ reported.totalCount = 0 ∧ watch.runsObserved = false ∧
      bounds.gracePollsFor (watch.probe.getD (probeWorkflows workflows)) ≤ watch.emptyPolls + 1 := by
  unfold Watch.poll at ends
  dsimp only at ends
  split at ends
  · cases ends
  · split at ends <;> cases ends
  · rename_i reported
    split at ends
    · rename_i first
      split at ends
      · rename_i filled
        exact ⟨reported, rfl, first.2, first.1, filled⟩
      · cases ends
    · split at ends
      · rename_i passed text reached
        cases made : completedWatch ref reported passed text with
        | error raised =>
          rw [made] at ends
          cases ends
        | ok checks =>
          rw [made] at ends
          cases ends
      · split at ends
        · unfold incompleteChecks at ends
          split at ends <;> cases ends
        · cases ends

theorem pollMissing (missing : Missing bounds answers k)
    (tolerated : watch.notFoundPolls + 1 ≤ bounds.refNotFoundGracePolls) :
    watch.poll bounds ref workflows (polled bounds answers k) =
      .again { watch with notFoundPolls := watch.notFoundPolls + 1 } := by
  rw [missing]
  exact if_neg (by omega)

theorem pollEmpty {page : CheckRunsResponse} (seen : polled bounds answers k = .ok (some page))
    (zero : page.totalCount = 0) (unobserved : watch.runsObserved = false) :
    watch.poll bounds ref workflows (polled bounds answers k) =
      if bounds.gracePollsFor (watch.probe.getD (probeWorkflows workflows)) ≤ watch.emptyPolls + 1 then
        .ends (.ok (.absent (noChecksSummary (watch.probe.getD (probeWorkflows workflows))
          (bounds.gracePollsFor (watch.probe.getD (probeWorkflows workflows))))))
      else .again { watch with
        notFoundPolls := 0
        emptyPolls := watch.emptyPolls + 1
        probe := some (watch.probe.getD (probeWorkflows workflows)) } := by
  rw [seen]
  exact if_pos ⟨unobserved, zero⟩

/-- A watch nothing has been reported to goes on until the grace window is filled. -/
theorem graceReaches {n : Nat} (fills : GraceFills bounds workflows answers n) (k : Nat) (within : k ≤ n) :
    ∃ watch, Reaches bounds ref workflows answers k watch ∧ watch.runsObserved = false := by
  induction k with
  | zero => exact ⟨{}, .start, rfl⟩
  | succ k ih =>
    obtain ⟨watch, early, unobserved⟩ := ih (by omega)
    have stands := reachesStands early
    rcases fills.unobserved k (by omega) with missing | ⟨page, seen, zero⟩
    · have short : watch.notFoundPolls + 1 ≤ bounds.refNotFoundGracePolls := by
        by_contra long
        have tolerated := stands.tolerated
        have inside := stands.within
        obtain ⟨i, few, found⟩ := fills.tolerated (k - bounds.refNotFoundGracePolls) (by omega)
        rcases Nat.lt_or_ge (k - bounds.refNotFoundGracePolls + i) k with before | last
        · exact found (stands.streak _ before (by omega))
        · rw [show k - bounds.refNotFoundGracePolls + i = k by omega] at found
          exact found missing
      exact ⟨_, .next early (pollMissing missing short), unobserved⟩
    · have counted : emptyBefore bounds answers (k + 1) = watch.emptyPolls + 1 := by
        rw [emptyBefore, Nat.count_succ, if_pos ⟨page, seen, zero⟩, stands.empties unobserved]
      have before : emptyBefore bounds answers (k + 1) ≤ emptyBefore bounds answers n := Nat.count_monotone _ within
      have after : emptyBefore bounds answers (n + 1) = emptyBefore bounds answers n + 1 := by
        rw [emptyBefore, Nat.count_succ, if_pos fills.last]
      have filled := fills.filled
      refine ⟨_, .next early ((pollEmpty seen zero unobserved).trans (if_neg ?_)), unobserved⟩
      rw [stands.probed]
      omega

theorem absentIff {n : Nat} : (∃ summary, EndsAt bounds ref workflows answers n (.ok (.absent summary))) ↔
    GraceFills bounds workflows answers n := by
  constructor
  · rintro ⟨summary, watch, early, ends⟩
    obtain ⟨page, seen, zero, unobserved, filled⟩ := pollAbsent ends
    have stands := reachesStands early
    have empty : Empty bounds answers n := ⟨page, seen, zero⟩
    refine ⟨?_, empty, ?_, fun k inside => windowsFound stands (notMissing seen) k (by omega)⟩
    · intro k within
      rcases Nat.lt_or_eq_of_le within with before | rfl
      · exact stands.unobserved unobserved k before
      · exact Or.inr empty
    · have counted := stands.empties unobserved
      have graced := stands.graced
      rw [stands.probed] at filled
      rw [emptyBefore, Nat.count_succ, if_pos empty]
      change emptyBefore bounds answers n + 1 = _
      omega
  · intro fills
    obtain ⟨watch, early, unobserved⟩ := graceReaches fills n (le_refl n)
    obtain ⟨page, seen, zero⟩ := fills.last
    have stands := reachesStands early
    have counted : emptyBefore bounds answers (n + 1) = watch.emptyPolls + 1 := by
      rw [emptyBefore, Nat.count_succ, if_pos fills.last, stands.empties unobserved]
    have filled := fills.filled
    refine ⟨_, watch, early, (pollEmpty seen zero unobserved).trans (if_pos ?_)⟩
    rw [stands.probed]
    omega

/-- The pages poll `k` is answered with. -/
def pollPages (bounds : Bounds) (answers : Nat → Nat → PageAnswer) (k : Nat) : List CheckRunsResponse :=
  pagesRead (answers k) true bounds.checkRunsMaxPages 1 0 0

/-- The watch ends within its counters; a verdict comes from the whole settled set the last poll
listed; and no page of an absent watch lists a run. -/
structure Sound (bounds : Bounds) (ref : String) (workflows : Option WorkflowsResponse)
    (answers : Nat → Nat → PageAnswer) : Prop where
  ends : ∃ last < bounds.pollBound, ∃ result,
    waitForChecks bounds ref workflows answers bounds.pollBound = some (last, result)
  observed : ∀ fuel last checks,
    waitForChecks bounds ref workflows answers fuel = some (last, .ok (.observed checks)) →
      ∃ page, polled bounds answers last = .ok (some page) ∧
        page.checkRuns = (pollPages bounds answers last).flatMap (·.checkRuns) ∧ Complete ref page checks
  absent : ∀ fuel last summary,
    waitForChecks bounds ref workflows answers fuel = some (last, .ok (.absent summary)) →
      ∀ k ≤ last, ∀ page ∈ pollPages bounds answers k, page.checkRuns = []

theorem pollObserved {page : Except Raised (Option CheckRunsResponse)} {checks : ObservedChecks}
    (ends : watch.poll bounds ref workflows page = .ends (.ok (.observed checks))) :
    ∃ reported, page = .ok (some reported) ∧ Complete ref reported checks := by
  unfold Watch.poll at ends
  dsimp only at ends
  split at ends
  · cases ends
  · split at ends <;> cases ends
  · rename_i reported
    split at ends
    · split at ends <;> cases ends
    · split at ends
      · rename_i passed text reached
        cases made : completedWatch ref reported passed text with
        | error raised =>
          rw [made] at ends
          cases ends
        | ok seen =>
          rw [made] at ends
          cases ends
          exact ⟨reported, rfl, completedWatchComplete reached made⟩
      · split at ends
        · unfold incompleteChecks at ends
          split at ends <;> cases ends
        · cases ends

theorem waitEnds (bounds : Bounds) (ref : String) (workflows : Option WorkflowsResponse)
    (answers : Nat → Nat → PageAnswer) : ∃ last < bounds.pollBound, ∃ result,
      waitForChecks bounds ref workflows answers bounds.pollBound = some (last, result) := by
  have begun : Reaches bounds ref workflows answers 0 {} := .start
  obtain ⟨last, result, ended⟩ := watchFromTotal begun bounds.pollBound (by omega)
  obtain ⟨watch, early, _⟩ := watchFromEnds begun ended
  exact ⟨last, reachesBound early, result, ended⟩

theorem waitObserved {fuel last : Nat} {checks : ObservedChecks}
    (ended : waitForChecks bounds ref workflows answers fuel = some (last, .ok (.observed checks))) :
    ∃ page, polled bounds answers last = .ok (some page) ∧
      page.checkRuns = (pollPages bounds answers last).flatMap (·.checkRuns) ∧ Complete ref page checks := by
  obtain ⟨watch, _, ends⟩ := watchFromEnds .start ended
  obtain ⟨page, seen, complete⟩ := pollObserved ends
  exact ⟨page, seen, walkCollects _ _ _ _ _ _ seen, complete⟩

/-- A walk goes past its first page only where that page lists runs. -/
theorem pagesListNone (k : Nat) : (∀ page ∈ pollPages bounds answers k, page.checkRuns = []) ↔
    (0 < bounds.checkRunsMaxPages → ∀ page, answers k 1 = .ok page → page.checkRuns = []) := by
  rw [pollPages]
  cases bounds.checkRunsMaxPages with
  | zero => simp [pagesRead]
  | succ left =>
    rw [pagesRead]
    cases answers k 1 with
    | error raised => simp
    | ok first =>
      by_cases nothing : first.checkRuns = []
      · simp [nothing]
      · simp only [nothing, false_or]
        split_ifs <;> simp [nothing]

/-- A watch keeps to its contract unless, while it still reports no run at all, a poll's first
page lists one: a page behind it answers 404, or the page counts a total of zero. -/
theorem watchSoundIff (bounds : Bounds) (ref : String) (workflows : Option WorkflowsResponse)
    (answers : Nat → Nat → PageAnswer) : Sound bounds ref workflows answers ↔
      ∀ n, GraceFills bounds workflows answers n → ∀ k ≤ n, 0 < bounds.checkRunsMaxPages →
        ∀ page, answers k 1 = .ok page → page.checkRuns = [] := by
  constructor
  · intro sound n fills k within
    obtain ⟨summary, ends⟩ := absentIff.mpr fills
    obtain ⟨fuel, ended⟩ := waitEndsIff.mpr ends
    exact (pagesListNone k).mp (sound.absent fuel n summary ended k within)
  · intro unlisted
    refine ⟨waitEnds bounds ref workflows answers, fun fuel last checks => waitObserved, ?_⟩
    intro fuel last summary ended k within
    have fills := absentIff.mp ⟨summary, waitEndsIff.mp ⟨fuel, ended⟩⟩
    exact (pagesListNone k).mpr (unlisted last fills k within)

/-- One run on the first page and a 404 behind it, then polls of nothing. -/
def vanishedAnswers (k page : Nat) : PageAnswer :=
  match k, page with
  | 0, 1 => .ok ⟨2, [⟨97, "build", "in_progress", none, none⟩]⟩
  | 0, _ => .error (.forgeAPIError "not found" (some notFoundStatus))
  | _, _ => .ok ⟨0, []⟩

theorem listedRunAbsent : ¬ Sound ⟨3, 1, 1, 1, 2⟩ "KOD" none vanishedAnswers := by
  intro sound
  have ended : waitForChecks ⟨3, 1, 1, 1, 2⟩ "KOD" none vanishedAnswers 2 =
      some (1, .ok (.absent (noChecksSummary .indeterminate 1))) := rfl
  have listed := sound.absent 2 1 _ ended 0 (by decide) ⟨2, [⟨97, "build", "in_progress", none, none⟩]⟩
    (List.mem_singleton.mpr rfl)
  cases listed

end Waits
end Kodezart.CIWatch
