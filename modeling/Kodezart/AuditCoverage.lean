import Mathlib
import Kodezart.Machine
import Kodezart.FireSpec
import Kodezart.CriterionLifecycle
import Kodezart.Dict

/-! Delta and periodic-full coverage of one scope's eligible issues. Calls on several
scopes interleave at their awaits; the caches of a scope advance only where an attempt
on it returns. -/
namespace Kodezart.AuditCoverage
open FireSpec (ValueError)

structure AuditCandidate where
  issueKey : VisibleStr
  stateChangedAt : Int
  deriving DecidableEq, Repr

/-- A clock reading; one without a timezone names no instant. -/
inductive Reading where
  | aware (instant : Int)
  | naive (wall : Int)
  deriving DecidableEq, Repr

structure Intervals where
  full : Int
  tick : Int
  deriving DecidableEq, Repr

abbrev Covered := Dict VisibleStr Int

/-- What a call reads of its scope's caches before it first suspends. -/
structure Entry where
  previousTick : Option Int
  lastFull : Option Int
  previous : Option Covered
  deriving DecidableEq, Repr

/-- A call past its checks: the names it keeps over its suspensions, the rows whose
visit returned and the rows still to visit. -/
structure Attempt where
  entry : Entry
  observedAt : Int
  snapshot : List AuditCandidate
  full : Bool
  selected : List AuditCandidate
  complete : Bool
  visited : List AuditCandidate
  pending : List AuditCandidate
  deriving DecidableEq, Repr

variable {σ : Type*} [DecidableEq σ]

structure Coverage (σ : Type*) where
  covered : Dict σ Covered
  lastFull : Dict σ Int
  lastTick : Dict σ Int
  active : Dict σ Attempt
  deriving DecidableEq

def entry (coverage : Coverage σ) (scope : σ) : Entry :=
  ⟨coverage.lastTick.get? scope, coverage.lastFull.get? scope, coverage.covered.get? scope⟩

def due (intervals : Intervals) (lastFull : Option Int) (observedAt : Int) : Bool :=
  match lastFull with
  | none => true
  | some lastFull => intervals.full ≤ observedAt - lastFull ∨
      intervals.full < observedAt - lastFull + intervals.tick

def candidateOrder (row : AuditCandidate) : Int ×ₗ String := toLex (row.stateChangedAt, row.issueKey.val)

def Entry.unmoved (entry : Entry) (row : AuditCandidate) : Bool :=
  (entry.previous.getD []).get? row.issueKey = some row.stateChangedAt

/-- The call up to its first await. -/
def admitted (intervals : Intervals) (coverage : Coverage σ) (scope : σ)
    (candidates : List AuditCandidate) (observedAt : Reading) (complete : Bool) :
    Except ValueError Attempt :=
  match observedAt with
  | .naive _ => .error ⟨"audit observation time must carry a timezone"⟩
  | .aware observedAt =>
    let entry := entry coverage scope
    let snapshot := sortBy candidateOrder candidates
    if scope ∈ coverage.active.keys then
      .error ⟨"this scope already has an active audit coverage attempt"⟩
    else if ∃ previousTick ∈ entry.previousTick, observedAt < previousTick then
      .error ⟨"audit observation time moved backwards"⟩
    else if ¬ (snapshot.map AuditCandidate.issueKey).Nodup then
      .error ⟨"audit candidates contain duplicate issue identities"⟩
    else if ∃ row ∈ snapshot, observedAt < row.stateChangedAt then
      .error ⟨"audit candidate state change follows the observation"⟩
    else
      let full := due intervals entry.lastFull observedAt
      let selected := if full then snapshot else snapshot.filter fun row => !entry.unmoved row
      .ok ⟨entry, observedAt, snapshot, full, selected, complete, [], selected⟩

def Attempt.retained (attempt : Attempt) : Covered :=
  Dict.update (if attempt.full then [] else attempt.entry.previous.getD [])
    (attempt.selected.map fun row => (row.issueKey, row.stateChangedAt))

/-- The caches as an attempt that returns leaves them. -/
def committed (coverage : Coverage σ) (scope : σ) (attempt : Attempt) : Coverage σ :=
  let released := { coverage with active := coverage.active.erase scope }
  if attempt.selected = [] then released
  else { released with
    covered := coverage.covered.set scope attempt.retained
    lastTick := coverage.lastTick.set scope attempt.observedAt
    lastFull := if attempt.full then coverage.lastFull.set scope attempt.observedAt else coverage.lastFull }

inductive Event (σ : Type*) where
  | cover (scope : σ) (candidates : List AuditCandidate) (observedAt : Reading) (complete : Bool)
  /-- The visit or the completion the scope's attempt awaits returned. -/
  | returned (scope : σ)
  /-- It raised, or the attempt was cancelled there. -/
  | raised (scope : σ)

/-- The caches beside the attempts that have returned, oldest first. -/
structure History (σ : Type*) where
  coverage : Coverage σ
  done : List (σ × Attempt)

/-- An attempt runs on to its next await, or returns. -/
def proceed (history : History σ) (scope : σ) (attempt : Attempt) : History σ :=
  if attempt.pending = [] ∧ attempt.complete = false then
    ⟨committed history.coverage scope attempt, history.done ++ [(scope, attempt)]⟩
  else ⟨{ history.coverage with active := history.coverage.active.set scope attempt }, history.done⟩

def next (intervals : Intervals) (history : History σ) : Event σ → Option (History σ)
  | .cover scope candidates observedAt complete =>
    match admitted intervals history.coverage scope candidates observedAt complete with
    | .error _ => some history
    | .ok attempt => some (proceed history scope attempt)
  | .returned scope =>
    match history.coverage.active.get? scope with
    | none => none
    | some attempt =>
      match attempt.pending with
      | row :: rest =>
        some (proceed history scope { attempt with visited := attempt.visited ++ [row], pending := rest })
      | [] => some ⟨committed history.coverage scope attempt, history.done ++ [(scope, attempt)]⟩
  | .raised scope =>
    match history.coverage.active.get? scope with
    | none => none
    | some _ => some { history with
        coverage := { history.coverage with active := history.coverage.active.erase scope } }

def initial : History σ := ⟨⟨[], [], [], []⟩, []⟩

/-- The attempts on a scope that returned with something selected, oldest first. -/
def worked (scope : σ) (done : List (σ × Attempt)) : List Attempt :=
  (done.filter fun d => d.1 = scope ∧ d.2.selected ≠ []).map Prod.snd

def lastFullOf (attempts : List Attempt) : Option Int :=
  (attempts.filter Attempt.full).getLast?.map Attempt.observedAt

/-- Every attempt of the list was full exactly when the ones before it made it due. -/
def Paced (intervals : Intervals) (attempts : List Attempt) : Prop :=
  ∀ before attempt after, attempts = before ++ attempt :: after →
    attempt.full = due intervals (lastFullOf before) attempt.observedAt

/-- What an attempt keeps from its checks to its end. -/
structure Sound (intervals : Intervals) (attempt : Attempt) : Prop where
  distinct : (attempt.snapshot.map AuditCandidate.issueKey).Nodup
  chosen : attempt.full = due intervals attempt.entry.lastFull attempt.observedAt
  picked : attempt.selected =
    if attempt.full then attempt.snapshot else attempt.snapshot.filter fun row => !attempt.entry.unmoved row
  walked : attempt.visited ++ attempt.pending = attempt.selected

/-- A visit of the pair returned inside an attempt on the scope that returned. -/
def Visited (done : List (σ × Attempt)) (scope : σ) (key : VisibleStr) (stamp : Int) : Prop :=
  ∃ d ∈ done, d.1 = scope ∧ ∃ row ∈ d.2.visited, row.issueKey = key ∧ row.stateChangedAt = stamp

structure Kept (intervals : Intervals) (history : History σ) : Prop where
  keys : history.coverage.active.keys.Nodup
  active : ∀ scope attempt, history.coverage.active.get? scope = some attempt →
    Sound intervals attempt ∧ attempt.entry = entry history.coverage scope
  traced : ∀ scope covered, history.coverage.covered.get? scope = some covered →
    ∀ key stamp, covered.get? key = some stamp → Visited history.done scope key stamp
  finished : ∀ d ∈ history.done, d.2.visited = d.2.selected
  paced : ∀ scope, Paced intervals (worked scope history.done)
  swept : ∀ scope, history.coverage.lastFull.get? scope = lastFullOf (worked scope history.done)

variable {intervals : Intervals} {coverage : Coverage σ} {history history' : History σ} {scope : σ}
  {attempt : Attempt} {candidates : List AuditCandidate} {observedAt : Reading} {complete : Bool}

theorem admittedFacts
    (ok : admitted intervals coverage scope candidates observedAt complete = .ok attempt) :
    Sound intervals attempt ∧ attempt.entry = entry coverage scope ∧ scope ∉ coverage.active.keys ∧
      attempt.snapshot = sortBy candidateOrder candidates := by
  cases observedAt with
  | naive wall => cases ok
  | aware instant =>
    simp only [admitted] at ok
    split at ok
    · cases ok
    · rename_i idle
      split at ok
      · cases ok
      · split at ok
        · cases ok
        · rename_i distinct
          split at ok
          · cases ok
          · cases ok
            exact ⟨⟨not_not.mp distinct, rfl, rfl, List.nil_append _⟩, rfl, idle, rfl⟩

@[simp] theorem activeCommitted :
    (committed coverage scope attempt).active = coverage.active.erase scope := by
  simp only [committed]
  split <;> rfl

theorem coveredCommitted (other : σ) :
    (committed coverage scope attempt).covered.get? other =
      if scope = other ∧ attempt.selected ≠ [] then some attempt.retained
      else coverage.covered.get? other := by
  simp only [committed]
  split
  · rename_i none
    simp [none]
  · rename_i some
    simp [some, Dict.getSet]

theorem lastFullCommitted (other : σ) :
    (committed coverage scope attempt).lastFull.get? other =
      if scope = other ∧ attempt.selected ≠ [] ∧ attempt.full then some attempt.observedAt
      else coverage.lastFull.get? other := by
  simp only [committed]
  split
  · rename_i none
    simp [none]
  · rename_i some
    by_cases full : attempt.full <;> simp [some, full, Dict.getSet]

theorem entryCommittedOther {other : σ} (different : scope ≠ other) :
    entry (committed coverage scope attempt) other = entry coverage other := by
  simp only [entry, coveredCommitted, lastFullCommitted, different, false_and, if_false]
  simp only [committed]
  split
  · rfl
  · simp [Dict.getSetOther _ _ different]

theorem workedConcat (done : List (σ × Attempt)) (scope other : σ) (attempt : Attempt) :
    worked other (done ++ [(scope, attempt)]) =
      worked other done ++ if scope = other ∧ attempt.selected ≠ [] then [attempt] else [] := by
  by_cases counts : scope = other ∧ attempt.selected ≠ [] <;> simp [worked, List.filter_append, counts]

theorem lastFullConcat (attempts : List Attempt) (attempt : Attempt) :
    lastFullOf (attempts ++ [attempt]) =
      if attempt.full then some attempt.observedAt else lastFullOf attempts := by
  by_cases full : attempt.full <;> simp [lastFullOf, List.filter_append, full]

theorem pacedConcat {attempts : List Attempt} (paced : Paced intervals attempts)
    (chosen : attempt.full = due intervals (lastFullOf attempts) attempt.observedAt) :
    Paced intervals (attempts ++ [attempt]) := by
  intro before other after same
  rcases List.eq_nil_or_concat after with rfl | ⟨rest, last, rfl⟩
  · obtain ⟨rfl, tail⟩ := List.append_inj' same rfl
    cases tail
    exact chosen
  · rw [List.concat_eq_append, ← List.cons_append, ← List.append_assoc] at same
    obtain ⟨early, -⟩ := List.append_inj' same rfl
    exact paced before other rest early

/-- The pairs an attempt retains are the ones it selected and the ones it found. -/
theorem retainedFrom {key : VisibleStr} {stamp : Int} (found : attempt.retained.get? key = some stamp) :
    (∃ row ∈ attempt.selected, row.issueKey = key ∧ row.stateChangedAt = stamp) ∨
      (attempt.entry.previous.getD []).get? key = some stamp := by
  rcases Dict.updateGetSome found with new | old
  · obtain ⟨row, inside, same⟩ := List.mem_map.mp new
    cases same
    exact Or.inl ⟨row, inside, rfl, rfl⟩
  · split at old
    · simp at old
    · exact Or.inr old

theorem keptCommitted (kept : Kept intervals history) (sound : Sound intervals attempt)
    (entered : attempt.entry = entry history.coverage scope) (walked : attempt.pending = []) :
    Kept intervals ⟨committed history.coverage scope attempt, history.done ++ [(scope, attempt)]⟩ := by
  have visited : attempt.visited = attempt.selected := by simpa [walked] using sound.walked
  refine ⟨?keys, ?active, ?traced, ?finished, ?paced, ?swept⟩
  case keys =>
    simp only [activeCommitted]
    exact kept.keys.sublist ((Dict.eraseSublist _ _).map _)
  case active =>
    intro other running found
    simp only [activeCommitted, Dict.eraseGet kept.keys] at found
    split at found
    · cases found
    · rename_i different
      rw [entryCommittedOther different]
      exact kept.active other running found
  case traced =>
    intro other covered found key stamp inside
    rw [coveredCommitted] at found
    -- a pair the attempt only found in the cache was visited by an attempt before it
    have earlier : ∀ {covered}, history.coverage.covered.get? other = some covered →
        covered.get? key = some stamp → Visited (history.done ++ [(scope, attempt)]) other key stamp := by
      intro covered found inside
      obtain ⟨d, member, rest⟩ := kept.traced other covered found key stamp inside
      exact ⟨d, List.mem_append_left _ member, rest⟩
    split at found
    · rename_i here
      cases found
      obtain ⟨rfl, -⟩ := here
      rcases retainedFrom inside with ⟨row, member, same⟩ | old
      · exact ⟨_, List.mem_append_right _ (List.mem_singleton_self _), rfl, row, visited ▸ member, same⟩
      · rw [entered] at old
        cases before : history.coverage.covered.get? scope with
        | none => simp [entry, before] at old
        | some covered => exact earlier before (by simpa [entry, before] using old)
    · exact earlier found inside
  case finished =>
    intro d member
    rcases List.mem_append.mp member with old | new
    · exact kept.finished d old
    · cases List.mem_singleton.mp new
      exact visited
  case paced =>
    intro other
    rw [workedConcat]
    split
    · rename_i here
      obtain ⟨rfl, -⟩ := here
      refine pacedConcat (kept.paced scope) ?_
      rw [sound.chosen, entered, ← kept.swept scope]
      rfl
    · simpa using kept.paced other
  case swept =>
    intro other
    rw [workedConcat, lastFullCommitted]
    by_cases here : scope = other ∧ attempt.selected ≠ []
    · obtain ⟨rfl, some⟩ := here
      simp only [some, lastFullConcat, kept.swept scope, ne_eq, not_false_eq_true, and_self, true_and, if_true]
    · rw [if_neg (fun counts => here ⟨counts.1, counts.2.1⟩), if_neg here, List.append_nil]
      exact kept.swept other

/-- All a step can do to a history whose running attempts are sound. -/
inductive Moved (intervals : Intervals) (history : History σ) : History σ → Prop where
  | refused : Moved intervals history history
  | waits {scope : σ} {attempt : Attempt} (sound : Sound intervals attempt)
      (entered : attempt.entry = entry history.coverage scope) :
      Moved intervals history
        ⟨{ history.coverage with active := history.coverage.active.set scope attempt }, history.done⟩
  | returns {scope : σ} {attempt : Attempt} (sound : Sound intervals attempt)
      (entered : attempt.entry = entry history.coverage scope) (walked : attempt.pending = []) :
      Moved intervals history ⟨committed history.coverage scope attempt, history.done ++ [(scope, attempt)]⟩
  | drops (scope : σ) :
      Moved intervals history
        { history with coverage := { history.coverage with active := history.coverage.active.erase scope } }

theorem proceedMoved (sound : Sound intervals attempt) (entered : attempt.entry = entry history.coverage scope) :
    Moved intervals history (proceed history scope attempt) := by
  rw [proceed]
  split
  · rename_i ended
    exact .returns sound entered ended.1
  · exact .waits sound entered

theorem nextMoved {e : Event σ} (kept : Kept intervals history)
    (moved : next intervals history e = some history') : Moved intervals history history' := by
  cases e with
  | cover scope candidates observedAt complete =>
    simp only [next] at moved
    split at moved
    · cases moved
      exact .refused
    · rename_i attempt ok
      cases moved
      obtain ⟨sound, entered, -⟩ := admittedFacts ok
      exact proceedMoved sound entered
  | returned scope =>
    simp only [next] at moved
    split at moved
    · cases moved
    · rename_i attempt found
      obtain ⟨sound, entered⟩ := kept.active scope attempt found
      split at moved
      · rename_i row rest pending
        cases moved
        have walked : (attempt.visited ++ [row]) ++ rest = attempt.selected := by
          rw [← sound.walked, pending, List.append_assoc, List.singleton_append]
        exact proceedMoved { sound with walked } entered
      · rename_i pending
        cases moved
        exact .returns sound entered pending
  | raised scope =>
    simp only [next] at moved
    split at moved
    · cases moved
    · cases moved
      exact .drops scope

theorem keptNext (history : History σ) (e : Event σ) (history' : History σ) (kept : Kept intervals history)
    (moved : next intervals history e = some history') : Kept intervals history' := by
  cases nextMoved kept moved with
  | refused => exact kept
  | returns sound entered walked => exact keptCommitted kept sound entered walked
  | waits sound entered =>
    refine { kept with keys := Dict.setNodup _ _ kept.keys, active := ?_ }
    intro other running found
    rw [Dict.getSet] at found
    split at found
    · rename_i here
      cases found
      subst here
      exact ⟨sound, entered⟩
    · exact kept.active other running found
  | drops scope =>
    refine { kept with keys := kept.keys.sublist ((Dict.eraseSublist _ _).map _), active := ?_ }
    intro other running found
    rw [Dict.eraseGet kept.keys] at found
    split at found
    · cases found
    · exact kept.active other running found

theorem keptRun {events : List (Event σ)} (run : Machine.Run (next intervals) initial events history) :
    Kept intervals history := by
  refine Machine.runKeeps ?_ keptNext run
  refine ⟨?_, ?_, ?_, ?_, ?_, ?_⟩ <;> simp [initial, Dict.keys, worked, Paced, lastFullOf]

/-- A row an attempt leaves out was visited as it stands by an attempt that returned. -/
theorem skippedVisited (kept : Kept intervals history)
    (ok : admitted intervals history.coverage scope candidates observedAt complete = .ok attempt)
    {row : AuditCandidate} (member : row ∈ candidates) (skipped : row ∉ attempt.selected) :
    ∃ earlier ∈ history.done, earlier.1 = scope ∧ row ∈ earlier.2.visited := by
  obtain ⟨sound, entered, -, sorted⟩ := admittedFacts ok
  have inside : row ∈ attempt.snapshot := by simpa [sorted] using member
  rw [sound.picked] at skipped
  split at skipped
  · exact absurd inside skipped
  · have unmoved : attempt.entry.unmoved row = true := by simpa [inside] using skipped
    simp only [Entry.unmoved, entered, entry, decide_eq_true_eq] at unmoved
    cases before : history.coverage.covered.get? scope with
    | none => simp [before] at unmoved
    | some covered =>
      rw [before] at unmoved
      obtain ⟨d, done, same, row', visited, key, stamp⟩ := kept.traced scope covered before _ _ unmoved
      have equal : row' = row := by cases row'; cases row; simp_all
      exact ⟨d, done, same, equal ▸ visited⟩

/-- An attempt retains every row of its snapshot at the row's own stamp. -/
theorem retainedSnapshot (sound : Sound intervals attempt) {row : AuditCandidate}
    (member : row ∈ attempt.snapshot) : attempt.retained.get? row.issueKey = some row.stateChangedAt := by
  have chosenRows : attempt.selected.Sublist attempt.snapshot := by
    rw [sound.picked]
    split
    · exact .refl _
    · exact List.filter_sublist
  by_cases picked : row ∈ attempt.selected
  · refine Dict.updateGetUnique ?_ (List.mem_map.mpr ⟨row, picked, rfl⟩)
    simpa [Dict.keys, Function.comp_def] using sound.distinct.sublist (chosenRows.map _)
  · -- the row was left out, and no other row of the snapshot carries its key
    have others : ∀ e ∈ attempt.selected.map (fun row => (row.issueKey, row.stateChangedAt)),
        e.1 ≠ row.issueKey := by
      intro e inside same
      obtain ⟨other, chosen, rfl⟩ := List.mem_map.mp inside
      have equal := List.inj_on_of_nodup_map sound.distinct (chosenRows.subset chosen) member same
      exact picked (equal ▸ chosen)
    rw [Attempt.retained, Dict.updateGetOther others]
    rw [sound.picked] at picked
    split at picked
    · exact absurd member picked
    · rename_i delta
      rw [if_neg delta]
      simpa [member, Entry.unmoved] using picked

/-- Between two full attempts with none between them, the last one before the second
looked ahead one tick and did not pass the deadline. -/
theorem spacedFull {before between after : List Attempt} {first last : Attempt}
    (paced : Paced intervals (before ++ first :: (between ++ last :: after))) (sweep : first.full = true)
    (quiet : ∀ attempt ∈ between, attempt.full = false)
    (ticking : List.IsChain (fun a b => b.observedAt - a.observedAt ≤ intervals.tick)
      (first :: (between ++ [last])))
    (fits : intervals.tick ≤ intervals.full) : last.observedAt - first.observedAt ≤ intervals.full := by
  rcases List.eq_nil_or_concat between with rfl | ⟨rest, middle, rfl⟩
  · have apart : last.observedAt - first.observedAt ≤ intervals.tick := by simpa using ticking
    exact apart.trans fits
  · rw [List.concat_eq_append] at paced quiet ticking
    have apart : last.observedAt - middle.observedAt ≤ intervals.tick := by
      have ends : [middle, last] <:+ first :: (rest ++ [middle] ++ [last]) := ⟨first :: rest, by simp⟩
      simpa using ticking.suffix ends
    have delta : middle.full = false := quiet middle (by simp)
    have swept : lastFullOf (before ++ first :: rest) = some first.observedAt := by
      have none : rest.filter Attempt.full = [] := by
        rw [List.filter_eq_nil_iff]
        intro attempt member
        simp [quiet attempt (List.mem_append_left _ member)]
      simp [lastFullOf, List.filter_append, sweep, none]
    have chosen := paced (before ++ first :: rest) middle (last :: after) (by simp)
    rw [delta, swept, due] at chosen
    have early := of_decide_eq_false chosen.symm
    omega

/-- Whatever the order of calls, visits, completions and failures: what a delta attempt
skips was visited as it stands by an attempt that returned; an attempt that returns
covers its snapshot; a failed one leaves the caches it found; and ticks that keep the
cadence keep the full sweeps within their interval. -/
theorem coverageLosesNothing {events : List (Event σ)}
    (run : Machine.Run (next intervals) initial events history) :
    (∀ scope candidates observedAt complete attempt,
      admitted intervals history.coverage scope candidates observedAt complete = .ok attempt →
      ∀ row ∈ candidates, row ∉ attempt.selected →
        ∃ earlier ∈ history.done, earlier.1 = scope ∧ row ∈ earlier.2.visited ∧
          earlier.2.visited = earlier.2.selected) ∧
    (∀ e history' scope attempt, next intervals history e = some history' →
      history'.done = history.done ++ [(scope, attempt)] → attempt.selected ≠ [] →
      ∃ covered, history'.coverage.covered.get? scope = some covered ∧
        ∀ row ∈ attempt.snapshot, covered.get? row.issueKey = some row.stateChangedAt) ∧
    (∀ scope attempt history', history.coverage.active.get? scope = some attempt →
      next intervals history (.raised scope) = some history' →
      history'.coverage.covered = history.coverage.covered ∧
        history'.coverage.lastFull = history.coverage.lastFull ∧
        history'.coverage.lastTick = history.coverage.lastTick ∧
        entry history'.coverage scope = attempt.entry) ∧
    (∀ scope before first between last after,
      worked scope history.done = before ++ first :: (between ++ last :: after) →
      first.full = true → last.full = true → (∀ attempt ∈ between, attempt.full = false) →
      List.IsChain (fun a b => b.observedAt - a.observedAt ≤ intervals.tick) (first :: (between ++ [last])) →
      intervals.tick ≤ intervals.full → last.observedAt - first.observedAt ≤ intervals.full) := by
  have kept := keptRun run
  refine ⟨?skipped, ?returned, ?failed, ?periodic⟩
  case skipped =>
    intro scope candidates observedAt complete attempt ok row member skipped
    obtain ⟨earlier, done, same, visited⟩ := skippedVisited kept ok member skipped
    exact ⟨earlier, done, same, visited, kept.finished earlier done⟩
  case returned =>
    intro e history' scope attempt moved grown some
    cases nextMoved kept moved with
    | refused => simp at grown
    | waits => simp at grown
    | drops => simp at grown
    | returns sound entered walked =>
      simp only [List.append_cancel_left_eq, List.cons.injEq, and_true, Prod.mk.injEq] at grown
      obtain ⟨rfl, rfl⟩ := grown
      refine ⟨_, ?_, fun row member => retainedSnapshot sound member⟩
      rw [coveredCommitted, if_pos ⟨rfl, some⟩]
  case failed =>
    intro scope attempt history' running moved
    simp only [next, running] at moved
    cases moved
    exact ⟨rfl, rfl, rfl, (kept.active scope attempt running).2.symm⟩
  case periodic =>
    intro scope before first between last after listed sweep _ quiet ticking fits
    exact spacedFull (listed ▸ kept.paced scope) sweep quiet ticking fits

def sampleRow : AuditCandidate := ⟨⟨"KOD-40", by decide⟩, 7⟩

def sampleCover : Event Unit := .cover () [sampleRow] (.aware 9) false

def samplePaused : History Unit :=
  ⟨⟨[], [], [], [((), ⟨⟨none, none, none⟩, 9, [sampleRow], true, [sampleRow], false, [], [sampleRow]⟩)]⟩, []⟩

theorem coverageSample : ∃ history, Machine.Run (next ⟨100, 40⟩) initial [sampleCover, .returned ()] history ∧
    ∃ covered, history.coverage.covered.get? () = some covered ∧
      covered.get? sampleRow.issueKey = some sampleRow.stateChangedAt := by
  have paused : Machine.Run (next ⟨100, 40⟩) initial [sampleCover] samplePaused := .move .start (by rfl)
  obtain ⟨history, moved⟩ : ∃ history, next ⟨100, 40⟩ samplePaused (.returned ()) = some history := ⟨_, rfl⟩
  obtain ⟨-, returned, -⟩ := coverageLosesNothing paused
  obtain ⟨covered, found, stamps⟩ := returned (.returned ()) history () _ moved (by cases moved; rfl) (by decide)
  exact ⟨history, .move paused moved, covered, found, stamps sampleRow (by decide)⟩

end Kodezart.AuditCoverage
