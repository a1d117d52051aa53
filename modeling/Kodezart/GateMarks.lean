import Mathlib
import Kodezart.Machine
import Kodezart.MovementWindow

/-! Marks over whole runs of a gate: writes land, scans answer pages in whatever order the
backend likes, ticks report, and marks are put back. -/
namespace Kodezart.Gate
open SelfWrites Machine

/-- What the backend answers a tick's reads: a page for each query, reviews, and the issues
whose movement cannot be read. -/
structure Answers where
  issues : IssueQuery → Option (List Scanned)
  reviews : ReviewQuery → Option (List Scanned)
  unread : List String

/-- A gate on a board, and the issues another's write moved that no tick reported since. -/
structure Watch where
  gate : PassGate
  world : World
  moved : List String

inductive Event where
  | moved (movement : Movement)
  | opened
  | asked (asked : Asked) (answers : Answers)
  | rearmed

/-- The queue state a signal's scan asks for, where the signal is one of an issue delta. -/
def scannedState : PassSignal → Option (Option QueueState)
  | .approvedChanged => some (some .approved)
  | .issuesChanged => some none
  | _ => none

section Board
variable (matching : Option QueueState → Option String → IssueMovementSnapshot → Bool)

/-- A page of at most so many of the matching issues at or after the stamp asked from. -/
def World.lists (world : World) (query : IssueQuery) (rows : List Scanned) : Bool :=
  rows.length ≤ query.pageSize ∧ (rows.map Scanned.key).Nodup ∧ ∀ row ∈ rows,
    (world.issues.get? row.key).any (fun snapshot =>
      snapshot.updatedAt = row.updatedAt && matching query.queueState query.teamKey snapshot) ∧
    query.updatedSince.all fun since => since ≤ row.updatedAt

def reviewsListed (query : ReviewQuery) (rows : List Scanned) : Bool :=
  rows.length ≤ query.pageSize ∧ ∀ row ∈ rows, query.updatedSince.all fun since => since ≤ row.updatedAt

/-- The board as a gate reads it: an answer that is no page of it is no answer. -/
def World.answering (world : World) (answers : Answers) : Tracker where
  scanIssues query := (answers.issues query).filter (world.lists matching query)
  scanReviews query := (answers.reviews query).filter (reviewsListed query)
  readIssueMovement row :=
    ⟨world.ledger, if row.key ∈ answers.unread then none else world.issues.get? row.key, world.ledger⟩

variable {Value : Type} (json : JsonLibrary Value)

def Watch.next (watch : Watch) : Event → Option Watch
  | .moved movement =>
    if (watch.world.issues.get? movement.left.issueKey).any fun old => movement.left.updatedAt < old.updatedAt then none
    else some { watch with
      world := watch.world.moved movement
      moved := match movement with
        | .principal left => left.issueKey :: watch.moved
        | .own _ _ _ => watch.moved }
  | .opened => some { watch with
      gate := { watch.gate with advanced := [], previousObservations := watch.gate.observations } }
  | .asked asked answers =>
    match watch.gate.observe json (watch.world.answering matching answers) asked with
    | .error _ => some watch
    | .ok (changed, gate) => some { watch with gate, moved := watch.moved.filter (· ∉ changed) }
  | .rearmed => some { watch with gate := watch.gate.rearm }

/-- Every issue another's write moved and no tick reported can still be returned by a later
scan of each signal and container whose query it matches. -/
def Askable (watch : Watch) : Prop :=
  ∀ key ∈ watch.moved, ∀ snapshot, watch.world.issues.get? key = some snapshot →
    ∀ signal team state, scannedState signal = some state → matching state (some team) snapshot →
    ∀ mark, watch.gate.mark (signal, team) = some mark → mark ≤ snapshot.updatedAt

/-- No write lands before a mark, and a scan that is read whole neither leaves an unreported
issue out behind its page's newest stamp nor judges one behind it the operation's own. -/
def Covers (watch : Watch) : Event → Prop
  | .moved movement => ∀ signal team state, scannedState signal = some state →
    matching state (some team) movement.left → ∀ mark, watch.gate.mark (signal, team) = some mark →
    mark ≤ movement.left.updatedAt
  | .asked (signal, team) answers => ∀ state, scannedState signal = some state → ∀ rows,
    (watch.world.answering matching answers).scanIssues
      ⟨state, some team, watch.gate.mark (signal, team), watch.gate.pageSize⟩ = some rows →
    (∀ row ∈ rows, row.key ∉ answers.unread) → ∀ key ∈ watch.moved, ∀ snapshot,
    watch.world.issues.get? key = some snapshot → matching state (some team) snapshot →
    (∀ row ∈ rows, row.updatedAt ≤ snapshot.updatedAt) ∨
      ∃ row ∈ rows, row.key = key ∧ PassGate.judgedOwn json watch.world.ledger
        (watch.gate.observations.get? (signal, team, key))
        (watch.world.ledger.receipts key ((watch.gate.observations.get? (signal, team, key)).elim 0 Prod.snd)).2
        row snapshot = false
  | _ => True

end Board

section Marks
variable {gate gate' : PassGate} {asked other : Asked} {rows : List Scanned} {stamp : Int}

@[simp] theorem advanceMark : (gate.advance asked rows).mark other =
    if asked = other then (rows.map Scanned.updatedAt).max? else gate.mark other := by
  simp only [PassGate.mark, PassGate.advance, Dict.getSet]
  split <;> rfl

/-- What a mark held before the last tick advanced it, at most what it holds. -/
def Backed (gate : PassGate) : Prop :=
  ∀ e ∈ gate.advanced, ∀ stamp, e.2 = some stamp → ∃ mark, gate.mark e.1 = some mark ∧ stamp ≤ mark

theorem advanceBacked (backed : Backed gate) (nonempty : rows ≠ [])
    (since : ∀ stamp, gate.mark asked = some stamp → ∀ row ∈ rows, stamp ≤ row.updatedAt) :
    Backed (gate.advance asked rows) := by
  obtain ⟨row, member⟩ := List.exists_mem_of_ne_nil rows nonempty
  obtain ⟨newest, found⟩ : ∃ newest, (rows.map Scanned.updatedAt).max? = some newest :=
    Option.isSome_iff_exists.mp (List.isSome_max?_of_mem (List.mem_map_of_mem member))
  have above : ∀ stamp, gate.mark asked = some stamp → stamp ≤ newest := fun stamp held =>
    (since stamp held row member).trans ((List.max?_eq_some_iff.mp found).2 _ (List.mem_map_of_mem member))
  intro e inside stamp held
  rw [advanceMark]
  rcases Dict.setMember inside with old | rfl
  · obtain ⟨mark, holds, le⟩ := backed e old stamp held
    split
    · rename_i same
      subst same
      exact ⟨newest, found, le.trans (above mark holds)⟩
    · exact ⟨mark, holds, le⟩
  · rw [if_pos rfl]
    exact ⟨newest, found, above stamp held⟩

theorem rearmMark (backed : Backed gate) (held : gate.rearm.mark asked = some stamp) :
    ∃ mark, gate.mark asked = some mark ∧ stamp ≤ mark := by
  have found : (gate.marks.update gate.advanced).get? asked = some (some stamp) := Option.join_eq_some_iff.mp held
  rcases Dict.updateGetSome found with inside | stood
  · exact backed _ inside stamp rfl
  · exact ⟨stamp, Option.join_eq_some_iff.mpr stood, le_rfl⟩

end Marks

section Observed
variable {Value : Type} {json : JsonLibrary Value} {gate gate' : PassGate} {tracker : Tracker} {asked : Asked}
  {changed : List String}

/-- What one ask does: nothing that moves a mark, or a page of reviews, or a page of issues
every one of which was observed. -/
inductive Observed (json : JsonLibrary Value) (gate : PassGate) (tracker : Tracker) :
    Asked → List String → PassGate → Prop where
  | still (asked : Asked) (changed : List String) : Observed json gate tracker asked changed gate
  | reviews {repoUrl : String} {rows : List Scanned}
      (page : tracker.scanReviews ⟨some repoUrl, gate.mark (.reviewsChanged, repoUrl), gate.pageSize⟩ = some rows)
      (nonempty : rows ≠ []) :
      Observed json gate tracker (.reviewsChanged, repoUrl) (rows.map Scanned.key)
        (gate.advance (.reviewsChanged, repoUrl) rows)
  | issues {signal : PassSignal} {team : String} {state : Option QueueState} {rows : List Scanned}
      {seen : List (Scanned × Bool × Observation)} (scan : scannedState signal = some state)
      (page : tracker.scanIssues ⟨state, some team, gate.mark (signal, team), gate.pageSize⟩ = some rows)
      (nonempty : rows ≠ []) (observed : gate.observePage json tracker (signal, team) rows = .ok seen) :
      Observed json gate tracker (signal, team) ((seen.filter fun row => row.2.1 = false).map fun row => row.1.key)
        { gate.advance (signal, team) rows with
          observations := gate.observations.update (seen.map fun row => ((signal, team, row.1.key), row.2.2)) }

theorem issueDeltaObserved {signal : PassSignal} {team : String} {state : Option QueueState}
    (scan : scannedState signal = some state)
    (ok : gate.issueDelta json tracker signal team state = .ok (changed, gate')) :
    Observed json gate tracker (signal, team) changed gate' := by
  cases page : tracker.scanIssues ⟨state, some team, gate.mark (signal, team), gate.pageSize⟩ with
  | none => simp [PassGate.issueDelta, page] at ok
  | some rows =>
    cases rows with
    | nil =>
      simp only [PassGate.issueDelta, page] at ok
      cases ok
      exact .still _ _
    | cons row rows =>
      obtain ⟨seen, observed, rfl, rfl⟩ := issueDeltaOk ok page (List.cons_ne_nil _ _)
      exact .issues scan page (List.cons_ne_nil _ _) observed

theorem observeOk (ok : gate.observe json tracker asked = .ok (changed, gate')) :
    Observed json gate tracker asked changed gate' := by
  obtain ⟨signal, container⟩ := asked
  cases signal with
  | triageBacklog =>
    simp only [PassGate.observe, PassGate.backlog] at ok
    split at ok
    · cases ok
    · cases ok
      exact .still _ _
  | reviewsChanged =>
    simp only [PassGate.observe, PassGate.reviewDelta] at ok
    split at ok
    · cases ok
    · cases ok
      exact .still _ _
    · rename_i rows nonempty page
      cases ok
      exact .reviews page nonempty
  | approvedChanged => exact issueDeltaObserved rfl ok
  | issuesChanged => exact issueDeltaObserved rfl ok

end Observed

section Keeps
variable {Value : Type} {json : JsonLibrary Value}
  {matching : Option QueueState → Option String → IssueMovementSnapshot → Bool} {watch watch' : Watch} {event : Event}
  {answers : Answers}

theorem scannedSince {query : IssueQuery} {rows : List Scanned}
    (page : (watch.world.answering matching answers).scanIssues query = some rows) {stamp : Int}
    (since : query.updatedSince = some stamp) : ∀ row ∈ rows, stamp ≤ row.updatedAt := by
  intro row member
  obtain ⟨-, valid⟩ := Option.filter_eq_some_iff.mp page
  simp only [World.lists, since, Option.all_some, Bool.decide_and, Bool.and_eq_true, decide_eq_true_eq] at valid
  exact (valid.2.2 row member).2

theorem reviewedSince {query : ReviewQuery} {rows : List Scanned}
    (page : (watch.world.answering matching answers).scanReviews query = some rows) {stamp : Int}
    (since : query.updatedSince = some stamp) : ∀ row ∈ rows, stamp ≤ row.updatedAt := by
  intro row member
  obtain ⟨-, valid⟩ := Option.filter_eq_some_iff.mp page
  simp only [reviewsListed, since, Option.all_some, Bool.decide_and, Bool.and_eq_true, decide_eq_true_eq] at valid
  exact valid.2 row member

theorem nextBacked (backed : Backed watch.gate) (moved : watch.next matching json event = some watch') :
    Backed watch'.gate := by
  cases event with
  | moved movement =>
    simp only [Watch.next] at moved
    split at moved
    · cases moved
    · cases moved
      exact backed
  | opened =>
    cases moved
    simp [Backed]
  | rearmed =>
    cases moved
    simp [Backed, PassGate.rearm]
  | asked asked answers =>
    simp only [Watch.next] at moved
    split at moved
    · cases moved
      exact backed
    · rename_i changed gate ok
      cases moved
      cases observeOk ok with
      | still => exact backed
      | reviews page nonempty => exact advanceBacked backed nonempty fun stamp held => reviewedSince page held
      | issues scan page nonempty observed =>
        exact advanceBacked backed nonempty fun stamp held => scannedSince page held

/-- A listed issue whose movement is judged another's is reported. -/
theorem listedReported {signal : PassSignal} {team : String} {rows : List Scanned}
    {seen : List (Scanned × Bool × Observation)}
    (observed : watch.gate.observePage json (watch.world.answering matching answers) (signal, team) rows = .ok seen)
    {row : Scanned} (member : row ∈ rows) {snapshot : IssueMovementSnapshot}
    (held : watch.world.issues.get? row.key = some snapshot)
    (foreign : PassGate.judgedOwn json watch.world.ledger (watch.gate.observations.get? (signal, team, row.key))
      (watch.world.ledger.receipts row.key
        ((watch.gate.observations.get? (signal, team, row.key)).elim 0 Prod.snd)).2 row snapshot = false) :
    row.key ∈ (seen.filter fun row => row.2.1 = false).map fun row => row.1.key := by
  obtain ⟨same, each⟩ := observePageOk observed
  obtain ⟨entry, inside, rfl⟩ := List.mem_map.mp (same ▸ member)
  obtain ⟨read, -, -, -, -, own⟩ := observeIssueOk (each entry inside)
  have unread : entry.1.key ∉ answers.unread := by
    intro absent
    simp [World.answering, absent] at read
  simp only [World.answering, unread, if_false, held, Option.some.injEq] at read
  rw [← read] at own
  exact List.mem_map.mpr ⟨entry, List.mem_filter.mpr ⟨inside, by simpa using own.trans foreign⟩, rfl⟩

theorem pageRead {signal : PassSignal} {team : String} {rows : List Scanned}
    {seen : List (Scanned × Bool × Observation)}
    (observed : watch.gate.observePage json (watch.world.answering matching answers) (signal, team) rows = .ok seen) :
    ∀ row ∈ rows, row.key ∉ answers.unread := by
  intro row member absent
  obtain ⟨same, each⟩ := observePageOk observed
  obtain ⟨entry, inside, rfl⟩ := List.mem_map.mp (same ▸ member)
  have read := (observeIssueOk (each entry inside)).1
  simp [World.answering, absent] at read

theorem nextAskable (backed : Backed watch.gate) (askable : Askable matching watch)
    (covers : Covers matching json watch event) (moved : watch.next matching json event = some watch') :
    Askable matching watch' := by
  cases event with
  | opened =>
    cases moved
    exact askable
  | rearmed =>
    cases moved
    intro key member snapshot held signal team state scan fits mark marked
    obtain ⟨now, stands, le⟩ := rearmMark backed marked
    exact le.trans (askable key member snapshot held signal team state scan fits now stands)
  | moved movement =>
    simp only [Watch.next] at moved
    split at moved
    · cases moved
    · cases moved
      intro key member snapshot held signal team state scan fits mark marked
      simp only [World.moved, Dict.getSet] at held
      split at held
      · cases held
        exact covers signal team state scan fits mark marked
      · rename_i other
        have earlier : key ∈ watch.moved := by
          cases movement with
          | own left receipts stamped => exact member
          | principal left => exact (List.mem_cons.mp member).resolve_left fun same => other same.symm
        exact askable key earlier snapshot held signal team state scan fits mark marked
  | asked asked answers =>
    simp only [Watch.next] at moved
    split at moved
    · cases moved
      exact askable
    · rename_i changed gate ok
      cases moved
      intro key member snapshot held signal team state scan fits mark marked
      obtain ⟨earlier, unreported⟩ := List.mem_filter.mp member
      simp only [decide_eq_true_eq] at unreported
      have before := askable key earlier snapshot held signal team state scan fits
      cases observeOk ok with
      | still => exact before mark marked
      | reviews page nonempty =>
        rw [advanceMark] at marked
        split at marked
        · rename_i same
          cases same
          cases scan
        · exact before mark marked
      | @issues signal' team' state' rows seen scan' page nonempty observed =>
        change ((watch.gate.advance (signal', team') rows).mark (signal, team)) = some mark at marked
        rw [advanceMark] at marked
        split at marked
        · rename_i same
          cases same
          cases scan.symm.trans scan'
          obtain ⟨newest, inPage, rfl⟩ := List.mem_map.mp (List.max?_mem marked)
          rcases covers state scan rows page (pageRead observed) key earlier snapshot held fits with
            older | ⟨row, listed, rfl, foreign⟩
          · exact older newest inPage
          · exact absurd (listedReported observed listed held foreign) unreported
        · exact before mark marked

end Keeps

section Runs
variable {Value : Type} (json : JsonLibrary Value)
  (matching : Option QueueState → Option String → IssueMovementSnapshot → Bool)

theorem asksRun {start watch : Watch} {events : List Event} (answers : Answers) (asked : List Asked)
    (run : Run (Watch.next matching json) start events watch) :
    Run (Watch.next matching json) start (events ++ asked.map fun asked => .asked asked answers)
      { watch with
        gate := (watch.gate.observeAll json (watch.world.answering matching answers) asked).2
        moved := watch.moved.filter fun key =>
          key ∉ (watch.gate.observeAll json (watch.world.answering matching answers) asked).1 } := by
  induction asked generalizing watch events with
  | nil => simpa [PassGate.observeAll] using run
  | cons one asked ih =>
    rw [List.map_cons, List.append_cons]
    cases answer : watch.gate.observe json (watch.world.answering matching answers) one with
    | error refusal =>
      have still : watch.next matching json (.asked one answers) = some watch := by simp [Watch.next, answer]
      simpa only [PassGate.observeAll, answer] using ih (.move run still)
    | ok observed =>
      have moved : watch.next matching json (.asked one answers) = some { watch with
          gate := observed.2, moved := watch.moved.filter (· ∉ observed.1) } := by simp [Watch.next, answer]
      have rest := ih (.move run moved)
      simpa [PassGate.observeAll, answer, List.filter_filter, Bool.and_comm] using rest

/-- A delta is its asks, one after the other, and reports what they report. -/
theorem deltaAsks {watch : Watch} {answers : Answers} {delta : PassGate.PassDelta} {gate : PassGate}
    (ok : watch.gate.delta json (watch.world.answering matching answers) = .ok (delta, gate)) :
    ∃ asked : List Asked, Run (Watch.next matching json) watch (.opened :: asked.map fun asked => .asked asked answers)
      { watch with gate, moved := watch.moved.filter (· ∉ delta.changed) } := by
  obtain ⟨asked, -, rest⟩ := bindOk.mp ok
  cases rest
  have opened : Run (Watch.next matching json) watch ([] ++ [.opened]) _ := .move .start rfl
  exact ⟨asked, asksRun json matching answers asked opened⟩

theorem newGate {signals : List PassSignal} {teamKeys repoUrls : List String} {pageSize : Nat} {gate : PassGate}
    (built : PassGate.new signals teamKeys repoUrls pageSize = .ok gate) : gate.advanced = [] := by
  obtain ⟨asked, -, made⟩ := bindOk.mp built
  cases made
  rfl

def Sound (watch : Watch) : Prop := Backed watch.gate ∧ Askable matching watch

/-- In every run whose steps are covered, an issue another's write moved is reported by some
tick, or a later scan can still return it. -/
theorem movedStaysAskable {start s : Watch} {events : List Event} {signals : List PassSignal}
    {teamKeys repoUrls : List String} {pageSize : Nat}
    (built : PassGate.new signals teamKeys repoUrls pageSize = .ok start.gate) (unmoved : start.moved = [])
    (run : Run (Watch.next matching json) start events s)
    (meets : ∀ before event after mid, events = before ++ event :: after →
      Run (Watch.next matching json) start before mid → Covers matching json mid event) :
    Askable matching s := by
  have kept : Sound matching s := by
    refine runKeepsWhile ⟨?_, ?_⟩ (fun mid event after sound covers moved => ?_) run meets
    · simp [Backed, newGate built]
    · simp [Askable, unmoved]
    · exact ⟨nextBacked sound.1 moved, nextAskable sound.1 sound.2 covers moved⟩
  exact kept.2

def everyIssue : Option QueueState → Option String → IssueMovementSnapshot → Bool := fun _ _ _ => true

def movedTo (key : String) (updatedAt : Int) : Movement := .principal ⟨key, updatedAt, [], []⟩

/-- A backend that answers every scan with one page. -/
def onePage (rows : List Scanned) : Answers := ⟨fun _ => some rows, fun _ => none, []⟩

def smallGate (pageSize : Nat) : PassGate :=
  ⟨[.issuesChanged], ["KOD"], [], pageSize, [((.issuesChanged, "KOD"), none)], [], [], []⟩

def watched (pageSize : Nat) : Watch := ⟨smallGate pageSize, ⟨[], .new⟩, []⟩

theorem unmarked (pageSize : Nat) (asked : Asked) : (smallGate pageSize).mark asked = none := by
  simp only [PassGate.mark, smallGate, Dict.get?]
  split <;> rfl

theorem wholePageReported : ∃ s, Run (Watch.next everyIssue plainJson) (watched 2)
    [.moved (movedTo "KOD-75" 5), .asked (.issuesChanged, "KOD") (onePage [⟨"KOD-75", 5⟩])] s ∧
      Askable everyIssue s := by
  have run : Run (Watch.next everyIssue plainJson) (watched 2)
      ([] ++ [.moved (movedTo "KOD-75" 5)] ++ [.asked (.issuesChanged, "KOD") (onePage [⟨"KOD-75", 5⟩])]) _ :=
    .move (.move .start rfl) rfl
  have built : PassGate.new [.issuesChanged] ["KOD"] [] 2 = .ok (watched 2).gate := rfl
  refine ⟨_, run, movedStaysAskable plainJson everyIssue built rfl run ?_⟩
  intro before event after mid same early
  rcases before with _ | ⟨first, _ | ⟨second, before⟩⟩
  · obtain ⟨rfl, -⟩ := List.cons.inj same
    cases runNil early
    intro signal team state scan fits mark marked
    cases (unmarked 2 (signal, team)).symm.trans marked
  · obtain ⟨rfl, rest⟩ := List.cons.inj same
    obtain ⟨rfl, -⟩ := List.cons.inj rest
    cases runOnce early (.move .start rfl)
    intro state scan rows page read key member snapshot held fits
    cases List.mem_singleton.mp member
    cases held
    simp only [World.answering] at page
    obtain ⟨answered, -⟩ := Option.filter_eq_some_iff.mp page
    cases answered
    refine Or.inl fun row listed => ?_
    cases List.mem_singleton.mp listed
    exact le_rfl
  · simp at same

/-- Two issues move, a page of one answers with the newer, and the mark passes the other by. -/
theorem crowdedPageLosesIssue : ¬ ∀ start s events, Run (Watch.next everyIssue plainJson) start events s →
    PassGate.new [.issuesChanged] ["KOD"] [] 1 = .ok start.gate → start.moved = [] → Askable everyIssue s := by
  intro askable
  have run : Run (Watch.next everyIssue plainJson) (watched 1) ([] ++ [.moved (movedTo "KOD-75" 5)] ++
      [.moved (movedTo "KOD-76" 7)] ++ [.asked (.issuesChanged, "KOD") (onePage [⟨"KOD-76", 7⟩])]) _ :=
    .move (.move (.move .start rfl) rfl) rfl
  have late := askable _ _ _ run rfl rfl "KOD-75" (by decide) ⟨"KOD-75", 5, [], []⟩ rfl .issuesChanged "KOD" none rfl
    rfl 7 rfl
  exact absurd late (by decide)

end Runs
end Kodezart.Gate
