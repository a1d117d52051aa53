import Mathlib
import Kodezart.PassGate

/-! Two successful observations of one issue by one gate, with the operation's own writes
and other principals' movements between them: what the second reports. -/
namespace Kodezart.Gate
open SelfWrites

/-- What moves an issue, and what it leaves: a write of the operation's own, with the receipts
and the stamp it records, or a principal's edit, comment, comment edit or comment deletion. -/
inductive Movement where
  | own (left : IssueMovementSnapshot) (receipts : List OwnMutation) (stamped : Bool)
  | principal (left : IssueMovementSnapshot)
  deriving DecidableEq, Repr

namespace Movement

def left : Movement → IssueMovementSnapshot
  | .own left _ _ => left
  | .principal left => left

def receipts : Movement → List (String × OwnMutation)
  | .own left receipts _ => receipts.map fun mutation => (left.issueKey, mutation)
  | .principal _ => []

def recorded (ledger : SelfWriteLedger) : Movement → SelfWriteLedger
  | .own left receipts stamped =>
    let told := receipts.foldl (fun ledger mutation => ledger.recordMutation left.issueKey mutation) ledger
    if stamped then told.record left.issueKey left.updatedAt else told
  | .principal _ => ledger

end Movement

/-- The issues as the backend holds them, and what the operation recorded of its own writes. -/
structure World where
  issues : Dict String IssueMovementSnapshot
  ledger : SelfWriteLedger
  deriving DecidableEq, Repr

def World.moved (world : World) (movement : Movement) : World :=
  ⟨world.issues.set movement.left.issueKey movement.left, movement.recorded world.ledger⟩

def World.after (world : World) (history : List Movement) : World := history.foldl World.moved world

def logged (history : List Movement) : List (String × OwnMutation) := history.flatMap Movement.receipts

section Ledger
variable {log : List (String × OwnMutation)} {ledger : SelfWriteLedger} {world : World}

@[simp] theorem loggedAppend (history later : List Movement) : logged (history ++ later) = logged history ++ logged later :=
  List.flatMap_append

theorem cameReceipts (came : Came log ledger) (issueKey : String) (receipts : List OwnMutation) :
    Came (log ++ receipts.map fun mutation => (issueKey, mutation))
      (receipts.foldl (fun ledger mutation => ledger.recordMutation issueKey mutation) ledger) := by
  induction receipts generalizing log ledger with
  | nil => simpa using came
  | cons mutation receipts ih =>
    rw [List.map_cons, List.append_cons]
    exact ih (cameMutation came issueKey mutation)

theorem cameMoved (came : Came log world.ledger) (movement : Movement) :
    Came (log ++ movement.receipts) (world.moved movement).ledger := by
  cases movement with
  | principal left => simpa [Movement.receipts, World.moved, Movement.recorded] using came
  | own left receipts stamped =>
    have told := cameReceipts came left.issueKey receipts
    simp only [World.moved, Movement.recorded]
    split
    · exact cameRecord told _ _
    · exact told

/-- A ledger holds what the history behind it recorded. -/
theorem cameAfter (came : Came log world.ledger) (history : List Movement) :
    Came (log ++ logged history) (world.after history).ledger := by
  induction history generalizing log world with
  | nil => simpa [logged, World.after] using came
  | cons movement history ih =>
    have rest := ih (cameMoved came movement)
    rwa [List.append_assoc] at rest

theorem cameFrom (issues : Dict String IssueMovementSnapshot) (history : List Movement) :
    Came (logged history) (World.after ⟨issues, .new⟩ history).ledger := by
  have came : Came [] (World.ledger ⟨issues, .new⟩) := cameNew
  simpa using cameAfter came history

end Ledger

section Page
variable {Value : Type} {json : JsonLibrary Value} {gate gate' : PassGate} {tracker : Tracker}
  {signal : PassSignal} {teamKey : String} {queueState : Option QueueState} {changed : List String}
  {rows : List Scanned} {seen : List (Scanned × Bool × Observation)}

/-- A page's observations are its rows', one for each and in order. -/
theorem observePageOk {asked : Asked} (ok : gate.observePage json tracker asked rows = .ok seen) :
    seen.map Prod.fst = rows ∧ ∀ row ∈ seen, PassGate.observeIssue json
      (gate.observations.get? (asked.1, asked.2, row.1.key)) row.1 (tracker.readIssueMovement row.1) = .ok row.2 := by
  induction rows generalizing seen with
  | nil =>
    cases ok
    exact ⟨rfl, by simp⟩
  | cons issue rows ih =>
    simp only [PassGate.observePage, bindOk] at ok
    obtain ⟨own, one, rest, others, same⟩ := ok
    cases same
    obtain ⟨rows, each⟩ := ih others
    refine ⟨by rw [List.map_cons, rows], fun row member => ?_⟩
    rcases List.mem_cons.mp member with rfl | later
    · exact one
    · exact each row later

theorem issueDeltaOk (ok : gate.issueDelta json tracker signal teamKey queueState = .ok (changed, gate'))
    (scanned : tracker.scanIssues ⟨queueState, some teamKey, gate.mark (signal, teamKey), gate.pageSize⟩ = some rows)
    (nonempty : rows ≠ []) :
    ∃ seen, gate.observePage json tracker (signal, teamKey) rows = .ok seen ∧
      changed = (seen.filter fun row => row.2.1 = false).map (fun row => row.1.key) ∧
      gate' = { gate.advance (signal, teamKey) rows with
        observations := gate.observations.update (seen.map fun row => ((signal, teamKey, row.1.key), row.2.2)) } := by
  simp only [PassGate.issueDelta, scanned, bindOk] at ok
  obtain ⟨seen, observed, rest⟩ := ok
  cases rest
  exact ⟨seen, observed, rfl, rfl⟩

/-- What a successful observation read, kept and judged. -/
theorem observeIssueOk {previous : Option Observation} {issue : Scanned} {reading : Reading} {own : Bool}
    {observation : Observation} (ok : PassGate.observeIssue json previous issue reading = .ok (own, observation)) :
    reading.snapshot = some observation.1 ∧ observation.1.issueKey = issue.key ∧
      observation.1.updatedAt = issue.updatedAt ∧
      observation.2 = (reading.opened.receipts issue.key (previous.elim 0 Prod.snd)).1 ∧
      observation.2 = (reading.closed.receipts issue.key 0).1 ∧
      own = PassGate.judgedOwn json reading.closed previous
        (reading.opened.receipts issue.key (previous.elim 0 Prod.snd)).2 issue observation.1 := by
  simp only [PassGate.observeIssue] at ok
  split at ok
  · cases ok
  · rename_i snapshot read
    split at ok
    · cases ok
    · rename_i stable
      cases ok
      simp only [not_or, not_not] at stable
      exact ⟨read, stable.1, stable.2.1, rfl, stable.2.2, rfl⟩

theorem judgedForeign {closed : SelfWriteLedger} {before snapshot : IssueMovementSnapshot} {cursor : Nat}
    {mutations : Option (List OwnMutation)} {issue : Scanned} :
    PassGate.judgedOwn json closed (some (before, cursor)) mutations issue snapshot = false ↔
      closed.wrote issue.key issue.updatedAt = false ∧
        ∀ own, mutations = some own → matchesOwnMutations json before snapshot own = false := by
  cases mutations <;> simp [PassGate.judgedOwn]

end Page

section Window
variable {Value : Type}

/-- A scan of one signal and container that answered, and the gate it left. -/
structure Tick (json : JsonLibrary Value) (signal : PassSignal) (teamKey : String) (queueState : Option QueueState) where
  gate : PassGate
  tracker : Tracker
  rows : List Scanned
  changed : List String
  left : PassGate
  scanned : tracker.scanIssues ⟨queueState, some teamKey, gate.mark (signal, teamKey), gate.pageSize⟩ = some rows
  once : (rows.map Scanned.key).Nodup
  answered : gate.issueDelta json tracker signal teamKey queueState = .ok (changed, left)

/-- One issue between two observations: the history up to the first, then what moves it up to
the second's read and while that read is under way. -/
structure Window (json : JsonLibrary Value) where
  signal : PassSignal
  teamKey : String
  queueState : Option QueueState
  issues : Dict String IssueMovementSnapshot
  history : List Movement
  later : List Movement
  early : List Movement
  late : List Movement
  first : Tick json signal teamKey queueState
  second : Tick json signal teamKey queueState
  row : Scanned
  row' : Scanned
  before : IssueMovementSnapshot
  after : IssueMovementSnapshot
  listed : row ∈ first.rows
  listed' : row' ∈ second.rows
  same : row'.key = row.key
  opened : (first.tracker.readIssueMovement row).snapshot = some before
  closed : (first.tracker.readIssueMovement row).closed = (World.after ⟨issues, .new⟩ history).ledger
  retained : second.gate.observations.get? (signal, teamKey, row.key) =
    first.left.observations.get? (signal, teamKey, row.key)
  read : second.tracker.readIssueMovement row' = ⟨(World.after ⟨issues, .new⟩ (history ++ later)).ledger,
    (World.after ⟨issues, .new⟩ (history ++ later ++ early)).issues.get? row.key,
    (World.after ⟨issues, .new⟩ (history ++ later ++ early ++ late)).ledger⟩
  found : (World.after ⟨issues, .new⟩ (history ++ later ++ early)).issues.get? row.key = some after

namespace Window
variable {json : JsonLibrary Value} (w : Window json)

/-- The operation's own mutations of the issue between the two observations. -/
def ownMutations : List OwnMutation := ownOn w.row.key (logged (w.later ++ w.early ++ w.late))

/-- The second snapshot is not what the own mutations make of the first. -/
def Unexplained : Prop := replay json w.before w.ownMutations ≠ some (w.after.fields, w.after.comments)

instance : Decidable w.Unexplained := inferInstanceAs (Decidable (_ ≠ _))

/-- The ledger as the second observation closes. -/
def ledger : SelfWriteLedger :=
  (World.after ⟨w.issues, .new⟩ (w.history ++ w.later ++ w.early ++ w.late)).ledger

theorem keptFirst : w.first.left.observations.get? (w.signal, w.teamKey, w.row.key) =
    some (w.before, (ownOn w.row.key (logged w.history)).length) := by
  obtain ⟨seen, observed, -, left⟩ := issueDeltaOk w.first.answered w.first.scanned (List.ne_nil_of_mem w.listed)
  obtain ⟨rows, each⟩ := observePageOk observed
  obtain ⟨row, member, same⟩ := List.mem_map.mp (rows ▸ w.listed)
  have ok := each row member
  rw [same] at ok
  obtain ⟨read, -, -, -, cursor, -⟩ := observeIssueOk ok
  have came := cameFrom w.issues w.history
  rw [w.closed, (receiptsPast came 0).1] at cursor
  rw [w.opened, Option.some.injEq] at read
  have entry : ((w.signal, w.teamKey, w.row.key), w.before, (ownOn w.row.key (logged w.history)).length) ∈
      seen.map fun row => ((w.signal, w.teamKey, row.1.key), row.2.2) :=
    List.mem_map.mpr ⟨row, member, by rw [same, read, ← cursor]⟩
  rw [left]
  refine Dict.updateGetUnique ?_ entry
  have keys := w.first.once
  rw [← rows, List.map_map] at keys
  rw [Dict.keys, List.map_map]
  exact List.Nodup.of_map Prod.snd (List.Nodup.of_map Prod.snd (by simpa [List.map_map, Function.comp_def] using keys))

/-- The receipts the second observation replays. -/
def replayed : Option (List OwnMutation) :=
  ((World.after ⟨w.issues, .new⟩ (w.history ++ w.later)).ledger.receipts w.row.key
    (ownOn w.row.key (logged w.history)).length).2

/-- The second observation, and what it adds to the report. -/
theorem observedSecond : ∃ own observation, PassGate.observeIssue json
      (some (w.before, (ownOn w.row.key (logged w.history)).length)) w.row' (w.second.tracker.readIssueMovement w.row') =
        .ok (own, observation) ∧ (w.row.key ∈ w.second.changed ↔ own = false) := by
  obtain ⟨seen, observed, moved, -⟩ := issueDeltaOk w.second.answered w.second.scanned (List.ne_nil_of_mem w.listed')
  obtain ⟨rows, each⟩ := observePageOk observed
  obtain ⟨row, member, same⟩ := List.mem_map.mp (rows ▸ w.listed')
  have ok := each row member
  rw [same, w.same, w.retained, w.keptFirst] at ok
  refine ⟨row.2.1, row.2.2, ok, ?_⟩
  simp only [moved, List.mem_map, List.mem_filter, decide_eq_true_eq]
  constructor
  · rintro ⟨other, ⟨inside, judged⟩, key⟩
    have keys := w.second.once
    rw [← rows, List.map_map] at keys
    have one := List.inj_on_of_nodup_map keys inside member (by simp [key, same, w.same])
    exact one ▸ judged
  · intro judged
    exact ⟨row, ⟨member, judged⟩, by rw [same, w.same]⟩

/-- The issue is reported unless its movement is judged the operation's own. -/
theorem reportedIff : w.row.key ∈ w.second.changed ↔ w.ledger.wrote w.row.key w.after.updatedAt = false ∧
    ∀ mutations, w.replayed = some mutations → matchesOwnMutations json w.before w.after mutations = false := by
  obtain ⟨own, observation, ok, reported⟩ := w.observedSecond
  obtain ⟨read, -, stamp, -, -, judged⟩ := observeIssueOk ok
  rw [w.read, w.found, Option.some.injEq] at read
  rw [← read] at stamp judged
  simp only [w.read, w.same, Option.elim_some] at judged
  rw [reported, judged, judgedForeign, w.same, ← stamp]
  rfl

/-- Receipts the second observation replays are the own mutations since the first. -/
theorem replayedOwn {mutations : List OwnMutation} (held : w.replayed = some mutations) :
    mutations = w.ownMutations := by
  obtain ⟨own, observation, ok, -⟩ := w.observedSecond
  obtain ⟨-, -, -, cursor, final, -⟩ := observeIssueOk ok
  have opened := cameFrom w.issues (w.history ++ w.later)
  have closed := cameFrom w.issues (w.history ++ w.later ++ w.early ++ w.late)
  rw [w.read, w.same, (receiptsPast opened _).1] at cursor
  rw [w.read, w.same, (receiptsPast closed _).1] at final
  -- An equal cursor at the close leaves no own mutation while the read was under way.
  have quiet : ownOn w.row.key (logged (w.early ++ w.late)) = [] := by
    refine List.eq_nil_of_length_eq_zero ?_
    have equal := cursor.symm.trans final
    simp only [loggedAppend, ownOnAppend, List.length_append] at equal ⊢
    omega
  rcases (receiptsPast opened (ownOn w.row.key (logged w.history)).length).2 with none | some
  · rw [replayed, none] at held
    cases held
  · rw [replayed, some, Option.some.injEq] at held
    rw [ownMutations, List.append_assoc, loggedAppend, ownOnAppend, quiet, ← held, List.append_nil, loggedAppend,
      ownOnAppend, List.drop_left]

/-- A principal's movement is reported exactly where the last write of the issue is not a
stamped one of the operation's own, or the own mutations explain everything that is there. -/
theorem movementReportedIff : (w.Unexplained → w.row.key ∈ w.second.changed) ↔
    w.ledger.wrote w.row.key w.after.updatedAt = false ∨ ¬ w.Unexplained := by
  have unmatched : w.Unexplained → ∀ mutations, w.replayed = some mutations →
      matchesOwnMutations json w.before w.after mutations = false := by
    intro unexplained mutations held
    rw [w.replayedOwn held, matchesOwnMutations]
    split
    · rfl
    · exact decide_eq_false unexplained
  rw [reportedIff]
  constructor
  · intro reports
    by_cases unexplained : w.Unexplained
    · exact Or.inl (reports unexplained).1
    · exact Or.inr unexplained
  · rintro (foreign | explained) unexplained
    · exact ⟨foreign, unmatched unexplained⟩
    · exact absurd unexplained explained

end Window

/-- A reader no sample asks to extend a list. -/
def plainJson : JsonLibrary String := ⟨id, fun _ => none, fun one other => one = other, String.join⟩

def issueWith (description labels : String) (updatedAt : Int) : IssueMovementSnapshot :=
  ⟨"KOD-74", updatedAt, [("description", description), ("labels", labels)], []⟩

def scansOne (updatedAt : Int) (reading : Reading) : Tracker :=
  ⟨fun _ => some [⟨"KOD-74", updatedAt⟩], fun _ => none, fun _ => reading⟩

def issuesGate : PassGate := ⟨[.issuesChanged], ["KOD"], [], 50, [((.issuesChanged, "KOD"), none)], [], [], []⟩

abbrev quietBoard : World := ⟨[("KOD-74", issueWith "old" "none" 1)], .new⟩

/-- A first observation, taken of a board nothing was written on. -/
def firstTick : Tick plainJson .issuesChanged "KOD" none :=
  ⟨issuesGate, scansOne 1 ⟨.new, some (issueWith "old" "none" 1), .new⟩, _, _, _, rfl, by decide, rfl⟩

/-- The tick that observes the board a history left behind. -/
abbrev readingAfter (later : List Movement) (left : IssueMovementSnapshot) : Tracker :=
  scansOne left.updatedAt ⟨(quietBoard.after later).ledger, some left, (quietBoard.after later).ledger⟩

abbrev rewritten : Movement := .principal (issueWith "theirs" "none" 2)

/-- The issue with the operation's comment on it. -/
abbrev withComment : IssueMovementSnapshot :=
  { issueWith "theirs" "none" 3 with comments := [("c3", [("body", "ours")])] }

abbrev commented : Movement := .own withComment [{ created := withComment.comments }] false

/-- A principal rewrites the description, and the operation then comments. -/
def commentedWindow : Window plainJson where
  signal := .issuesChanged
  teamKey := "KOD"
  queueState := none
  issues := quietBoard.issues
  history := []
  later := [rewritten, commented]
  early := []
  late := []
  first := firstTick
  second := ⟨firstTick.left, readingAfter [rewritten, commented] withComment, _, _, _, rfl, by decide, rfl⟩
  row := ⟨"KOD-74", 1⟩
  row' := ⟨"KOD-74", 3⟩
  before := issueWith "old" "none" 1
  after := withComment
  listed := by decide
  listed' := by decide
  same := rfl
  opened := rfl
  closed := rfl
  retained := rfl
  read := rfl
  found := rfl

abbrev labelled : Movement := .own (issueWith "theirs" "ours" 3) [{ fields := [("labels", "ours")] }] true

/-- The same where the operation's write is an issue write, which leaves its stamp. -/
def maskedWindow : Window plainJson := { commentedWindow with
  later := [rewritten, labelled]
  second := ⟨firstTick.left, readingAfter [rewritten, labelled] (issueWith "theirs" "ours" 3), _, _, _, rfl, by decide,
    rfl⟩
  after := issueWith "theirs" "ours" 3
  listed' := by decide
  retained := rfl
  read := rfl
  found := rfl }

theorem commentedMovementReported : "KOD-74" ∈ commentedWindow.second.changed :=
  commentedWindow.movementReportedIff.mpr (Or.inl (by decide)) (by decide)

/-- The label write's stamp stands for the whole window, and the rewritten description goes by. -/
theorem maskedMovementSwallowed : ¬ ∀ w : Window plainJson, w.Unexplained → w.row.key ∈ w.second.changed := by
  intro reports
  exact absurd (reports maskedWindow (by decide)) (by decide)

end Window
end Kodezart.Gate
