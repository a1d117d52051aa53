import Mathlib
import Kodezart.DispatchMemory

/-! A board on which nothing moves but the dispatcher's own writes, answering every call but
those a launch is expected to lose: what each clause decides of an entry there. -/
namespace Kodezart.Dispatch
open Tracker Prog FireDispatcher

/-- What stands still: the issues, what a scan lists and with which edges, the claims of other
holders, the routes, what each project resolves to, the open deliveries, and which bases resolve. -/
structure Board where
  issues : String → Option BoardIssue
  keyed : ∀ key issue, issues key = some issue → issue.key = key
  listing : Option String → List String
  edges : String → List IssueRelation
  claims : String → Option ClaimResult
  recorded : String → Option String
  initiatives : String → List String
  delivered : String → Bool
  resolvable : String → Bool

/-- What moves under the dispatcher: besides its memory and the timestamps, the claims it holds
and the jobs known to have ended. -/
structure BoardWorld extends World where
  held : String → Bool
  ended : String → Bool

def BoardIssue.stamped (issue : BoardIssue) (updatedAt : Int) : BoardIssue := { issue with updatedAt }

namespace Board
variable (b : Board) (w : BoardWorld)

def read (key : String) : Option BoardIssue := (b.issues key).map fun issue => issue.stamped (w.updated key)

/-- An issue as a scan lists it. -/
def face (key : String) : Option BoardIssue := (b.issues key).map fun issue => { issue with relations := b.edges key }

def entry (key : String) : Option BoardIssue := (b.face key).map fun issue => issue.stamped (w.updated key)

def listed (team : Option String) : List BoardIssue := (b.listing team).filterMap (b.entry w)

/-- None of the blockers is open. -/
def Unblocked (keys : List String) : Prop := ∀ key ∈ keys, ∀ issue, b.issues key = some issue → clauseOpen issue = false

end Board

def settled (record : Option Jobs.JobRecord) : Bool := record.all fun record => record.state = .terminal

def endsJob (answer : Except Raised (Option Jobs.JobRecord)) : Bool :=
  match answer with
  | .ok record => settled record
  | .error _ => false

def BaseFailed (answer : Except Raised α) : Prop := ∃ raised message, answer = .error raised ∧ raised.failure = .baseResolution message

def BoardTells (b : Board) (w : BoardWorld) : (call : Call) → Except Raised (Reply call) → Prop
  | .scanIssues query, answer => answer = .ok (b.listed w query.teamKey)
  | .readIssue key, answer => ∃ issue, answer = .ok issue ∧ b.read w key = some issue
  | .activeClaim key, answer => ∃ claim, answer = .ok claim ∧ if w.held key then claim.isSome = true else claim = b.claims key
  | .recordedRepository key, answer => answer = .ok (b.recorded key)
  | .initiativeIdentifiers projectId, answer => answer = .ok (b.initiatives projectId)
  | .initiativesOf projectId, answer => answer = .ok none ∨ answer = .ok (some (b.initiatives projectId))
  | .openDeliveryExists _ key, answer => answer = .ok (b.delivered key)
  | .jobRecord jobId, answer => ∃ record, answer = .ok record ∧ (w.ended jobId = true → settled record = true)
  | .draw tied, answer => ∃ key ∈ tied, answer = .ok key
  | .recall key, answer => answer = .ok (w.remembered key)
  | .jobOf key, answer => answer = .ok (w.jobs key)
  | .claimIssue _ _ _, answer => ∃ claim, answer = .ok claim ∧ claim.status = .granted
  | .holding, answer => answer = .ok none
  | .ensureAvailable _, answer => answer.isOk ∨ BaseFailed answer
  | .resolve key _ _ _ _, answer => b.resolvable key = false → BaseFailed answer
  | .assemble _ _, _ | .submit _ _, _ => True
  | _, answer => answer.isOk

def BoardLeaves (w w' : BoardWorld) : (call : Call) → Except Raised (Reply call) → Prop
  | .remember key exclusion, _ => w' = { w with remembered := Function.update w.remembered key (some exclusion) }
  | .forget key, _ => w' = { w with remembered := Function.update w.remembered key none }
  | .noteJob key jobId, _ => w' = { w with jobs := Function.update w.jobs key (some jobId) }
  | .claimIssue key _ _, _ => ∃ moved,
      w' = { w with updated := Function.update w.updated key moved, held := Function.update w.held key true }
  | .releaseClaim key _, _ => ∃ moved,
      w' = { w with updated := Function.update w.updated key moved, held := Function.update w.held key false }
  | .recordBaseSpec key _, _ | .resolve key _ _ _ _, _ =>
      ∃ moved, w' = { w with updated := Function.update w.updated key moved }
  | .jobRecord jobId, answer =>
      w' = { w with ended := Function.update w.ended jobId (w.ended jobId || endsJob answer) }
  | _, _ => w' = w

/-- A call on the still board. The board answers and grants every claim, and the lane is not
held back: nothing fails but a base's resolution, the assembly and the submission. -/
def Calm (b : Board) (w : BoardWorld) (call : Call) (answer : Except Raised (Reply call)) (w' : BoardWorld) : Prop :=
  BoardTells b w call answer ∧ BoardLeaves w w' call answer

section Worlds
variable {b : Board} {key : String} {w w' w'' : BoardWorld} {t : Transcript} {α : Type}

/-- Nothing about the issue has changed, but that a memory of it may be gone. -/
structure Steady (key : String) (w w' : BoardWorld) : Prop where
  updated : w'.updated key = w.updated key
  held : w'.held key = w.held key
  jobs : w'.jobs key = w.jobs key
  ended : ∀ jobId, w.ended jobId = true → w'.ended jobId = true
  remembered : w'.remembered key = w.remembered key ∨ w'.remembered key = none

structure Apart (key : String) (w w' : BoardWorld) : Prop extends Steady key w w' where
  kept : w'.remembered key = w.remembered key

theorem apartRefl (w : BoardWorld) : Apart key w w := ⟨⟨rfl, rfl, rfl, fun _ => id, .inl rfl⟩, rfl⟩

theorem steadyTrans (first : Steady key w w') (second : Steady key w' w'') : Steady key w w'' where
  updated := second.updated.trans first.updated
  held := second.held.trans first.held
  jobs := second.jobs.trans first.jobs
  ended jobId known := second.ended jobId (first.ended jobId known)
  remembered := by
    rcases second.remembered with same | gone
    · exact first.remembered.imp same.trans same.trans
    · exact .inr gone

theorem apartTrans (first : Apart key w w') (second : Apart key w' w'') : Apart key w w'' :=
  ⟨steadyTrans first.toSteady second.toSteady, second.kept.trans first.kept⟩

theorem boardApart {call : Call} {answer : Except Raised (Reply call)} (spares : call.spares key)
    (took : Calm b w call answer w') : Apart key w w' := by
  obtain ⟨-, left⟩ := took
  have other {ν : Type} (f : String → ν) (v : ν) {moved : String} (different : moved ≠ key) :
      Function.update f moved v key = f key := Function.update_of_ne (Ne.symm different) _ _
  cases call
  case remember moved exclusion =>
    subst left
    exact ⟨⟨rfl, rfl, rfl, fun _ => id, .inl (other _ _ spares)⟩, other _ _ spares⟩
  case forget moved =>
    subst left
    exact ⟨⟨rfl, rfl, rfl, fun _ => id, .inl (other _ _ spares)⟩, other _ _ spares⟩
  case noteJob moved jobId =>
    subst left
    exact ⟨⟨rfl, rfl, other _ _ spares, fun _ => id, .inl rfl⟩, rfl⟩
  case claimIssue moved holder leaseSeconds =>
    obtain ⟨stamp, rfl⟩ := left
    exact ⟨⟨other _ _ spares, other _ _ spares, rfl, fun _ => id, .inl rfl⟩, rfl⟩
  case releaseClaim moved holder =>
    obtain ⟨stamp, rfl⟩ := left
    exact ⟨⟨other _ _ spares, other _ _ spares, rfl, fun _ => id, .inl rfl⟩, rfl⟩
  case recordBaseSpec moved spec =>
    obtain ⟨stamp, rfl⟩ := left
    exact ⟨⟨other _ _ spares, rfl, rfl, fun _ => id, .inl rfl⟩, rfl⟩
  case resolve moved repoPath workspace trunk now =>
    obtain ⟨stamp, rfl⟩ := left
    exact ⟨⟨other _ _ spares, rfl, rfl, fun _ => id, .inl rfl⟩, rfl⟩
  case jobRecord jobId =>
    subst left
    refine ⟨⟨rfl, rfl, rfl, fun known ended => ?_, .inl rfl⟩, rfl⟩
    by_cases same : known = jobId
    · subst same
      simp [ended]
    · simpa [Function.update_of_ne same] using ended
  all_goals
    cases (show w' = w from left)
    exact apartRefl w

theorem boardSteady {other : String} {call : Call} {answer : Except Raised (Reply call)} (selects : call.selects other)
    (took : Calm b w call answer w') : Steady key w w' := by
  by_cases same : ∃ dropped, call = .forget dropped
  · obtain ⟨dropped, rfl⟩ := same
    have left : w' = _ := took.2
    subst left
    refine ⟨rfl, rfl, rfl, fun _ => id, ?_⟩
    by_cases hit : dropped = key
    · subst hit
      exact .inr (Function.update_self _ _ _)
    · exact .inl (Function.update_of_ne (Ne.symm hit) _ _)
  · refine (boardApart ?_ took).toSteady
    cases call
    case forget dropped => exact absurd ⟨dropped, rfl⟩ same
    case remember => exact selects.elim
    case noteJob => exact selects.elim
    case claimIssue => exact selects.elim
    case releaseClaim => exact selects.elim
    case recordBaseSpec => exact selects.elim
    case resolve => exact selects.elim
    all_goals trivial

theorem goesApart {p : Program α} {out : Except Raised α} (asks : p.Asks (Call.spares key))
    (went : Goes (Calm b) p w t w' out) : Apart key w w' :=
  goesKeepsAsking (Apart key w) asks (fun _ _ _ _ spares first took => apartTrans first (boardApart spares took))
    (apartRefl w) went

theorem goesSteady {other : String} {p : Program α} {out : Except Raised α} (asks : p.Asks (Call.selects other))
    (went : Goes (Calm b) p w t w' out) : Steady key w w' :=
  goesKeepsAsking (Steady key w) asks (fun _ _ _ _ selects first took => steadyTrans first (boardSteady selects took))
    (apartRefl w).toSteady went

/-- The memory still holds of the board: the issue has not moved, and a blocker it names is open. -/
def StandsOn (b : Board) (w : BoardWorld) (key : String) (exclusion : RememberedExclusion) : Prop :=
  w.updated key ≤ exclusion.updatedAt ∧
    (exclusion.clause = .liveBlocker → ∀ blocker, b.issues exclusion.detail = some blocker → clauseOpen blocker = true)

def Standing (b : Board) (w : BoardWorld) (key : String) : Prop :=
  ∃ exclusion, w.remembered key = some exclusion ∧ StandsOn b w key exclusion

/-- Out of the way of the issues ranked after it: excluded by its memory, or held. -/
def Spent (b : Board) (w : BoardWorld) (key : String) : Prop := Standing b w key ∨ w.held key = true

def Idle (w : BoardWorld) (key : String) : Prop := ∀ jobId, w.jobs key = some jobId → w.ended jobId = true

/-- As `Steady`, and a memory that stands is kept. -/
structure Kept (b : Board) (key : String) (w w' : BoardWorld) : Prop extends Steady key w w' where
  standing : Standing b w key → w'.remembered key = w.remembered key

theorem apartKept (apart : Apart key w w') : Kept b key w w' := ⟨apart.toSteady, fun _ => apart.kept⟩

theorem standingKept (kept : Kept b key w w') (standing : Standing b w key) : Standing b w' key := by
  obtain ⟨exclusion, held, stands⟩ := standing
  refine ⟨exclusion, (kept.standing ⟨exclusion, held, stands⟩).trans held, ?_⟩
  rwa [StandsOn, kept.updated]

theorem spentKept (kept : Kept b key w w') : Spent b w' key ↔ Spent b w key := by
  refine ⟨Or.imp (fun standing => ?_) fun held => kept.held ▸ held, Or.imp (standingKept kept) fun held => kept.held ▸ held⟩
  obtain ⟨exclusion, found, stands⟩ := standing
  rw [StandsOn, kept.updated] at stands
  rcases kept.remembered with same | gone
  · exact ⟨exclusion, same ▸ found, stands⟩
  · cases gone.symm.trans found

theorem idleKept (steady : Steady key w w') (idle : Idle w key) : Idle w' key := fun jobId found =>
  steady.ended jobId (idle jobId (steady.jobs ▸ found))

theorem keptTrans (first : Kept b key w w') (second : Kept b key w' w'') : Kept b key w w'' where
  toSteady := steadyTrans first.toSteady second.toSteady
  standing standing := (second.standing (standingKept first standing)).trans (first.standing standing)

end Worlds

section Clauses
variable {b : Board} {d : FireDispatcher} {teamKeys : List String} {w w' : BoardWorld} {entry : BoardIssue} {t : Transcript}

/-- What the clause asks of an entry, from the world on and while deciding: with `must` it lets
the entry by, and only with `may`. -/
def Decides (b : Board) (clause : Program (Option IssueExclusion)) (w : BoardWorld) (must may : Prop) : Prop :=
  ∀ w', (∀ key, Steady key w w') →
    Yields (Calm b) clause w' fun exclusion _ => (must → exclusion = none) ∧ (exclusion = none → may)

theorem yieldsSteady {α : Type} {p : Program α} {post : α → BoardWorld → Prop} {other : String}
    (asks : p.Asks (Call.selects other)) (yields : Yields (Calm b) p w post) :
    Yields (Calm b) p w fun a w' => post a w' ∧ ∀ key, Steady key w w' := by
  intro t w' out went
  obtain ⟨a, same, held⟩ := yields _ _ _ went
  exact ⟨a, same, held, fun key => goesSteady asks went⟩

theorem answersYields {call : Call} (answers : ∀ answer, BoardTells b w call answer → answer.isOk = true) :
    Yields (Calm b) (ask call) w fun reply w' => Calm b w call (.ok reply) w' := by
  refine yieldsRequest fun answer w' took => ?_
  cases answer with
  | error raised => cases answers _ took.1
  | ok reply => exact ⟨reply, rfl, took⟩

theorem readYields (key : String) :
    Yields (Calm b) (ask (.readIssue key)) w fun issue w' => b.read w key = some issue ∧ w' = w :=
  yieldsRequest fun _ _ ⟨⟨issue, same, read⟩, left⟩ => ⟨issue, same, read, left⟩

theorem standsYields (remembered : RememberedExclusion) :
    Yields (Calm b) (memoryStands entry remembered) w fun stands w' => w' = w ∧
      (entry.updatedAt = w.updated entry.key → (stands = true ↔ StandsOn b w entry.key remembered)) := by
  unfold memoryStands stillStands
  split
  · rename_i current
    split
    · rename_i plain
      refine yieldsPure ⟨rfl, fun read => ?_⟩
      simp [StandsOn, ← read, current, plain]
    · rename_i blocked
      refine yieldsBind (readYields remembered.detail) fun blocker w' ⟨read, same⟩ => ?_
      subst same
      refine yieldsPure ⟨rfl, fun fresh => ?_⟩
      obtain ⟨issue, found, rfl⟩ := Option.map_eq_some_iff.mp read
      simp only [not_not] at blocked
      simp [StandsOn, ← fresh, current, blocked, found, clauseOpen, BoardIssue.stamped]
  · rename_i moved
    refine yieldsPure ⟨rfl, fun read => ?_⟩
    simp [StandsOn, ← read, moved]

theorem recallYields (key : String) :
    Yields (Calm b) (ask (.recall key)) w fun remembered w' => remembered = w.remembered key ∧ w' = w :=
  yieldsRequest fun _ _ ⟨told, left⟩ => ⟨w.remembered key, told, rfl, left⟩

theorem teamYields :
    Yields (Calm b) (teamExclusion entry teamKeys) w fun exclusion w' =>
      (exclusion = none ↔ clauseInTeam entry teamKeys = true) ∧ w' = w := by
  unfold teamExclusion
  split
  · rename_i inside
    exact yieldsPure ⟨by simp [inside], rfl⟩
  · rename_i outside
    exact yieldsPure ⟨by simp [outside], rfl⟩

theorem memoryYields (read : entry.updatedAt = w.updated entry.key) :
    Yields (Calm b) (memoryExclusion entry) w fun exclusion w' =>
      (exclusion = none ↔ ¬ Standing b w entry.key) ∧ (Standing b w entry.key → w' = w) := by
  refine yieldsBind (recallYields entry.key) fun remembered w₁ ⟨told, same⟩ => ?_
  subst same told
  cases held : w₁.remembered entry.key with
  | none =>
    have absent : ¬ Standing b w₁ entry.key := by simp [Standing, held]
    exact yieldsPure ⟨by simp [absent], fun standing => absurd standing absent⟩
  | some remembered =>
    have known : Standing b w₁ entry.key ↔ StandsOn b w₁ entry.key remembered := by simp [Standing, held]
    refine yieldsBind (standsYields remembered) fun stands w₂ ⟨same, decided⟩ => ?_
    subst same
    rw [known, ← decided read]
    cases stands with
    | true => exact yieldsPure ⟨by simp, fun _ => rfl⟩
    | false =>
      exact yieldsBind (answersYields fun _ => id) fun _ _ _ => yieldsPure ⟨by simp, fun standing => nomatch standing⟩

theorem backoffDecides : Decides b (backoffExclusion entry) w True True := by
  intro w' _
  have unheld : Yields (Calm b) (ask .holding) w' fun holding _ => holding = none :=
    yieldsRequest fun _ _ ⟨told, _⟩ => ⟨none, told, rfl⟩
  refine yieldsBind unheld fun holding _ absent => ?_
  subst absent
  exact yieldsPure ⟨fun _ => rfl, fun _ => trivial⟩

def ScopeLets (b : Board) (d : FireDispatcher) (entry : BoardIssue) : Prop :=
  (d.scopeOf entry).isEmpty = true ∨ clauseInScope (d.scopeOf entry) (placement entry) = true ∨
    ∃ projectId, entry.projectId = some projectId ∧
      clauseInScope (d.scopeOf entry) (placement entry ++ b.initiatives projectId) = true

theorem initiativesYields (projectId : String) :
    Yields (Calm b) (initiativesFor projectId) w fun identifiers _ => identifiers = b.initiatives projectId := by
  have cached : Yields (Calm b) (ask (.initiativesOf projectId)) w fun cached _ =>
      cached = none ∨ cached = some (b.initiatives projectId) :=
    yieldsRequest fun _ _ ⟨told, _⟩ => told.elim (fun same => ⟨_, same, .inl rfl⟩) fun same => ⟨_, same, .inr rfl⟩
  refine yieldsBind cached fun cached w₁ told => ?_
  rcases told with rfl | rfl
  · have fetched : Yields (Calm b) (ask (.initiativeIdentifiers projectId)) w₁ fun identifiers _ =>
        identifiers = b.initiatives projectId := yieldsRequest fun _ _ ⟨told, _⟩ => ⟨_, told, rfl⟩
    refine yieldsBind fetched fun identifiers w₂ told => ?_
    subst told
    exact yieldsBind (answersYields fun _ => id) fun _ _ _ => yieldsPure rfl
  · exact yieldsPure rfl

theorem identifiersYields (scope : List String) :
    Yields (Calm b) (identifiersOf scope entry) w fun identifiers _ =>
      (clauseInScope scope identifiers = true ↔ clauseInScope scope (placement entry) = true ∨
        ∃ projectId, entry.projectId = some projectId ∧
          clauseInScope scope (placement entry ++ b.initiatives projectId) = true) := by
  unfold identifiersOf
  split
  · rename_i placed
    exact yieldsPure (by simp [placed])
  · rename_i elsewhere
    split
    · rename_i absent
      exact yieldsPure (by simp [absent])
    · rename_i projectId found
      refine yieldsBind (initiativesYields projectId) fun identifiers w' told => yieldsPure ?_
      subst told
      simp [elsewhere, found]

theorem scopeDecides : Decides b (d.scopeExclusion entry) w (ScopeLets b d entry) (ScopeLets b d entry) := by
  intro w' _
  unfold scopeExclusion ScopeLets
  dsimp only
  split
  · rename_i unscoped
    exact yieldsPure ⟨fun _ => rfl, fun _ => .inl unscoped⟩
  · rename_i bounded
    refine yieldsBind (identifiersYields _) fun identifiers w' told => ?_
    simp only [bounded, Bool.false_eq_true, false_or, ← told]
    split
    · rename_i inside
      exact yieldsPure ⟨fun _ => rfl, fun _ => inside⟩
    · rename_i outside
      exact yieldsPure ⟨fun inside => absurd inside outside, fun same => nomatch same⟩

def RouteLets (b : Board) (d : FireDispatcher) (entry : BoardIssue) : Prop :=
  clauseInTeam entry d.boundTeamKeys = true ∨ b.recorded entry.key = some d.repoUrl

theorem routeDecides : Decides b (d.routeExclusion entry) w (RouteLets b d entry) (RouteLets b d entry) := by
  intro w' _
  unfold routeExclusion RouteLets
  split
  · rename_i bound
    exact yieldsPure ⟨fun _ => rfl, fun _ => .inl bound⟩
  · rename_i unbound
    have told : Yields (Calm b) (ask (.recordedRepository entry.key)) w' fun recorded _ => recorded = b.recorded entry.key :=
      yieldsRequest fun _ _ ⟨told, _⟩ => ⟨_, told, rfl⟩
    refine yieldsBind told fun recorded w' same => ?_
    subst same
    split
    · rename_i here
      exact yieldsPure ⟨fun _ => rfl, fun _ => .inr (by simpa [clauseRecordedRepository] using here)⟩
    · rename_i elsewhere
      have other : ¬ (clauseInTeam entry d.boundTeamKeys = true ∨ b.recorded entry.key = some d.repoUrl) := by
        simpa [clauseRecordedRepository, unbound] using elsewhere
      split
      · exact yieldsPure ⟨fun lets => absurd lets other, fun same => nomatch same⟩
      · exact yieldsPure ⟨fun lets => absurd lets other, fun same => nomatch same⟩

theorem approvalDecides :
    Decides b (approvalExclusion entry) w (clauseApproved entry = true) (clauseApproved entry = true) := by
  intro w' _
  unfold approvalExclusion
  split
  · rename_i approved
    exact yieldsPure ⟨fun _ => rfl, fun _ => approved⟩
  · rename_i unapproved
    exact yieldsPure ⟨fun approved => absurd approved unapproved, fun same => nomatch same⟩

theorem openDecides : Decides b (openExclusion entry) w (clauseOpen entry = true) (clauseOpen entry = true) := by
  intro w' _
  unfold openExclusion
  split
  · rename_i unfinished
    exact yieldsPure ⟨fun _ => rfl, fun _ => unfinished⟩
  · rename_i closed
    exact yieldsPure ⟨fun unfinished => absurd unfinished closed, fun same => nomatch same⟩

theorem blockersYield (keys : List String) :
    Yields (Calm b) (readBlockers keys) w fun blockers w' => w' = w ∧
      blockers.map Prod.fst = keys ∧ ∀ e ∈ blockers, b.read w e.1 = some e.2 := by
  induction keys with
  | nil => exact yieldsPure ⟨rfl, rfl, by simp⟩
  | cons key keys ih =>
    refine yieldsBind (readYields key) fun blocker w₁ ⟨read, same⟩ => ?_
    subst same
    refine yieldsBind ih fun rest w₂ ⟨same, named, each⟩ => ?_
    subst same
    exact yieldsPure ⟨rfl, by simp [named], List.forall_mem_cons.mpr ⟨read, each⟩⟩

/-- The blocker found is an open one, and none is found only when none is. -/
theorem liveBlockerYields :
    Yields (Calm b) (liveBlockerOf entry) w fun blocking w' => w' = w ∧
      (blocking = none ↔ b.Unblocked (blockerKeys entry)) ∧
      ∀ key, blocking = some key → ∀ blocker, b.issues key = some blocker → clauseOpen blocker = true := by
  refine yieldsBind (blockersYield (blockerKeys entry)) fun blockers w' ⟨same, named, each⟩ => ?_
  subst same
  have opens (key : String) (member : key ∈ blockerKeys entry) : ∃ issue, b.issues key = some issue ∧
      ((Dict.update [] blockers : Dict String BoardIssue).get? key).any clauseOpen = clauseOpen issue := by
    rw [← named] at member
    obtain ⟨e, inside, same⟩ := List.mem_map.mp member
    cases found : (Dict.update [] blockers : Dict String BoardIssue).get? key with
    | none => exact absurd same ((Dict.updateGetNone.mp found).2 e inside)
    | some blocker =>
      have source : (key, blocker) ∈ blockers := (Dict.updateGetSome found).resolve_right (by simp)
      obtain ⟨issue, onBoard, stamped⟩ := Option.map_eq_some_iff.mp (each _ source)
      exact ⟨issue, onBoard, (congrArg clauseOpen stamped).symm⟩
  refine yieldsPure ⟨rfl, ?_, ?_⟩
  · simp only [liveBlocker, List.find?_eq_none, Bool.not_eq_true, Board.Unblocked]
    refine forall₂_congr fun key member => ?_
    obtain ⟨issue, onBoard, same⟩ := opens key member
    simp [onBoard, same]
  · intro key chosen blocker onBoard
    obtain ⟨issue, found, same⟩ := opens key (List.mem_of_find?_eq_some chosen)
    cases found.symm.trans onBoard
    rw [← same]
    simpa using List.find?_some chosen

theorem blockerDecides :
    Decides b (blockerExclusion entry) w (b.Unblocked (blockerKeys entry)) (b.Unblocked (blockerKeys entry)) := by
  intro w' _
  refine yieldsBind liveBlockerYields fun blocking w₁ ⟨_, clear, _⟩ => ?_
  rw [← clear]
  refine yieldsPure ⟨fun absent => by simp [absent], fun same => by simpa using same⟩

theorem runIsLiveYields (key : String) :
    Yields (Calm b) (runIsLive key) w fun live _ => Idle w key → live = false := by
  have told : Yields (Calm b) (ask (.jobOf key)) w fun job w' => job = w.jobs key ∧ w' = w :=
    yieldsRequest fun _ _ ⟨told, left⟩ => ⟨_, told, rfl, left⟩
  refine yieldsBind told fun job w₁ ⟨same, left⟩ => ?_
  subst same left
  cases found : w₁.jobs key with
  | none => exact yieldsPure fun _ => rfl
  | some jobId =>
    have looked : Yields (Calm b) (ask (.jobRecord jobId)) w₁ fun record _ =>
        w₁.ended jobId = true → settled record = true :=
      yieldsRequest fun _ _ ⟨⟨record, same, known⟩, _⟩ => ⟨record, same, known⟩
    refine yieldsBind looked fun record w₂ known => yieldsPure fun idle => ?_
    have ended := known (idle jobId found)
    cases record with
    | none => rfl
    | some record => simpa [settled] using ended

theorem inFlightDecides :
    Decides b (inFlightExclusion entry) w (w.held entry.key = false ∧ b.claims entry.key = none ∧ Idle w entry.key)
      (w.held entry.key = false ∧ b.claims entry.key = none) := by
  intro w' steady
  have claims : Yields (Calm b) (ask (.activeClaim entry.key)) w' fun claim w₁ =>
      w₁ = w' ∧ (claim = none ↔ w'.held entry.key = false ∧ b.claims entry.key = none) := by
    refine yieldsRequest fun answer w₁ ⟨⟨claim, same, told⟩, left⟩ => ⟨claim, same, left, ?_⟩
    cases held : w'.held entry.key with
    | true =>
      rw [held, if_pos rfl] at told
      simp [Option.isSome_iff_ne_none.mp told]
    | false =>
      rw [held, if_neg Bool.false_ne_true] at told
      simp [told]
  refine yieldsBind claims fun claim w₁ ⟨left, absent⟩ => ?_
  subst left
  refine yieldsBind (runIsLiveYields entry.key) fun live w₂ idle => ?_
  rw [← and_assoc, ← (steady entry.key).held, ← absent]
  split
  · rename_i unclaimed
    simp only [clauseUnclaimed, Bool.and_eq_true, Option.isNone_iff_eq_none] at unclaimed
    exact yieldsPure ⟨fun _ => rfl, fun _ => unclaimed.1⟩
  · rename_i claimed
    refine yieldsPure ⟨fun resting => absurd ?_ claimed, fun same => nomatch same⟩
    simp [clauseUnclaimed, resting.1, idle (idleKept (steady entry.key) resting.2)]

theorem deliveryDecides :
    Decides b (d.deliveryExclusion entry) w (b.delivered entry.key = false) (b.delivered entry.key = false) := by
  intro w' _
  have told : Yields (Calm b) (ask (.openDeliveryExists d.repoUrl entry.key)) w' fun delivered _ =>
      delivered = b.delivered entry.key := yieldsRequest fun _ _ ⟨told, _⟩ => ⟨_, told, rfl⟩
  refine yieldsBind told fun delivered w₁ same => ?_
  subst same
  split
  · rename_i undelivered
    simp only [clauseUndelivered, Bool.not_eq_true'] at undelivered
    exact yieldsPure ⟨fun _ => rfl, fun _ => undelivered⟩
  · rename_i delivered
    simp only [clauseUndelivered, Bool.not_eq_true', Bool.not_eq_false] at delivered
    exact yieldsPure ⟨fun undelivered => absurd (undelivered.symm.trans delivered) Bool.false_ne_true, fun same => nomatch same⟩

/-- An entry that no clause excludes for what stands still. -/
structure Fit (b : Board) (d : FireDispatcher) (teamKeys : List String) (entry : BoardIssue) : Prop where
  team : clauseInTeam entry teamKeys = true
  inScope : ScopeLets b d entry
  route : RouteLets b d entry
  approved : clauseApproved entry = true
  unfinished : clauseOpen entry = true
  unblocked : b.Unblocked (blockerKeys entry)
  unclaimed : b.claims entry.key = none
  undelivered : b.delivered entry.key = false

theorem fitStamped {updatedAt : Int} (fit : Fit b d teamKeys entry) : Fit b d teamKeys (entry.stamped updatedAt) where
  team := fit.team
  inScope := fit.inScope
  route := fit.route
  approved := fit.approved
  unfinished := fit.unfinished
  unblocked := fit.unblocked
  unclaimed := fit.unclaimed
  undelivered := fit.undelivered

structure Admitted (b : Board) (d : FireDispatcher) (teamKeys : List String) (w : BoardWorld) (entry : BoardIssue) : Prop where
  fit : Fit b d teamKeys entry
  unspent : ¬ Spent b w entry.key
  idle : Idle w entry.key

theorem admittedKept (kept : Kept b entry.key w w') (admitted : Admitted b d teamKeys w entry) :
    Admitted b d teamKeys w' entry where
  fit := admitted.fit
  unspent := mt (spentKept kept).mp admitted.unspent
  idle := idleKept kept.toSteady admitted.idle

theorem consDecides (entry : BoardIssue) {clause : Program (Option IssueExclusion)} {rest : List (Program (Option IssueExclusion))}
    {must may must' may' : Prop} (asks : clause.Asks (Call.selects entry.key)) (first : Decides b clause w must may)
    (second : Decides b (firstExclusion rest) w must' may') :
    Decides b (firstExclusion (clause :: rest)) w (must ∧ must') (may ∧ may') := by
  intro w' before
  refine yieldsBind (yieldsSteady asks (first w' before)) fun exclusion w₁ ⟨⟨lets, only⟩, steady⟩ => ?_
  cases exclusion with
  | some excluded => exact yieldsPure ⟨fun granted => lets granted.1, fun same => nomatch same⟩
  | none =>
    have since (key : String) : Steady key w w₁ := steadyTrans (before key) (steady key)
    refine yieldsMono (second w₁ since) fun exclusion _ ⟨lets', only'⟩ => ⟨fun granted => lets' granted.2, ?_⟩
    exact fun same => ⟨only rfl, only' same⟩

theorem decidesMono {clause : Program (Option IssueExclusion)} {must may must' may' : Prop}
    (decides : Decides b clause w must may) (stronger : must' → must) (weaker : may → may') :
    Decides b clause w must' may' := fun w' steady =>
  yieldsMono (decides w' steady) fun _ _ ⟨lets, only⟩ => ⟨lets ∘ stronger, weaker ∘ only⟩

theorem noneDecides : Decides b (firstExclusion []) w True True := fun _ _ => yieldsPure ⟨fun _ => rfl, fun _ => trivial⟩

/-- The clauses after the memory. -/
theorem othersDecide (team : clauseInTeam entry teamKeys = true) :
    Decides b (firstExclusion [backoffExclusion entry, d.scopeExclusion entry, d.routeExclusion entry,
        approvalExclusion entry, openExclusion entry, blockerExclusion entry, inFlightExclusion entry,
        d.deliveryExclusion entry]) w
      (Fit b d teamKeys entry ∧ w.held entry.key = false ∧ Idle w entry.key)
      (Fit b d teamKeys entry ∧ w.held entry.key = false) := by
  refine decidesMono (consDecides entry backoffAsks backoffDecides <| consDecides entry scopeAsks scopeDecides <|
    consDecides entry routeAsks routeDecides <| consDecides entry approvalAsks approvalDecides <|
    consDecides entry openAsks openDecides <| consDecides entry blockerAsks blockerDecides <|
    consDecides entry inFlightAsks inFlightDecides <| consDecides entry deliveryAsks deliveryDecides noneDecides) ?_ ?_
  · rintro ⟨fit, unheld, idle⟩
    exact ⟨trivial, fit.inScope, fit.route, fit.approved, fit.unfinished, fit.unblocked,
      ⟨unheld, fit.unclaimed, idle⟩, fit.undelivered, trivial⟩
  · rintro ⟨-, inScope, route, approved, unfinished, unblocked, ⟨unheld, unclaimed⟩, undelivered, -⟩
    exact ⟨⟨team, inScope, route, approved, unfinished, unblocked, unclaimed, undelivered⟩, unheld⟩

theorem excludeYields (read : entry.updatedAt = w.updated entry.key) :
    Yields (Calm b) (d.exclude entry teamKeys) w fun exclusion _ =>
      (Admitted b d teamKeys w entry → exclusion = none) ∧
      (exclusion = none → Fit b d teamKeys entry ∧ ¬ Spent b w entry.key) := by
  refine yieldsBind teamYields fun exclusion w₁ ⟨team, same⟩ => ?_
  subst same
  cases exclusion with
  | some excluded => exact yieldsPure ⟨fun admitted => team.mpr admitted.fit.team, fun same => nomatch same⟩
  | none =>
    refine yieldsBind (yieldsSteady memoryAsks (memoryYields read)) fun exclusion w₂ ⟨⟨memory, _⟩, steady⟩ => ?_
    cases exclusion with
    | some excluded =>
      exact yieldsPure ⟨fun admitted => memory.mpr (mt .inl admitted.unspent), fun same => nomatch same⟩
    | none =>
      refine yieldsMono (othersDecide (team.mp rfl) w₂ steady) fun exclusion _ ⟨lets, only⟩ => ⟨?_, ?_⟩
      · intro admitted
        exact lets ⟨admitted.fit, Bool.not_eq_true _ ▸ mt .inr admitted.unspent, admitted.idle⟩
      · intro same
        obtain ⟨fit, unheld⟩ := only same
        refine ⟨fit, not_or.mpr ⟨memory.mp rfl, by simp [unheld]⟩⟩

theorem excludeKept (read : entry.updatedAt = w.updated entry.key) (key : String) {out : Except Raised (Option IssueExclusion)}
    (went : Goes (Calm b) (d.exclude entry teamKeys) w t w' out) : Kept b key w w' := by
  by_cases same : entry.key = key
  · subst same
    refine ⟨goesSteady excludeAsks went, fun standing => ?_⟩
    have still : Yields (Calm b) (d.exclude entry teamKeys) w fun _ w' => w' = w := by
      refine yieldsBind teamYields fun exclusion w₁ ⟨team, same⟩ => ?_
      subst same
      cases exclusion with
      | some excluded => exact yieldsPure rfl
      | none =>
        refine yieldsBind (memoryYields read) fun exclusion w₂ ⟨memory, left⟩ => ?_
        obtain rfl := left standing
        cases exclusion with
        | some excluded => exact yieldsPure rfl
        | none => exact absurd standing (memory.mp rfl)
    obtain ⟨-, -, left⟩ := still _ _ _ went
    rw [left]
  · exact apartKept (goesApart (asksMono (selectsSpares same) excludeAsks) went)

end Clauses
end Kodezart.Dispatch
