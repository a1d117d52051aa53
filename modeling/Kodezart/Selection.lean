import Mathlib
import Kodezart.FireDispatcher

/-! What deciding on an issue may ask for: it reads, and it touches no memory but the
issue's own. -/
namespace Kodezart.Dispatch
open Prog FireDispatcher

def Call.selects (issueKey : String) : Call → Prop
  | .readIssue _ | .activeClaim _ | .recordedRepository _ | .initiativeIdentifiers _ | .jobRecord _
  | .openDeliveryExists _ _ | .holding | .jobOf _ | .initiativesOf _ | .noteInitiatives _ _ => True
  | .recall key | .forget key => key = issueKey
  | _ => False

section Clauses
variable {d : FireDispatcher} {issue : BoardIssue} {teamKeys : List String} {issueKey : String}

theorem teamAsks : (teamExclusion issue teamKeys).Asks (Call.selects issueKey) := by
  unfold teamExclusion
  split <;> trivial

theorem stillStandsAsks (remembered : RememberedExclusion) :
    (stillStands remembered).Asks (Call.selects issueKey) := by
  unfold stillStands
  split
  · trivial
  · exact asksCall trivial fun _ => trivial

theorem memoryStandsAsks (remembered : RememberedExclusion) :
    (memoryStands issue remembered).Asks (Call.selects issueKey) := by
  unfold memoryStands
  split
  · exact stillStandsAsks remembered
  · trivial

theorem memoryAsks : (memoryExclusion issue).Asks (Call.selects issue.key) := by
  refine asksCall rfl fun remembered => ?_
  cases remembered with
  | none => trivial
  | some remembered =>
    refine asksBind (memoryStandsAsks remembered) fun stands => ?_
    split
    · trivial
    · exact asksCall rfl fun _ => trivial

theorem backoffAsks : (backoffExclusion issue).Asks (Call.selects issueKey) :=
  asksCall trivial fun _ => trivial

theorem initiativesAsks (projectId : String) : (initiativesFor projectId).Asks (Call.selects issueKey) := by
  refine asksCall trivial fun cached => ?_
  cases cached with
  | some identifiers => trivial
  | none => exact asksCall trivial fun _ => asksCall trivial fun _ => trivial

theorem identifiersAsks (scope : List String) : (identifiersOf scope issue).Asks (Call.selects issueKey) := by
  unfold identifiersOf
  split
  · trivial
  · split
    · trivial
    · exact asksBind (initiativesAsks _) fun _ => trivial

theorem scopeAsks : (d.scopeExclusion issue).Asks (Call.selects issueKey) := by
  unfold scopeExclusion
  dsimp only
  split
  · trivial
  · refine asksBind (identifiersAsks _) fun identifiers => ?_
    split <;> trivial

theorem routeAsks : (d.routeExclusion issue).Asks (Call.selects issueKey) := by
  unfold routeExclusion
  split
  · trivial
  · refine asksCall trivial fun recorded => ?_
    split
    · trivial
    · cases recorded <;> trivial

theorem approvalAsks : (approvalExclusion issue).Asks (Call.selects issueKey) := by
  unfold approvalExclusion
  split <;> trivial

theorem openAsks : (openExclusion issue).Asks (Call.selects issueKey) := by
  unfold openExclusion
  split <;> trivial

theorem readBlockersAsks {allowed : Call → Prop} (reads : ∀ key, allowed (.readIssue key)) (keys : List String) :
    (readBlockers keys).Asks allowed := by
  induction keys with
  | nil => trivial
  | cons key keys ih => exact asksCall (reads _) fun _ => asksBind ih fun _ => trivial

theorem liveBlockerAsks {allowed : Call → Prop} (reads : ∀ key, allowed (.readIssue key)) :
    (liveBlockerOf issue).Asks allowed :=
  asksBind (readBlockersAsks reads _) fun _ => trivial

theorem blockerAsks : (blockerExclusion issue).Asks (Call.selects issueKey) :=
  asksBind (liveBlockerAsks fun _ => trivial) fun _ => trivial

theorem runIsLiveAsks (key : String) : (runIsLive key).Asks (Call.selects issueKey) := by
  refine asksCall trivial fun jobId => ?_
  cases jobId with
  | none => trivial
  | some jobId => exact asksCall trivial fun _ => trivial

theorem inFlightAsks : (inFlightExclusion issue).Asks (Call.selects issueKey) := by
  refine asksCall trivial fun claim => asksBind (runIsLiveAsks _) fun live => ?_
  split <;> trivial

theorem deliveryAsks : (d.deliveryExclusion issue).Asks (Call.selects issueKey) := by
  refine asksCall trivial fun delivered => ?_
  split <;> trivial

theorem firstAsks {allowed : Call → Prop} {clauses : List (Program (Option IssueExclusion))}
    (each : ∀ clause ∈ clauses, clause.Asks allowed) : (firstExclusion clauses).Asks allowed := by
  induction clauses with
  | nil => trivial
  | cons clause clauses ih =>
    simp only [List.mem_cons, forall_eq_or_imp] at each
    refine asksBind each.1 fun exclusion => ?_
    cases exclusion with
    | some exclusion => trivial
    | none => exact ih each.2

theorem excludeAsks : (d.exclude issue teamKeys).Asks (Call.selects issue.key) := by
  refine firstAsks fun clause member => ?_
  simp only [List.mem_cons, List.not_mem_nil, or_false] at member
  rcases member with rfl | rfl | rfl | rfl | rfl | rfl | rfl | rfl | rfl | rfl
  exacts [teamAsks, memoryAsks, backoffAsks, scopeAsks, routeAsks, approvalAsks, openAsks, blockerAsks,
    inFlightAsks, deliveryAsks]

theorem teamKeysAsks : d.teamKeys.Asks (Call.selects issueKey) := by
  unfold FireDispatcher.teamKeys
  split <;> trivial

theorem standingAsks : (d.standingExclusion issue).Asks (Call.selects issue.key) := by
  refine asksBind teamKeysAsks fun keys => firstAsks fun clause member => ?_
  simp only [List.mem_cons, List.not_mem_nil, or_false] at member
  rcases member with rfl | rfl | rfl | rfl | rfl | rfl
  exacts [teamAsks, routeAsks, memoryAsks, backoffAsks, inFlightAsks, deliveryAsks]

theorem scanAsks {allowed : Call → Prop} (scans : ∀ query, allowed (.scanIssues query)) (keys : List String) :
    (d.scan keys).Asks allowed := by
  induction keys with
  | nil => trivial
  | cons key keys ih => exact asksCall (scans _) fun _ => asksBind ih fun _ => trivial

theorem siftAsks {allowed : Call → Prop} {issues : List BoardIssue}
    (selects : ∀ issue ∈ issues, ∀ call : Call, call.selects issue.key → allowed call) :
    (d.sift teamKeys issues).Asks allowed := by
  induction issues with
  | nil => trivial
  | cons issue issues ih =>
    simp only [List.mem_cons, forall_eq_or_imp] at selects
    refine asksBind (asksMono selects.1 excludeAsks) fun exclusion => asksBind (ih selects.2) fun rest => ?_
    obtain ⟨eligible, exclusions⟩ := rest
    cases exclusion <;> trivial

theorem selectAsks {allowed : Call → Prop} (draws : ∀ tied, allowed (.draw tied)) (issues : List BoardIssue) :
    (selectTopRanked issues).Asks allowed := by
  unfold selectTopRanked
  split
  · trivial
  · trivial
  · exact asksCall (draws _) fun _ => trivial

theorem noteSupersededAsks {allowed : Call → Prop} (logs : allowed (.log "dispatch_base_superseded"))
    (superseded : Option BaseSpec) : (noteSuperseded superseded).Asks allowed := by
  unfold noteSuperseded
  split
  · exact (asksRequest _).mpr logs
  · trivial

theorem surveyAsks {allowed : Call → Prop} (scans : ∀ query, allowed (.scanIssues query))
    (draws : ∀ tied, allowed (.draw tied)) (selects : ∀ (key : String) (call : Call), call.selects key → allowed call) :
    d.survey.Asks allowed := by
  refine asksBind (asksMono (selects "") teamKeysAsks) fun keys => asksBind (scanAsks scans keys) fun snapshot => ?_
  refine asksBind (siftAsks fun issue _ => selects issue.key) fun sifted => ?_
  obtain ⟨eligible, exclusions⟩ := sifted
  exact asksBind (selectAsks draws eligible) fun _ => trivial

end Clauses
end Kodezart.Dispatch
