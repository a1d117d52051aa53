import Kodezart.ChangePersister
import Kodezart.MergerRuns

/-! The cleanup of backup branches: what it may take off the remote, whatever fails on the way, and that it
takes all of it where nothing does. -/
namespace Kodezart.Merging
open CommitGraph
open Prog

variable {r r' mid : Clone} {c : Call} {start name : String} {names : List String} {t : Trace}

/-- A branch the cleanup is for. -/
def Backup (start name : String) : Prop := start.toList <+: name.toList ∧ isBackup name = true

/-- A request the cleanup may make. -/
def Clears (start : String) : Call → Prop
  | .acquire _ none | .release | .listRemoteBranches _ => True
  | .deleteRemoteBranch name => Backup start name
  | _ => False

/-- Every other branch stands where it stood, and a backup stands there or is gone. -/
structure Cleaned (start : String) (r r' : Clone) : Prop where
  objects : r'.objects = r.objects
  spared : ∀ name, ¬ Backup start name → r'.remote name = r.remote name
  backups : ∀ name, r'.remote name = r.remote name ∨ r'.remote name = none

theorem cleanedRemote (objects : r'.objects = r.objects) (remote : r'.remote = r.remote) : Cleaned start r r' :=
  ⟨objects, fun name _ => congrFun remote name, fun name => .inl (congrFun remote name)⟩

theorem cleanedRefl (r : Clone) : Cleaned start r r := cleanedRemote rfl rfl

theorem cleanedTrans (first : Cleaned start r mid) (second : Cleaned start mid r') : Cleaned start r r' where
  objects := second.objects.trans first.objects
  spared name apart := (second.spared name apart).trans (first.spared name apart)
  backups name := by
    rcases second.backups name with same | gone
    · rw [same]
      exact first.backups name
    · exact .inr gone

theorem effectCleaned {reply : Reply c} (clears : Clears start c) (effect : Effect r c reply r') : Cleaned start r r' := by
  cases effect with
  | detach => exact cleanedRemote rfl rfl
  | release => exact cleanedRemote rfl rfl
  | listRemoteBranches => exact cleanedRefl r
  | deleteRemoteBranch branch =>
    refine ⟨rfl, fun name apart => ?_, fun name => ?_⟩
    · have other : name ≠ branch := fun same => apart (by rw [same]; exact clears)
      exact Function.update_of_ne other ..
    · by_cases here : name = branch
      · exact .inr (here ▸ Function.update_self ..)
      · exact .inl (Function.update_of_ne here ..)
  | attach => exact clears.elim
  | create => exact clears.elim
  | fetch => exact clears.elim
  | currentSha => exact clears.elim
  | isAncestor => exact clears.elim
  | mergeNothing => exact clears.elim
  | mergeFast => exact clears.elim
  | push => exact clears.elim
  | remoteBranchSha => exact clears.elim

/-- Others move the remote first, and then the request clears what it clears. -/
theorem takesCleaned {drifts : Call → Clone → Clone → Prop} {answer : Except Raised (Reply c)} (clears : Clears start c)
    (taken : Takes drifts r c answer r') : ∃ mid, drifts c r mid ∧ Cleaned start mid r' := by
  cases answer with
  | ok reply =>
    obtain ⟨mid, drifted, effect⟩ := taken
    exact ⟨mid, drifted, effectCleaned clears effect⟩
  | error e =>
    obtain ⟨mid, drifted, breaks⟩ := taken
    refine ⟨mid, drifted, ?_⟩
    cases breaks with
    | untouched => exact cleanedRefl _
    | landed effect => exact effectCleaned clears effect
    | branched => exact clears.elim

theorem askClears (c : Call) (clears : Clears start c) : (ask c).Asks (Clears start) := (asksRequest c).mpr clears

theorem deleteEachAsks (all : ∀ name ∈ names, Backup start name) : (deleteEach names).Asks (Clears start) := by
  induction names with
  | nil => exact asksPure _
  | cons name rest ih =>
    obtain ⟨first, others⟩ := List.forall_mem_cons.mp all
    exact asksCall first fun _ => ih others

/-- What a listing answers, filtered, is backups and all of them. -/
theorem listedBackups {drifts : Call → Clone → Clone → Prop} (taken : Takes drifts r (.listRemoteBranches start) (.ok names) r') :
    ∀ name, name ∈ names.filter isBackup ↔ (r'.remote name).isSome = true ∧ Backup start name := by
  obtain ⟨mid, -, effect⟩ := taken
  cases effect with
  | listRemoteBranches told =>
    intro name
    rw [List.mem_filter, told, and_assoc]
    rfl

section Running
variable {drifts : Call → Clone → Clone → Prop}

/-- What every request the cleanup may make keeps, the whole cleanup keeps, wherever it stops. -/
theorem cleanupKeeping (keep : Clone → Prop) {out : Except Raised Unit} (step : ∀ s c answer s', Clears start c → keep s → Takes drifts s c answer s' → keep s')
    (kept : keep r) (went : Goes (Takes drifts) (cleanupBackups start) r t r' out) : keep r' := by
  have through : ∀ {α : Type} {program : Merges α} {s : Clone} {t : Trace} {s' : Clone} {out : Except Raised α},
      program.Asks (Clears start) → keep s → Goes (Takes drifts) program s t s' out → keep s' :=
    fun asks kept went => goesKeepsAsking keep asks step kept went
  rcases goesBind _ _ went with ⟨e, -, failed⟩ | ⟨_, r₁, _, _, acquired, then₁, -⟩
  · exact through (askClears (.acquire _ none) trivial) kept failed
  · have kept₁ := through (askClears (.acquire _ none) trivial) kept acquired
    obtain ⟨x, r₂, _, _, deleted, -, done, released, -⟩ := goesEnsuring then₁
    refine through (askClears .release trivial) ?_ released
    rcases goesBind _ _ deleted with ⟨e, -, failed⟩ | ⟨names, r₃, _, _, listed, then₂, -⟩
    · exact through (askClears (.listRemoteBranches _) trivial) kept₁ failed
    · have all := listedBackups (goesRequest listed).1
      exact through (deleteEachAsks fun name member => ((all name).mp member).2) (through (askClears (.listRemoteBranches _) trivial) kept₁ listed) then₂

/-- The cleanup's own end, and the run inside it. -/
theorem cleanupCaught {out : Except Raised Unit} (went : Goes (Takes drifts) (cleanupBackupBranches start) r t r' out) :
    (out = .ok () ∨ out = .error .cancelled) ∧ ∃ x, Goes (Takes drifts) (cleanupBackups start) r t r' x := by
  rcases goesBind _ _ went with ⟨e, -, failed⟩ | ⟨caught, mid, early, late, ran, rest, trail⟩
  · obtain ⟨x, same, -⟩ := goesAttempt failed
    cases same
  · obtain ⟨x, same, tried⟩ := goesAttempt ran
    cases same
    have ends : late = [] ∧ r' = mid ∧ (out = .ok () ∨ out = .error .cancelled) := by
      cases caught with
      | ok done => exact (goesRet rest).imp id fun both => ⟨both.1, .inl both.2⟩
      | error e =>
        cases e with
        | cancelled => exact (goesRaise rest).imp id fun both => ⟨both.1, .inr both.2⟩
        | step => exact (goesRet rest).imp id fun both => ⟨both.1, .inl both.2⟩
        | runtime => exact (goesRet rest).imp id fun both => ⟨both.1, .inl both.2⟩
    obtain ⟨rfl, rfl, fine⟩ := ends
    rw [List.append_nil] at trail
    exact ⟨fine, caught, trail ▸ tried⟩

/-- Where others only push forward, every branch the cleanup is not for stands at what it held or further on,
wherever the cleanup stops. -/
theorem cleanupSpares {out : Except Raised Unit} {tip : String} (went : Goes (Takes Spares) (cleanupBackupBranches start) r t r' out)
    (apart : ¬ Backup start name) (stands : r.remote name = some tip) :
    Landed name tip r' := by
  obtain ⟨-, x, ran⟩ := cleanupCaught went
  refine cleanupKeeping (Landed name tip) (fun s c answer s' clears kept taken => ?_) ⟨tip, stands, .refl⟩ ran
  obtain ⟨mid, spares, cleaned⟩ := takesCleaned clears taken
  obtain ⟨older, named, contains⟩ := kept
  obtain ⟨newer, moved, above⟩ := spares.forward name older named
  refine ⟨newer, (cleaned.spared name apart).trans moved, ?_⟩
  rw [cleaned.objects]
  exact above.trans (containsExtends spares.objects contains)

end Running
section Clearing

/-- Nobody else is at work on the remote. -/
abbrev Alone (_ : Call) (r r' : Clone) : Prop := r' = r

theorem takesAlone {answer : Except Raised (Reply c)} (clears : Clears start c) (cleaned : Cleaned start r mid)
    (taken : Takes Alone mid c answer r') : Cleaned start r r' := by
  obtain ⟨_, rfl, next⟩ := takesCleaned clears taken
  exact cleanedTrans cleaned next

theorem goesCleaned {α : Type} {program : Merges α} {out : Except Raised α} (asks : program.Asks (Clears start))
    (went : Goes (Takes Alone) program r t r' out) : Cleaned start r r' :=
  goesKeepsAsking (Cleaned start r) asks (fun _ _ _ _ clears cleaned taken => takesAlone clears cleaned taken) (cleanedRefl r) went

theorem goneStays (cleaned : Cleaned start r r') (gone : r.remote name = none) : r'.remote name = none :=
  (cleaned.backups name).elim (fun same => same.trans gone) id

theorem refusedUnanswered {e : Raised} (refused : Goes (Takes Alone) (ask c) r t r' (.error e)) (later : Trace) :
    ¬ ∀ x ∈ t ++ later, x.answered = true := by
  intro answered
  rw [(goesRequest refused).2] at answered
  exact absurd (answered _ (List.mem_cons_self ..)) Bool.false_ne_true

theorem deleteEachGone {out : Except Raised Unit} (all : ∀ name ∈ names, Backup start name)
    (went : Goes (Takes Alone) (deleteEach names) r t r' out) (answered : ∀ x ∈ t, x.answered = true) :
    ∀ name ∈ names, r'.remote name = none := by
  induction names generalizing r t with
  | nil => simp
  | cons first rest ih =>
    obtain ⟨backup, others⟩ := List.forall_mem_cons.mp all
    rcases goesBind _ _ went with ⟨e, -, failed⟩ | ⟨_, r₁, early, late, deleted, then₁, rfl⟩
    · exact absurd answered (by simpa using refusedUnanswered failed [])
    · have later : ∀ x ∈ late, x.answered = true := fun x member => answered x (List.mem_append_right _ member)
      have gone : r₁.remote first = none := by
        obtain ⟨mid, rfl, effect⟩ := (goesRequest deleted).1
        cases effect
        exact Function.update_self ..
      have cleaned := goesCleaned (deleteEachAsks others) then₁
      exact List.forall_mem_cons.mpr ⟨goneStays cleaned gone, ih others then₁ later⟩

/-- Where every request is answered, no backup is left. -/
theorem cleanupGone {out : Except Raised Unit} (went : Goes (Takes Alone) (cleanupBackups start) r t r' out)
    (answered : ∀ x ∈ t, x.answered = true) (backup : Backup start name) : r'.remote name = none := by
  rcases goesBind _ _ went with ⟨e, -, failed⟩ | ⟨_, r₁, early, late, acquired, then₁, rfl⟩
  · exact absurd answered (by simpa using refusedUnanswered failed [])
  · obtain ⟨x, r₂, early', late', deleted, rfl, done, released, -⟩ := goesEnsuring then₁
    have freed : Cleaned start r₂ r' := goesCleaned (askClears .release trivial) released
    refine goneStays freed ?_
    have inner : ∀ x ∈ early', x.answered = true := fun x member => answered x (List.mem_append_right _ (List.mem_append_left _ member))
    rcases goesBind _ _ deleted with ⟨e, -, failed⟩ | ⟨names, r₃, early'', late'', listed, then₂, rfl⟩
    · exact absurd inner (by simpa using refusedUnanswered failed [])
    · have all := listedBackups (goesRequest listed).1
      have cleaned := goesCleaned (deleteEachAsks fun name member => ((all name).mp member).2) then₂
      by_cases listedHere : (r₃.remote name).isSome = true
      · have gone := deleteEachGone (fun name member => ((all name).mp member).2) then₂ fun x member => inner x (List.mem_append_right _ member)
        exact gone name ((all name).mpr ⟨listedHere, backup⟩)
      · exact goneStays cleaned (by simpa using listedHere)

/-- The names that the recovery of a divergence gives its backups are backups. -/
theorem backupNamed (sourceBranch prefixId : String) : isBackup (Persist.backupBranchName sourceBranch prefixId) = true := by
  refine decide_eq_true ⟨sourceBranch.toList, prefixId.toList, ?_⟩
  simp [Persist.backupBranchName]

theorem backupOf {sourceBranch : String} (prefixId : String) (under : start.toList <+: sourceBranch.toList) :
    Backup start (Persist.backupBranchName sourceBranch prefixId) := by
  refine ⟨under.trans ?_, backupNamed sourceBranch prefixId⟩
  exact ⟨("-backup-" ++ prefixId).toList, by simp [Persist.backupBranchName]⟩

/-- With nobody else at work the cleanup takes backups only and raises nothing but a cancellation, wherever
requests fail; where none does, no backup under the start is left, those of a recovery among them. -/
theorem backupsCleared {out : Except Raised Unit} (went : Goes (Takes Alone) (cleanupBackupBranches start) r t r' out) :
    (out = .ok () ∨ out = .error .cancelled) ∧ Cleaned start r r' ∧
    ((∀ x ∈ t, x.answered = true) → (∀ name, Backup start name → r'.remote name = none) ∧
      ∀ sourceBranch prefixId, start.toList <+: sourceBranch.toList → r'.remote (Persist.backupBranchName sourceBranch prefixId) = none) := by
  obtain ⟨fine, x, ran⟩ := cleanupCaught went
  refine ⟨fine, ?_, fun answered => ⟨fun name => cleanupGone ran answered, fun sourceBranch prefixId under => ?_⟩⟩
  · exact cleanupKeeping (Cleaned start r) (fun _ _ _ _ clears cleaned taken => takesAlone clears cleaned taken) (cleanedRefl r) ran
  · exact cleanupGone ran answered (backupOf prefixId under)

end Clearing
section Samples

/-- One commit, on a lane's branch and on a backup of it. -/
def backedUp : Clone where
  objects sha := if sha = "c0" then some ⟨[], "t0", "first"⟩ else none
  heads _ := none
  tracking _ := none
  remote := Function.update (Function.update (fun _ => none) "lane" (some "c0")) "lane-backup-12345678" (some "c0")
  checkout := none
  pushes := []

theorem backedUpListed (name : String) : name ∈ ["lane", "lane-backup-12345678"] ↔ (backedUp.remote name).isSome = true ∧ "lane".toList <+: name.toList := by
  by_cases backup : name = "lane-backup-12345678"
  · subst backup
    exact iff_of_true (by simp) ⟨rfl, by decide⟩
  · by_cases lane : name = "lane"
    · subst lane
      exact iff_of_true (by simp) ⟨rfl, List.prefix_rfl⟩
    · simp [backedUp, Function.update_of_ne, backup, lane]

theorem backedUpFiltered : ["lane", "lane-backup-12345678"].filter isBackup = ["lane-backup-12345678"] := by decide

theorem takesAloneNow {r r' : Clone} {c : Call} {reply : Reply c} (effect : Effect r c reply r') : Takes Alone r c (.ok reply) r' :=
  ⟨r, rfl, effect⟩

theorem backedUpGoes : ∃ t r', Goes (Takes Alone) (cleanupBackupBranches "lane") backedUp t r' (.ok ()) ∧
    (∀ x ∈ t, x.answered = true) ∧ r'.remote "lane" = some "c0" := by
  have rest : ∃ t r', Goes (Takes Alone) ((ensuring (deleteEach (["lane", "lane-backup-12345678"].filter isBackup)) (ask .release)).attempt >>= settle)
      { backedUp with checkout := some ⟨none, "c0"⟩ } t r' (.ok ()) ∧
        (∀ x ∈ t, x.answered = true) ∧ r'.remote "lane" = some "c0" := by
    rw [backedUpFiltered]
    exact ⟨_, _, .call (takesAloneNow (.deleteRemoteBranch _ _)) (.call (takesAloneNow (.release _)) .ret),
      by simp [Exchange.answered, Except.isOk, Except.toBool], rfl⟩
  obtain ⟨t, r', went, answered, stands⟩ := rest
  refine ⟨_, r', .call (takesAloneNow (.detach _ _ "c0")) (.call (takesAloneNow (.listRemoteBranches backedUpListed)) went), ?_, stands⟩
  simpa [Exchange.answered, Except.isOk, Except.toBool] using answered

theorem aloneSpares {r r' : Clone} {c : Call} {answer : Except Raised (Reply c)} (taken : Takes Alone r c answer r') :
    Takes Spares r c answer r' := by
  have still : Spares c r r := ⟨⟨⟨extendsRefl _, rfl⟩, forwardRefl _ _⟩, fun _ _ => rfl⟩
  cases answer with
  | ok reply =>
    obtain ⟨_, rfl, effect⟩ := taken
    exact ⟨_, still, effect⟩
  | error e =>
    obtain ⟨_, rfl, breaks⟩ := taken
    exact ⟨_, still, breaks⟩

theorem laneSpared : ∃ r', r'.remote "lane-backup-12345678" = none ∧ Landed "lane" "c0" r' := by
  obtain ⟨t, r', went, answered, -⟩ := backedUpGoes
  have apart : ¬ Backup "lane" "lane" := fun backup => absurd backup.2 (by decide)
  exact ⟨r', (backupsCleared went).2.2 answered |>.2 "lane" "12345678" List.prefix_rfl,
    cleanupSpares (goesMono (fun _ _ _ _ => aloneSpares) went) apart rfl⟩

theorem backupCleared : ∃ t, ∃ r' : Clone, Goes (Takes Alone) (cleanupBackupBranches "lane") backedUp t r' (.ok ()) ∧
    Cleaned "lane" backedUp r' ∧ r'.remote "lane" = some "c0" ∧ r'.remote "lane-backup-12345678" = none := by
  obtain ⟨t, r', went, answered, stands⟩ := backedUpGoes
  obtain ⟨-, cleaned, clears⟩ := backupsCleared went
  exact ⟨t, r', went, cleaned, stands, (clears answered).2 "lane" "12345678" List.prefix_rfl⟩

end Samples
end Kodezart.Merging
