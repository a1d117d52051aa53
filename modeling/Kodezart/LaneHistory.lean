import Kodezart.LaneEntries
import Kodezart.Machine

/-! The runs of one lane, each under the branches it entered with, and the record their acts leave.
Runs may overlap, a run may redraw its loop branch, and an act that fails leaves the record as it was. -/
namespace Kodezart.LaneEntries
open LaneRecord
open RunAlarmRecord (LaneCommit)

structure Lane where
  record : Option LaneRunState := none
  /-- Every binding a run of this lane has worked under. -/
  runs : List LaneBinding := []
  /-- The binding and the sha of the last commit or landing that was written. -/
  wrote : Option (LaneBinding × String) := none

/-- What the walker reads beside the record before it fires a run. -/
structure Reading where
  remoteBranchSha : String → Option String
  openCriteria : List String

structure Firing where
  base : BaseSpec
  bodyDigest : String
  runId : String
  drawn : Drawn

inductive Event where
  | enters (reading : Option Reading) (firing : Firing)
  | redraws (run : LaneBinding) (shortHash : String)
  | commits (run : LaneBinding) (branchUrl headSha : String) (receipt : PersistResult) (pushedHeadSha : Option String)
      (changeset : ChangesetDigest)
  | lands (run : LaneBinding) (branchUrl landedSha : String) (changeset : ChangesetDigest)
  | delivers (pr : LanePR)

/-- A name a run draws is one no run has had. -/
def drawsFresh (lane : Lane) (entry : Option LaneEntry) (branches : String × String) : Prop :=
  match entry.getD .new with
  | .new => branches.1 ∉ lane.runs.map (·.deliverableBranch) ∧ branches.2 ∉ lane.runs.map (·.loopBranch)
  | .resumed _ none => branches.2 ∉ lane.runs.map (·.loopBranch)
  | _ => True

instance (lane : Lane) (entry : Option LaneEntry) (branches : String × String) : Decidable (drawsFresh lane entry branches) := by
  unfold drawsFresh
  split <;> infer_instance

def startRun (issueKey : String) (lane : Lane) (entry : Option LaneEntry) (firing : Firing) : Option Lane :=
  match runBranches issueKey entry firing.drawn with
  | .error _ => none
  | .ok branches =>
    if drawsFresh lane entry branches then
      some { lane with runs := ⟨issueKey, branches.2, branches.1, firing.base, firing.bodyDigest, firing.runId⟩ :: lane.runs }
    else none

section Steps
variable (repr : String → String) (issueKey : String)

def next (lane : Lane) : Event → Option Lane
  | .enters none firing => startRun issueKey lane none firing
  | .enters (some reading) firing =>
    match readLaneEntry repr issueKey lane.record reading.remoteBranchSha reading.openCriteria firing.base with
    | .ok (some entry) => startRun issueKey lane (some entry) firing
    | _ => none
  | .redraws run shortHash =>
    let loopBranch := generateRalphBranchName run.deliverableBranch shortHash
    if run ∈ lane.runs ∧ loopBranch ∉ lane.runs.map (·.loopBranch) then
      some { lane with runs := { run with loopBranch } :: lane.runs }
    else none
  | .commits run branchUrl headSha receipt pushedHeadSha changeset =>
    if run ∈ lane.runs then
      match recordCommit repr lane.record run branchUrl headSha receipt pushedHeadSha changeset with
      | .ok record => some { lane with record := some record, wrote := some (run, headSha) }
      | .error _ => none
    else none
  | .lands run branchUrl landedSha changeset =>
    if run ∈ lane.runs then
      match recordLanding repr lane.record run branchUrl landedSha changeset with
      | .ok (some record) =>
        if (lane.record.bind (·.commits.getLast?)).map LaneCommit.sha = some landedSha then some lane
        else some { lane with record := some record, wrote := some (run, landedSha) }
      | .ok none => some lane
      | .error _ => none
    else none
  | .delivers pr => some { lane with record := recordPullRequest lane.record pr }

end Steps

/-! What a commit act composes. -/

section Composition
variable {text branch derivedFrom runId : String} {role : BranchRole} {association : BranchAssociation}

theorem nonemptySome {filled : NonemptyStr} (some_text : nonempty? text = some filled) : filled.val = text := by
  unfold nonempty? at some_text
  split at some_text
  · cases some_text
    rfl
  · cases some_text

theorem nonemptyOf (filled : text ≠ "") : nonempty? text = some ⟨text, filled⟩ := dif_pos filled

theorem associationOf (ok : branchAssociation branch role derivedFrom runId = .ok association) :
    association.branch.val = branch ∧ association.role = role ∧
      association.derivedFrom.map (·.val) = some derivedFrom ∧ association.runId.val = runId := by
  unfold branchAssociation at ok
  split at ok
  · rename_i first second third
    cases ok
    exact ⟨nonemptySome first, rfl, congrArg some (nonemptySome second), nonemptySome third⟩
  · cases ok

theorem memAssociate {associations added : List BranchAssociation} :
    association ∈ associate associations added ↔ association ∈ associations ∨ association ∈ added := by
  unfold associate
  induction added generalizing associations with
  | nil => simp
  | cons item rest ih =>
    rw [List.foldl_cons, ih, List.mem_cons]
    split
    · rename_i held
      have known : association = item → association ∈ associations := fun same => same ▸ held
      tauto
    · simp [or_assoc]

theorem associateExtends (associations added : List BranchAssociation) : associations <+: associate associations added := by
  unfold associate
  induction added generalizing associations with
  | nil => exact List.prefix_refl _
  | cons item rest ih =>
    rw [List.foldl_cons]
    split
    · exact ih associations
    · exact (List.prefix_append associations [item]).trans (ih _)

theorem associateNodup {associations : List BranchAssociation} (added : List BranchAssociation) (once : associations.Nodup) :
    (associate associations added).Nodup := by
  unfold associate
  induction added generalizing associations with
  | nil => exact once
  | cons item rest ih =>
    rw [List.foldl_cons]
    split
    · exact ih once
    · rename_i absent
      exact ih (List.nodup_append.mpr ⟨once, List.nodup_singleton _, fun a held b last same => by
        rw [List.mem_singleton.mp last] at same
        exact absent (same ▸ held)⟩)

theorem rowExtends (rows : List LaneCommit) (row : LaneCommit) : rows <+: withRow rows row := by
  unfold withRow
  split
  · exact List.prefix_refl _
  · exact List.prefix_append _ _

theorem rowLast (rows : List LaneCommit) (row : LaneCommit) : (withRow rows row).getLast?.map LaneCommit.sha = some row.sha := by
  unfold withRow
  split
  · assumption
  · simp

theorem candidatesOf {lane : LaneBinding} {recoveryRef : Option String} {added : List BranchAssociation}
    (ok : candidates lane recoveryRef = .ok added) :
    ∃ deliverable loop more, added = deliverable :: loop :: more ∧
      branchAssociation lane.deliverableBranch .deliverable lane.base.baseBranch.val lane.runId = .ok deliverable ∧
      branchAssociation lane.loopBranch .loop lane.deliverableBranch lane.runId = .ok loop ∧
      ∀ item ∈ more, item.role = .recovery := by
  obtain ⟨deliverable, delivers, ok⟩ := bindOk.mp ok
  obtain ⟨loop, loops, ok⟩ := bindOk.mp ok
  cases recoveryRef with
  | none =>
    cases ok
    exact ⟨deliverable, loop, [], rfl, delivers, loops, by simp⟩
  | some ref =>
    obtain ⟨recovery, recovers, ok⟩ := bindOk.mp ok
    cases ok
    refine ⟨deliverable, loop, [recovery], rfl, delivers, loops, fun item member => ?_⟩
    rw [List.mem_singleton.mp member]
    exact (associationOf recovers).2.1

theorem composedOf {facts : LaneFacts} {record : LaneRunState} (ok : composeLaneRunState facts = .ok record) :
    record.branch.val = facts.branch ∧ record.headSha.val = facts.headSha ∧ record.commits = facts.commits ∧
      record.pr = facts.pr ∧ record.bodyDigest.map (·.val) = facts.bodyDigest ∧
      record.dispatchBase = facts.dispatchBase ∧ record.associations = facts.associations := by
  unfold composeLaneRunState at ok
  split at ok
  · rename_i first second third fourth fifth sixth
    split at ok
    · rename_i made
      cases ok
      unfold modelValidate at made
      split at made
      · cases made
        refine ⟨nonemptySome second, nonemptySome fourth, rfl, rfl, ?_, rfl, rfl⟩
        generalize facts.bodyDigest = told at sixth
        cases told with
        | none =>
          cases sixth
          rfl
        | some text =>
          obtain ⟨shaped, held, rfl⟩ := Option.map_eq_some_iff.mp (show (digest? text).map some = _ from sixth)
          unfold digest? at held
          split at held
          · cases held
            rfl
          · cases held
      · cases made
    · cases ok
  · cases ok

/-- What a record is, composed from the prior one and a commit or landing of a run. -/
structure Composed (prior : Option LaneRunState) (lane : LaneBinding) (headSha : String) (record : LaneRunState) : Prop where
  branch : record.branch.val = lane.loopBranch
  commits : ∃ row, row.sha = headSha ∧ record.commits = withRow (prior.elim [] (·.commits)) row
  pr : record.pr = prior.bind (·.pr)
  bodyDigest : record.bodyDigest.map (·.val) = some (((prior.bind (·.bodyDigest)).map (·.val)).getD lane.bodyDigest)
  dispatchBase : record.dispatchBase = some ((prior.bind (·.dispatchBase)).getD lane.base)
  associations : ∃ recoveryRef added, candidates lane recoveryRef = .ok added ∧
    record.associations = associate (prior.elim [] (·.associations)) added

theorem nextComposes {repr : String → String} {prior : Option LaneRunState} {lane : LaneBinding}
    {branchUrl headSha subject : String} {pushedHeadSha recoveryRef : Option String} {changeset : ChangesetDigest}
    {record : LaneRunState}
    (ok : nextLaneRecord repr prior lane branchUrl headSha pushedHeadSha changeset subject recoveryRef = .ok record) :
    Composed prior lane headSha record := by
  obtain ⟨_, _, ok⟩ := bindOk.mp ok
  obtain ⟨added, associates, ok⟩ := bindOk.mp (mapErrorOk.mp ok)
  obtain ⟨branch, -, commits, pr, bodyDigest, dispatchBase, associations⟩ := composedOf ok
  exact ⟨branch, ⟨_, rfl, commits⟩, pr, bodyDigest, dispatchBase, recoveryRef, added, associates, associations⟩

end Composition

/-! What stands in every reached state. -/

section Standing
variable {repr : String → String} {issueKey headSha : String} {lane lane' : Lane} {runs more : List LaneBinding}
  {run : LaneBinding} {record prior : LaneRunState} {item : BranchAssociation}

/-- The association is one that a run of the lane made. -/
structure Accounted (runs : List LaneBinding) (item : BranchAssociation) : Prop where
  loop : item.role = .loop → ∃ run ∈ runs, item.branch.val = run.loopBranch ∧
    item.derivedFrom.map (·.val) = some run.deliverableBranch
  deliverable : item.role = .deliverable → ∃ run ∈ runs, item.branch.val = run.deliverableBranch ∧
    item.derivedFrom.map (·.val) = some run.base.baseBranch.val ∧ item.runId.val = run.runId

/-- The record names the branches and the base of the run, and its last row the sha. -/
structure Names (record : LaneRunState) (run : LaneBinding) (headSha : String) : Prop where
  branch : record.branch.val = run.loopBranch
  loop : ∃ item ∈ record.associations, item.role = .loop ∧ item.branch.val = run.loopBranch ∧
    item.derivedFrom.map (·.val) = some run.deliverableBranch
  deliverable : ∃ item ∈ record.associations, item.role = .deliverable ∧ item.branch.val = run.deliverableBranch ∧
    item.derivedFrom.map (·.val) = some run.base.baseBranch.val
  head : record.commits.getLast?.map LaneCommit.sha = some headSha

structure Coherent (runs : List LaneBinding) : Prop where
  loops : ∀ run ∈ runs, ∀ other ∈ runs, run.loopBranch = other.loopBranch → run.deliverableBranch = other.deliverableBranch
  bases : ∀ run ∈ runs, ∀ other ∈ runs, run.deliverableBranch = other.deliverableBranch →
    run.base.baseBranch.val = other.base.baseBranch.val

structure Settled (lane : Lane) : Prop where
  coherent : Coherent lane.runs
  accounted : ∀ record, lane.record = some record → ∀ item ∈ record.associations, Accounted lane.runs item
  written : ∀ record, lane.record = some record → ∃ run headSha, lane.wrote = some (run, headSha) ∧ run ∈ lane.runs ∧
    Names record run headSha

theorem accountedMore (accounted : Accounted runs item) : Accounted (run :: runs) item where
  loop role := by
    obtain ⟨owner, held, facts⟩ := accounted.loop role
    exact ⟨owner, List.mem_cons_of_mem _ held, facts⟩
  deliverable role := by
    obtain ⟨owner, held, facts⟩ := accounted.deliverable role
    exact ⟨owner, List.mem_cons_of_mem _ held, facts⟩

theorem coherentMore (coherent : Coherent runs)
    (loops : ∀ other ∈ runs, run.loopBranch = other.loopBranch → run.deliverableBranch = other.deliverableBranch)
    (bases : ∀ other ∈ runs, run.deliverableBranch = other.deliverableBranch →
      run.base.baseBranch.val = other.base.baseBranch.val) : Coherent (run :: runs) where
  loops first left second right same := by
    rcases List.mem_cons.mp left with rfl | held <;> rcases List.mem_cons.mp right with rfl | other
    · rfl
    · exact loops second other same
    · exact (loops first held same.symm).symm
    · exact coherent.loops first held second other same
  bases first left second right same := by
    rcases List.mem_cons.mp left with rfl | held <;> rcases List.mem_cons.mp right with rfl | other
    · rfl
    · exact bases second other same
    · exact (bases first held same.symm).symm
    · exact coherent.bases first held second other same

theorem settledMore (settled : Settled lane) (coherent : Coherent (run :: lane.runs)) :
    Settled { lane with runs := run :: lane.runs } where
  coherent := coherent
  accounted record held item inside := accountedMore (settled.accounted record held item inside)
  written record held := by
    obtain ⟨writer, headSha, wrote, known, names⟩ := settled.written record held
    exact ⟨writer, headSha, wrote, List.mem_cons_of_mem _ known, names⟩

theorem dedupSingle {α : Type*} [DecidableEq α] {items : List α} {a : α} (held : a ∈ items) (only : ∀ b ∈ items, b = a) :
    items.dedup = [a] := by
  have once := List.nodup_dedup items
  have members : ∀ b, b ∈ items.dedup ↔ b = a := fun b =>
    List.mem_dedup.trans ⟨only b, fun same => same ▸ held⟩
  exact List.perm_singleton.mp ((List.perm_ext_iff_of_nodup once (List.nodup_singleton a)).mpr fun b => by
    rw [members, List.mem_singleton])

/-- The associations of one role on one branch settle what they are derived from. -/
theorem derivedSingle {role : BranchRole} {branch source : NonemptyStr}
    (held : ∃ item ∈ record.associations, item.role = role ∧ item.branch = branch ∧ item.derivedFrom = some source)
    (only : ∀ item ∈ record.associations, item.role = role → item.branch = branch → item.derivedFrom = some source) :
    derivedFrom record role branch = [source] := by
  refine dedupSingle ?_ fun other member => ?_
  · obtain ⟨item, inside, plays, names, derives⟩ := held
    exact List.mem_filterMap.mpr ⟨item, List.mem_filter.mpr ⟨inside, by simp [plays, names]⟩, derives⟩
  · obtain ⟨item, inside, derives⟩ := List.mem_filterMap.mp member
    obtain ⟨inside, fits⟩ := List.mem_filter.mp inside
    have fits : item.role = role ∧ item.branch = branch := by simpa using fits
    exact Option.some.inj (derives.symm.trans (only item inside fits.1 fits.2))

theorem namesResolved (coherent : Coherent lane.runs) (accounted : ∀ item ∈ record.associations, Accounted lane.runs item)
    (known : run ∈ lane.runs) (names : Names record run headSha) :
    ∃ branches head, recordedLane record = .ok ⟨record, branches, head⟩ ∧ branches.loopBranch.val = run.loopBranch ∧
      branches.deliverableBranch.val = run.deliverableBranch ∧ branches.recordedBase = run.base.baseBranch ∧
      head.sha = headSha := by
  obtain ⟨loop, loopHeld, loops, loopBranch, loopFrom⟩ := names.loop
  obtain ⟨deliverable, loopFrom, deliverableText⟩ := Option.map_eq_some_iff.mp loopFrom
  obtain ⟨item, itemHeld, delivers, itemBranch, itemFrom⟩ := names.deliverable
  obtain ⟨base, itemFrom, baseText⟩ := Option.map_eq_some_iff.mp itemFrom
  obtain ⟨head, last, headText⟩ := Option.map_eq_some_iff.mp names.head
  have first : derivedFrom record .loop record.branch = [deliverable] := by
    refine derivedSingle ⟨loop, loopHeld, loops, Subtype.ext (loopBranch.trans names.branch.symm), loopFrom⟩
      fun other inside plays same => ?_
    obtain ⟨owner, owned, otherBranch, otherFrom⟩ := (accounted other inside).loop plays
    obtain ⟨source, otherFrom, sourceText⟩ := Option.map_eq_some_iff.mp otherFrom
    have alike : owner.loopBranch = run.loopBranch := by rw [← otherBranch, same, names.branch]
    have delivered := coherent.loops owner owned run known alike
    rw [otherFrom]
    exact congrArg some (Subtype.ext (by rw [sourceText, delivered, deliverableText]))
  have second : derivedFrom record .deliverable deliverable = [base] := by
    refine derivedSingle ⟨item, itemHeld, delivers, Subtype.ext (itemBranch.trans deliverableText.symm), itemFrom⟩
      fun other inside plays same => ?_
    obtain ⟨owner, owned, otherBranch, otherFrom, -⟩ := (accounted other inside).deliverable plays
    obtain ⟨source, otherFrom, sourceText⟩ := Option.map_eq_some_iff.mp otherFrom
    have alike : owner.deliverableBranch = run.deliverableBranch := by rw [← otherBranch, same, deliverableText]
    have based := coherent.bases owner owned run known alike
    rw [otherFrom]
    exact congrArg some (Subtype.ext (by rw [sourceText, based, baseText]))
  refine ⟨⟨record.branch, deliverable, base⟩, head, ?_, names.branch, deliverableText, Subtype.ext baseText, headText⟩
  unfold recordedLane recordedBranches recordedCommit
  simp only [first, second, last]
  rfl

/-- What an entry decided on a record is. -/
structure EntersOn (recorded : RecordedLane) (remoteLoopHead : Option String) (impliedBase : BaseSpec) (entry : LaneEntry) :
    Prop where
  fields : ∃ fields, entry.recorded = some fields ∧ fields.headSha.val = recorded.head.sha ∧
    fields.deliverableBranch = recorded.branches.deliverableBranch ∧ fields.bodyDigest = recorded.record.bodyDigest
  base : recorded.branches.recordedBase = impliedBase.baseBranch
  loop : ∀ loopBranch, entry.loopBranch = some loopBranch →
    loopBranch = recorded.branches.loopBranch ∧ remoteLoopHead = some recorded.head.sha

theorem fieldsOf {recorded : RecordedLane} {remoteDeliverableHead : Option String} {impliedBase : BaseSpec}
    {fields : RecordedEntry} (ok : recordedEntry recorded remoteDeliverableHead impliedBase = .ok fields) :
    fields.headSha.val = recorded.head.sha ∧ fields.deliverableBranch = recorded.branches.deliverableBranch ∧
      fields.bodyDigest = recorded.record.bodyDigest := by
  unfold recordedEntry at ok
  split at ok
  · rename_i headSha _
    cases ok
    exact ⟨nonemptySome headSha, rfl, rfl⟩
  · cases ok

theorem decidedOn {recorded : RecordedLane} {remoteLoopHead remoteDeliverableHead : Option String}
    {openCriteria : List String} {impliedBase : BaseSpec} {entry : LaneEntry}
    (ok : decideLaneEntry repr issueKey (some recorded) remoteLoopHead remoteDeliverableHead openCriteria impliedBase =
      .ok (some entry)) : EntersOn recorded remoteLoopHead impliedBase entry := by
  unfold decideLaneEntry at ok
  dsimp only at ok
  split at ok
  · cases ok
  · rename_i remoteHead
    split at ok
    · cases ok
    · rename_i based
      have based := not_not.mp based
      split at ok
      · obtain ⟨fields, made, shaped⟩ := bindOk.mp ok
        cases shaped
        refine ⟨⟨fields, rfl, fieldsOf made⟩, based, fun loopBranch stands => ?_⟩
        dsimp only [LaneEntry.loopBranch] at stands
        split at stands
        · rename_i continued
          cases stands
          exact ⟨rfl, congrArg some continued⟩
        · cases stands
      · split at ok
        · cases ok
        · split at ok
          · cases ok
          · rename_i continued
            obtain ⟨fields, made, shaped⟩ := bindOk.mp ok
            cases shaped
            refine ⟨⟨fields, rfl, fieldsOf made⟩, based, fun loopBranch stands => ?_⟩
            cases stands
            exact ⟨rfl, congrArg some (not_not.mp continued)⟩

theorem readOn {lanes : RecordedLane} {remoteBranchSha : String → Option String} {openCriteria : List String}
    {impliedBase : BaseSpec} {entry : LaneEntry} (resolved : recordedLane record = .ok lanes)
    (ok : readLaneEntry repr issueKey (some record) remoteBranchSha openCriteria impliedBase = .ok (some entry)) :
    EntersOn lanes (remoteBranchSha lanes.branches.loopBranch.val) impliedBase entry := by
  obtain ⟨found, held, ok⟩ := bindOk.mp ok
  have held : (recordedLane record).map some = .ok found := mapErrorOk.mp held
  rw [resolved] at held
  cases held
  exact decidedOn ok

/-- An entry read off a settled lane is a new one or goes on under branches a run of it has had. -/
theorem entryKnown (settled : Settled lane) {remoteBranchSha : String → Option String} {openCriteria : List String}
    {impliedBase : BaseSpec} {entry : LaneEntry}
    (ok : readLaneEntry repr issueKey lane.record remoteBranchSha openCriteria impliedBase = .ok (some entry)) :
    entry = .new ∨ ∃ run ∈ lane.runs, ∃ fields, entry.recorded = some fields ∧
      fields.deliverableBranch.val = run.deliverableBranch ∧ impliedBase.baseBranch.val = run.base.baseBranch.val ∧
      ∀ loopBranch, entry.loopBranch = some loopBranch → loopBranch.val = run.loopBranch := by
  cases held : lane.record with
  | none =>
    rw [held] at ok
    have ok : (if openCriteria ≠ [] then some LaneEntry.new else none) = some entry := Except.ok.inj ok
    split at ok
    · cases ok
      exact .inl rfl
    · cases ok
  | some record =>
    rw [held] at ok
    obtain ⟨run, headSha, -, known, names⟩ := settled.written record held
    obtain ⟨branches, head, resolved, loops, delivers, based, -⟩ :=
      namesResolved settled.coherent (settled.accounted record held) known names
    have enters := readOn resolved ok
    obtain ⟨fields, stands, -, deliverable, -⟩ := enters.fields
    refine .inr ⟨run, known, fields, stands, by rw [deliverable, delivers], by rw [← enters.base, based], ?_⟩
    intro loopBranch continued
    rw [(enters.loop loopBranch continued).1, loops]

theorem settledStart {entry : Option LaneEntry} {firing : Firing} (settled : Settled lane)
    (known : entry.getD .new = .new ∨ ∃ run ∈ lane.runs, ∃ fields, (entry.getD .new).recorded = some fields ∧
      fields.deliverableBranch.val = run.deliverableBranch ∧ firing.base.baseBranch.val = run.base.baseBranch.val ∧
      ∀ loopBranch, (entry.getD .new).loopBranch = some loopBranch → loopBranch.val = run.loopBranch)
    (started : startRun issueKey lane entry firing = some lane') : Settled lane' := by
  unfold startRun at started
  split at started
  · cases started
  · rename_i branches named
    split at started
    · rename_i fresh
      cases started
      refine settledMore settled ?_
      unfold runBranches at named
      unfold drawsFresh at fresh
      rcases known with new | ⟨run, held, fields, stands, delivers, based, continues⟩
      · rw [new] at fresh
        exact coherentMore settled.coherent
          (fun other member same => absurd (List.mem_map.mpr ⟨other, member, same.symm⟩) fresh.2)
          fun other member same => absurd (List.mem_map.mpr ⟨other, member, same.symm⟩) fresh.1
      · have bases : ∀ feature, feature = run.deliverableBranch → ∀ other ∈ lane.runs, feature = other.deliverableBranch →
            firing.base.baseBranch.val = other.base.baseBranch.val := fun feature same other member alike =>
          based.trans (settled.coherent.bases run held other member (same.symm.trans alike))
        have loops : ∀ loopBranch, (entry.getD .new).loopBranch = some loopBranch → ∀ other ∈ lane.runs,
            loopBranch.val = other.loopBranch → fields.deliverableBranch.val = other.deliverableBranch :=
          fun loopBranch stands other member alike =>
            delivers.trans (settled.coherent.loops run held other member ((continues loopBranch stands).symm.trans alike))
        generalize entry.getD .new = entry at named fresh stands loops
        cases entry with
        | new => cases stands
        | resumed entry loopBranch =>
          cases stands
          cases loopBranch with
          | none =>
            cases named
            exact coherentMore settled.coherent
              (fun other member same => absurd (List.mem_map.mpr ⟨other, member, same.symm⟩) fresh) (bases _ delivers)
          | some loopBranch =>
            cases named
            exact coherentMore settled.coherent (loops loopBranch rfl) (bases _ delivers)
        | deliverOnly entry loopBranch =>
          cases stands
          cases named
          exact coherentMore settled.coherent (loops loopBranch rfl) (bases _ delivers)
    · cases started

/-- A commit or landing that is written leaves a record of its run and its sha. -/
theorem settledWrites (settled : Settled lane) (known : run ∈ lane.runs) (composed : Composed lane.record run headSha record) :
    Settled { lane with record := some record, wrote := some (run, headSha) } where
  coherent := settled.coherent
  accounted held same item inside := by
    cases same
    obtain ⟨recoveryRef, added, associates, whole⟩ := composed.associations
    obtain ⟨deliverable, loop, more, rfl, delivers, loops, recoveries⟩ := candidatesOf associates
    rw [whole, memAssociate, List.mem_cons, List.mem_cons] at inside
    rcases inside with early | rfl | rfl | late
    · cases before : lane.record with
      | none =>
        rw [before] at early
        cases early
      | some prior =>
        rw [before] at early
        exact settled.accounted prior before item early
    · obtain ⟨branch, role, derives, runId⟩ := associationOf delivers
      exact ⟨fun plays => absurd (role.symm.trans plays) (by decide), fun _ => ⟨run, known, branch, derives, runId⟩⟩
    · obtain ⟨branch, role, derives, -⟩ := associationOf loops
      exact ⟨fun _ => ⟨run, known, branch, derives⟩, fun plays => absurd (role.symm.trans plays) (by decide)⟩
    · have role := recoveries item late
      exact ⟨fun plays => absurd (role.symm.trans plays) (by decide), fun plays => absurd (role.symm.trans plays) (by decide)⟩
  written held same := by
    cases same
    refine ⟨run, headSha, rfl, known, composed.branch, ?_, ?_, ?_⟩
    · obtain ⟨recoveryRef, added, associates, whole⟩ := composed.associations
      obtain ⟨deliverable, loop, more, rfl, delivers, loops, -⟩ := candidatesOf associates
      obtain ⟨branch, role, derives, -⟩ := associationOf loops
      exact ⟨loop, by rw [whole, memAssociate]; simp, role, branch, derives⟩
    · obtain ⟨recoveryRef, added, associates, whole⟩ := composed.associations
      obtain ⟨deliverable, loop, more, rfl, delivers, loops, -⟩ := candidatesOf associates
      obtain ⟨branch, role, derives, -⟩ := associationOf delivers
      exact ⟨deliverable, by rw [whole, memAssociate]; simp, role, branch, derives⟩
    · obtain ⟨row, rfl, rows⟩ := composed.commits
      rw [rows]
      exact rowLast _ row

theorem settledDelivers (settled : Settled lane) (pr : LanePR) :
    Settled { lane with record := recordPullRequest lane.record pr } := by
  cases held : lane.record with
  | none => exact ⟨settled.coherent, by simp [recordPullRequest], by simp [recordPullRequest]⟩
  | some prior =>
    have carried : ∃ record, recordPullRequest (some prior) pr = some record ∧ record.branch = prior.branch ∧
        record.associations = prior.associations ∧ record.commits = prior.commits := by
      unfold recordPullRequest
      by_cases same : prior.pr = some pr
      · exact ⟨prior, by simp [same], rfl, rfl, rfl⟩
      · exact ⟨recordWithPullRequest prior pr, by simp [same], rfl, rfl, rfl⟩
    obtain ⟨record, made, branch, associations, commits⟩ := carried
    refine ⟨settled.coherent, fun other same => ?_, fun other same => ?_⟩
    · cases made.symm.trans same
      rw [associations]
      exact settled.accounted prior held
    · cases made.symm.trans same
      obtain ⟨run, headSha, wrote, known, names⟩ := settled.written prior held
      refine ⟨run, headSha, wrote, known, ?_⟩
      obtain ⟨branched, loop, deliverable, head⟩ := names
      exact ⟨branch ▸ branched, associations ▸ loop, associations ▸ deliverable, commits ▸ head⟩

/-- What a landing does: nothing, or a row composed on the record the board holds. -/
theorem landingOf {branchUrl landedSha : String} {changeset : ChangesetDigest} {landed : Option LaneRunState}
    (ok : recordLanding repr (some prior) run branchUrl landedSha changeset = .ok landed)
    (new : prior.commits.getLast?.map LaneCommit.sha ≠ some landedSha) :
    ∃ record, landed = some record ∧ Composed (some prior) run landedSha record := by
  unfold recordLanding at ok
  dsimp only at ok
  rw [if_neg new] at ok
  obtain ⟨record, composed, ok⟩ := bindOk.mp ok
  cases ok
  exact ⟨record, rfl, nextComposes composed⟩

theorem commitOf {prior : Option LaneRunState} {branchUrl : String} {receipt : PersistResult}
    {pushedHeadSha : Option String} {changeset : ChangesetDigest}
    (ok : recordCommit repr prior run branchUrl headSha receipt pushedHeadSha changeset = .ok record) :
    Composed prior run headSha record := by
  unfold recordCommit at ok
  split at ok
  · cases ok
  · exact nextComposes ok

/-- What one event does: it takes a run up, composes a row for a run it knows, carries a pull request, or does nothing. -/
inductive Moves (repr : String → String) (issueKey : String) (lane : Lane) : Event → Lane → Prop
  | still {event : Event} : Moves repr issueKey lane event lane
  | fires {event : Event} {firing : Firing} {lane' : Lane} (started : startRun issueKey lane none firing = some lane') :
      Moves repr issueKey lane event lane'
  | enters {event : Event} {reading : Reading} {firing : Firing} {entry : LaneEntry} {lane' : Lane}
      (decided : readLaneEntry repr issueKey lane.record reading.remoteBranchSha reading.openCriteria firing.base =
        .ok (some entry)) (started : startRun issueKey lane (some entry) firing = some lane') :
      Moves repr issueKey lane event lane'
  | redraws {event : Event} {run : LaneBinding} {loopBranch : String} (known : run ∈ lane.runs)
      (fresh : loopBranch ∉ lane.runs.map (·.loopBranch)) :
      Moves repr issueKey lane event { lane with runs := { run with loopBranch } :: lane.runs }
  | writes {event : Event} {run : LaneBinding} {headSha : String} {record : LaneRunState} (known : run ∈ lane.runs)
      (composed : Composed lane.record run headSha record) :
      Moves repr issueKey lane event { lane with record := some record, wrote := some (run, headSha) }
  | delivers (pr : LanePR) : Moves repr issueKey lane (.delivers pr) { lane with record := recordPullRequest lane.record pr }

theorem nextMoves {event : Event} (moved : next repr issueKey lane event = some lane') :
    Moves repr issueKey lane event lane' := by
  cases event with
  | enters reading firing =>
    cases reading with
    | none => exact .fires moved
    | some reading =>
      unfold next at moved
      dsimp only at moved
      split at moved
      · rename_i entry decided
        exact .enters decided moved
      · cases moved
  | redraws run shortHash =>
    obtain ⟨⟨known, fresh⟩, same⟩ := Option.ite_none_right_eq_some.mp moved
    cases same
    exact .redraws known fresh
  | commits run branchUrl headSha receipt pushedHeadSha changeset =>
    obtain ⟨known, moved⟩ := Option.ite_none_right_eq_some.mp moved
    split at moved
    · rename_i record composed
      cases moved
      exact .writes known (commitOf composed)
    · cases moved
  | lands run branchUrl landedSha changeset =>
    obtain ⟨known, moved⟩ := Option.ite_none_right_eq_some.mp moved
    split at moved
    · rename_i record landed
      split at moved
      · cases moved
        exact .still
      · rename_i new
        cases moved
        cases held : lane.record with
        | none =>
          rw [held] at landed
          cases landed
        | some prior =>
          rw [held] at landed new
          obtain ⟨record, same, composed⟩ := landingOf landed new
          cases same
          exact .writes known (held ▸ composed)
    · cases moved
      exact .still
    · cases moved
  | delivers pr =>
    cases moved
    exact .delivers pr

theorem movesSettled {event : Event} (moves : Moves repr issueKey lane event lane') (settled : Settled lane) : Settled lane' := by
  cases moves with
  | still => exact settled
  | fires started => exact settledStart settled (.inl rfl) started
  | enters decided started => exact settledStart settled (entryKnown settled decided) started
  | @redraws _ run loopBranch known fresh =>
    refine settledMore settled (coherentMore settled.coherent (fun other member same => ?_) ?_)
    · exact absurd (List.mem_map.mpr ⟨other, member, same.symm⟩) fresh
    · exact settled.coherent.bases run known
  | writes known composed => exact settledWrites settled known composed
  | delivers pr => exact settledDelivers settled pr

end Standing

section Runs
variable {repr : String → String} {issueKey : String} {lane lane' : Lane} {events : List Event} {record : LaneRunState}

theorem runSettled (run : Machine.Run (next repr issueKey) {} events lane) : Settled lane :=
  Machine.runKeeps ⟨⟨by simp, by simp⟩, by simp, by simp⟩
    (fun _ _ _ settled moved => movesSettled (nextMoves moved) settled) run

end Runs

section FirstRun

def zeros (count : Nat) : String := String.ofList (List.replicate count '0')

def trunk : BaseSpec := ⟨[], ⟨"stable", by decide⟩, none⟩

def minted : LaneBinding :=
  ⟨"KOD-102", "kodezart/KOD-102-00000000-ralph-a", "kodezart/KOD-102-00000000", trunk, zeros 64, "run-102"⟩

def firing : Firing := ⟨trunk, zeros 64, "run-102", ⟨"00000000", "a"⟩⟩

theorem keyStands : laneKeyStands "KOD-102" = true := by decide
theorem idStands : shortIdStands "00000000" = true := by decide

theorem branches : runBranches "KOD-102" none firing.drawn = .ok (minted.deliverableBranch, minted.loopBranch) := by
  have names : "kodezart/" ++ "KOD-102" ++ "-" ++ "00000000" = minted.deliverableBranch := by decide
  have loops : generateRalphBranchName minted.deliverableBranch "a" = minted.loopBranch := by decide
  have whole : mintLaneBranches "KOD-102" firing.drawn = .ok (minted.deliverableBranch, minted.loopBranch) := by
    unfold mintLaneBranches
    rw [if_pos ⟨keyStands, idStands⟩]
    exact congrArg Except.ok (Prod.ext names ((congrArg (generateRalphBranchName · "a") names).trans loops))
  exact whole

def receipt : PersistResult := ⟨"c1", "grade the rows", none⟩
def changed : ChangesetDigest := ⟨["rows.py"], 1⟩

theorem mintedStarts : startRun "KOD-102" {} none firing = some { runs := [minted] } := by
  unfold startRun
  rw [branches]
  rfl

theorem mintedRuns : Machine.Run (next id "KOD-102") {} [.enters none firing] { runs := [minted] } :=
  .move .start mintedStarts

theorem firstRecorded : (recordCommit id none minted "forge/tree" "c1" receipt (some "c1") changed).toBool = true := by
  decide

theorem firstCommit : ∃ record, Machine.Run (next id "KOD-102") {}
    [.enters none firing, .commits minted "forge/tree" "c1" receipt (some "c1") changed]
    { record := some record, runs := [minted], wrote := some (minted, "c1") } := by
  have taken := firstRecorded
  cases made : recordCommit id none minted "forge/tree" "c1" receipt (some "c1") changed with
  | error refusal =>
    rw [made] at taken
    cases taken
  | ok record =>
    refine ⟨record, mintedRuns.move ?_⟩
    simp only [next, made, List.mem_singleton, if_pos]

end FirstRun

end Kodezart.LaneEntries
