import Kodezart.LaneHistory

/-! What a lane's record keeps over its runs, and when a commit is refused one. -/
namespace Kodezart.LaneEntries
open LaneRecord
open RunAlarmRecord (LaneCommit)

section Growth
variable {repr : String → String} {issueKey : String} {lane lane' : Lane} {events : List Event} {record : LaneRunState}

/-- What a later record keeps of an earlier one. -/
structure Keeps (old new : LaneRunState) : Prop where
  commits : old.commits <+: new.commits
  associations : old.associations <+: new.associations
  bodyDigest : old.bodyDigest ≠ none → new.bodyDigest = old.bodyDigest
  dispatchBase : old.dispatchBase ≠ none → new.dispatchBase = old.dispatchBase
  pr : old.pr ≠ none → new.pr ≠ none

theorem keepsRefl (record : LaneRunState) : Keeps record record :=
  ⟨List.prefix_refl _, List.prefix_refl _, fun _ => rfl, fun _ => rfl, id⟩

theorem keepsTrans {old mid new : LaneRunState} (first : Keeps old mid) (second : Keeps mid new) : Keeps old new where
  commits := first.commits.trans second.commits
  associations := first.associations.trans second.associations
  bodyDigest pinned := by
    have same := first.bodyDigest pinned
    exact (second.bodyDigest (same ▸ pinned)).trans same
  dispatchBase pinned := by
    have same := first.dispatchBase pinned
    exact (second.dispatchBase (same ▸ pinned)).trans same
  pr carried := second.pr (first.pr carried)

theorem composedKeeps {run : LaneBinding} {headSha : String} {prior : LaneRunState}
    (composed : Composed (some prior) run headSha record) : Keeps prior record where
  commits := by
    obtain ⟨row, -, rows⟩ := composed.commits
    exact rows ▸ rowExtends _ row
  associations := by
    obtain ⟨recoveryRef, added, -, whole⟩ := composed.associations
    exact whole ▸ associateExtends _ added
  bodyDigest pinned := by
    have told := composed.bodyDigest
    cases digest : prior.bodyDigest with
    | none => exact absurd digest pinned
    | some value =>
      obtain ⟨kept, same, texts⟩ := Option.map_eq_some_iff.mp told
      simp only [Option.bind_some, digest, Option.map_some, Option.getD_some] at texts
      rw [same, Subtype.ext texts]
  dispatchBase pinned := by
    cases base : prior.dispatchBase with
    | none => exact absurd base pinned
    | some value => simp [composed.dispatchBase, base]
  pr carried := by simpa [composed.pr] using carried

theorem movesKeeps {event : Event} (moves : Moves repr issueKey lane event lane') (held : lane.record = some record) :
    ∃ later, lane'.record = some later ∧ Keeps record later := by
  cases moves with
  | still => exact ⟨record, held, keepsRefl record⟩
  | fires started | enters decided started =>
    unfold startRun at started
    split at started
    · cases started
    · obtain ⟨-, same⟩ := Option.ite_none_right_eq_some.mp started
      cases same
      exact ⟨record, held, keepsRefl record⟩
  | redraws known fresh => exact ⟨record, held, keepsRefl record⟩
  | @writes _ run headSha later known composed => exact ⟨later, rfl, composedKeeps (held ▸ composed)⟩
  | delivers pr =>
    have moved : (recordPullRequest lane.record pr) = some (if record.pr = some pr then record else recordWithPullRequest record pr) := by
      rw [held]
      rfl
    refine ⟨_, moved, ?_⟩
    split
    · exact keepsRefl record
    · exact ⟨List.prefix_refl _, List.prefix_refl _, fun _ => rfl, fun _ => rfl, fun _ => by simp [recordWithPullRequest]⟩

theorem movesCarry {event : Event} (moves : Moves repr issueKey lane event lane') (none_delivered : ∀ pr, event ≠ .delivers pr) :
    lane'.record.bind (·.pr) = lane.record.bind (·.pr) := by
  cases moves with
  | still => rfl
  | fires started | enters decided started =>
    unfold startRun at started
    split at started
    · cases started
    · obtain ⟨-, same⟩ := Option.ite_none_right_eq_some.mp started
      cases same
      rfl
  | redraws known fresh => rfl
  | writes known composed => exact composed.pr
  | delivers pr => exact absurd rfl (none_delivered pr)

/-- No record repeats an association, two rows running have different shas, and the digest and the base are pinned. -/
structure Clean (record : LaneRunState) : Prop where
  associations : record.associations.Nodup
  commits : (record.commits.map LaneCommit.sha).IsChain (· ≠ ·)
  bodyDigest : record.bodyDigest ≠ none
  dispatchBase : record.dispatchBase ≠ none

theorem rowChain {rows : List LaneCommit} {row : LaneCommit} (chain : (rows.map LaneCommit.sha).IsChain (· ≠ ·)) :
    ((withRow rows row).map LaneCommit.sha).IsChain (· ≠ ·) := by
  unfold withRow
  split
  · exact chain
  · rename_i new
    rw [List.map_append, List.isChain_append]
    refine ⟨chain, by simp, fun last ends first starts same => new ?_⟩
    have starts : first = row.sha := by simpa using starts.symm
    have ends : rows.getLast?.map LaneCommit.sha = some last := by simpa using ends
    rw [ends, same, starts]

theorem movesClean {event : Event} (moves : Moves repr issueKey lane event lane')
    (clean : ∀ record, lane.record = some record → Clean record) : ∀ record, lane'.record = some record → Clean record := by
  cases moves with
  | still => exact clean
  | fires started | enters decided started =>
    unfold startRun at started
    split at started
    · cases started
    · obtain ⟨-, same⟩ := Option.ite_none_right_eq_some.mp started
      cases same
      exact clean
  | redraws known fresh => exact clean
  | @writes _ run headSha later known composed =>
    intro record same
    cases same
    obtain ⟨recoveryRef, added, -, whole⟩ := composed.associations
    obtain ⟨row, -, rows⟩ := composed.commits
    have digest := composed.bodyDigest
    refine ⟨?_, ?_, fun absent => by simp [absent] at digest, by simp [composed.dispatchBase]⟩
    · rw [whole]
      cases held : lane.record with
      | none => exact associateNodup added List.nodup_nil
      | some prior => exact associateNodup added (clean prior held).associations
    · rw [rows]
      cases held : lane.record with
      | none => exact rowChain .nil
      | some prior => exact rowChain (clean prior held).commits
  | delivers pr =>
    intro record same
    obtain ⟨prior, held, rfl⟩ := Option.map_eq_some_iff.mp same
    split
    · exact clean prior held
    · obtain ⟨associations, commits, bodyDigest, dispatchBase⟩ := clean prior held
      exact ⟨associations, commits, bodyDigest, dispatchBase⟩

/-- The texts a run brings are ones the record's fields admit. -/
structure Admitted (run : LaneBinding) : Prop where
  laneKey : run.laneKey ≠ ""
  loopBranch : run.loopBranch ≠ ""
  deliverableBranch : run.deliverableBranch ≠ ""
  runId : run.runId ≠ ""
  bodyDigest : run.bodyDigest.toList.length = 64 ∧ run.bodyDigest.toList.all lowerHexDigit

theorem associationMade {branch derivedFrom runId : String} (role : BranchRole) (named : branch ≠ "") (derived : derivedFrom ≠ "")
    (owned : runId ≠ "") : ∃ association, branchAssociation branch role derivedFrom runId = .ok association := by
  simp only [branchAssociation, nonemptyOf named, nonemptyOf derived, nonemptyOf owned]
  exact ⟨_, rfl⟩

theorem candidatesMade {worker : LaneBinding} (admitted : Admitted worker) {recoveryRef : Option String}
    (named : recoveryRef ≠ some "") : ∃ added, candidates worker recoveryRef = .ok added := by
  obtain ⟨deliverable, delivers⟩ := associationMade .deliverable admitted.deliverableBranch worker.base.baseBranch.property
    admitted.runId
  obtain ⟨loop, loops⟩ := associationMade .loop admitted.loopBranch admitted.deliverableBranch admitted.runId
  cases recoveryRef with
  | none => exact ⟨_, bindOk.mpr ⟨deliverable, delivers, bindOk.mpr ⟨loop, loops, rfl⟩⟩⟩
  | some ref =>
    obtain ⟨recovery, recovers⟩ := associationMade .recovery (fun blank => named (congrArg some blank)) admitted.loopBranch
      admitted.runId
    exact ⟨_, bindOk.mpr ⟨deliverable, delivers, bindOk.mpr ⟨loop, loops, bindOk.mpr ⟨recovery, recovers, rfl⟩⟩⟩⟩

theorem optionalMade {pushedHeadSha : Option String} (named : pushedHeadSha ≠ some "") :
    ∃ made, pushedHeadSha.mapM nonempty? = some made := by
  cases pushedHeadSha with
  | none => exact ⟨none, rfl⟩
  | some sha =>
    have filled : sha ≠ "" := fun blank => named (congrArg some blank)
    exact ⟨some ⟨sha, filled⟩, Option.map_eq_some_iff.mpr ⟨_, nonemptyOf filled, rfl⟩⟩

/-- The deliverables of a record stay one for each run when a run adds its own. -/
theorem deliverablesOnce {worker : LaneBinding} {associations added : List BranchAssociation} {recoveryRef : Option String}
    (once : ((associations.filter (·.role = .deliverable)).map BranchAssociation.runId).Nodup)
    (associates : candidates worker recoveryRef = .ok added)
    (bound : ∀ item ∈ associations, item.role = .deliverable → item.runId.val = worker.runId →
      item.branch.val = worker.deliverableBranch ∧ item.derivedFrom = some worker.base.baseBranch) :
    (((associate associations added).filter (·.role = .deliverable)).map BranchAssociation.runId).Nodup := by
  obtain ⟨deliverable, loop, more, rfl, delivers, loops, recoveries⟩ := candidatesOf associates
  obtain ⟨branch, role, derives, owner⟩ := associationOf delivers
  have others : ∀ (rest kept : List BranchAssociation), (∀ item ∈ rest, item.role ≠ .deliverable) →
      (associate kept rest).filter (·.role = .deliverable) = kept.filter (·.role = .deliverable) := by
    intro rest
    induction rest with
    | nil => exact fun kept _ => rfl
    | cons item rest ih =>
      intro kept apart
      have same := ih (if item ∈ kept then kept else kept ++ [item]) fun other member => apart other (List.mem_cons_of_mem _ member)
      refine same.trans ?_
      split
      · rfl
      · simp [apart item (List.mem_cons_self ..)]
  have split : associate associations (deliverable :: loop :: more) =
      associate (associate associations [deliverable]) (loop :: more) := rfl
  rw [split, others (loop :: more) _ fun item member => ?_]
  · unfold associate
    rw [List.foldl_cons, List.foldl_nil]
    split
    · exact once
    · rename_i absent
      rw [List.filter_append, List.map_append, List.nodup_append]
      refine ⟨once, by simp [role], fun id known other new same => ?_⟩
      obtain ⟨item, inside, rfl⟩ := List.mem_map.mp known
      obtain ⟨inside, plays⟩ := List.mem_filter.mp inside
      have plays : item.role = .deliverable := by simpa using plays
      have new : other = deliverable.runId := by simpa [role] using new
      have mine : item.runId.val = worker.runId := by rw [same, new, owner]
      obtain ⟨itemBranch, itemFrom⟩ := bound item inside plays mine
      have sameFrom : item.derivedFrom = deliverable.derivedFrom := by
        obtain ⟨source, held, text⟩ := Option.map_eq_some_iff.mp derives
        rw [itemFrom, held]
        exact congrArg some (Subtype.ext text.symm)
      have twin : item = deliverable := by
        cases item
        cases deliverable
        simp only [BranchAssociation.mk.injEq]
        exact ⟨Subtype.ext (itemBranch.trans branch.symm), plays.trans role.symm, sameFrom,
          Subtype.ext (mine.trans owner.symm)⟩
      exact absent (twin ▸ inside)
  · rcases List.mem_cons.mp member with rfl | late
    · rw [(associationOf loops).2.1]
      decide
    · rw [recoveries item late]
      decide

theorem composeMade (facts : LaneFacts) {pushedSha : Option NonemptyStr} {digest : Option Digest} (laneKey : facts.laneKey ≠ "")
    (branch : facts.branch ≠ "") (branchUrl : facts.branchUrl ≠ "") (headSha : facts.headSha ≠ "")
    (pushes : facts.pushedHeadSha.mapM nonempty? = some pushedSha) (digests : facts.bodyDigest.mapM digest? = some digest)
    (loop : ∃ item ∈ facts.associations, item.role = .loop ∧ item.branch = ⟨facts.branch, branch⟩)
    (once : ((facts.associations.filter (·.role = .deliverable)).map BranchAssociation.runId).Nodup) :
    ∃ record, composeLaneRunState facts = .ok record := by
  simp only [composeLaneRunState, nonemptyOf laneKey, nonemptyOf branch, nonemptyOf branchUrl, nonemptyOf headSha, pushes, digests]
  have valid : LaneRunFields.Valid ⟨⟨facts.laneKey, laneKey⟩, ⟨facts.branch, branch⟩, ⟨facts.branchUrl, branchUrl⟩,
      ⟨facts.headSha, headSha⟩, pushedSha, facts.commitsAhead, facts.filesChanged, facts.commits, facts.pr, digest,
      facts.dispatchBase, facts.associations⟩ := ⟨loop, once⟩
  simp only [modelValidate, dif_pos valid]
  exact ⟨_, rfl⟩

end Growth

end Kodezart.LaneEntries
