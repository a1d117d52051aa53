import Kodezart.Fallible
import Kodezart.LaneRecord

/-! How a lane enters its fire, the branches it then works on, and the record each of its acts
leaves behind. -/
namespace Kodezart.LaneEntries
open LaneRecord
open RunAlarmRecord (LaneCommit)

def isBaseStale (recorded implied : BaseSpec) : Bool := recorded ≠ implied

structure LaneBinding where
  laneKey : String
  loopBranch : String
  deliverableBranch : String
  base : BaseSpec
  bodyDigest : String
  runId : String
  deriving DecidableEq

structure ChangesetDigest where
  filePaths : List String
  commitCount : Nat

structure LaneRecordWriteError where
  laneKey : String
  reason : String
  deriving DecidableEq, Repr

/-! Validation of the fields, with the number of those refused. -/

def nonempty? (text : String) : Option NonemptyStr :=
  if filled : text ≠ "" then some ⟨text, filled⟩ else none

def digest? (text : String) : Option Digest :=
  if shaped : text.toList.length = 64 ∧ text.toList.all lowerHexDigit then some ⟨text, shaped⟩ else none

def branchAssociation (branch : String) (role : BranchRole) (derivedFrom runId : String) : Except Nat BranchAssociation :=
  match nonempty? branch, nonempty? derivedFrom, nonempty? runId with
  | some branch, some derivedFrom, some runId => .ok ⟨branch, role, some derivedFrom, runId⟩
  | branch, derivedFrom, runId => .error ([branch.isNone, derivedFrom.isNone, runId.isNone].count true)

structure LaneFacts where
  laneKey : String
  branch : String
  branchUrl : String
  headSha : String
  pushedHeadSha : Option String
  commitsAhead : Nat
  filesChanged : Nat
  commits : List LaneCommit
  pr : Option LanePR
  bodyDigest : Option String
  dispatchBase : Option BaseSpec
  associations : List BranchAssociation

def composeLaneRunState (facts : LaneFacts) : Except Nat LaneRunState :=
  match nonempty? facts.laneKey, nonempty? facts.branch, nonempty? facts.branchUrl, nonempty? facts.headSha,
    facts.pushedHeadSha.mapM nonempty?, facts.bodyDigest.mapM digest? with
  | some laneKey, some branch, some branchUrl, some headSha, some pushedHeadSha, some bodyDigest =>
    match modelValidate ⟨laneKey, branch, branchUrl, headSha, pushedHeadSha, facts.commitsAhead, facts.filesChanged,
        facts.commits, facts.pr, bodyDigest, facts.dispatchBase, facts.associations⟩ with
    | some record => .ok record
    | none => .error 1
  | laneKey, branch, branchUrl, headSha, pushedHeadSha, bodyDigest =>
    .error ([laneKey.isNone, branch.isNone, branchUrl.isNone, headSha.isNone, pushedHeadSha.isNone,
      bodyDigest.isNone].count true)

section Composing
variable (repr : String → String)

def reprOptional : Option String → String
  | none => "None"
  | some text => repr text

/-- The recorded deliverable of a run that this commit binds to another one. -/
def rebound (prior : Option LaneRunState) (lane : LaneBinding) : Option BranchAssociation :=
  (prior.elim [] (·.associations)).find? fun item =>
    item.role = .deliverable ∧ item.runId.val = lane.runId ∧
      ¬ (item.branch.val = lane.deliverableBranch ∧ item.derivedFrom = some lane.base.baseBranch)

def requireOneBindingPerRun (prior : Option LaneRunState) (lane : LaneBinding) : Except LaneRecordWriteError Unit :=
  match rebound prior lane with
  | none => .ok ()
  | some item => .error ⟨lane.laneKey, "run " ++ repr lane.runId ++ " is recorded as delivering " ++ repr item.branch.val ++
      " from " ++ reprOptional repr (item.derivedFrom.map (·.val)) ++ " and this commit binds it to " ++
      repr lane.deliverableBranch ++ " from " ++ repr lane.base.baseBranch.val⟩

/-- A head that is already the last row takes no second one. -/
def withRow (commits : List LaneCommit) (row : LaneCommit) : List LaneCommit :=
  if commits.getLast?.map LaneCommit.sha = some row.sha then commits else commits ++ [row]

def associate (associations candidates : List BranchAssociation) : List BranchAssociation :=
  candidates.foldl (fun kept association => if association ∈ kept then kept else kept ++ [association]) associations

def candidates (lane : LaneBinding) (recoveryRef : Option String) : Except Nat (List BranchAssociation) := do
  let deliverable ← branchAssociation lane.deliverableBranch .deliverable lane.base.baseBranch.val lane.runId
  let loop ← branchAssociation lane.loopBranch .loop lane.deliverableBranch lane.runId
  match recoveryRef with
  | none => return [deliverable, loop]
  | some ref => return [deliverable, loop, ← branchAssociation ref .recovery lane.loopBranch lane.runId]

def observedRecord (prior : Option LaneRunState) (lane : LaneBinding) (branchUrl headSha : String)
    (pushedHeadSha : Option String) (changeset : ChangesetDigest) (subject : String) (recoveryRef : Option String) :
    Except Nat LaneRunState := do
  let candidates ← candidates lane recoveryRef
  composeLaneRunState {
    laneKey := lane.laneKey
    branch := lane.loopBranch
    branchUrl
    headSha
    pushedHeadSha
    commitsAhead := changeset.commitCount
    filesChanged := changeset.filePaths.length
    commits := withRow (prior.elim [] (·.commits)) ⟨headSha, subject, lane.laneKey⟩
    pr := prior.bind (·.pr)
    bodyDigest := some (((prior.bind (·.bodyDigest)).map (·.val)).getD lane.bodyDigest)
    dispatchBase := some ((prior.bind (·.dispatchBase)).getD lane.base)
    associations := associate (prior.elim [] (·.associations)) candidates }

def nextLaneRecord (prior : Option LaneRunState) (lane : LaneBinding) (branchUrl headSha : String)
    (pushedHeadSha : Option String) (changeset : ChangesetDigest) (subject : String) (recoveryRef : Option String) :
    Except LaneRecordWriteError LaneRunState := do
  requireOneBindingPerRun repr prior lane
  (observedRecord prior lane branchUrl headSha pushedHeadSha changeset subject recoveryRef).mapError fun refused =>
    ⟨lane.laneKey, "the observed facts are not a record: " ++ toString refused ++ " refused field(s)"⟩

def recordWithPullRequest (prior : LaneRunState) (pr : LanePR) : LaneRunState :=
  ⟨{ prior.toLaneRunFields with pr := some pr }, ⟨prior.valid.loop, prior.valid.deliverables⟩⟩

/-! The three acts, over the record the board holds and what git answers. -/

structure PersistResult where
  commitSha : String
  message : String
  recoveryRef : Option String

def recordCommit (prior : Option LaneRunState) (lane : LaneBinding) (branchUrl headSha : String) (receipt : PersistResult)
    (pushedHeadSha : Option String) (changeset : ChangesetDigest) : Except LaneRecordWriteError LaneRunState :=
  if headSha ≠ receipt.commitSha then
    .error ⟨lane.laneKey, "the workspace head is not the commit the receipt names"⟩
  else nextLaneRecord repr prior lane branchUrl headSha pushedHeadSha changeset
    (String.ofList (receipt.message.toList.takeWhile (· ≠ '\n'))) receipt.recoveryRef

def landingRowSubject : String := "land: the best iteration this run reached"

/-- A lane with no record takes no row, and a landing already recorded is not a second one. -/
def recordLanding (prior : Option LaneRunState) (lane : LaneBinding) (branchUrl landedSha : String)
    (changeset : ChangesetDigest) : Except LaneRecordWriteError (Option LaneRunState) :=
  match prior with
  | none => .ok none
  | some prior =>
    if prior.commits.getLast?.map LaneCommit.sha = some landedSha then .ok (some prior)
    else (nextLaneRecord repr (some prior) lane branchUrl landedSha (prior.pushedHeadSha.map (·.val)) changeset
      landingRowSubject none).map some

def recordPullRequest (prior : Option LaneRunState) (pr : LanePR) : Option LaneRunState :=
  prior.map fun prior => if prior.pr = some pr then prior else recordWithPullRequest prior pr

end Composing

/-! The entry. -/

structure LaneEntryError where
  issueKey : String
  reason : String
  branches : List String
  deriving DecidableEq, Repr

structure RecordedBranches where
  loopBranch : NonemptyStr
  deliverableBranch : NonemptyStr
  recordedBase : NonemptyStr
  deriving DecidableEq

/-- What the associations of one role on one branch are derived from, each once. -/
def derivedFrom (record : LaneRunState) (role : BranchRole) (branch : NonemptyStr) : List NonemptyStr :=
  ((record.associations.filter fun item => item.role = role ∧ item.branch = branch).filterMap
    BranchAssociation.derivedFrom).dedup

def sortedNames (names : List NonemptyStr) : List String := sortBy id (names.map (·.val))

def recordedBranches (record : LaneRunState) : Except LaneEntryError RecordedBranches :=
  match derivedFrom record .loop record.branch with
  | [deliverable] =>
    match derivedFrom record .deliverable deliverable with
    | [base] => .ok ⟨record.branch, deliverable, base⟩
    | bases => .error ⟨record.laneKey.val, "the recorded deliverable branch names " ++ toString bases.length ++
        " bases, not one", sortedNames bases⟩
  | deliverables => .error ⟨record.laneKey.val, "the recorded loop branch names " ++ toString deliverables.length ++
      " deliverable branches, not one", sortedNames deliverables⟩

def recordedCommit (record : LaneRunState) : Except LaneEntryError LaneCommit :=
  match record.commits.getLast? with
  | none => .error ⟨record.laneKey.val, "the record names no commit act", [record.branch.val]⟩
  | some commit => .ok commit

structure RecordedLane where
  record : LaneRunState
  branches : RecordedBranches
  head : LaneCommit

def recordedLane (record : LaneRunState) : Except LaneEntryError RecordedLane := do
  let branches ← recordedBranches record
  return ⟨record, branches, ← recordedCommit record⟩

structure RecordedEntry where
  deliverableBranch : NonemptyStr
  headSha : NonemptyStr
  deliverableHeadSha : Option NonemptyStr
  bodyDigest : Option Digest
  baseStale : Bool
  deriving DecidableEq

inductive LaneEntry where
  | new
  | resumed (entry : RecordedEntry) (loopBranch : Option NonemptyStr)
  | deliverOnly (entry : RecordedEntry) (loopBranch : NonemptyStr)
  deriving DecidableEq

/-- The facts of an entry that stands on a record. -/
def LaneEntry.recorded : LaneEntry → Option RecordedEntry
  | .new => none
  | .resumed entry _ | .deliverOnly entry _ => some entry

def LaneEntry.loopBranch : LaneEntry → Option NonemptyStr
  | .new => none
  | .resumed _ loopBranch => loopBranch
  | .deliverOnly _ loopBranch => some loopBranch

inductive EntryRefusal where
  | laneEntry (error : LaneEntryError)
  | validation
  deriving DecidableEq, Repr

/-- The fields a resumed entry and a delivering one share, where the model admits them. -/
def recordedEntry (recorded : RecordedLane) (remoteDeliverableHead : Option String) (impliedBase : BaseSpec) :
    Except EntryRefusal RecordedEntry :=
  match nonempty? recorded.head.sha, remoteDeliverableHead.mapM nonempty? with
  | some headSha, some deliverableHeadSha => .ok {
      deliverableBranch := recorded.branches.deliverableBranch
      headSha
      deliverableHeadSha
      bodyDigest := recorded.record.bodyDigest
      baseStale := recorded.record.dispatchBase.any (isBaseStale · impliedBase) }
  | _, _ => .error .validation

section Deciding
variable (repr : String → String)

def decideLaneEntry (issueKey : String) (recorded : Option RecordedLane) (remoteLoopHead remoteDeliverableHead : Option String)
    (openCriteria : List String) (impliedBase : BaseSpec) : Except EntryRefusal (Option LaneEntry) :=
  match recorded with
  | none => .ok (if openCriteria ≠ [] then some .new else none)
  | some recorded =>
    match remoteLoopHead with
    | none => .error (.laneEntry ⟨issueKey, "the recorded branch is absent from the remote",
        [recorded.branches.loopBranch.val]⟩)
    | some remoteLoopHead =>
      if recorded.branches.recordedBase ≠ impliedBase.baseBranch then
        .error (.laneEntry ⟨issueKey, "the recorded base " ++ repr recorded.branches.recordedBase.val ++ " is not the base " ++
          repr impliedBase.baseBranch.val ++ " that resolves now", [recorded.branches.deliverableBranch.val]⟩)
      else
        let continued := remoteLoopHead = recorded.head.sha
        if openCriteria ≠ [] then
          (recordedEntry recorded remoteDeliverableHead impliedBase).map fun entry =>
            some (.resumed entry (if continued then some recorded.branches.loopBranch else none))
        else if recorded.record.pr ≠ none then .ok none
        else if ¬ continued then
          .error (.laneEntry ⟨issueKey, "the recorded loop branch does not stand at the record's last commit act, " ++
            "and a lane owing nothing would deliver it as it stands", [recorded.branches.loopBranch.val]⟩)
        else (recordedEntry recorded remoteDeliverableHead impliedBase).map fun entry =>
          some (.deliverOnly entry recorded.branches.loopBranch)

/-- The record is resolved before the remote is asked anything of its branches. -/
def readLaneEntry (issueKey : String) (record : Option LaneRunState) (remoteBranchSha : String → Option String)
    (openCriteria : List String) (impliedBase : BaseSpec) : Except EntryRefusal (Option LaneEntry) := do
  let recorded ← (record.mapM recordedLane).mapError .laneEntry
  decideLaneEntry repr issueKey recorded (recorded.bind fun lane => remoteBranchSha lane.branches.loopBranch.val)
    (recorded.bind fun lane => remoteBranchSha lane.branches.deliverableBranch.val) openCriteria impliedBase

end Deciding

/-! The names a run works under. -/

/-- Alphanumerics joined by single separators. -/
def laneKeySegment (segment : List Char) : Bool :=
  (segment.splitOnP fun c => c = '-' || c = '_' || c = '.').all fun part => part ≠ [] && part.all Char.isAlphanum

def laneKeyStands (issueKey : String) : Bool :=
  (issueKey.toList.splitOn '/').all fun segment => laneKeySegment segment && ! ".lock".toList.isSuffixOf segment

def shortIdStands (shortId : String) : Bool := shortId.toList.length = 8 && shortId.toList.all lowerHexDigit

def generateRalphBranchName (featureBranch shortHash : String) : String := featureBranch ++ "-ralph-" ++ shortHash

/-- The short ids a run draws, the first only where it mints a deliverable branch. -/
structure Drawn where
  shortId : String
  shortHash : String

def mintLaneBranches (issueKey : String) (drawn : Drawn) : Except LaneEntryError (String × String) :=
  if laneKeyStands issueKey ∧ shortIdStands drawn.shortId then
    let deliverable := "kodezart/" ++ issueKey ++ "-" ++ drawn.shortId
    .ok (deliverable, generateRalphBranchName deliverable drawn.shortHash)
  else .error ⟨issueKey, "the issue key cannot stand inside a branch ref", []⟩

/-- The feature branch and the loop branch of a run, from how it entered. -/
def runBranches (issueKey : String) (entry : Option LaneEntry) (drawn : Drawn) : Except LaneEntryError (String × String) :=
  match entry.getD .new with
  | .new => mintLaneBranches issueKey drawn
  | .resumed entry none => .ok (entry.deliverableBranch.val, generateRalphBranchName entry.deliverableBranch.val drawn.shortHash)
  | .resumed entry (some loopBranch) => .ok (entry.deliverableBranch.val, loopBranch.val)
  | .deliverOnly entry loopBranch => .ok (entry.deliverableBranch.val, loopBranch.val)

end Kodezart.LaneEntries
