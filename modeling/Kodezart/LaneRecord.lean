import Kodezart.JsonRecords
import Kodezart.MarkedComments
import Kodezart.RunAlarmPayload

/-! One readable representation of the lane's branch-state record. -/
namespace Kodezart.LaneRecord
open TextLines JsonText JsonCodec CommentMarkers
open RunAlarmRecord (LaneCommit laneCommit laneCommitKeeps nonempty nonemptyKeeps plain)

abbrev Digest := {text : String // text.toList.length = 64 ∧ text.toList.all lowerHexDigit}

structure LanePR where
  url : String
  number : Int
  state : String
  deriving DecidableEq

structure LaneRunFields where
  laneKey : NonemptyStr
  branch : NonemptyStr
  branchUrl : NonemptyStr
  headSha : NonemptyStr
  pushedHeadSha : Option NonemptyStr
  commitsAhead : Nat
  filesChanged : Nat
  commits : List LaneCommit
  pr : Option LanePR
  bodyDigest : Option Digest
  dispatchBase : Option BaseSpec
  associations : List BranchAssociation
  deriving DecidableEq

/-- A loop association of the recorded branch, and one deliverable at most for each run. -/
structure LaneRunFields.Valid (fields : LaneRunFields) : Prop where
  loop : ∃ item ∈ fields.associations, item.role = .loop ∧ item.branch = fields.branch
  deliverables : ((fields.associations.filter (·.role = .deliverable)).map BranchAssociation.runId).Nodup

instance (fields : LaneRunFields) : Decidable fields.Valid :=
  decidable_of_iff ((∃ item ∈ fields.associations, item.role = .loop ∧ item.branch = fields.branch) ∧
      ((fields.associations.filter (·.role = .deliverable)).map BranchAssociation.runId).Nodup)
    ⟨fun both => ⟨both.1, both.2⟩, fun valid => ⟨valid.1, valid.2⟩⟩

structure LaneRunState extends LaneRunFields where
  valid : toLaneRunFields.Valid

def modelValidate (fields : LaneRunFields) : Option LaneRunState :=
  if valid : fields.Valid then some ⟨fields, valid⟩ else none

section Codecs

def integer : Codec Int where
  encode _ n := .int n
  decode
    | .int n => some n
    | _ => none

def branchRole : Codec BranchRole := named [.deliverable, .loop, .recovery] fun
  | .deliverable => "deliverable".toList
  | .loop => "loop".toList
  | .recovery => "recovery".toList

def workRefRole : Codec WorkRefRole := named [.deliverable, .iteration, .recovery, .bestIteration, .integration] fun
  | .deliverable => "deliverable".toList
  | .iteration => "iteration".toList
  | .recovery => "recovery".toList
  | .bestIteration => "best_iteration".toList
  | .integration => "integration".toList

def branchAssociationFields : Fields BranchAssociation :=
  ((plain "branch" nonempty).and <| (plain "role" branchRole).and <|
      (field "derivedFrom".toList "derived_from".toList nonempty.optional).and <|
      field "runId".toList "run_id".toList nonempty).build
    (fun (branch, role, derivedFrom, runId) => some ⟨branch, role, derivedFrom, runId⟩)
    fun item => (item.branch, item.role, item.derivedFrom, item.runId)

def baseInputFields : Fields BaseInput :=
  ((field "blockerIssueId".toList "blocker_issue_id".toList nonempty).and <| (plain "branch" nonempty).and <|
      plain "sha" nonempty).build
    (fun (blockerIssueId, branch, sha) => some ⟨blockerIssueId, branch, sha⟩)
    fun input => (input.blockerIssueId, input.branch, input.sha)

def baseSpecFields : Fields BaseSpec :=
  ((plain "inputs" (list (object baseInputFields))).and <|
      (field "baseBranch".toList "base_branch".toList nonempty).and <|
      fieldOr "baseRole".toList "base_role".toList workRefRole.optional none).build
    (fun (inputs, baseBranch, baseRole) => some ⟨inputs, baseBranch, baseRole⟩)
    fun spec => (spec.inputs, spec.baseBranch, spec.baseRole)

def lanePRFields : Fields LanePR :=
  ((plain "url" string).and <| (plain "number" integer).and <| plain "state" string).build
    (fun (url, number, state) => some ⟨url, number, state⟩) fun pr => (pr.url, pr.number, pr.state)

def digest : Codec Digest := checked (fun text => text.toList.length = 64 ∧ text.toList.all lowerHexDigit) string

def laneRunFields : Fields LaneRunState :=
  ((field "laneKey".toList "lane_key".toList nonempty).and <| (plain "branch" nonempty).and <|
      (field "branchUrl".toList "branch_url".toList nonempty).and <|
      (field "headSha".toList "head_sha".toList nonempty).and <|
      (field "pushedHeadSha".toList "pushed_head_sha".toList nonempty.optional).and <|
      (field "commitsAhead".toList "commits_ahead".toList count).and <|
      (field "filesChanged".toList "files_changed".toList count).and <|
      (plain "commits" (list laneCommit)).and <|
      (fieldOr "pr".toList "pr".toList (object lanePRFields).optional none).and <|
      (fieldOr "bodyDigest".toList "body_digest".toList digest.optional none).and <|
      (fieldOr "dispatchBase".toList "dispatch_base".toList (object baseSpecFields).optional none).and <|
      plain "associations" (list (object branchAssociationFields))).build
    (fun (laneKey, branch, branchUrl, headSha, pushedHeadSha, commitsAhead, filesChanged, commits, pr, bodyDigest,
        dispatchBase, associations) =>
      modelValidate ⟨laneKey, branch, branchUrl, headSha, pushedHeadSha, commitsAhead, filesChanged, commits, pr,
        bodyDigest, dispatchBase, associations⟩)
    fun record => (record.laneKey, record.branch, record.branchUrl, record.headSha, record.pushedHeadSha,
      record.commitsAhead, record.filesChanged, record.commits, record.pr, record.bodyDigest, record.dispatchBase,
      record.associations)

def laneRunState : Codec LaneRunState := object laneRunFields

end Codecs

/-! The comment, with the re-entry section every record is written with and the earlier ones. -/

/-- A section's heading and the lines under it. -/
def reentryText (lines : List String) : Text := joinLines ("## Re-entry".toList :: lines.map String.toList)

def reentryLines : List String := [
  "",
  "Resume at the record's last commit act, the sha of its final commits row, and",
  "never at a remote tip the record does not name. Find the loop branch by the",
  "LOOP role and the record's branch field. When the remote holds it at that sha,",
  "check it out and continue it. When it stands anywhere else, a lane that still",
  "owes criteria cuts a fresh loop branch from the record's last commit act and",
  "keeps the old association, and the old branch stays where it stands; a lane",
  "that owes nothing and carries no pull request is refused rather than delivered",
  "from a branch standing elsewhere. When the remote no longer holds it, recover",
  "it before continuing: never mint a new branch in place of a recorded",
  "association. pushedHeadSha is where the remote held the loop branch when a",
  "commit last observed it, not the head to resume at. Follow the explicit roles",
  "and derivedFrom links to the deliverable, other loop and recovery branches; do",
  "not infer their roles from their names. Associations survive reaping, so verify",
  "current remote liveness before checkout.",
  "",
  "Grade the existing commits against each criterion sub-issue's own Check and",
  "verification instructions, reading satisfaction and Evidence on that sub-issue.",
  "Let only failing criteria drive new work."]

def firstReentryLines : List String := [
  "",
  "Resume the branch identified by the LOOP role and the record's branch field.",
  "When pushedHeadSha is present, that branch exists on the remote at the recorded",
  "head; check out the existing branch. When pushedHeadSha is null, no remote copy",
  "was recorded: recover the existing branch before continuing. Never mint a new",
  "branch in place of a recorded association. Follow the explicit roles and",
  "derivedFrom links to the deliverable, other loop and recovery branches; do not",
  "infer their roles from their names. Associations survive reaping, so verify",
  "current remote liveness before checkout.",
  "",
  "Grade the existing commits against each criterion sub-issue's own Check and",
  "verification instructions, reading satisfaction and Evidence on that sub-issue.",
  "Let only failing criteria drive new work."]

def secondReentryLines : List String := [
  "",
  "Resume at the record's last commit act, the sha of its final commits row, and",
  "never at a remote tip the record does not name. Find the loop branch by the",
  "LOOP role and the record's branch field. When the remote holds it at that sha,",
  "check it out and continue it. When it stands anywhere else, cut a fresh loop",
  "branch from that sha and keep the old association; the old branch stays where",
  "it stands. When the remote no longer holds it, recover it before continuing:",
  "never mint a new branch in place of a recorded association. pushedHeadSha is",
  "where the remote held the loop branch when a commit last observed it, not the",
  "head to resume at. Follow the explicit roles and derivedFrom links to the",
  "deliverable, other loop and recovery branches; do not infer their roles from",
  "their names. Associations survive reaping, so verify current remote liveness",
  "before checkout.",
  "",
  "Grade the existing commits against each criterion sub-issue's own Check and",
  "verification instructions, reading satisfaction and Evidence on that sub-issue.",
  "Let only failing criteria drive new work."]

def reentrySection : Text := reentryText reentryLines

def previousReentrySections : List Text := [reentryText firstReentryLines, reentryText secondReentryLines]

def runStatePurpose : Text := "run_state".toList

inductive RecordError where
  | marker (error : MarkerError)
  | valueError (message : String)
  deriving DecidableEq, Repr

def fenceOpen : Text := "```json\n".toList

/-- What closes the facts, up to the end of the comment. -/
def framed (reentry : Text) : Text := "\n```\n\n".toList ++ reentry

def laneRecordBody (record : LaneRunState) : Text :=
  fenceOpen ++ render 0 (laneRunState.encode .byAlias record) ++ framed reentrySection

section Comments
variable (repr : Text → Text) (prefixes : Prefixes)

def laneMarker (laneKey : Text) : Except RecordError Text :=
  (composeCommentMarker repr prefixes runStatePurpose laneKey none).mapError .marker

def renderLaneRecord (record : LaneRunState) : Except RecordError Text := do
  let marker ← laneMarker repr prefixes record.laneKey.val.toList
  (markedCommentBody marker (laneRecordBody record)).mapError .marker

def parseLaneRecord (body : Text) (laneKey : NonemptyStr) : Except RecordError LaneRunState := do
  let marker ← laneMarker repr prefixes laneKey.val.toList
  let opening := marker ++ '\n' :: fenceOpen
  match ((reentrySection :: previousReentrySections).map framed).find? (· <:+ body) with
  | none => .error (.valueError "the record framing or fixed re-entry section is invalid")
  | some closing =>
    if ¬ opening <+: body then .error (.valueError "the record framing or fixed re-entry section is invalid")
    else
      let payload := (body.take (body.length - closing.length)).drop opening.length
      match (loads payload).bind laneRunState.decode with
      | none => .error (.valueError "the payload is no lane record")
      | some record =>
        if record.laneKey ≠ laneKey then .error (.valueError "the record lane does not match its configured marker")
        else .ok record

/-- A body read under a marker, closed by one of some texts. -/
def parseWith (closings : List Text) (marker body : Text) (laneKey : NonemptyStr) : Except RecordError LaneRunState :=
  let opening := marker ++ '\n' :: fenceOpen
  match closings.find? (· <:+ body) with
  | none => .error (.valueError "the record framing or fixed re-entry section is invalid")
  | some closing =>
    if ¬ opening <+: body then .error (.valueError "the record framing or fixed re-entry section is invalid")
    else
      let payload := (body.take (body.length - closing.length)).drop opening.length
      match (loads payload).bind laneRunState.decode with
      | none => .error (.valueError "the payload is no lane record")
      | some record =>
        if record.laneKey ≠ laneKey then .error (.valueError "the record lane does not match its configured marker")
        else .ok record

variable {repr : Text → Text} {prefixes : Prefixes} {marker body : Text} {laneKey : NonemptyStr}

theorem parseMarked (composed : laneMarker repr prefixes laneKey.val.toList = .ok marker) :
    parseLaneRecord repr prefixes body laneKey =
      parseWith ((reentrySection :: previousReentrySections).map framed) marker body laneKey := by
  have whole : parseLaneRecord repr prefixes body laneKey = laneMarker repr prefixes laneKey.val.toList >>= fun marker =>
      parseWith ((reentrySection :: previousReentrySections).map framed) marker body laneKey := by
    rw [parseLaneRecord]
    refine congrArg (laneMarker repr prefixes laneKey.val.toList >>= ·) (funext fun marker => ?_)
    rw [parseWith]
  have found (next : Text → Except RecordError LaneRunState) : (Except.ok marker >>= next) = next marker := rfl
  rw [whole, composed, found]

end Comments

end Kodezart.LaneRecord
