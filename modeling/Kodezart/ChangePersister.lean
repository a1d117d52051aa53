import Kodezart.CommitGraph
import Kodezart.Exchanges

/-! The change persister: the canonical ref is made to equal the workspace's HEAD. Every git step,
the model call and the gate are requests, any of which may fail or be cancelled. -/
namespace Kodezart.Persist
open CommitGraph
open Prog (raise attempt)

inductive PersistSource where
  | workingTreeCommit | agentDirectCommit | divergenceReplay
  deriving DecidableEq, Repr

structure PersistResult where
  commitSha : String
  branch : String
  message : String
  source : PersistSource
  recoveryRef : Option String := none
  deriving DecidableEq, Repr

structure CommitMessageOutput where
  title : String
  body : String
  deriving DecidableEq, Repr

inductive Raised where
  | git (message : String)
  | nativeWriteRefusal (message : String)
  | runtime (message : String)
  | softFailure (message : String)
  | gate (message : String)
  | cancelled
  deriving DecidableEq, Repr

inductive Destination where
  | commitMessage | commitMessageDivergenceReplay
  deriving DecidableEq, Repr

inductive Call where
  | beforeCommit
  | beforePublish (sha : String)
  | hasChanges
  | currentSha
  | remoteBranchSha (branch : String)
  | isAncestor (ancestor descendant : String)
  | headCommitMessage
  | push (branch : String)
  | generateCommitMessage
  | addAll
  | gatedMessage (message : String) (destination : Destination)
  | commit (message : String)
  | treeOf (sha : String)
  | resetHard (sha : String)
  | commitTree (tree parent message : String)
  deriving DecidableEq, Repr

abbrev Reply : Call → Type
  | .beforeCommit => Unit
  | .beforePublish _ => Unit
  | .hasChanges => Bool
  | .currentSha => String
  | .remoteBranchSha _ => Option String
  | .isAncestor _ _ => Bool
  | .headCommitMessage => String
  | .push _ => Unit
  | .generateCommitMessage => CommitMessageOutput
  | .addAll => Unit
  | .gatedMessage _ _ => String
  | .commit _ => String
  | .treeOf _ => String
  | .resetHard _ => Unit
  | .commitTree _ _ _ => String

abbrev Persists := Prog Call Reply Raised

def ask (call : Call) : Persists (Reply call) := Prog.request call

structure GitChangePersister where
  remote : String
  deriving Repr

/-- One `persist` call: its branch, the backup's identifier, and whether a guard was given for
committing and for publishing. -/
structure Persistence where
  branch : String
  backupRefIdPrefix : String
  guardsCommit : Bool
  guardsPublish : Bool
  deriving Repr

/-- `{source_branch}-backup-{workspace_id_prefix}`. -/
def backupBranchName (sourceBranch workspaceIdPrefix : String) : String := sourceBranch ++ "-backup-" ++ workspaceIdPrefix

def beforeCommit (p : Persistence) : Persists Unit := if p.guardsCommit then ask .beforeCommit else pure ()

def beforePublish (p : Persistence) (sha : String) : Persists Unit :=
  if p.guardsPublish then ask (.beforePublish sha) else pure ()

def persistDirty (p : Persistence) : Persists PersistResult := do
  let commitMsg ← ask .generateCommitMessage
  ask .addAll
  let fullMessage := if commitMsg.body = "" then commitMsg.title else commitMsg.title ++ "\n\n" ++ commitMsg.body
  let fullMessage ← ask (.gatedMessage fullMessage .commitMessage)
  beforeCommit p
  let sha ← ask (.commit fullMessage)
  beforePublish p sha
  ask (.push p.branch)
  return { commitSha := sha, branch := p.branch, message := fullMessage, source := .workingTreeCommit }

def backupRefused (g : GitChangePersister) (p : Persistence) (headSha remoteTip : String) : String :=
  "Workspace HEAD (" ++ headSha ++ ") has diverged from " ++ g.remote ++ "/" ++ p.branch ++ " (" ++ remoteTip ++
    "); backup push to " ++ backupBranchName p.branch p.backupRefIdPrefix ++ " failed — no state mutated"

/-- What follows the backup: the reset, and the replay where the trees differ. -/
def replay (p : Persistence) (headSha remoteTip : String) : Persists PersistResult := do
  let backupName := backupBranchName p.branch p.backupRefIdPrefix
  let headMessage ← ask .headCommitMessage
  let headMessageDivergent ← ask (.gatedMessage headMessage .commitMessageDivergenceReplay)
  let headTree ← ask (.treeOf headSha)
  ask (.resetHard remoteTip)
  let remoteTipTree ← ask (.treeOf remoteTip)
  if headTree = remoteTipTree then do
    let remoteTipMessage ← ask .headCommitMessage
    return { commitSha := remoteTip, branch := p.branch, message := remoteTipMessage, source := .divergenceReplay,
             recoveryRef := some backupName }
  else do
    let replaySha ← ask (.commitTree headTree remoteTip headMessageDivergent)
    ask (.resetHard replaySha)
    ask (.push p.branch)
    return { commitSha := replaySha, branch := p.branch, message := headMessageDivergent, source := .divergenceReplay,
             recoveryRef := some backupName }

def recoverFromDivergence (g : GitChangePersister) (p : Persistence) (headSha remoteTip : String) : Persists PersistResult := do
  match ← attempt (ask (.push (backupBranchName p.branch p.backupRefIdPrefix))) with
  | .ok () => replay p headSha remoteTip
  -- a cancellation is no `Exception`, and passes through
  | .error .cancelled => raise .cancelled
  | .error _ => raise (.runtime (backupRefused g p headSha remoteTip))

/-- `remote_tip is None or is_ancestor(...)`. -/
def descends (remoteTip : Option String) (headSha : String) : Persists Bool :=
  match remoteTip with
  | none => pure true
  | some tip => ask (.isAncestor tip headSha)

def persistClean (g : GitChangePersister) (p : Persistence) : Persists (Option PersistResult) := do
  let headSha ← ask .currentSha
  let remoteTip ← ask (.remoteBranchSha p.branch)
  if remoteTip = some headSha then return none
  else do
    let headDescendsFromRemote ← descends remoteTip headSha
    if ¬ headDescendsFromRemote then
      if p.guardsCommit then raise (.nativeWriteRefusal "Guarded native persistence cannot recover a divergent branch")
      else
        match remoteTip with
        | none => raise (.runtime ("Internal invariant violated: divergence branch entered with no remote tip for " ++
            g.remote ++ "/" ++ p.branch))
        | some tip => some <$> recoverFromDivergence g p headSha tip
    else do
      let headMessage ← ask .headCommitMessage
      beforeCommit p
      beforePublish p headSha
      ask (.push p.branch)
      return some { commitSha := headSha, branch := p.branch, message := headMessage, source := .agentDirectCommit }

def persist (g : GitChangePersister) (p : Persistence) : Persists (Option PersistResult) := do
  beforeCommit p
  if ← ask .hasChanges then some <$> persistDirty p else persistClean g p

end Kodezart.Persist
