import Kodezart.CommitGraph
import Kodezart.Exchanges

/-! The branch merger: a source branch is consolidated into a feature branch by a fast-forward. The
worktrees and the git steps are requests, any of which may fail or be cancelled. -/
namespace Kodezart.Merging
open Prog (raise attempt ensuring)

inductive ConsolidationStatus where
  | alreadyIntegrated | fastForwarded | divergent | sourceMissing
  deriving DecidableEq, Repr

structure ConsolidationOutcome where
  status : ConsolidationStatus
  featureTipSha : String
  deriving DecidableEq, Repr

inductive Raised where
  | step (message : String)
  | runtime (message : String)
  | cancelled
  deriving DecidableEq, Repr

/-- The revisions the merger names: `HEAD`, and `<remote>/<branch>`. -/
inductive Rev where
  | head
  | tracking (branch : String)
  deriving DecidableEq, Repr

inductive Call where
  | acquire (ref : String) (branchName : Option String)
  | release
  | fetch
  | currentSha
  | isAncestor (ancestor descendant : Rev)
  | mergeBranch (source : Rev)
  | push (branch : String)
  | remoteBranchSha (branch : String)
  | deleteRemoteBranch (branch : String)
  | listRemoteBranches (start : String)
  deriving DecidableEq, Repr

abbrev Reply : Call → Type
  | .acquire _ _ => Unit
  | .release => Unit
  | .fetch => Unit
  | .currentSha => String
  | .isAncestor _ _ => Bool
  | .mergeBranch _ => Unit
  | .push _ => Unit
  | .remoteBranchSha _ => Option String
  | .deleteRemoteBranch _ => Unit
  | .listRemoteBranches _ => List String

abbrev Merges := Prog Call Reply Raised

def ask (call : Call) : Merges (Reply call) := Prog.request call

/-- One consolidation; `reprFeature` and `reprBase` are the branches as `!r` writes them. -/
structure Consolidation where
  remote : String
  baseBranch : String
  featureBranch : String
  sourceBranch : String
  reprFeature : String
  reprBase : String
  deriving DecidableEq, Repr

/-- A transient workspace on HEAD, used to ask the remote. -/
def workspaceRemoteBranchSha (branch : String) : Merges (Option String) := do
  ask (.acquire "HEAD" none)
  ensuring (ask (.remoteBranchSha branch)) (ask .release)

def featureTip (c : Consolidation) : Merges String := do
  match ← ask (.remoteBranchSha c.featureBranch) with
  | some tip => return tip
  | none =>
    match ← ask (.remoteBranchSha c.baseBranch) with
    | some tip => return tip
    | none => raise (.runtime ("SOURCE_MISSING fallback failed: neither " ++ c.reprFeature ++ " nor " ++ c.reprBase ++
        " present on " ++ c.remote))

def resolveFeatureTipOrRaise (c : Consolidation) : Merges String := do
  ask (.acquire "HEAD" none)
  ensuring (featureTip c) (ask .release)

def cleanupSource (branch mergedSha : String) : Merges Unit := do
  match ← ask (.remoteBranchSha branch) with
  | none => return ()
  | some remoteSha => if remoteSha = mergedSha then ask (.deleteRemoteBranch branch) else return ()

/-- A cleanup logs what goes wrong and does not raise; a cancellation passes through. -/
def settle : Except Raised Unit → Merges Unit
  | .error .cancelled => raise .cancelled
  | _ => return ()

def cleanupSourceInternal (branch mergedSha : String) : Merges Unit := attempt (cleanupSource branch mergedSha) >>= settle

def fastForward (c : Consolidation) : Merges ConsolidationOutcome := do
  ask (.mergeBranch (.tracking c.sourceBranch))
  ask (.push c.featureBranch)
  let newHead ← ask .currentSha
  cleanupSourceInternal c.sourceBranch newHead
  return ⟨.fastForwarded, newHead⟩

def integrate (c : Consolidation) : Merges ConsolidationOutcome := do
  ask .fetch
  let headSha ← ask .currentSha
  if ← ask (.isAncestor (.tracking c.sourceBranch) .head) then return ⟨.alreadyIntegrated, headSha⟩
  else if ← ask (.isAncestor .head (.tracking c.sourceBranch)) then fastForward c
  else return ⟨.divergent, headSha⟩

def consolidate (c : Consolidation) : Merges ConsolidationOutcome := do
  match ← workspaceRemoteBranchSha c.sourceBranch with
  | none => do
    let tip ← resolveFeatureTipOrRaise c
    return ⟨.sourceMissing, tip⟩
  | some _ => do
    ask (.acquire c.baseBranch (some c.featureBranch))
    ensuring (integrate c) (ask .release)

def isBackup (branchName : String) : Bool := decide ("-backup-".toList <:+: branchName.toList)

def deleteEach : List String → Merges Unit
  | [] => return ()
  | branch :: rest => do
    ask (.deleteRemoteBranch branch)
    deleteEach rest

def deleteBackups (start : String) : Merges Unit := do
  let allBranches ← ask (.listRemoteBranches start)
  deleteEach (allBranches.filter isBackup)

def cleanupBackups (start : String) : Merges Unit := do
  ask (.acquire "HEAD" none)
  ensuring (deleteBackups start) (ask .release)

def cleanupBackupBranches (start : String) : Merges Unit := attempt (cleanupBackups start) >>= settle

end Kodezart.Merging
