import Mathlib

/-! Ref naming conventions and the work-ref vocabulary. A field the source declares
with a least length of one is a nonempty string here, so no blank one can be built. -/
namespace Kodezart

abbrev NonemptyStr := {s : String // s ≠ ""}

theorem leadNonempty {lead : String} (rest : String) (some_text : lead ≠ "") : lead ++ rest ≠ "" := by
  simp [String.append_eq_empty_iff, some_text]

inductive WorkRefRole where
  | deliverable | iteration | recovery | bestIteration | integration
  deriving DecidableEq, Repr

inductive BranchRole where
  | deliverable | loop | recovery
  deriving DecidableEq, Repr

structure BranchAssociation where
  branch : NonemptyStr
  role : BranchRole
  derivedFrom : Option NonemptyStr
  runId : NonemptyStr
  deriving DecidableEq, Repr

structure BaseInput where
  blockerIssueId : NonemptyStr
  branch : NonemptyStr
  sha : NonemptyStr
  deriving DecidableEq, Repr

structure BaseSpec where
  inputs : List BaseInput
  baseBranch : NonemptyStr
  baseRole : Option WorkRefRole
  deriving DecidableEq, Repr

def integrationInfix : String := "-integration-"

structure IntegrationBranchName where
  issueId : NonemptyStr
  inputs : List BaseInput
  deriving DecidableEq, Repr

/-- The text the digest of an integration branch is taken over. -/
def digestText (inputs : List BaseInput) : String :=
  "\n".intercalate (inputs.map fun item =>
    item.blockerIssueId.val ++ "\t" ++ item.branch.val ++ "\t" ++ item.sha.val)

section Digest
variable (sha256 : String → String)

def IntegrationBranchName.digest (name : IntegrationBranchName) : String :=
  sha256 (digestText name.inputs)

def IntegrationBranchName.text (name : IntegrationBranchName) : String :=
  name.issueId.val ++ integrationInfix ++ name.digest sha256

theorem IntegrationBranchName.textNonempty (name : IntegrationBranchName) :
    name.text sha256 ≠ "" := by
  intro blank
  have sizes := congrArg String.length blank
  simp [text, integrationInfix, String.length_append] at sizes

end Digest
end Kodezart
