import Mathlib
import Kodezart.Dict
import Kodezart.Spans

/-! Verdicts, categories and surfaces of an outbound write, and the findings a scanner
may answer with. -/
namespace Kodezart.Outbound
open Spans

inductive RepoVisibility where
  | privateRepo | publicRepo | unknown
  deriving DecidableEq, Repr

inductive GateVerdict where
  | clean | redacted | blocked
  deriving DecidableEq, Repr

inductive SurfaceDurability where
  | durable | pointInTime
  deriving DecidableEq, Repr

def GateVerdict.severity : GateVerdict → Nat
  | .clean => 0
  | .redacted => 1
  | .blocked => 2

def maxVerdict (left right : GateVerdict) : GateVerdict := if right.severity ≤ left.severity then left else right

inductive RedactionCategory where
  | crossRepoNames | trackerUrls | emailHandles | infraEndpoints | credentials | orgPrivate
  deriving DecidableEq, Repr

def trackerRosterMinReferences : Nat := 3

inductive DurabilityCategory where
  | objectCount | identifierRoster
  deriving DecidableEq, Repr

inductive TrackerAggregate where
  | count (field : String) (value : Nat)
  | roster (field : String) (identities : List String)
  deriving DecidableEq, Repr

inductive ScanCategory where
  | redaction (category : RedactionCategory)
  | durability (category : DurabilityCategory)
  deriving DecidableEq, Repr

def ScanCategory.value : ScanCategory → String
  | .redaction .crossRepoNames => "cross_repo_names"
  | .redaction .trackerUrls => "tracker_urls"
  | .redaction .emailHandles => "email_handles"
  | .redaction .infraEndpoints => "infra_endpoints"
  | .redaction .credentials => "credentials"
  | .redaction .orgPrivate => "org_private"
  | .durability .objectCount => "object_count"
  | .durability .identifierRoster => "identifier_roster"

def redactionVerdicts : RedactionCategory → GateVerdict
  | .crossRepoNames | .trackerUrls | .emailHandles | .orgPrivate => .redacted
  | .infraEndpoints | .credentials => .blocked

/-- What a category's finding makes of a payload, unless it has no span or no prose to stand in. -/
def ScanCategory.verdict : ScanCategory → GateVerdict
  | .redaction category => redactionVerdicts category
  | .durability _ => .blocked

inductive WriterShape where
  | prose | identifier
  deriving DecidableEq, Repr

inductive OutboundSurface where
  | publication | repository | tracker
  deriving DecidableEq, Repr

inductive OutboundDestination where
  | branchName | commitMessage | commitMessageDivergenceReplay | prTitle | prBody | prComment | artifactTicketJson
  | artifactCriteriaJson | trackerComment | trackerStatusUpdate | trackerDescription | trackerTitle
  | trackerClassification
  deriving DecidableEq, Repr

def surfaceOf : OutboundDestination → OutboundSurface
  | .branchName | .prTitle | .prBody | .prComment => .publication
  | .commitMessage | .commitMessageDivergenceReplay | .artifactTicketJson | .artifactCriteriaJson => .repository
  | .trackerComment | .trackerStatusUpdate | .trackerDescription | .trackerTitle | .trackerClassification => .tracker

def durabilityOf : OutboundDestination → SurfaceDurability
  | .prComment | .commitMessage | .commitMessageDivergenceReplay | .trackerComment | .trackerStatusUpdate => .pointInTime
  | .branchName | .prTitle | .prBody | .artifactTicketJson | .artifactCriteriaJson | .trackerDescription | .trackerTitle
  | .trackerClassification => .durable

inductive ContentClass where
  | derived | authored
  deriving DecidableEq, Repr

inductive ScanFailureKind where
  | timeout | refusal | malformedVerdict | rateLimited | transportError | executionError | emptyResponse
  | spansUnresolvable | budgetExhausted | notConfigured
  deriving DecidableEq, Repr

/-- One finding, with its span of the payload's characters if it has one. -/
structure ScanHit where
  category : ScanCategory
  start : Option Nat
  stop : Option Nat
  rationale : Option String
  matchedText : Option String
  source : Option TrackerAggregate
  structured : source.isSome → start = none ∧ stop = none ∧ matchedText = none
  deriving DecidableEq, Repr

/-- The nonempty span a hit localizes to. -/
def ScanHit.span (hit : ScanHit) : Option (Span ScanCategory) :=
  match hit.start, hit.stop with
  | some start, some stop => if nonempty : start < stop then some ⟨start, stop, hit.category, nonempty⟩ else none
  | _, _ => none

def ScanHit.hasSpan (hit : ScanHit) : Bool :=
  match hit.start, hit.stop with
  | some start, some stop => start < stop
  | _, _ => false

/-- Payload order, span-less hits first. -/
def ScanHit.sortKey (hit : ScanHit) : Int ×ₗ Int :=
  match hit.start, hit.stop with
  | some start, some stop => toLex ((start : Int), (stop : Int))
  | _, _ => toLex (-1, -1)

/-- What one scanner returns: hits or a failure. -/
structure ScanResult where
  hits : List ScanHit
  failure : Option ScanFailureKind
  exclusive : failure.isSome → hits = []
  deriving DecidableEq, Repr

structure GateDecision where
  verdict : GateVerdict
  content : String
  categories : List ScanCategory
  hits : List ScanHit
  failure : Option ScanFailureKind
  deriving DecidableEq, Repr

def countRationale : String :=
  "a count of tracker objects is read as current on a durable surface, so it goes stale in place"

def rosterRationale : String :=
  "a roster of 3 or more distinct tracker identities is read as current on a durable surface, so it goes stale in place"

def aggregateHit (category : DurabilityCategory) (rationale : String) (source : TrackerAggregate) : ScanHit :=
  ⟨.durability category, none, none, some rationale, none, some source, fun _ => ⟨rfl, rfl, rfl⟩⟩

/-- The durable-write rule over declared tracker values. -/
def aggregateHits (aggregates : List TrackerAggregate) (destination : OutboundDestination) : List ScanHit :=
  if durabilityOf destination ≠ .durable then []
  else aggregates.filterMap fun aggregate =>
    match aggregate with
    | .count _ _ => some (aggregateHit .objectCount countRationale aggregate)
    | .roster _ identities =>
      if trackerRosterMinReferences ≤ identities.dedup.length then
        some (aggregateHit .identifierRoster rosterRationale aggregate)
      else none

section Hits
variable {hit : ScanHit}

theorem spanSome : hit.span.isSome = hit.hasSpan := by
  unfold ScanHit.span ScanHit.hasSpan
  split
  · split <;> simp_all
  · rfl

theorem spanLabel {span : Span ScanCategory} (found : hit.span = some span) :
    hit.start = some span.start ∧ hit.stop = some span.stop ∧ span.label = hit.category := by
  unfold ScanHit.span at found
  split at found
  · rename_i start stop starts stops
    split at found
    · cases found
      exact ⟨starts, stops, rfl⟩
    · cases found
  · cases found

end Hits
end Kodezart.Outbound
