import Mathlib
import Kodezart.Machine
import Kodezart.Gating

/-! Outbound admission: credentials and declared aggregates first, then the reference scan
and the judgment, one verdict over every hit, and the memo of decisions already made. -/
namespace Kodezart.Outbound
open Spans Machine

/-- One outbound write, as its writer declares it. -/
structure Payload where
  content : String
  visibility : RepoVisibility
  shape : WriterShape
  destination : OutboundDestination
  contentClass : ContentClass
  aggregates : List TrackerAggregate
  deriving DecidableEq, Repr

structure CredentialShape where
  vendor : String
  pattern : String
  deriving DecidableEq, Repr

def credentialShapes : List CredentialShape :=
  [⟨"github", "(https?://x-access-token:)[^@\\s/]+(@)"⟩, ⟨"github", "\\bgh[posu]_[A-Za-z0-9]\x7b36,\x7d"⟩,
    ⟨"github", "\\bgithub_pat_[A-Za-z0-9_]\x7b20,\x7d"⟩, ⟨"notion", "\\b(?:ntn_|secret_)[A-Za-z0-9]\x7b40,\x7d"⟩,
    ⟨"linear", "\\blin_(?:api|oauth)_[A-Za-z0-9]\x7b40,\x7d"⟩, ⟨"anthropic", "\\bsk-ant-[A-Za-z0-9_-]\x7b20,\x7d"⟩]

def placeholder (category : ScanCategory) : List Char := ("[REDACTED:" ++ category.value ++ "]").toList

def memoBound : Nat := 4096

/-- A hit's verdict: its category's, where there is a span to replace and prose to hold it. -/
def declared (shape : WriterShape) (hit : ScanHit) : GateVerdict :=
  if shape = .identifier ∨ hit.hasSpan = false then .blocked else hit.category.verdict

/-- Every hit's verdict, the most severe. -/
def fold (shape : WriterShape) (hits : List ScanHit) : GateVerdict :=
  hits.foldl (fun verdict hit => maxVerdict verdict (declared shape hit)) .clean

/-- Each matched span replaced by its category's placeholder. -/
def redactFrom (content : List Char) (cursor : Nat) : List ScanHit → List Char
  | [] => content.drop cursor
  | hit :: hits =>
    match hit.span with
    | none => redactFrom content cursor hits
    | some span =>
      if span.start < cursor then redactFrom content (max cursor span.stop) hits
      else (content.take span.start).drop cursor ++ placeholder hit.category ++ redactFrom content span.stop hits

def redact (content : String) (hits : List ScanHit) : String := String.ofList (redactFrom content.toList 0 hits)

def failed (failure : ScanFailureKind) : GateDecision := ⟨.blocked, "", [], [], some failure⟩

section Admission
variable (finditer : String → String → List (Nat × Nat)) (digest : String → String) (fragmentDigest : String)

/-- Matches of the one credential table, each of at least a character. -/
def credentialHits (content : String) : List ScanHit :=
  credentialShapes.flatMap fun shape => (finditer shape.pattern content).filterMap fun found =>
    if found.1 < found.2 then
      some ⟨.redaction .credentials, some found.1, some found.2, none, none, none, by simp⟩
    else none

def judged (payload : Payload) : Bool :=
  (payload.contentClass = .authored || payload.destination = .branchName) &&
    (durabilityOf payload.destination = .durable || surfaceOf payload.destination ≠ .repository)

/-- Every hit of the scanners that were asked, or the failure of one of them. -/
def found (payload : Payload) (references judgment : ScanResult) : Except ScanFailureKind (List ScanHit) :=
  let hits := credentialHits finditer payload.content ++ aggregateHits payload.aggregates payload.destination
  if hits ≠ [] then .ok hits
  else match references.failure with
    | some failure => .error failure
    | none =>
      if fold payload.shape references.hits ≠ .blocked && judged payload then
        match judgment.failure with
        | some failure => .error failure
        | none => .ok (references.hits ++ judgment.hits)
      else .ok references.hits

/-- The decision over one payload's hits, where every scanner asked had answered. -/
def settle (payload : Payload) (hits : List ScanHit) : GateDecision :=
  if hits = [] then ⟨.clean, payload.content, [], [], none⟩
  else
    let hits := sortBy ScanHit.sortKey hits
    let verdict := fold payload.shape hits
    let categories := (hits.map ScanHit.category).reverse.dedup.reverse
    if verdict = .blocked then ⟨verdict, "", categories, hits, none⟩
    else ⟨verdict, redact payload.content hits, categories, hits, none⟩

def decision (payload : Payload) (references judgment : ScanResult) : GateDecision :=
  match found finditer payload references judgment with
  | .error failure => failed failure
  | .ok hits => settle payload hits

/-- What a decision is remembered under. -/
structure MemoKey where
  content : String
  destination : OutboundDestination
  fragment : String
  contentClass : ContentClass
  shape : WriterShape
  aggregates : List TrackerAggregate
  deriving DecidableEq, Repr

def memoKey (payload : Payload) : MemoKey :=
  ⟨digest payload.content, payload.destination, fragmentDigest, payload.contentClass, payload.shape, payload.aggregates⟩

/-- The decisions kept, oldest first, and the payloads being scanned. -/
structure Admission where
  memo : Dict MemoKey GateDecision
  underWay : List Payload

def Admission.new : Admission := ⟨[], []⟩

/-- What a call answers without a scan. -/
def Admission.answer (admission : Admission) (payload : Payload) : Option GateDecision :=
  if payload.visibility = .privateRepo then some ⟨.clean, payload.content, [], [], none⟩
  else admission.memo.get? (memoKey digest fragmentDigest payload)

def remembered (memo : Dict MemoKey GateDecision) (key : MemoKey) (decision : GateDecision) : Dict MemoKey GateDecision :=
  let memo := memo.set key decision
  if memoBound < memo.length then memo.tail else memo

inductive Event where
  | called (payload : Payload)
  | scanned (payload : Payload) (references judgment : ScanResult)

/-- One call's step between awaits: up to its scan, or from what the scanners answered. -/
def Admission.next (admission : Admission) : Event → Option Admission
  | .called payload =>
    match admission.answer digest fragmentDigest payload with
    | some _ => some admission
    | none => some { admission with underWay := payload :: admission.underWay }
  | .scanned payload references judgment =>
    if payload ∈ admission.underWay then
      let decided := decision finditer payload references judgment
      some {
        memo := if decided.failure = none then remembered admission.memo (memoKey digest fragmentDigest payload) decided
          else admission.memo
        underWay := admission.underWay.erase payload }
    else none

end Admission

section Verdict
variable {shape : WriterShape} {hits : List ScanHit}

/-- Whether a hit leaves nothing to write. -/
def Blocks (shape : WriterShape) (hit : ScanHit) : Prop :=
  shape = .identifier ∨ hit.hasSpan = false ∨ hit.category.verdict = .blocked

theorem maxBlocked (left right : GateVerdict) : maxVerdict left right = .blocked ↔ left = .blocked ∨ right = .blocked := by
  cases left <;> cases right <;> decide

theorem maxClean (left right : GateVerdict) : maxVerdict left right = .clean ↔ left = .clean ∧ right = .clean := by
  cases left <;> cases right <;> decide

theorem declaredBlocked (shape : WriterShape) (hit : ScanHit) : declared shape hit = .blocked ↔ Blocks shape hit := by
  unfold declared Blocks
  split
  · rename_i spanless
    simp only [true_iff]
    exact spanless.imp_right Or.inl
  · rename_i spans
    obtain ⟨prose, spans⟩ := not_or.mp spans
    simp [prose, spans]

theorem declaredUnclean (shape : WriterShape) (hit : ScanHit) : declared shape hit ≠ .clean := by
  unfold declared
  split
  · decide
  · cases hit.category with
    | redaction category => cases category <;> decide
    | durability category => cases category <;> decide

theorem foldBlocked : fold shape hits = .blocked ↔ ∃ hit ∈ hits, Blocks shape hit := by
  have general : ∀ verdict, hits.foldl (fun verdict hit => maxVerdict verdict (declared shape hit)) verdict = .blocked ↔
      verdict = .blocked ∨ ∃ hit ∈ hits, Blocks shape hit := by
    induction hits with
    | nil => simp
    | cons hit hits ih =>
      intro verdict
      rw [List.foldl_cons, ih, maxBlocked, declaredBlocked]
      simp only [List.mem_cons, exists_eq_or_imp]
      tauto
  exact (general .clean).trans (by simp)

theorem foldClean : fold shape hits = .clean ↔ hits = [] := by
  have general : ∀ verdict, hits.foldl (fun verdict hit => maxVerdict verdict (declared shape hit)) verdict = .clean ↔
      verdict = .clean ∧ hits = [] := by
    induction hits with
    | nil => simp
    | cons hit hits ih =>
      intro verdict
      rw [List.foldl_cons, ih, maxClean]
      simp [declaredUnclean]
  exact (general .clean).trans (by simp)

end Verdict

section Redaction
variable {hits : List ScanHit}

def spansOf (hits : List ScanHit) : List (Span ScanCategory) := hits.filterMap ScanHit.span

theorem redactSweeps (content : List Char) (hits : List ScanHit) (cursor : Nat) :
    redactFrom content cursor hits = sweep content placeholder cursor (spansOf hits) := by
  induction hits generalizing cursor with
  | nil => rfl
  | cons hit hits ih =>
    rw [redactFrom]
    split
    · rename_i spanless
      rw [ih, spansOf, spansOf, List.filterMap_cons_none spanless]
    · rename_i span found
      have cut : spansOf (hit :: hits) = span :: spansOf hits := by rw [spansOf, List.filterMap_cons_some found]; rfl
      rw [cut, sweep, ih, ih, (spanLabel found).2.2]

theorem spansOrdered (hits : List ScanHit) :
    (spansOf (sortBy ScanHit.sortKey hits)).Pairwise fun a b => a.start ≤ b.start := by
  refine List.Pairwise.filterMap _ (fun hit later le span found span' found' => ?_) (sortByOrdered ScanHit.sortKey hits)
  obtain ⟨start, stop, -⟩ := spanLabel found
  obtain ⟨start', stop', -⟩ := spanLabel found'
  simp only [ScanHit.sortKey, start, stop, start', stop', Prod.Lex.le_iff, ofLex_toLex] at le
  rcases le with less | ⟨same, -⟩
  · exact_mod_cast less.le
  · exact_mod_cast same.le

/-- Each maximal union of overlapping spans gives way to one placeholder, and what no span
covers is what is left of the text. -/
theorem redactUnions (content : String) (hits : List ScanHit) :
    ∃ regions, Unions (spansOf hits) regions ∧
      (redact content (sortBy ScanHit.sortKey hits)).toList = render placeholder (pieces content.toList 0 regions) ∧
      render (fun _ => []) (pieces content.toList 0 regions) = outside content.toList (spansOf hits) := by
  have same : ∀ span, span ∈ spansOf (sortBy ScanHit.sortKey hits) ↔ span ∈ spansOf hits := by
    intro span
    simp [spansOf, List.mem_filterMap]
  have merged := unionsCongr same (unionsSound (spansOrdered hits))
  exact ⟨_, merged, by rw [redact, String.toList_ofList, redactSweeps, sweepUnions], unionsOutside merged⟩

end Redaction
section Told
variable (finditer : String → String → List (Nat × Nat)) {digest : String → String} {fragmentDigest : String}
  {payload payload' : Payload} {references judgment : ScanResult} {hits : List ScanHit}

theorem aggregateBlocks (shape : WriterShape) (aggregates : List TrackerAggregate) (destination : OutboundDestination) :
    ∀ hit ∈ aggregateHits aggregates destination, Blocks shape hit := by
  intro hit member
  refine Or.inr (Or.inl ?_)
  unfold aggregateHits at member
  split at member
  · cases member
  · obtain ⟨aggregate, -, made⟩ := List.mem_filterMap.mp member
    cases aggregate with
    | count field value =>
      cases made
      rfl
    | roster field identities =>
      simp only at made
      split at made
      · cases made
        rfl
      · cases made

theorem credentialBlocks (shape : WriterShape) (content : String) :
    ∀ hit ∈ credentialHits finditer content, Blocks shape hit := by
  intro hit member
  refine Or.inr (Or.inr ?_)
  obtain ⟨row, -, member⟩ := List.mem_flatMap.mp member
  obtain ⟨found, -, made⟩ := List.mem_filterMap.mp member
  split at made
  · cases made
    rfl
  · cases made

/-- What a decision over hits, or over a failed scan, owes to them. -/
def Told (payload : Payload) (scanned : Except ScanFailureKind (List ScanHit)) (decided : GateDecision) : Prop :=
  match scanned with
  | .error failure => decided.verdict = .blocked ∧ decided.content = "" ∧ decided.failure = some failure
  | .ok hits =>
    ((∃ hit ∈ hits, Blocks payload.shape hit) → decided.verdict = .blocked ∧ decided.content = "") ∧
    (hits ≠ [] → (∀ hit ∈ hits, ¬ Blocks payload.shape hit) → decided.verdict = .redacted ∧
      ∃ regions, Unions (spansOf hits) regions ∧
        decided.content.toList = render placeholder (pieces payload.content.toList 0 regions) ∧
        render (fun _ => []) (pieces payload.content.toList 0 regions) = outside payload.content.toList (spansOf hits)) ∧
    (hits = [] → decided.verdict = .clean) ∧
    (decided.verdict = .clean → hits = [] ∧ decided.content = payload.content)

theorem settleTold (payload : Payload) (hits : List ScanHit) : Told payload (.ok hits) (settle payload hits) := by
  have sorted : ∀ {P : ScanHit → Prop}, (∃ hit ∈ sortBy ScanHit.sortKey hits, P hit) ↔ ∃ hit ∈ hits, P hit := by
    simp
  simp only [settle]
  split
  · rename_i none
    subst none
    exact ⟨by simp, by simp, by simp, by simp⟩
  · rename_i some
    have nonempty : sortBy ScanHit.sortKey hits ≠ [] := fun empty =>
      some (List.Perm.eq_nil (empty ▸ (sortByPerm ScanHit.sortKey hits).symm))
    split
    · rename_i blocked
      have blocks := sorted.mp (foldBlocked.mp blocked)
      refine ⟨fun _ => ⟨blocked, rfl⟩, fun _ clear => ?_, fun none => absurd none some, fun clean => ?_⟩
      · obtain ⟨hit, member, blocks⟩ := blocks
        exact absurd blocks (clear hit member)
      · cases blocked.symm.trans clean
    · rename_i writes
      have unclean : fold payload.shape (sortBy ScanHit.sortKey hits) ≠ .clean := fun clean => nonempty (foldClean.mp clean)
      refine ⟨fun blocks => absurd (foldBlocked.mpr (sorted.mpr blocks)) writes, fun _ _ => ⟨?_, ?_⟩,
        fun none => absurd none some, fun clean => absurd clean unclean⟩
      · cases verdict : fold payload.shape (sortBy ScanHit.sortKey hits) with
        | clean => exact absurd verdict unclean
        | redacted => rfl
        | blocked => exact absurd verdict writes
      · exact redactUnions payload.content hits

theorem decisionTold (payload : Payload) (references judgment : ScanResult) :
    Told payload (found finditer payload references judgment) (decision finditer payload references judgment) := by
  unfold decision
  cases found finditer payload references judgment with
  | error failure => exact ⟨rfl, rfl, rfl⟩
  | ok hits => exact settleTold payload hits

/-- A reference scan that failed leaves nothing to write, whatever else was found. -/
theorem failedReferences (failed : references.failure.isSome) :
    (decision finditer payload references judgment).verdict = .blocked ∧
      (decision finditer payload references judgment).content = "" := by
  have told := decisionTold finditer payload references judgment
  obtain ⟨failure, answer⟩ := Option.isSome_iff_exists.mp failed
  by_cases locals : credentialHits finditer payload.content ++ aggregateHits payload.aggregates payload.destination = []
  · have scanned : found finditer payload references judgment = .error failure := by simp [found, locals, answer]
    rw [scanned] at told
    exact ⟨told.1, told.2.1⟩
  · have scanned : found finditer payload references judgment =
        .ok (credentialHits finditer payload.content ++ aggregateHits payload.aggregates payload.destination) := by
      rw [found, if_pos locals]
    rw [scanned] at told
    obtain ⟨hit, member⟩ := List.exists_mem_of_ne_nil _ locals
    refine told.1 ⟨hit, member, ?_⟩
    rcases List.mem_append.mp member with credential | aggregate
    · exact credentialBlocks finditer payload.shape payload.content hit credential
    · exact aggregateBlocks payload.shape payload.aggregates payload.destination hit aggregate

/-- A judgment that was asked and failed leaves nothing to write. -/
theorem failedJudgment (locals : credentialHits finditer payload.content ++
      aggregateHits payload.aggregates payload.destination = []) (answered : references.failure = none)
    (asked : fold payload.shape references.hits ≠ .blocked ∧ judged payload = true) (failed : judgment.failure.isSome) :
    (decision finditer payload references judgment).verdict = .blocked ∧
      (decision finditer payload references judgment).content = "" := by
  have told := decisionTold finditer payload references judgment
  obtain ⟨failure, answer⟩ := Option.isSome_iff_exists.mp failed
  have scanned : found finditer payload references judgment = .error failure := by
    simp [found, locals, answered, asked, answer]
  rw [scanned] at told
  exact ⟨told.1, told.2.1⟩

end Told
end Kodezart.Outbound
