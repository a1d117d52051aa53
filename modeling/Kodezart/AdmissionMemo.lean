import Mathlib
import Kodezart.OutboundAdmission

/-! What the memo answers over any run of calls, however their scans overlap. -/
namespace Kodezart.Outbound
open Spans Machine

/-- Two writes that share a decision. -/
def Alike (payload other : Payload) : Prop :=
  payload.content = other.content ∧ payload.destination = other.destination ∧ payload.contentClass = other.contentClass ∧
    payload.shape = other.shape ∧ payload.aggregates = other.aggregates

section Memo
variable (finditer : String → String → List (Nat × Nat)) {digest : String → String} {fragmentDigest : String}
  {payload payload' : Payload} {references judgment : ScanResult} {memo : Dict MemoKey GateDecision} {key : MemoKey}
  {decided : GateDecision} {events : List Event} {admission : Admission}

theorem alikeDecision (alike : Alike payload payload') :
    decision finditer payload' references judgment = decision finditer payload references judgment := by
  obtain ⟨content, visibility, shape, destination, contentClass, aggregates⟩ := payload
  obtain ⟨content', visibility', shape', destination', contentClass', aggregates'⟩ := payload'
  obtain ⟨rfl, rfl, rfl, rfl, rfl⟩ := alike
  rfl

theorem alikeKey (digest : String → String) (fragmentDigest : String) (alike : Alike payload payload') :
    memoKey digest fragmentDigest payload' = memoKey digest fragmentDigest payload := by
  obtain ⟨content, destination, contentClass, shape, aggregates⟩ := alike
  simp [memoKey, content, destination, contentClass, shape, aggregates]

theorem rememberedGet (keyed : memo.keys.Nodup) {stored : MemoKey}
    (found : (remembered memo stored decided).get? key = some decided') :
    (memo.set stored decided).get? key = some decided' := by
  simp only [remembered] at found
  split at found
  · have unique := Dict.setNodup stored decided keyed
    cases entries : memo.set stored decided with
    | nil =>
      rw [entries] at found
      cases found
    | cons e rest =>
      rw [entries] at found unique
      obtain ⟨fresh, -⟩ := List.nodup_cons.mp unique
      have inside : key ∈ Dict.keys rest := (Dict.getSome _ _).mpr ⟨_, found⟩
      have different : e.1 ≠ key := by
        rintro rfl
        exact fresh inside
      simp only [Dict.get?, if_neg different]
      exact found
  · exact found

theorem rememberedKeyed (keyed : memo.keys.Nodup) (stored : MemoKey) (decided : GateDecision) :
    (remembered memo stored decided).keys.Nodup := by
  have unique := Dict.setNodup stored decided keyed
  simp only [remembered]
  split
  · exact ((List.tail_sublist _).map Prod.fst).nodup unique
  · exact unique

/-- The scan whose decision stands for a key: the last that every scanner asked had answered. -/
def Stands (digest : String → String) (fragmentDigest : String) (events : List Event) (key : MemoKey)
    (decided : GateDecision) : Prop :=
  ∃ before after payload references judgment, events = before ++ .scanned payload references judgment :: after ∧
    memoKey digest fragmentDigest payload = key ∧ decided = decision finditer payload references judgment ∧
    decided.failure = none ∧ ∀ payload references judgment, .scanned payload references judgment ∈ after →
      memoKey digest fragmentDigest payload = key → (decision finditer payload references judgment).failure ≠ none

variable {finditer}

theorem standsAfter {event : Event} (stands : Stands finditer digest fragmentDigest events key decided)
    (other : ∀ payload references judgment, event = .scanned payload references judgment →
      memoKey digest fragmentDigest payload = key → (decision finditer payload references judgment).failure ≠ none) :
    Stands finditer digest fragmentDigest (events ++ [event]) key decided := by
  obtain ⟨before, after, payload, references, judgment, same, here, made, answered, rest⟩ := stands
  refine ⟨before, after ++ [event], payload, references, judgment, by simp [same], here, made, answered,
    fun payload' references' judgment' member key' => ?_⟩
  rcases List.mem_append.mp member with old | new
  · exact rest payload' references' judgment' old key'
  · exact other payload' references' judgment' (List.mem_singleton.mp new).symm key'

theorem memoStands (run : Run (Admission.next finditer digest fragmentDigest) Admission.new events admission) :
    admission.memo.keys.Nodup ∧ ∀ key decided, admission.memo.get? key = some decided →
      Stands finditer digest fragmentDigest events key decided := by
  induction run with
  | start => exact ⟨List.nodup_nil, fun key decided found => by cases found⟩
  | @move events admission admission' event run moved ih =>
    obtain ⟨keyed, ih⟩ := ih
    cases event with
    | called payload =>
      have same : admission'.memo = admission.memo := by
        simp only [Admission.next] at moved
        split at moved <;> cases moved <;> rfl
      rw [same]
      exact ⟨keyed, fun key decided found => standsAfter (ih key decided found) (by simp)⟩
    | scanned payload references judgment =>
      simp only [Admission.next] at moved
      split at moved
      · cases moved
        by_cases answered : (decision finditer payload references judgment).failure = none
        · simp only [if_pos answered]
          refine ⟨rememberedKeyed keyed _ _, fun key decided found => ?_⟩
          have found := rememberedGet keyed found
          rw [Dict.getSet] at found
          split at found
          · rename_i here
            cases found
            exact ⟨events, [], payload, references, judgment, rfl, here, rfl, answered, by simp⟩
          · rename_i different
            refine standsAfter (ih key decided found) fun payload' references' judgment' same here => ?_
            cases same
            exact absurd here different
        · simp only [if_neg answered]
          refine ⟨keyed, fun key decided found => standsAfter (ih key decided found) ?_⟩
          intro payload' references' judgment' same _
          cases same
          exact answered
      · cases moved

end Memo

variable {finditer : String → String → List (Nat × Nat)} {digest : String → String} {fragmentDigest : String}
  {events : List Event} {admission : Admission}

def linked : Payload := ⟨"see https://board.example/KOD-84", .publicRepo, .prose, .prTitle, .derived, []⟩

/-- The one content's digest, and no other's. -/
def linkedDigest (content : String) : String :=
  if content = linked.content then "c51553fe0d8170e8c6d6ee0024829dc9d76bad76d827c38f81bcfdbd1bd38df4" else ""

def noMatches (_pattern _content : String) : List (Nat × Nat) := []

def silent : ScanResult := ⟨[], none, fun _ => rfl⟩

def timedOut : ScanResult := ⟨[], some .timeout, fun _ => rfl⟩

def linkHit : ScanHit := ⟨.redaction .trackerUrls, some 4, some 32, none, none, none, by simp⟩

def linkFound : ScanResult := ⟨[linkHit], none, by simp⟩

end Kodezart.Outbound
