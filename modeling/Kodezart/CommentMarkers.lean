import Kodezart.Dict
import Kodezart.PercentEncoding

/-! Comment identities under operation-owned prefixes: what a configuration may name as a
prefix, and the marker composed of one. -/
namespace Kodezart.CommentMarkers
open TextLines PercentEncoding

abbrev Prefixes := Dict Text Text

inductive MarkerError where
  | operationMemberAbsent (missing stops : Text)
  | valueError (message : String)
  deriving DecidableEq, Repr

/-- The characters a prefix may not hold besides space. -/
def markerSeparators : List Char := ['<', '>', '[', ']', ':', '"']

section Configuration
variable (repr : Text → Text)

def unsafeToken (purpose token : Text) : Bool :=
  purpose = [] || token = [] || token.any fun c => isSpace c || c ∈ markerSeparators

/-- What the configuration's validation says of its marker prefixes. -/
def markerPrefixFailures (prefixes : Prefixes) : List Text :=
  (prefixes.filter fun e => unsafeToken e.1 e.2).map (fun e =>
    "marker_prefixes[".toList ++ repr e.1 ++ "] must name one nonempty marker token".toList) ++
  (prefixes.filter fun e => 1 < prefixes.values.count e.2).map fun e =>
    "marker_prefixes[".toList ++ repr e.1 ++ "] ".toList ++ repr e.2 ++ " is not unique".toList

def configuredMarkerPrefix (prefixes : Prefixes) (purpose : Text) : Except MarkerError Text :=
  match prefixes.get? purpose with
  | some token => .ok token
  | none => .error (.operationMemberAbsent ("marker_prefixes[".toList ++ repr purpose ++ "]".toList)
      "this tracker comment identity cannot be read or written".toList)

def markerText (parts : List Text) : Text := '[' :: ([':'].intercalate parts ++ [']'])

def composeCommentMarker (prefixes : Prefixes) (purpose lane : Text) (occurrenceKey : Option Text) :
    Except MarkerError Text := do
  let token ← configuredMarkerPrefix repr prefixes purpose
  if lane = [] ∨ occurrenceKey = some [] then .error (.valueError "marker identity components must be nonempty")
  else .ok (markerText (token :: quote lane :: (occurrenceKey.map quote).toList))

end Configuration

/-- Prefixes a configuration is accepted with. -/
structure Accepted (prefixes : Prefixes) : Prop where
  keys : prefixes.keys.Nodup
  tokens : ∀ e ∈ prefixes, unsafeToken e.1 e.2 = false
  values : prefixes.values.Nodup

variable {repr : Text → Text} {prefixes : Prefixes}

theorem acceptedIff (keys : prefixes.keys.Nodup) : markerPrefixFailures repr prefixes = [] ↔ Accepted prefixes := by
  have counted : (∀ e ∈ prefixes, ¬ 1 < prefixes.values.count e.2) ↔ prefixes.values.Nodup := by
    rw [List.nodup_iff_count_le_one]
    constructor
    · intro each value
      by_cases member : value ∈ prefixes.values
      · obtain ⟨e, inside, rfl⟩ := List.mem_map.mp member
        exact Nat.not_lt.mp (each e inside)
      · rw [List.count_eq_zero_of_not_mem member]
        omega
    · intro each e _
      exact Nat.not_lt.mpr (each e.2)
  rw [markerPrefixFailures, List.append_eq_nil_iff, List.map_eq_nil_iff, List.map_eq_nil_iff,
    List.filter_eq_nil_iff, List.filter_eq_nil_iff]
  simp only [decide_eq_true_eq, Bool.not_eq_true, counted]
  exact ⟨fun both => ⟨keys, both.1, both.2⟩, fun accepted => ⟨accepted.tokens, accepted.values⟩⟩

/-- A text that may stand between two separators of a marker. -/
def Plain (part : Text) : Prop := ∀ c ∈ part, isSpace c = false ∧ c ∉ markerSeparators

theorem plainToken (accepted : Accepted prefixes) {purpose token : Text} (found : (purpose, token) ∈ prefixes) :
    Plain token := by
  have checked := accepted.tokens _ found
  simp only [unsafeToken, Bool.or_eq_false_iff, List.any_eq_false] at checked
  intro c member
  simpa using checked.2 c member

theorem plainSafe {c : Char} (safe : alwaysSafe c ∨ c = '%') : isSpace c = false ∧ c ∉ markerSeparators := by
  have code : c.isAlphanum → 0x30 ≤ c.toNat ∧ c.toNat < 0x7f ∧ c ∉ markerSeparators := by
    intro letter
    have apart : c ∉ markerSeparators := by
      intro separator
      simp only [markerSeparators, List.mem_cons, List.not_mem_nil, or_false] at separator
      rcases separator with rfl | rfl | rfl | rfl | rfl | rfl <;> exact absurd letter (by decide)
    simp only [Char.isAlphanum, Char.isAlpha, Char.isUpper, Char.isLower, Char.isDigit, Bool.or_eq_true,
      Bool.and_eq_true, decide_eq_true_eq, UInt32.le_iff_toNat_le, ge_iff_le] at letter
    change ((65 ≤ c.toNat ∧ c.toNat ≤ 90) ∨ (97 ≤ c.toNat ∧ c.toNat ≤ 122)) ∨
      (48 ≤ c.toNat ∧ c.toNat ≤ 57) at letter
    exact ⟨by omega, by omega, apart⟩
  rcases safe with safe | rfl
  · simp only [alwaysSafe, Bool.or_eq_true, decide_eq_true_eq] at safe
    rcases safe with (((letter | rfl) | rfl) | rfl) | rfl
    · obtain ⟨low, high, apart⟩ := code letter
      refine ⟨?_, apart⟩
      simp only [isSpace, patternSpace, Bool.or_eq_false_iff, Bool.and_eq_false_iff, decide_eq_false_iff_not]
      omega
    all_goals decide
  · decide

theorem plainQuote (text : Text) : Plain (quote text) := fun _ member => plainSafe (quoteMember member)

/-- What a composed marker is made of. -/
structure Composed (prefixes : Prefixes) (purpose lane : Text) (occurrenceKey : Option Text) (marker : Text) : Prop where
  token : ∃ token, (purpose, token) ∈ prefixes ∧
    marker = markerText (token :: quote lane :: (occurrenceKey.map quote).toList)
  visible : lane ≠ [] ∧ occurrenceKey ≠ some []

theorem composedOk {purpose lane marker : Text} {occurrenceKey : Option Text}
    (ok : composeCommentMarker repr prefixes purpose lane occurrenceKey = .ok marker) :
    Composed prefixes purpose lane occurrenceKey marker := by
  simp only [composeCommentMarker, configuredMarkerPrefix] at ok
  split at ok
  · rename_i token found
    change (if _ then _ else _) = _ at ok
    split at ok
    · cases ok
    · rename_i visible
      cases ok
      exact ⟨⟨token, Dict.getMember found, rfl⟩, not_or.mp visible⟩
  · cases ok

theorem composeConfigured {purpose token lane : Text} {occurrenceKey : Option Text}
    (configured : prefixes.get? purpose = some token) (visible : lane ≠ [] ∧ occurrenceKey ≠ some []) :
    composeCommentMarker repr prefixes purpose lane occurrenceKey =
      .ok (markerText (token :: quote lane :: (occurrenceKey.map quote).toList)) := by
  simp only [composeCommentMarker, configuredMarkerPrefix, configured]
  exact if_neg (not_or.mpr visible)

variable {purpose lane purpose' lane' marker marker' : Text} {occurrenceKey occurrenceKey' : Option Text}

theorem partsPlain (accepted : Accepted prefixes) {token : Text} (member : (purpose, token) ∈ prefixes) :
    ∀ part ∈ token :: quote lane :: (occurrenceKey.map quote).toList, Plain part := by
  intro part inside
  rcases List.mem_cons.mp inside with rfl | inside
  · exact plainToken accepted member
  rcases List.mem_cons.mp inside with rfl | inside
  · exact plainQuote lane
  · cases occurrenceKey with
    | none => cases inside
    | some key =>
      rw [List.mem_singleton.mp inside]
      exact plainQuote key

theorem intercalateMember {parts : List Text} {c : Char} (member : c ∈ [':'].intercalate parts) :
    c = ':' ∨ ∃ part ∈ parts, c ∈ part := by
  induction parts with
  | nil => cases member
  | cons part parts ih =>
    cases parts with
    | nil => exact Or.inr ⟨part, by simp, by simpa [List.intercalate] using member⟩
    | cons next parts =>
      have split : [':'].intercalate (part :: next :: parts) = part ++ ':' :: [':'].intercalate (next :: parts) := by
        simp [List.intercalate]
      rw [split, List.mem_append, List.mem_cons] at member
      rcases member with here | colon | later
      · exact Or.inr ⟨part, by simp, here⟩
      · exact Or.inl colon
      · rcases ih later with colon | ⟨other, inside, here⟩
        · exact Or.inl colon
        · exact Or.inr ⟨other, List.mem_cons_of_mem part inside, here⟩

/-- Between its brackets a marker holds no space, no quote and no bracket. -/
theorem composedInner (accepted : Accepted prefixes) (composed : Composed prefixes purpose lane occurrenceKey marker) :
    ∃ inner, marker = '[' :: (inner ++ [']']) ∧ ∀ c ∈ inner, isSpace c = false ∧ c ∉ ['<', '>', '[', ']', '"'] := by
  obtain ⟨token, member, rfl⟩ := composed.token
  refine ⟨_, rfl, fun c inside => ?_⟩
  rcases intercalateMember inside with rfl | ⟨part, own, here⟩
  · decide
  · obtain ⟨solid, apart⟩ := partsPlain accepted member part own c here
    simp only [markerSeparators, List.mem_cons, List.not_mem_nil, or_false, not_or] at apart ⊢
    exact ⟨solid, apart.1, apart.2.1, apart.2.2.1, apart.2.2.2.1, apart.2.2.2.2.2⟩

theorem composedSolid (accepted : Accepted prefixes) (composed : Composed prefixes purpose lane occurrenceKey marker) :
    ∀ c ∈ marker, isSpace c = false := by
  obtain ⟨inner, rfl, plain⟩ := composedInner accepted composed
  intro c member
  rcases List.mem_cons.mp member with rfl | member
  · decide
  rcases List.mem_append.mp member with inside | last
  · exact (plain c inside).1
  · rw [List.mem_singleton.mp last]
    decide

/-- A marker ends at its own closing bracket. -/
theorem composedPrefix (accepted : Accepted prefixes) (composed : Composed prefixes purpose lane occurrenceKey marker)
    (composed' : Composed prefixes purpose' lane' occurrenceKey' marker') (front : marker <+: marker') :
    marker = marker' := by
  obtain ⟨inner, rfl, -⟩ := composedInner accepted composed
  obtain ⟨inner', rfl, plain⟩ := composedInner accepted composed'
  obtain ⟨rest, whole⟩ := front
  rw [List.cons_append, List.cons.injEq, List.append_assoc, List.singleton_append] at whole
  rcases List.append_eq_append_iff.mp whole.2 with ⟨more, behind, closing⟩ | ⟨more, ahead, closing⟩
  · cases more with
    | nil =>
      rw [List.append_nil] at behind
      rw [behind]
    | cons c more =>
      obtain ⟨rfl, -⟩ := List.cons.inj closing
      exact absurd (plain ']' (by simp [behind])).2 (by decide)
  · cases more with
    | nil =>
      rw [List.append_nil] at ahead
      rw [ahead]
    | cons c more =>
      obtain ⟨-, tail⟩ := List.cons.inj closing
      simp at tail

theorem composedInjective (accepted : Accepted prefixes)
    (composed : Composed prefixes purpose lane occurrenceKey marker)
    (composed' : Composed prefixes purpose' lane' occurrenceKey' marker) :
    purpose = purpose' ∧ lane = lane' ∧ occurrenceKey = occurrenceKey' := by
  obtain ⟨token, member, rfl⟩ := composed.token
  obtain ⟨token', member', same⟩ := composed'.token
  have colon {purpose lane token : Text} {occurrenceKey : Option Text} (member : (purpose, token) ∈ prefixes) :
      ∀ part ∈ token :: quote lane :: (occurrenceKey.map quote).toList, ':' ∉ part := by
    intro part inside here
    exact absurd (partsPlain accepted member part inside ':' here).2 (by decide)
  have texts := List.append_cancel_right (List.cons.inj same).2
  have parts := congrArg (List.splitOn ':') texts
  rw [List.splitOn_intercalate ':' (colon member) (by simp), List.splitOn_intercalate ':' (colon member') (by simp)] at parts
  obtain ⟨tokens, parts⟩ := List.cons.inj parts
  obtain ⟨lanes, keys⟩ := List.cons.inj parts
  refine ⟨?_, quoteInjective lanes, ?_⟩
  · have entry := List.inj_on_of_nodup_map accepted.values member member' tokens
    exact (Prod.mk.injEq _ _ _ _ ▸ entry).1
  · cases occurrenceKey <;> cases occurrenceKey' <;>
      simp only [Option.map_some, Option.map_none, Option.toList_some, Option.toList_none, List.cons.injEq, and_true,
        reduceCtorEq, Option.some.injEq] at keys ⊢
    exact quoteInjective keys

end Kodezart.CommentMarkers
