import Mathlib
import Kodezart.ReferenceScanner

/-! Which displayed addresses the hits of a reference scan cover. -/
namespace Kodezart.Outbound
open Scanning
open TextLines (isSpace)

section Runs
variable {α : Type*} {inRun : α → Bool} {text : List α}

theorem runDrop {k : Nat} (inside : k ≤ (text.takeWhile inRun).length) :
    (text.drop k).takeWhile inRun = (text.takeWhile inRun).drop k := by
  induction text generalizing k with
  | nil => simp
  | cons c text ih =>
    cases k with
    | zero => rfl
    | succ k =>
      rw [List.takeWhile_cons] at inside ⊢
      split at inside
      · rename_i runs
        rw [if_pos runs]
        exact ih (by simpa using inside)
      · simp at inside

theorem runTake (text : List α) : text.take (text.takeWhile inRun).length = text.takeWhile inRun := by
  induction text with
  | nil => rfl
  | cons c text ih =>
    rw [List.takeWhile_cons]
    split
    · simp [ih]
    · rfl

/-- Trailing characters are trimmed off a suffix that keeps one of its own as off the whole. -/
theorem trimAppend {trims : α → Bool} (before : List α) {after : List α} (kept : ∃ c ∈ after, trims c = false) :
    (before ++ after).rdropWhile trims = before ++ after.rdropWhile trims := by
  obtain ⟨c, member, keeps⟩ := kept
  have some : after.reverse.dropWhile trims ≠ [] := by
    intro none
    have all := List.dropWhile_eq_nil_iff.mp none c (List.mem_reverse.mpr member)
    rw [keeps] at all
    cases all
  rw [List.rdropWhile, List.rdropWhile, List.reverse_append, List.dropWhile_append, if_neg (by simpa using some),
    List.reverse_append, List.reverse_reverse]

end Runs

section Tokens
variable {text : Text} {n : Nat}

theorem leadsSplit {letters : List (List Char)} (leads : leads letters text) :
    ∃ front rest, text = front ++ rest ∧ front.length = letters.length ∧ ∀ (i : Nat) (c : Char), front[i]? = some c →
      ∃ choices, letters[i]? = some choices ∧ c ∈ choices := by
  simp only [Outbound.leads, decide_eq_true_eq] at leads
  obtain ⟨short, each⟩ := leads
  refine ⟨text.take letters.length, text.drop letters.length, (List.take_append_drop _ _).symm, by simpa using short,
    fun i c at' => ?_⟩
  rw [List.getElem?_take] at at'
  split at at'
  · rename_i before
    refine ⟨letters[i], List.getElem?_eq_getElem before, ?_⟩
    have pair : (letters.zip text)[i]? = some (letters[i], c) := by
      rw [List.getElem?_zip_eq_some]
      exact ⟨List.getElem?_eq_getElem before, at'⟩
    exact each _ (List.mem_of_getElem? pair)
  · cases at'

/-- A token's shape: a scheme or none, two solidi, and a body, as far as nothing stops it. -/
structure Shape (text : Text) (n lead : Nat) : Prop where
  run : n = (text.takeWhile fun c => !urlStop c).length
  first : text[lead]? = some '/'
  second : text[lead + 1]? = some '/'
  body : lead + 2 < n
  ahead : ∀ i, i < lead → text[i]? ≠ some '/'

theorem tokenShape (found : urlTokenAt text = some n) : ∃ lead, Shape text n lead := by
  obtain ⟨scheme, member, found⟩ := List.exists_of_findSome?_eq_some found
  split at found
  · rename_i leads
    obtain ⟨front, rest, rfl, length, choices⟩ := leadsSplit leads
    have lengthIs : front.length = scheme.length + 2 := by simpa using length
    rw [← lengthIs, List.drop_left] at found
    dsimp only at found
    split at found
    · cases found
    · rename_i body
      cases found
      have letters : ∀ scheme ∈ schemes, (∀ choices ∈ scheme ++ [['/'], ['/']], ∀ c ∈ choices, urlStop c = false) ∧
          ∀ choices ∈ scheme, '/' ∉ choices := by decide
      obtain ⟨runs, apart⟩ := letters scheme member
      have runs : ∀ c ∈ front, (!urlStop c) = true := by
        intro c inside
        obtain ⟨i, at'⟩ := List.mem_iff_getElem?.mp inside
        obtain ⟨among, there, chosen⟩ := choices i c at'
        simp [runs among (List.mem_of_getElem? there) c chosen]
      have slash : ∀ i, i = scheme.length ∨ i = scheme.length + 1 → (front ++ rest)[i]? = some '/' := by
        intro i which
        have short : i < front.length := by omega
        rw [List.getElem?_append_left short]
        obtain ⟨among, there, chosen⟩ := choices i front[i] (List.getElem?_eq_getElem short)
        rw [List.getElem?_append_right (by omega)] at there
        have slashes : among = ['/'] := by
          rcases which with rfl | rfl
          · simpa using there.symm
          · simpa using there.symm
        rw [slashes] at chosen
        rw [List.getElem?_eq_getElem short, List.mem_singleton.mp chosen]
      refine ⟨scheme.length, ?_, slash _ (Or.inl rfl), slash _ (Or.inr rfl), ?_, fun i before here => ?_⟩
      · rw [List.takeWhile_append_of_pos runs, List.length_append, lengthIs]
      · have := List.length_pos_iff.mpr body
        omega
      · rw [List.getElem?_append_left (by omega)] at here
        obtain ⟨among, there, chosen⟩ := choices i '/' here
        rw [List.getElem?_append_left before] at there
        exact apart among (List.mem_of_getElem? there) chosen
  · cases found

theorem tokenTake (found : urlTokenAt text = some n) : text.take n = text.takeWhile fun c => !urlStop c := by
  obtain ⟨lead, shape⟩ := tokenShape found
  rw [shape.run, runTake]

/-- A token inside another stops where it does, and they are trimmed alike. -/
theorem tokenInside {k m : Nat} (outer : urlTokenAt text = some n) (inner : urlTokenAt (text.drop k) = some m)
    (inside : k < n) : k + m = n ∧ normalized (text.take n) = text.take k ++ normalized ((text.drop k).take m) := by
  obtain ⟨lead, shape⟩ := tokenShape outer
  obtain ⟨lead', shape'⟩ := tokenShape inner
  have within : k ≤ (text.takeWhile fun c => !urlStop c).length := by
    rw [← shape.run]
    exact inside.le
  have same : k + m = n := by
    rw [shape'.run, runDrop within, List.length_drop, shape.run]
    omega
  refine ⟨same, ?_⟩
  have split : text.take n = text.take k ++ (text.drop k).take m := by
    rw [← same, List.take_add]
  rw [split, normalized, normalized]
  refine trimAppend _ ⟨'/', ?_, by decide⟩
  have first : ((text.drop k).take m)[lead']? = some '/' := by
    rw [List.getElem?_take, if_pos (by have := shape'.body; omega)]
    exact shape'.first
  exact List.mem_of_getElem? first

end Tokens
/-- No character reference displays two solidi. -/
def Single (unescape : Text → Text) : Prop := ∀ reference, (unescape reference).count '/' ≤ 1

/-- One displayed character before another: displayed by one escape, or by raw text before. -/
def Before (unescape : Text → Text) (a b : Char × Nat × Nat) : Prop :=
  (a.2 = b.2 ∧ (Single unescape → ¬ (a.1 = '/' ∧ b.1 = '/'))) ∨ a.2.2 ≤ b.2.1

section Display
variable {unescape : Text → Text} {content : Text}

theorem plainBetween {start stop : Nat} {e : Char × Nat × Nat} (member : e ∈ plain content start stop) :
    start ≤ e.2.1 ∧ e.2.2 ≤ stop ∧ e.2.1 < e.2.2 := by
  obtain ⟨pair, inside, rfl⟩ := List.mem_map.mp member
  have between := Spans.indexBetween inside
  exact ⟨between.1, between.2, Nat.lt_succ_self _⟩

theorem plainOrdered (unescape : Text → Text) (content : Text) (start stop : Nat) :
    (plain content start stop).Pairwise (Before unescape) := by
  refine List.pairwise_map.mpr ?_
  have increasing : content.zipIdx.Pairwise fun a b => a.2 < b.2 := by
    refine List.pairwise_map.mp ?_
    rw [List.zipIdx_map_snd]
    exact List.pairwise_lt_range'
  have part : ((content.zipIdx.take stop).drop start).Sublist content.zipIdx :=
    (List.drop_sublist _ _).trans (List.take_sublist _ _)
  exact (increasing.sublist part).imp fun less => Or.inr less

theorem onceApart {text : Text} (once : text.count '/' ≤ 1) : text.Pairwise fun a b => ¬ (a = '/' ∧ b = '/') := by
  induction text with
  | nil => exact List.Pairwise.nil
  | cons c text ih =>
    refine List.pairwise_cons.mpr ⟨fun later member both => ?_, ih (le_trans (List.count_le_count_cons ..) once)⟩
    obtain ⟨rfl, rfl⟩ := both
    have some := List.count_pos_iff.mpr member
    rw [List.count_cons_self] at once
    omega

theorem decodedOrdered (unescape : Text → Text) (escape : Text) (start stop : Nat) :
    ((decoded unescape escape).map fun c => (c, start, stop)).Pairwise (Before unescape) := by
  refine List.pairwise_map.mpr ?_
  by_cases single : Single unescape
  · have once : (decoded unescape escape).count '/' ≤ 1 := by
      unfold decoded
      split
      · rw [List.count_singleton]
        split <;> decide
      · exact single _
    exact (onceApart once).imp fun apart => Or.inl ⟨rfl, fun _ => apart⟩
  · exact List.pairwise_of_forall fun _ _ => Or.inl ⟨rfl, fun held => absurd held single⟩

theorem displayOrdered (escapes : List (Nat × Nat)) (cursor : Nat)
    (apart : escapes.Pairwise fun m later => m.1 + m.2 ≤ later.1) (after : ∀ m ∈ escapes, cursor ≤ m.1 ∧ 0 < m.2) :
    (displayFrom unescape content cursor escapes).Pairwise (Before unescape) ∧
      ∀ e ∈ displayFrom unescape content cursor escapes, cursor ≤ e.2.1 ∧ e.2.1 < e.2.2 := by
  induction escapes generalizing cursor with
  | nil =>
    exact ⟨plainOrdered .., fun e member => ⟨(plainBetween member).1, (plainBetween member).2.2⟩⟩
  | cons escape escapes ih =>
    obtain ⟨start, length⟩ := escape
    obtain ⟨later, clear⟩ := List.pairwise_cons.mp apart
    obtain ⟨here, some⟩ := after _ List.mem_cons_self
    obtain ⟨ordered, bounded⟩ := ih (start + length) clear fun m member =>
      ⟨later m member, (after m (List.mem_cons_of_mem _ member)).2⟩
    dsimp only at here some
    simp only [displayFrom]
    refine ⟨List.pairwise_append.mpr ⟨List.pairwise_append.mpr ⟨plainOrdered .., decodedOrdered .., ?_⟩, ordered, ?_⟩, ?_⟩
    · intro a left b right
      obtain ⟨c, -, rfl⟩ := List.mem_map.mp right
      exact Or.inr (plainBetween left).2.1
    · intro a left b right
      have from' := (bounded b right).1
      rcases List.mem_append.mp left with left | left
      · exact Or.inr ((plainBetween left).2.1.trans (by omega))
      · obtain ⟨c, -, rfl⟩ := List.mem_map.mp left
        exact Or.inr from'
    · intro e member
      rcases List.mem_append.mp member with member | member
      · rcases List.mem_append.mp member with member | member
        · exact ⟨(plainBetween member).1, (plainBetween member).2.2⟩
        · obtain ⟨c, -, rfl⟩ := List.mem_map.mp member
          exact ⟨here, by simpa using some⟩
      · have := bounded e member
        exact ⟨by omega, this.2⟩

theorem referenceOrdered (unescape : Text → Text) (content : Text) :
    (referenceText unescape content).Pairwise (Before unescape) ∧
      ∀ e ∈ referenceText unescape content, e.2.1 < e.2.2 := by
  have display : (displayFrom unescape content 0 (findIter textEscapeAt content)).Pairwise (Before unescape) ∧
      ∀ e ∈ displayFrom unescape content 0 (findIter textEscapeAt content), 0 ≤ e.2.1 ∧ e.2.1 < e.2.2 :=
    displayOrdered _ 0 findApart fun m member => ⟨Nat.zero_le _, (findSound member).choose_spec.2.2.1⟩
  exact ⟨display.1, fun e member => (display.2 e member).2⟩

/-- Of two displayed characters the later's raw span starts and ends no earlier. -/
theorem rawMonotone {i j : Nat} {a b : Char × Nat × Nat} (le : i ≤ j) (left : (referenceText unescape content)[i]? = some a)
    (right : (referenceText unescape content)[j]? = some b) : a.2.1 ≤ b.2.1 ∧ a.2.2 ≤ b.2.2 := by
  obtain ⟨ordered, filled⟩ := referenceOrdered unescape content
  rcases Nat.lt_or_eq_of_le le with less | rfl
  · have both := List.pairwise_iff_getElem.mp ordered i j (List.getElem?_eq_some_iff.mp left).1
      (List.getElem?_eq_some_iff.mp right).1 less
    rw [(List.getElem?_eq_some_iff.mp left).2, (List.getElem?_eq_some_iff.mp right).2] at both
    have wide := filled a (List.mem_of_getElem? left)
    have wide' := filled b (List.mem_of_getElem? right)
    rcases both with ⟨same, -⟩ | before
    · rw [same]
      exact ⟨le_rfl, le_rfl⟩
    · omega
  · cases left.symm.trans right
    exact ⟨le_rfl, le_rfl⟩

end Display
/-- How far an address's scheme and host reach into it. -/
def schemeHost (address : Text) : Nat :=
  let lead := (address.takeWhile (· ≠ '/')).length + 2
  lead + ((address.drop lead).takeWhile (· ∉ ['/', '?', '#', '\\'])).length

def Covers (hit : ScanHit) (raw : Nat × Nat) : Prop :=
  ∃ start stop, hit.start = some start ∧ hit.stop = some stop ∧ start ≤ raw.1 ∧ raw.2 ≤ stop

section Scan
variable (unescape : Text → Text) (parseUrl : Text → Option Url) (casefold : String → String)
  (unquote : String → Option String) (surface : PrivateSurface) (destination : OutboundDestination) (content : String)

def displayedText : Text := (referenceText unescape content.toList).map Prod.fst

/-- The displayed text spells an address of a private host from a position on. -/
def Spells (p n : Nat) : Prop :=
  urlTokenAt ((displayedText unescape content).drop p) = some n ∧
    ∃ reference, readAddress parseUrl casefold unquote (tokenText (displayedText unescape content) (p, n)) = some reference ∧
      reference.host ∈ surface.hosts

/-- Some hit's raw span holds every raw character that displays the scheme and host spelled there. -/
def Covered (p n : Nat) : Prop :=
  ∃ hit ∈ (scan unescape parseUrl casefold unquote surface destination content).hits, ∀ i, p ≤ i →
    i < p + schemeHost (tokenText (displayedText unescape content) (p, n)) →
    ∀ e, (referenceText unescape content.toList)[i]? = some e → Covers hit e.2

variable {unescape parseUrl casefold unquote surface destination content}

theorem scanTokensOk {displayed : List (Char × Nat × Nat)} {found : List (Nat × Nat)} {hits : List ScanHit}
    (ok : scanTokens parseUrl casefold unquote surface destination displayed found = some hits) (hit : ScanHit) :
    hit ∈ hits ↔ ∃ token ∈ found, ∃ category,
      tokenCategory parseUrl casefold unquote surface destination (displayed.map Prod.fst) token = some (some category) ∧
      hit = referenceHit displayed token category := by
  induction found generalizing hits with
  | nil =>
    cases ok
    simp
  | cons token rest ih =>
    rw [scanTokens] at ok
    split at ok
    · cases ok
    · rename_i category classified
      obtain ⟨later, found, rfl⟩ := Option.map_eq_some_iff.mp ok
      rw [List.mem_append, ih found]
      constructor
      · rintro (here | ⟨other, member, rest⟩)
        · obtain ⟨category, rfl⟩ : ∃ c, category = some c := by
            cases category with
            | none => cases here
            | some c => exact ⟨c, rfl⟩
          exact ⟨token, List.mem_cons_self, category, classified, by simpa using here⟩
        · exact ⟨other, List.mem_cons_of_mem _ member, rest⟩
      · rintro ⟨other, member, kind, classified', rfl⟩
        rcases List.mem_cons.mp member with rfl | member
        · cases Option.some.inj (classified.symm.trans classified')
          exact Or.inl (by simp)
        · exact Or.inr ⟨other, member, kind, classified', rfl⟩

theorem scanHits (unfailed : (scan unescape parseUrl casefold unquote surface destination content).failure = none)
    (hit : ScanHit) : hit ∈ (scan unescape parseUrl casefold unquote surface destination content).hits ↔
      ∃ token ∈ tokens unescape content.toList, ∃ category,
        tokenCategory parseUrl casefold unquote surface destination (displayedText unescape content) token =
          some (some category) ∧ hit = referenceHit (referenceText unescape content.toList) token category := by
  unfold scan at unfailed ⊢
  split at unfailed
  · cases unfailed
  · rename_i hits ok
    exact scanTokensOk ok hit

/-- What a position that spells an address has to do with the token it stands in. -/
theorem spelledInside {p n : Nat} (spells : Spells unescape parseUrl casefold unquote surface content p n) :
    ∃ token ∈ tokens unescape content.toList, token.1 ≤ p ∧ p < token.1 + token.2 := by
  obtain ⟨found, -⟩ := spells
  obtain ⟨lead, shape⟩ := tokenShape found
  have body := shape.body
  obtain ⟨extra, rfl⟩ : ∃ extra, n = extra + 1 := ⟨n - 1, by omega⟩
  have inside : p < (displayedText unescape content).length := by
    by_contra past
    rw [List.drop_eq_nil_of_le (not_lt.mp past)] at shape
    cases shape.first
  have reached : p < 0 ∨ ∃ m ∈ findFrom urlTokenAt 0 0 (displayedText unescape content), m.1 ≤ 0 + p ∧ 0 + p < m.1 + m.2 :=
    findReaches found inside
  rcases reached with before | ⟨token, member, le, lt⟩
  · cases before
  · exact ⟨token, member, by omega, by omega⟩

theorem aheadLength {text : Text} {k : Nat} (here : text[k]? = some '/') (ahead : ∀ i, i < k → text[i]? ≠ some '/') :
    (text.takeWhile (· ≠ '/')).length = k := by
  induction text generalizing k with
  | nil => simp at here
  | cons c text ih =>
    cases k with
    | zero =>
      cases Option.some.inj here
      simp
    | succ k =>
      have other : c ≠ '/' := fun same => ahead 0 (Nat.succ_pos _) (by simp [same])
      rw [List.takeWhile_cons, if_pos (by simpa using other), List.length_cons,
        ih (by simpa using here) fun i less => by simpa using ahead (i + 1) (Nat.succ_lt_succ less)]

theorem trimKeeps {α : Type*} {trims : α → Bool} {text : List α} {i : Nat} {c : α} (at' : text[i]? = some c)
    (keeps : trims c = false) : i < (text.rdropWhile trims).length := by
  have short := (List.getElem?_eq_some_iff.mp at').1
  have inside : c ∈ text.drop i := List.mem_of_getElem? (i := 0) (by rw [List.getElem?_drop, Nat.add_zero, at'])
  have whole : text.rdropWhile trims = text.take i ++ (text.drop i).rdropWhile trims := by
    have trimmed := trimAppend (text.take i) ⟨c, inside, keeps⟩
    rwa [List.take_append_drop] at trimmed
  have some : 0 < ((text.drop i).rdropWhile trims).length := by
    refine List.length_pos_iff.mpr fun none => ?_
    have all := List.rdropWhile_eq_nil_iff.mp none c inside
    rw [keeps] at all
    cases all
  rw [whole, List.length_append, List.length_take]
  omega

/-- An address keeps its scheme's solidi when it is trimmed, and its host lies within it. -/
theorem addressShape {text : Text} {n lead : Nat} (shape : Shape text n lead) :
    lead + 2 ≤ schemeHost (normalized (text.take n)) ∧
      schemeHost (normalized (text.take n)) ≤ (normalized (text.take n)).length := by
  have body := shape.body
  have kept : lead + 1 < (normalized (text.take n)).length := by
    refine trimKeeps (c := '/') ?_ (by decide)
    rw [List.getElem?_take, if_pos (by omega)]
    exact shape.second
  have same : ∀ i, i < (normalized (text.take n)).length → (normalized (text.take n))[i]? = text[i]? := by
    intro i inside
    have front : normalized (text.take n) <+: text.take n := List.rdropWhile_prefix _ _
    have short : i < n := lt_of_lt_of_le (inside.trans_le front.length_le) (List.length_take_le _ _)
    obtain ⟨rest, split⟩ := front
    calc (normalized (text.take n))[i]? = (normalized (text.take n) ++ rest)[i]? := (List.getElem?_append_left inside).symm
      _ = (text.take n)[i]? := by rw [split]
      _ = text[i]? := by rw [List.getElem?_take, if_pos short]
  have ahead : ((normalized (text.take n)).takeWhile (· ≠ '/')).length = lead := by
    refine aheadLength ?_ fun i less => ?_
    · rw [same lead (by omega)]
      exact shape.first
    · rw [same i (by omega)]
      exact shape.ahead i less
  simp only [schemeHost, ahead]
  refine ⟨Nat.le_add_right _ _, ?_⟩
  have within := (List.takeWhile_sublist (fun c => decide (c ∉ ['/', '?', '#', '\\'])) (l :=
    (normalized (text.take n)).drop (lead + 2))).length_le
  rw [List.length_drop] at within
  omega

/-- A token, and an address spelled from a place in it. -/
structure Inside (text : Text) (token : Nat × Nat) (p n lead : Nat) : Prop where
  outer : urlTokenAt (text.drop token.1) = some token.2
  shape : Shape (text.drop p) n lead
  ends : p + n = token.1 + token.2
  trimmed : p + (tokenText text (p, n)).length = token.1 + (tokenText text token).length
  bounded : token.1 + token.2 ≤ text.length
  filled : 0 < (tokenText text (p, n)).length

theorem insideOf {text : Text} {token : Nat × Nat} {p n : Nat} (outer : urlTokenAt (text.drop token.1) = some token.2)
    (inner : urlTokenAt (text.drop p) = some n) (from' : token.1 ≤ p) (before : p < token.1 + token.2) :
    ∃ lead, Inside text token p n lead := by
  obtain ⟨k, rfl⟩ := Nat.exists_eq_add_of_le from'
  obtain ⟨lead, shape⟩ := tokenShape inner
  obtain ⟨lead', shape'⟩ := tokenShape outer
  rw [← List.drop_drop] at inner
  obtain ⟨same, trimmed⟩ := tokenInside outer inner (by omega)
  rw [List.drop_drop] at trimmed
  have short : token.2 ≤ (text.drop token.1).length := by
    rw [shape'.run]
    exact (List.takeWhile_sublist _).length_le
  have some : token.1 < text.length := by
    by_contra past
    rw [List.drop_eq_nil_of_le (not_lt.mp past)] at shape'
    cases shape'.first
  rw [List.length_drop] at short
  have reach := addressShape shape
  refine ⟨lead, outer, shape, by omega, ?_, by omega, ?_⟩
  · have lengths := congrArg List.length trimmed
    rw [List.length_append, List.length_take, List.length_drop] at lengths
    simp only [tokenText]
    omega
  · simp only [tokenText]
    omega

theorem rawAt (unescape : Text → Text) (content : String) {i : Nat} (inside : i < (displayedText unescape content).length) :
    ∃ e, (referenceText unescape content.toList)[i]? = some e ∧ (displayedText unescape content)[i]? = some e.1 := by
  have short : i < (referenceText unescape content.toList).length := by simpa [displayedText] using inside
  exact ⟨_, List.getElem?_eq_getElem short, by simp [displayedText, List.getElem?_eq_getElem short]⟩

theorem tokenFound {token : Nat × Nat} (member : token ∈ tokens unescape content.toList) :
    urlTokenAt ((displayedText unescape content).drop token.1) = some token.2 := by
  obtain ⟨k, start, -, -, found⟩ := findSound member
  rw [start, Nat.zero_add]
  exact found

/-- The hit of a classified token covers every address spelled in it. -/
theorem hitCovers {token : Nat × Nat} {p n lead : Nat} (category : RedactionCategory)
    (inside : Inside (displayedText unescape content) token p n lead) (from' : token.1 ≤ p) (i : Nat) (after : p ≤ i)
    (before : i < p + (tokenText (displayedText unescape content) (p, n)).length) (e : Char × Nat × Nat)
    (at' : (referenceText unescape content.toList)[i]? = some e) :
    Covers (referenceHit (referenceText unescape content.toList) token category) e.2 := by
  have trimmed := inside.trimmed
  have bounded := inside.bounded
  have filled := inside.filled
  have kept : (tokenText (displayedText unescape content) token).length ≤ token.2 :=
    (List.rdropWhile_prefix _ _).length_le.trans (List.length_take_le _ _)
  obtain ⟨first, starts, -⟩ := rawAt unescape content (i := token.1) (by omega)
  obtain ⟨last, stops, -⟩ := rawAt unescape content
    (i := token.1 + (tokenText (displayedText unescape content) token).length - 1) (by omega)
  refine ⟨first.2.1, last.2.2, by simp [referenceHit, starts], ?_, (rawMonotone (by omega) starts at').1,
    (rawMonotone (by omega) at' stops).2⟩
  simp only [referenceHit]
  exact (congrArg _ stops).trans rfl

theorem rawBefore {i j : Nat} {a b : Char × Nat × Nat} (less : i < j) (left : (referenceText unescape content.toList)[i]? = some a)
    (right : (referenceText unescape content.toList)[j]? = some b) : Before unescape a b ∧ a.2.1 < a.2.2 ∧ b.2.1 < b.2.2 := by
  obtain ⟨ordered, filled⟩ := referenceOrdered unescape content.toList
  have both := List.pairwise_iff_getElem.mp ordered i j (List.getElem?_eq_some_iff.mp left).1
    (List.getElem?_eq_some_iff.mp right).1 less
  rw [(List.getElem?_eq_some_iff.mp left).2, (List.getElem?_eq_some_iff.mp right).2] at both
  exact ⟨both, filled a (List.mem_of_getElem? left), filled b (List.mem_of_getElem? right)⟩

/-- Two solidi are not displayed by one escape. -/
theorem slashesApart (single : Single unescape) {i j : Nat} {a b : Char × Nat × Nat} (less : i < j)
    (left : (referenceText unescape content.toList)[i]? = some a)
    (right : (referenceText unescape content.toList)[j]? = some b) (slash : a.1 = '/') (slash' : b.1 = '/') :
    a.2.2 ≤ b.2.1 :=
  (rawBefore less left right).1.resolve_left fun same => same.2 single ⟨slash, slash'⟩

theorem tokensApart {token other : Nat × Nat} (member : token ∈ tokens unescape content.toList)
    (member' : other ∈ tokens unescape content.toList) (different : other ≠ token) :
    other.1 + other.2 ≤ token.1 ∨ token.1 + token.2 ≤ other.1 := by
  have apart : (tokens unescape content.toList).Pairwise fun m later => m.1 + m.2 ≤ later.1 := findApart
  obtain ⟨i, short, rfl⟩ := List.mem_iff_getElem.mp member
  obtain ⟨j, short', rfl⟩ := List.mem_iff_getElem.mp member'
  rcases Nat.lt_trichotomy i j with less | rfl | less
  · exact Or.inr (List.pairwise_iff_getElem.mp apart i j short short' less)
  · exact absurd rfl different
  · exact Or.inl (List.pairwise_iff_getElem.mp apart j i short' short less)

/-- Another token's hit does not cover an address spelled in this one. -/
theorem elsewhereUncovered (single : Single unescape) {token other : Nat × Nat} {p n lead : Nat}
    (category : RedactionCategory) (inside : Inside (displayedText unescape content) token p n lead)
    (from' : token.1 ≤ p) (found : urlTokenAt ((displayedText unescape content).drop other.1) = some other.2)
    (apart : other.1 + other.2 ≤ token.1 ∨ token.1 + token.2 ≤ other.1)
    (covers : ∀ i, p ≤ i → i < p + schemeHost (tokenText (displayedText unescape content) (p, n)) →
      ∀ e, (referenceText unescape content.toList)[i]? = some e →
      Covers (referenceHit (referenceText unescape content.toList) other category) e.2) : False := by
  have reach := (addressShape inside.shape).1
  have body := inside.shape.body
  have ends := inside.ends
  have bounded := inside.bounded
  obtain ⟨lead', shape'⟩ := tokenShape found
  have body' := shape'.body
  have solidus : ∀ k, ((displayedText unescape content).drop p)[k]? = some '/' →
      ∃ e, (referenceText unescape content.toList)[p + k]? = some e ∧ e.1 = '/' := by
    intro k at'
    rw [List.getElem?_drop] at at'
    obtain ⟨e, raw, shown⟩ := rawAt unescape content (List.getElem?_eq_some_iff.mp at').1
    exact ⟨e, raw, Option.some.inj (shown.symm.trans at')⟩
  obtain ⟨a, atA, slashA⟩ := solidus lead inside.shape.first
  obtain ⟨b, atB, slashB⟩ := solidus (lead + 1) inside.shape.second
  have clear := slashesApart single (by omega) atA atB slashA slashB
  obtain ⟨-, wideA, wideB⟩ := rawBefore (by omega) atA atB
  simp only [tokenText] at covers
  obtain ⟨start, stop, starts, stops, leA, geA⟩ := covers (p + lead) (by omega) (by omega) a atA
  obtain ⟨start', stop', starts', stops', leB, geB⟩ := covers (p + (lead + 1)) (by omega) (by omega) b atB
  cases Option.some.inj (starts.symm.trans starts')
  cases Option.some.inj (stops.symm.trans stops')
  have kept : (tokenText (displayedText unescape content) other).length ≤ other.2 :=
    (List.rdropWhile_prefix _ _).length_le.trans (List.length_take_le _ _)
  rcases apart with before | after
  · obtain ⟨last, at', rfl⟩ := Option.map_eq_some_iff.mp stops
    have ordered := rawMonotone (by
      show other.1 + (tokenText (displayedText unescape content) other).length - 1 ≤ p + lead
      omega) at' atA
    omega
  · obtain ⟨first, at', rfl⟩ := Option.map_eq_some_iff.mp starts
    have ordered := rawMonotone (by omega) atB at'
    omega

end Scan
/-- Host and path of an address with no credentials or port, cut at its delimiters. -/
def bareUrl (address : Text) : Option Url :=
  let rest := (address.dropWhile (· ≠ '/')).drop 2
  let host := rest.takeWhile (· ∉ ['/', '?', '#'])
  let path := (rest.drop host.length).takeWhile (· ∉ ['?', '#'])
  some ⟨some (String.ofList host), some (if path = [] then "/" else String.ofList path)⟩

/-- No character reference stands in the contents scanned with it. -/
def unreferenced (_reference : Text) : Text := []

theorem unreferencedSingle : Single unreferenced := fun _ => Nat.zero_le 1

def corporate : PrivateSurface := ⟨["corp.internal"], []⟩

end Kodezart.Outbound
