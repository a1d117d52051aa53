import Kodezart.JsonCompact
import Kodezart.Rulings

/-! What a pass owes is what each of its answers owes on its own, so that neither their order nor the
records that have landed since change the rest of it; and a pinned record reads back from its comment. -/
namespace Kodezart.Rulings
open TextLines JsonText JsonCodec CommentMarkers

section Sorting
variable {α β : Type*} [LinearOrder β] {key : α → β} {items others : List α}

/-- Items of distinct keys are sorted one way only. -/
theorem sortBySame (alike : items.Perm others) (once : (items.map key).Nodup) : sortBy key items = sortBy key others := by
  have whole : (sortBy key items).Perm (sortBy key others) :=
    (sortByPerm key items).trans (alike.trans (sortByPerm key others).symm)
  refine whole.eq_of_pairwise ?_ (sortByOrdered key items) (sortByOrdered key others)
  intro a b inside inside' below above
  exact List.inj_on_of_nodup_map once (memSortBy.mp inside) (alike.mem_iff.mpr (memSortBy.mp inside')) (le_antisymm below above)

theorem sortByKept (once : (items.map key).Nodup) (p : α → Bool) :
    (sortBy key items).filter p = sortBy key (items.filter p) := by
  have alike : ((sortBy key items).filter p).Perm (items.filter p) := (sortByPerm key items).filter p
  have fixed : sortBy key ((sortBy key items).filter p) = (sortBy key items).filter p :=
    List.Pairwise.insertionSort_eq ((sortByOrdered key items).filter p)
  have kept : (((sortBy key items).filter p).map key).Nodup := by
    rw [(alike.map key).nodup_iff]
    exact once.sublist (List.filter_sublist.map key)
  rw [← fixed, sortBySame alike kept]

theorem sortByStrict (once : (items.map key).Nodup) : (sortBy key items).Pairwise fun a b => key a < key b := by
  have distinct : (sortBy key items).Pairwise fun a b => key a ≠ key b :=
    List.pairwise_map.mp ((sortByPerm key items).map key |>.nodup_iff.mpr once)
  exact ((sortByOrdered key items).and distinct).imp fun both => lt_of_le_of_ne both.1 both.2

end Sorting

section Passes
variable {digest : String → String → RulingId} {isIdentifier : Text → Bool} {repr : Text → Text} {subject : String}
  {recorded : Finset RulingId} {addressable : Finset String} {answer : RulingAnswer} {answers : List RulingAnswer}
  {ruling : Ruling isIdentifier} {pass later : Pass isIdentifier}

theorem mintedOk {issueRef question : String} {identity : RulingId}
    (ok : mintRulingId digest issueRef question = .ok identity) : identity = digest issueRef question := by
  simp only [mintRulingId] at ok
  split at ok
  · cases ok
  · exact (Except.ok.inj ok).symm

theorem validated {fields : RulingFields isIdentifier} (ok : modelValidate isIdentifier fields = some ruling) :
    ruling.toRulingFields = fields := by
  simp only [modelValidate] at ok
  split at ok
  · rw [← Option.some.inj ok]
  · cases ok

/-- A record that is owed is stamped with the identity of its answer's own question. -/
structure Owes (digest : String → String → RulingId) (recorded : Finset RulingId) (answer : RulingAnswer)
    (ruling : Ruling isIdentifier) : Prop where
  minted : mintRulingId digest answer.issueRef.val answer.question.val = .ok ruling.rulingId.val
  fresh : ruling.rulingId.val ∉ recorded
  question : (ruling.issueRef, ruling.question) = answer.address

theorem recordOwed (ok : recordOf digest isIdentifier repr subject recorded answer = .ok (some ruling)) :
    Owes digest recorded answer ruling := by
  simp only [recordOf] at ok
  split at ok
  · cases ok
  · rename_i identity minted
    split at ok
    · cases ok
    · rename_i fresh
      split at ok
      · cases ok
      · split at ok
        · cases ok
        · rename_i record made
          obtain rfl := Option.some.inj (Except.ok.inj ok)
          split at made
          · have fields := validated made
            constructor <;> simp only [fields, stamped]
            · exact minted
            · exact fresh
            · rfl
          · cases made

/-- The record an answer owes, if any. -/
def owedOf (digest : String → String → RulingId) (isIdentifier : Text → Bool) (repr : Text → Text) (subject : String)
    (recorded : Finset RulingId) (answer : RulingAnswer) : Option (Ruling isIdentifier) :=
  match recordOf digest isIdentifier repr subject recorded answer with
  | .ok (some ruling) => some ruling
  | _ => none

theorem owedOfOwes (owed : owedOf digest isIdentifier repr subject recorded answer = some ruling) :
    Owes digest recorded answer ruling := by
  simp only [owedOf] at owed
  split at owed
  · rename_i record ok
    obtain rfl := Option.some.inj owed
    exact recordOwed ok
  · cases owed

/-- An answer that is not refused whatever the other answers are. -/
structure Stands (digest : String → String → RulingId) (isIdentifier : Text → Bool) (repr : Text → Text) (subject : String)
    (recorded : Finset RulingId) (addressable : Finset String) (answer : RulingAnswer) : Prop where
  member : answer.issueRef.val ∈ addressable
  recorded : ∃ owed, recordOf digest isIdentifier repr subject recorded answer = .ok owed

theorem readAnswerOk (ok : readAnswer digest isIdentifier repr subject recorded addressable pass answer = .ok later) :
    Stands digest isIdentifier repr subject recorded addressable answer ∧ answer.address ∉ pass.seen ∧
      later.seen = answer.address :: pass.seen := by
  simp only [readAnswer] at ok
  split at ok
  · cases ok
  · rename_i member
    split at ok
    · cases ok
    · rename_i fresh
      split at ok
      · cases ok
      · rename_i settled
        cases ok
        exact ⟨⟨not_not.mp member, none, settled⟩, fresh, rfl⟩
      · rename_i ruling settled
        cases ok
        exact ⟨⟨not_not.mp member, some ruling, settled⟩, fresh, rfl⟩

/-- Every identity a pass holds a record under is that of an address it has seen. -/
def Covers (digest : String → String → RulingId) (pass : Pass isIdentifier) : Prop :=
  ∀ identity ∈ pass.owed.keys, ∃ address ∈ pass.seen, identity = digest address.1.val address.2.val

theorem readAnswerAdds (apart : Function.Injective2 digest) (covers : Covers digest pass)
    (stands : Stands digest isIdentifier repr subject recorded addressable answer) (fresh : answer.address ∉ pass.seen) :
    ∃ later, readAnswer digest isIdentifier repr subject recorded addressable pass answer = .ok later ∧
      Covers digest later ∧ later.seen = answer.address :: pass.seen ∧
      later.owed.values = pass.owed.values ++ (owedOf digest isIdentifier repr subject recorded answer).toList := by
  obtain ⟨owed, settled⟩ := stands.recorded
  cases owed with
  | none =>
    refine ⟨{ pass with seen := answer.address :: pass.seen }, ?_, ?_, rfl, ?_⟩
    · simp only [readAnswer, stands.member, fresh, settled, not_true_eq_false, if_false]
    · intro identity held
      obtain ⟨address, seen, same⟩ := covers identity held
      exact ⟨address, List.mem_cons_of_mem _ seen, same⟩
    · simp only [owedOf, settled, Option.toList_none, List.append_nil]
  | some ruling =>
    have own : ruling.rulingId.val = digest answer.issueRef.val answer.question.val := mintedOk (recordOwed settled).minted
    have unheld : ruling.rulingId.val ∉ pass.owed.keys := by
      intro held
      obtain ⟨address, seen, same⟩ := covers _ held
      obtain ⟨issues, questions⟩ := apart (own.symm.trans same)
      have here : answer.address = address := Prod.ext (Subtype.ext issues) (Subtype.ext questions)
      exact fresh (here ▸ seen)
    refine ⟨⟨pass.owed.set ruling.rulingId.val ruling, answer.address :: pass.seen⟩, ?_, ?_, rfl, ?_⟩
    · simp only [readAnswer, stands.member, fresh, settled, not_true_eq_false, if_false]
    · intro identity held
      rw [Dict.setFresh _ unheld, Dict.keys, List.map_append, List.mem_append] at held
      rcases held with before | now
      · obtain ⟨address, seen, same⟩ := covers identity before
        exact ⟨address, List.mem_cons_of_mem _ seen, same⟩
      · exact ⟨answer.address, List.mem_cons_self, (List.mem_singleton.mp now).trans own⟩
    · simp only [Dict.setFresh _ unheld, owedOf, settled, Dict.values, List.map_append, Option.toList_some, List.map_cons,
        List.map_nil]

theorem passRefuses (ok : answers.foldlM (readAnswer digest isIdentifier repr subject recorded addressable) pass = .ok later) :
    (∀ answer ∈ answers, Stands digest isIdentifier repr subject recorded addressable answer) ∧
      (answers.map RulingAnswer.address).Nodup ∧ ∀ answer ∈ answers, answer.address ∉ pass.seen := by
  induction answers generalizing pass with
  | nil => simp
  | cons answer answers ih =>
    rw [List.foldlM_cons] at ok
    cases step : readAnswer digest isIdentifier repr subject recorded addressable pass answer with
    | error e =>
      rw [step] at ok
      cases ok
    | ok next =>
      rw [step] at ok
      obtain ⟨stands, fresh, seen⟩ := readAnswerOk step
      obtain ⟨others, once, apart⟩ := ih ok
      rw [seen] at apart
      refine ⟨List.forall_mem_cons.mpr ⟨stands, others⟩, ?_, List.forall_mem_cons.mpr ⟨fresh, ?_⟩⟩
      · rw [List.map_cons, List.nodup_cons]
        refine ⟨?_, once⟩
        intro again
        obtain ⟨other, inside, same⟩ := List.mem_map.mp again
        exact apart other inside (same ▸ List.mem_cons_self)
      · intro other inside before
        exact apart other inside (List.mem_cons_of_mem _ before)

theorem passAdds (apart : Function.Injective2 digest) (covers : Covers digest pass)
    (stand : ∀ answer ∈ answers, Stands digest isIdentifier repr subject recorded addressable answer)
    (once : (answers.map RulingAnswer.address).Nodup) (unseen : ∀ answer ∈ answers, answer.address ∉ pass.seen) :
    ∃ later, answers.foldlM (readAnswer digest isIdentifier repr subject recorded addressable) pass = .ok later ∧
      later.owed.values = pass.owed.values ++ answers.filterMap (owedOf digest isIdentifier repr subject recorded) := by
  induction answers generalizing pass with
  | nil => exact ⟨pass, rfl, by simp⟩
  | cons answer answers ih =>
    obtain ⟨next, step, covered, seen, owed⟩ := readAnswerAdds apart covers (stand answer List.mem_cons_self)
      (unseen answer List.mem_cons_self)
    rw [List.map_cons, List.nodup_cons] at once
    have ahead : ∀ other ∈ answers, other.address ∉ next.seen := by
      intro other inside before
      rw [seen] at before
      rcases List.mem_cons.mp before with here | earlier
      · exact once.1 (here ▸ List.mem_map_of_mem inside)
      · exact unseen other (List.mem_cons_of_mem _ inside) earlier
    obtain ⟨later, rest, whole⟩ := ih covered (fun other inside => stand other (List.mem_cons_of_mem _ inside)) once.2 ahead
    refine ⟨later, ?_, ?_⟩
    · rw [List.foldlM_cons, step]
      exact rest
    · rw [whole, owed, List.append_assoc]
      cases held : owedOf digest isIdentifier repr subject recorded answer <;> simp [held]

/-- A pass is refused for one of its answers or for an address answered twice, and owes what each of them owes. -/
theorem owedIff (apart : Function.Injective2 digest) {owed : List (Ruling isIdentifier)} :
    owedRulings digest isIdentifier repr subject recorded answers addressable = .ok owed ↔
      (∀ answer ∈ answers, Stands digest isIdentifier repr subject recorded addressable answer) ∧
      (answers.map RulingAnswer.address).Nodup ∧
      owed = sortBy (fun ruling => ruling.rulingId.val)
        (answers.filterMap (owedOf digest isIdentifier repr subject recorded)) := by
  have start : Covers digest (⟨[], []⟩ : Pass isIdentifier) := by
    intro identity held
    cases held
  constructor
  · intro ok
    simp only [owedRulings] at ok
    split at ok
    · cases ok
    · rename_i pass ran
      obtain ⟨stand, once, unseen⟩ := passRefuses ran
      obtain ⟨later, again, values⟩ := passAdds apart start stand once unseen
      cases ran.symm.trans again
      refine ⟨stand, once, ?_⟩
      rw [← Except.ok.inj ok, values]
      rfl
  · intro all
    obtain ⟨stand, once, rfl⟩ := all
    obtain ⟨later, ran, values⟩ := passAdds apart start stand once (by simp)
    simp only [owedRulings, ran, values]
    rfl

theorem supersededGrows {identity : RulingId} {earlier : Option RulingId} (landed : Finset RulingId)
    (ok : superseded digest repr subject recorded answer identity = .ok earlier) :
    superseded digest repr subject (recorded ∪ landed) answer identity = .ok earlier := by
  simp only [superseded] at ok ⊢
  split at ok
  · exact ok
  · split at ok
    · cases ok
    · split at ok
      · cases ok
      · rename_i other
        split at ok
        · cases ok
        · rename_i carried
          rw [if_neg other, if_neg fun absent => carried fun held => absent (Finset.mem_union_left landed held)]
          exact ok

/-- Once other records have landed an answer owes what it owed, or nothing where its own has. -/
theorem recordLanded {owed : Option (Ruling isIdentifier)} (landed : Finset RulingId)
    (ok : recordOf digest isIdentifier repr subject recorded answer = .ok owed) :
    recordOf digest isIdentifier repr subject (recorded ∪ landed) answer =
      .ok (owed.filter fun ruling => ruling.rulingId.val ∉ landed) := by
  have whole := ok
  simp only [recordOf] at ok ⊢
  split at ok
  · cases ok
  · rename_i identity minted
    split at ok
    · rename_i held
      cases ok
      rw [if_pos (Finset.mem_union_left landed held)]
      rfl
    · rename_i fresh
      split at ok
      · cases ok
      · rename_i earlier replaced
        split at ok
        · cases ok
        · rename_i ruling made
          cases ok
          have own : ruling.rulingId.val = identity := (Except.ok.inj (minted.symm.trans (recordOwed whole).minted)).symm
          by_cases here : identity ∈ landed
          · rw [if_pos (Finset.mem_union_right recorded here)]
            simp [Option.filter, own, here]
          · rw [if_neg (by simp [fresh, here]), supersededGrows landed replaced]
            simp only [made, own, here, not_false_eq_true, decide_true, Option.filter_some, if_true]

theorem standsLanded (landed : Finset RulingId) (stands : Stands digest isIdentifier repr subject recorded addressable answer) :
    Stands digest isIdentifier repr subject (recorded ∪ landed) addressable answer := by
  obtain ⟨owed, ok⟩ := stands.recorded
  exact ⟨stands.member, _, recordLanded landed ok⟩

theorem owedLanded (landed : Finset RulingId) (stands : Stands digest isIdentifier repr subject recorded addressable answer) :
    owedOf digest isIdentifier repr subject (recorded ∪ landed) answer =
      (owedOf digest isIdentifier repr subject recorded answer).filter fun ruling => ruling.rulingId.val ∉ landed := by
  obtain ⟨owed, ok⟩ := stands.recorded
  simp only [owedOf, recordLanded landed ok, ok]
  cases owed with
  | none => rfl
  | some ruling =>
    by_cases here : ruling.rulingId.val ∈ landed <;> simp [Option.filter, here]

theorem owedDistinct (apart : Function.Injective2 digest) (once : (answers.map RulingAnswer.address).Nodup) :
    ((answers.filterMap (owedOf digest isIdentifier repr subject recorded)).map fun ruling => ruling.rulingId.val).Nodup := by
  induction answers with
  | nil => simp
  | cons answer answers ih =>
    rw [List.map_cons, List.nodup_cons] at once
    cases held : owedOf digest isIdentifier repr subject recorded answer with
    | none =>
      rw [List.filterMap_cons_none held]
      exact ih once.2
    | some ruling =>
      rw [List.filterMap_cons_some held, List.map_cons, List.nodup_cons]
      refine ⟨?_, ih once.2⟩
      intro again
      obtain ⟨other, inside, same⟩ := List.mem_map.mp again
      obtain ⟨second, member, owed⟩ := List.mem_filterMap.mp inside
      have twice := (mintedOk (owedOfOwes owed).minted).symm.trans (same.trans (mintedOk (owedOfOwes held).minted))
      obtain ⟨issues, questions⟩ := apart twice
      have here : second.address = answer.address := Prod.ext (Subtype.ext issues) (Subtype.ext questions)
      exact once.1 (here ▸ List.mem_map_of_mem member)

variable {owed : List (Ruling isIdentifier)}

theorem owedAnyOrder (apart : Function.Injective2 digest) {others : List RulingAnswer} (alike : answers.Perm others)
    (ok : owedRulings digest isIdentifier repr subject recorded answers addressable = .ok owed) :
    owedRulings digest isIdentifier repr subject recorded others addressable = .ok owed := by
  obtain ⟨stand, once, rfl⟩ := (owedIff apart).mp ok
  apply (owedIff apart).mpr
  refine ⟨fun answer inside => stand answer (alike.mem_iff.mpr inside), ((alike.map _).nodup_iff).mp once, ?_⟩
  exact sortBySame (alike.filterMap _) (owedDistinct apart once)

theorem owedAfter (apart : Function.Injective2 digest) (landed : Finset RulingId)
    (ok : owedRulings digest isIdentifier repr subject recorded answers addressable = .ok owed) :
    owedRulings digest isIdentifier repr subject (recorded ∪ landed) answers addressable =
      .ok (owed.filter fun ruling => ruling.rulingId.val ∉ landed) := by
  obtain ⟨stand, once, rfl⟩ := (owedIff apart).mp ok
  apply (owedIff apart).mpr
  refine ⟨fun answer inside => standsLanded landed (stand answer inside), once, ?_⟩
  rw [sortByKept (owedDistinct apart once), List.filter_filterMap]
  congr 1
  apply List.filterMap_congr
  intro answer inside
  rw [owedLanded landed (stand answer inside)]

end Passes

section Comments
variable {digest : String → String → RulingId} {isIdentifier : Text → Bool} {repr : Text → Text} {prefixes : Prefixes}
  {ruling : Ruling isIdentifier} {laneKey body marker : Text} {ok : Int → Prop}

theorem visibleKeeps (s : VisibleStr) : visibleText.Keeps ok s := checkedKeeps (stringKeeps s.val)

theorem nonemptyKeeps (s : NonemptyStr) : nonemptyText.Keeps ok s := checkedKeeps (stringKeeps s.val)

theorem rulingClassKeeps (kind : RulingClass) : rulingClass.Keeps ok kind :=
  namedKeeps (by cases kind <;> simp) (by decide)

theorem rulingAuthorKeeps (author : RulingAuthor) : rulingAuthor.Keeps ok author :=
  namedKeeps (by cases author <;> simp) (by decide)

theorem protectedTestKeeps (reference : RulingProtectedTestRef isIdentifier) :
    (protectedTestFields isIdentifier).Keeps ok reference := by
  have made : (if canonical : canonicalReference isIdentifier reference.path.val reference.qualifiedName.val then
      some (RulingProtectedTestRef.mk reference.sourceRef reference.path reference.qualifiedName canonical) else none) =
        some reference := dif_pos reference.canonical
  refine buildKeeps ?_ made
  exact andKeeps (fieldKeeps (visibleKeeps _) _ _)
    (andKeeps (fieldKeeps (nonemptyKeeps _) _ _) (fieldKeeps (nonemptyKeeps _) _ _) (by decide)) (by decide)

theorem modelValidated (ruling : Ruling isIdentifier) : modelValidate isIdentifier ruling.toRulingFields = some ruling := by
  rw [modelValidate, dif_pos ruling.valid]

theorem rulingKeeps (ruling : Ruling isIdentifier) : (rulingFields isIdentifier).Keeps ok ruling := by
  refine buildKeeps ?_ (modelValidated ruling)
  refine andKeeps (fieldKeeps (visibleKeeps _) _ _) ?_ (of_decide_eq_true rfl)
  refine andKeeps (fieldKeeps (visibleKeeps _) _ _) ?_ (of_decide_eq_true rfl)
  refine andKeeps (fieldKeeps (visibleKeeps _) _ _) ?_ (of_decide_eq_true rfl)
  refine andKeeps (fieldKeeps (rulingClassKeeps _) _ _) ?_ (of_decide_eq_true rfl)
  refine andKeeps (fieldKeeps (visibleKeeps _) _ _) ?_ (of_decide_eq_true rfl)
  refine andKeeps (fieldKeeps (optionalKeeps (checkedSolid stringSolid) fun s _ => visibleKeeps s) _ _) ?_ (of_decide_eq_true rfl)
  refine andKeeps (fieldKeeps (listKeeps fun s _ => visibleKeeps s) _ _) ?_ (of_decide_eq_true rfl)
  refine andKeeps (fieldKeeps (rulingAuthorKeeps _) _ _) ?_ (of_decide_eq_true rfl)
  refine andKeeps (fieldIfAnyKeeps stringSolid (fun s _ => stringKeeps s) _ _) ?_ (of_decide_eq_true rfl)
  exact fieldIfAnyKeeps (fun spelling items => by simp [list])
    (fun tests _ => listKeeps fun reference _ => objectKeeps (protectedTestKeeps reference)) _ _

theorem visibleUnique (s : VisibleStr) : visibleText.Unique s := checkedUnique (stringUnique s.val)

theorem nonemptyUnique (s : NonemptyStr) : nonemptyText.Unique s := checkedUnique (stringUnique s.val)

theorem protectedTestUnique (reference : RulingProtectedTestRef isIdentifier) :
    (object (protectedTestFields isIdentifier)).Unique reference :=
  objectUnique (@protectedTestKeeps isIdentifier Short reference).distinct <| buildUnique <|
    andUnique (fieldUnique (visibleUnique _) _ _) <|
    andUnique (fieldUnique (nonemptyUnique _) _ _) (fieldUnique (nonemptyUnique _) _ _)

theorem rulingUnique (ruling : Ruling isIdentifier) : (object (rulingFields isIdentifier)).Unique ruling := by
  apply objectUnique (@rulingKeeps isIdentifier Short ruling).distinct
  apply buildUnique
  apply andUnique (fieldUnique (visibleUnique _) _ _)
  apply andUnique (fieldUnique (visibleUnique _) _ _)
  apply andUnique (fieldUnique (visibleUnique _) _ _)
  apply andUnique (fieldUnique (namedUnique _ _ _) _ _)
  apply andUnique (fieldUnique (visibleUnique _) _ _)
  apply andUnique (fieldUnique (optionalUnique fun s _ => visibleUnique s) _ _)
  apply andUnique (fieldUnique (listUnique fun s _ => visibleUnique s) _ _)
  apply andUnique (fieldUnique (namedUnique _ _ _) _ _)
  apply andUnique (fieldIfAnyUnique (fun s _ => stringUnique s) _ _)
  exact fieldIfAnyUnique (fun tests _ => listUnique fun reference _ => protectedTestUnique reference) _ _

theorem partitionLine {line : Text} (single : '\n' ∉ line) (separator rest : Text) :
    partitionAt ('\n' :: separator) (line ++ '\n' :: (separator ++ rest)) = some (line, rest) := by
  induction line with
  | nil =>
    have front : '\n' :: separator <+: '\n' :: (separator ++ rest) := ⟨rest, rfl⟩
    simp [partitionAt, front]
  | cons c line ih =>
    have other : ¬ '\n' :: separator <+: c :: (line ++ '\n' :: (separator ++ rest)) := by
      intro front
      exact single (List.mem_cons.mpr (Or.inl (List.cons_prefix_cons.mp front).1))
    rw [List.cons_append, partitionAt, if_neg other, ih fun member => single (List.mem_cons_of_mem c member)]
    rfl

theorem rulingMarkerOk {rulingId : RulingId} (ok : rulingMarker repr prefixes rulingId laneKey = .ok marker) :
    ∃ token, prefixes.get? "ruling".toList = some token ∧
      marker = markerText [token, PercentEncoding.quote laneKey, PercentEncoding.quote rulingId.toList] := by
  simp only [rulingMarker, composeCommentMarker, configuredMarkerPrefix] at ok
  split at ok
  · rename_i token found
    change (if _ then _ else _) = _ at ok
    split at ok
    · cases ok
    · cases ok
      exact ⟨_, found, rfl⟩
  · cases ok

/-- Lanes never share a ruling's marker, whatever the prefixes hold. -/
theorem rulingMarkerLane {rulingId : RulingId} {other : Text} (ok : rulingMarker repr prefixes rulingId laneKey = .ok marker)
    (ok' : rulingMarker repr prefixes rulingId other = .ok marker) : laneKey = other := by
  obtain ⟨token, configured, rfl⟩ := rulingMarkerOk ok
  obtain ⟨token', configured', same⟩ := rulingMarkerOk ok'
  obtain rfl := Option.some.inj (configured.symm.trans configured')
  have lanes : PercentEncoding.quote laneKey = PercentEncoding.quote other := by
    simpa [markerText, List.intercalate] using same
  exact PercentEncoding.quoteInjective lanes

theorem renderedOk (rendered : renderRuling isIdentifier digest repr prefixes ruling laneKey = .ok body) :
    requireIdentity isIdentifier digest ruling = .ok () ∧ ∃ marker,
      rulingMarker repr prefixes ruling.rulingId.val laneKey = .ok marker ∧ '\n' ∉ marker ∧
      body = marker ++ '\n' :: (fenceOpen ++
        (render 0 ((object (rulingFields isIdentifier)).encode .byAlias ruling) ++ fenceClose)) := by
  simp only [renderRuling] at rendered
  cases addressed : requireIdentity isIdentifier digest ruling with
  | error e =>
    rw [addressed] at rendered
    cases rendered
  | ok _ =>
    cases composed : rulingMarker repr prefixes ruling.rulingId.val laneKey with
    | error e =>
      rw [addressed, composed] at rendered
      cases rendered
    | ok marker =>
      rw [addressed, composed] at rendered
      change Except.mapError _ (markedCommentBody marker _) = _ at rendered
      cases marked : markedCommentBody marker
          (fenceOpen ++ render 0 ((object (rulingFields isIdentifier)).encode .byAlias ruling) ++ fenceClose) with
      | error e =>
        rw [marked] at rendered
        cases rendered
      | ok text =>
        rw [marked] at rendered
        obtain ⟨single, whole⟩ := markedOk marked
        rw [List.append_assoc] at whole
        exact ⟨rfl, marker, rfl, single, (Except.ok.inj rendered).symm.trans whole⟩

/-- What a rendered ruling is read as: itself, if the lane it is read under composes its marker. -/
theorem parseRendered (addressed : requireIdentity isIdentifier digest ruling = .ok ()) (single : '\n' ∉ marker) :
    parseRuling isIdentifier digest repr prefixes (marker ++ '\n' :: (fenceOpen ++
        (render 0 ((object (rulingFields isIdentifier)).encode .byAlias ruling) ++ fenceClose))) laneKey =
      match rulingMarker repr prefixes ruling.rulingId.val laneKey with
      | .error e => .error (.marker e)
      | .ok own =>
        if marker ≠ own then .error (.valueError "the ruling marker does not match its lane and identity") else .ok ruling := by
  have loaded := loadsWritten (objectKeeps (@rulingKeeps isIdentifier Short ruling)) (rulingUnique ruling) .byAlias
  have closed : fenceClose <:+ render 0 ((object (rulingFields isIdentifier)).encode .byAlias ruling) ++ fenceClose :=
    List.suffix_append _ _
  simp only [parseRuling, partitionLine single, closed, not_true_eq_false, if_false, List.length_append,
    Nat.add_sub_cancel, List.take_left', loaded, addressed]
  cases rulingMarker repr prefixes ruling.rulingId.val laneKey <;> rfl

theorem renderedReads (rendered : renderRuling isIdentifier digest repr prefixes ruling laneKey = .ok body) :
    parseRuling isIdentifier digest repr prefixes body laneKey = .ok ruling ∧
      ∀ other, other ≠ laneKey → ∃ e, parseRuling isIdentifier digest repr prefixes body other = .error e := by
  obtain ⟨addressed, marker, composed, single, rfl⟩ := renderedOk rendered
  constructor
  · rw [parseRendered addressed single, composed]
    exact if_neg (not_not.mpr rfl)
  · intro other apart
    rw [parseRendered addressed single]
    cases composed' : rulingMarker repr prefixes ruling.rulingId.val other with
    | error e => exact ⟨_, rfl⟩
    | ok own =>
      have different : marker ≠ own := by
        intro same
        rw [← same] at composed'
        exact apart (rulingMarkerLane composed' composed)
      exact ⟨_, if_pos different⟩

/-- Every ruling that is owed has a comment under every lane of an accepted configuration. -/
theorem rendersUnder (addressed : requireIdentity isIdentifier digest ruling = .ok ()) (accepted : Accepted prefixes)
    {token : Text} (configured : prefixes.get? "ruling".toList = some token) (visible : laneKey ≠ []) :
    ∃ body, renderRuling isIdentifier digest repr prefixes ruling laneKey = .ok body := by
  have named : some ruling.rulingId.val.toList ≠ some [] := by
    intro empty
    have seen := ruling.rulingId.property
    rw [Kodezart.visible, Option.some.inj empty] at seen
    cases seen
  have composed : rulingMarker repr prefixes ruling.rulingId.val laneKey = .ok _ := composeConfigured configured ⟨visible, named⟩
  have marked := markedComposed accepted (composedOk composed)
    (fenceOpen ++ render 0 ((object (rulingFields isIdentifier)).encode .byAlias ruling) ++ fenceClose)
  simp only [renderRuling, addressed, composed]
  exact ⟨_, congrArg (Except.mapError RulingError.marker) marked⟩

end Comments

section Pinning
variable {digest : String → String → RulingId}

/-- Pinning answers is retry-safe and order-free, and every record it pins reads back under its own lane alone. -/
theorem pinningRetries (apart : Function.Injective2 digest) (isIdentifier : Text → Bool) (repr : Text → Text)
    (subject : String) (addressable : Finset String) (recorded : Finset RulingId) (answers : List RulingAnswer) :
    (∀ others e, answers.Perm others →
      owedRulings digest isIdentifier repr subject recorded answers addressable = .error e →
        ∃ e', owedRulings digest isIdentifier repr subject recorded others addressable = .error e') ∧
    ∀ owed, owedRulings digest isIdentifier repr subject recorded answers addressable = .ok owed →
      (owed.map fun ruling => ruling.rulingId.val).Nodup ∧
      (owed.Pairwise fun ruling later => ruling.rulingId.val < later.rulingId.val) ∧
      (∀ ruling ∈ owed, ruling.rulingId.val ∉ recorded) ∧
      (∀ landed : Finset RulingId,
        owedRulings digest isIdentifier repr subject (recorded ∪ landed) answers addressable =
          .ok (owed.filter fun ruling => ruling.rulingId.val ∉ landed)) ∧
      (∀ others, answers.Perm others →
        owedRulings digest isIdentifier repr subject recorded others addressable = .ok owed) ∧
      ∀ ruling ∈ owed, ∀ (prefixes : Prefixes) (laneKey : Text),
        (Accepted prefixes → (∃ token, prefixes.get? "ruling".toList = some token) → laneKey ≠ [] →
          ∃ body, renderRuling isIdentifier digest repr prefixes ruling laneKey = .ok body) ∧
        ∀ body, renderRuling isIdentifier digest repr prefixes ruling laneKey = .ok body →
          parseRuling isIdentifier digest repr prefixes body laneKey = .ok ruling ∧
          ∀ other, other ≠ laneKey → ∃ e, parseRuling isIdentifier digest repr prefixes body other = .error e := by
  constructor
  · intro others e alike refused
    cases again : owedRulings digest isIdentifier repr subject recorded others addressable with
    | error e' => exact ⟨e', rfl⟩
    | ok owed =>
      have ok := owedAnyOrder apart alike.symm again
      rw [refused] at ok
      cases ok
  · intro owed ok
    obtain ⟨stand, once, rfl⟩ := (owedIff apart).mp ok
    have distinct := @owedDistinct digest isIdentifier repr subject recorded answers apart once
    have source : ∀ ruling ∈ sortBy (fun ruling => ruling.rulingId.val)
        (answers.filterMap (owedOf digest isIdentifier repr subject recorded)), ∃ answer, Owes digest recorded answer ruling := by
      intro ruling member
      obtain ⟨answer, -, owed⟩ := List.mem_filterMap.mp (memSortBy.mp member)
      exact ⟨answer, owedOfOwes owed⟩
    refine ⟨?_, sortByStrict distinct, ?_, fun landed => owedAfter apart landed ok, fun others alike => owedAnyOrder apart alike ok, ?_⟩
    · exact ((sortByPerm _ _).map _).nodup_iff.mpr distinct
    · intro ruling member
      obtain ⟨answer, owes⟩ := source ruling member
      exact owes.fresh
    · intro ruling member prefixes laneKey
      refine ⟨?_, fun body rendered => renderedReads rendered⟩
      intro accepted configured visible
      obtain ⟨token, found⟩ := configured
      obtain ⟨answer, owes⟩ := source ruling member
      have addressed : requireIdentity isIdentifier digest ruling = .ok () := by
        obtain ⟨issues, questions⟩ := Prod.mk.inj owes.question
        simp only [requireIdentity, issues, questions, owes.minted, ne_eq, not_true_eq_false, if_false]
      exact rendersUnder addressed accepted found visible

def portQuestion : VisibleStr := ⟨"Which port does it listen on?", by decide⟩

def strictQuestion : VisibleStr := ⟨"Is the reader strict?", by decide⟩

def portIdentity : RulingId := "c449ed7c29b025fee0219c8bd93ac3f51666391cd8b7b0b7a0f562961c18c89c"

def strictIdentity : RulingId := "e225e71aa979567a7422909a0c251d68c5e127eab3fb2715c268e16181842447"

def framedPair (issueRef question : String) : Text := compact (.array [.string issueRef.toList, .string question.toList])

/-- The digests of two pairs, and elsewhere what is digested. -/
def pairDigest (issueRef question : String) : RulingId :=
  if issueRef = "KOD-100" ∧ question = portQuestion.val then portIdentity
  else if issueRef = "KOD-100" ∧ question = strictQuestion.val then strictIdentity
  else String.ofList (framedPair issueRef question)

theorem framedApart (identity : RulingId) (hex : identity.toList.head? ≠ some '[') (issueRef question : String) :
    identity ≠ String.ofList (framedPair issueRef question) := by
  intro same
  have opens : (framedPair issueRef question).head? = some '[' := by simp [framedPair, compact]
  rw [same, String.toList_ofList] at hex
  exact hex opens

theorem pairDigestCases (issueRef question : String) :
    (issueRef = "KOD-100" ∧ question = portQuestion.val ∧ pairDigest issueRef question = portIdentity) ∨
    (issueRef = "KOD-100" ∧ question = strictQuestion.val ∧ pairDigest issueRef question = strictIdentity) ∨
    pairDigest issueRef question = String.ofList (framedPair issueRef question) := by
  rw [pairDigest]
  split
  · rename_i port
    exact Or.inl ⟨port.1, port.2, rfl⟩
  · split
    · rename_i strict
      exact Or.inr (Or.inl ⟨strict.1, strict.2, rfl⟩)
    · exact Or.inr (Or.inr rfl)

theorem pairDigestApart : Function.Injective2 pairDigest := by
  intro issueRef other question question' same
  have identities : portIdentity ≠ strictIdentity := by decide
  have port := framedApart portIdentity (by decide)
  have strict := framedApart strictIdentity (by decide)
  rcases pairDigestCases issueRef question with ⟨rfl, rfl, left⟩ | ⟨rfl, rfl, left⟩ | left <;>
    rcases pairDigestCases other question' with ⟨rfl, rfl, right⟩ | ⟨rfl, rfl, right⟩ | right <;>
    replace same := left.symm.trans (same.trans right)
  · exact ⟨rfl, rfl⟩
  · exact absurd same identities
  · exact absurd same (port _ _)
  · exact absurd same.symm identities
  · exact ⟨rfl, rfl⟩
  · exact absurd same (strict _ _)
  · exact absurd same.symm (port _ _)
  · exact absurd same.symm (strict _ _)
  · have plain (issueRef question : String) : Exact (.array [.string issueRef.toList, .string question.toList]) := by
      apply Exact.array
      intro json member
      rcases List.mem_cons.mp member with rfl | rest
      · exact .string _
      · rw [List.mem_singleton.mp rest]
        exact .string _
    have texts := compactInjective (plain _ _) (plain _ _) (String.ofList_injective same)
    simpa [String.toList_inj] using texts

def pinnedAnswer (question : VisibleStr) : RulingAnswer where
  issueRef := ⟨"KOD-100", by decide⟩
  question := question
  rulingClass := .pinArtifact
  resolution := ⟨"8080", by decide⟩
  rejectedAlternative := none
  repoEvidence := []
  supersedesQuestion := none
  deliverable := none

def pinnedRuling (question identity : VisibleStr) : Ruling fun _ => true where
  toRulingFields := stamped _ (pinnedAnswer question) identity none
  valid := by
    constructor
    · rintro (kind | kind) <;> cases kind
    · simp [stamped]
    · simp [stamped]

/-- A pass cut after the first of its two writes owes the second. -/
theorem secondStillOwed :
    owedRulings pairDigest (fun _ => true) id "KOD-100" (∅ ∪ {portIdentity})
        [pinnedAnswer strictQuestion, pinnedAnswer portQuestion] {"KOD-100"} =
      .ok ([pinnedRuling portQuestion ⟨portIdentity, by decide⟩, pinnedRuling strictQuestion ⟨strictIdentity, by decide⟩].filter
        fun ruling => ruling.rulingId.val ∉ ({portIdentity} : Finset RulingId)) :=
  ((pinningRetries pairDigestApart (fun _ => true) id "KOD-100" {"KOD-100"} ∅
    [pinnedAnswer strictQuestion, pinnedAnswer portQuestion]).2 _ rfl).2.2.2.1 {portIdentity}

end Pinning

end Kodezart.Rulings
