import Mathlib

/-! Insertion-ordered dictionaries as association lists. A key keeps the position
it was first written at, and a later write replaces the value standing there.
Sorting by a key is stable and is stated beside them. -/
namespace Kodezart

abbrev Dict (κ ν : Type*) := List (κ × ν)

namespace Dict
variable {κ ν α : Type*} [DecidableEq κ]

def get? : Dict κ ν → κ → Option ν
  | [], _ => none
  | e :: d, k => if e.1 = k then some e.2 else get? d k

def set : Dict κ ν → κ → ν → Dict κ ν
  | [], k, v => [(k, v)]
  | e :: d, k, v => if e.1 = k then (e.1, v) :: d else e :: set d k v

def setDefault : Dict κ ν → κ → ν → Dict κ ν
  | [], k, v => [(k, v)]
  | e :: d, k, v => if e.1 = k then e :: d else e :: setDefault d k v

omit [DecidableEq κ] in
def keys (d : Dict κ ν) : List κ := d.map Prod.fst

omit [DecidableEq κ] in
def values (d : Dict κ ν) : List ν := d.map Prod.snd

/-- One `setdefault` for each item, in order: the first item of a key stays. -/
def groupFirst (key : α → κ) (items : List α) : Dict κ α :=
  items.foldl (fun d item => d.setDefault (key item) item) []

/-- A dictionary with entries written into it, in order. -/
def update (d : Dict κ ν) (entries : List (κ × ν)) : Dict κ ν :=
  entries.foldl (fun d e => d.set e.1 e.2) d

/-- One write for each item, in order: the last item of a key stays. -/
def build (key : α → κ) (items : List α) : Dict κ α := update [] (items.map fun item => (key item, item))

def erase : Dict κ ν → κ → Dict κ ν
  | [], _ => []
  | e :: d, k => if e.1 = k then d else e :: erase d k

@[simp] theorem getNil (k : κ) : get? ([] : Dict κ ν) k = none := rfl

theorem getSet (d : Dict κ ν) (k : κ) (v : ν) (k' : κ) :
    (d.set k v).get? k' = if k = k' then some v else d.get? k' := by
  induction d with
  | nil => simp [set, get?]
  | cons e d ih =>
    simp only [set]
    split
    · rename_i same
      subst same
      simp only [get?]
      split <;> rfl
    · rename_i different
      simp only [get?, ih]
      split
      · rename_i here
        subst here
        rw [if_neg (Ne.symm different)]
      · rfl

@[simp] theorem getSetSame (d : Dict κ ν) (k : κ) (v : ν) : (d.set k v).get? k = some v := by
  simp [getSet]

theorem getSetOther (d : Dict κ ν) {k k' : κ} (v : ν) (different : k ≠ k') :
    (d.set k v).get? k' = d.get? k' := by
  simp [getSet, different]

theorem setFresh {d : Dict κ ν} {k : κ} (v : ν) (fresh : k ∉ d.keys) : d.set k v = d ++ [(k, v)] := by
  induction d with
  | nil => rfl
  | cons e d ih =>
    obtain ⟨different, rest⟩ : k ≠ e.1 ∧ k ∉ keys d := by simpa [keys] using fresh
    simp [set, Ne.symm different, ih rest]

theorem keysSet {d : Dict κ ν} {k : κ} (v : ν) (present : k ∈ d.keys) :
    (d.set k v).keys = d.keys := by
  induction d with
  | nil => simp [keys] at present
  | cons e d ih =>
    simp only [set]
    split
    · rfl
    · rename_i different
      have inside : k ∈ keys d := by
        simpa [keys, Ne.symm different] using present
      simpa [keys] using ih inside

theorem getSome (d : Dict κ ν) (k : κ) : k ∈ d.keys ↔ ∃ v, d.get? k = some v := by
  induction d with
  | nil => simp [keys]
  | cons e d ih =>
    simp only [get?]
    split
    · rename_i same
      simp [keys, same]
    · rename_i different
      rw [← ih]
      simp [keys, Ne.symm different]

theorem getMember {d : Dict κ ν} {k : κ} {v : ν} (found : d.get? k = some v) : (k, v) ∈ d := by
  induction d with
  | nil => simp at found
  | cons e d ih =>
    simp only [get?] at found
    split at found
    · rename_i same
      cases Option.some.inj found
      subst same
      exact List.mem_cons_self
    · exact List.mem_cons_of_mem _ (ih found)

theorem getOfMember {d : Dict κ ν} {k : κ} {v : ν} (unique : d.keys.Nodup)
    (member : (k, v) ∈ d) : d.get? k = some v := by
  induction d with
  | nil => simp at member
  | cons e d ih =>
    obtain ⟨fresh, unique⟩ := List.nodup_cons.mp unique
    rcases List.mem_cons.mp member with rfl | inside
    · simp [get?]
    · have other : e.1 ≠ k := by
        rintro rfl
        exact fresh (List.mem_map.mpr ⟨_, inside, rfl⟩)
      simp [get?, other, ih unique inside]

theorem setDefaultMember {d : Dict κ ν} {k : κ} {v : ν} {e : κ × ν}
    (member : e ∈ d.setDefault k v) : e ∈ d ∨ e = (k, v) := by
  induction d with
  | nil => simpa [setDefault] using member
  | cons head d ih =>
    simp only [setDefault] at member
    split at member
    · exact Or.inl member
    · rcases List.mem_cons.mp member with rfl | inside
      · exact Or.inl List.mem_cons_self
      · exact (ih inside).imp_left (List.mem_cons_of_mem _)

theorem setDefaultGet (d : Dict κ ν) (k : κ) (v : ν) (k' : κ) :
    (d.setDefault k v).get? k' = if k = k' then some ((d.get? k).getD v) else d.get? k' := by
  induction d with
  | nil => simp [setDefault, get?]
  | cons head d ih =>
    simp only [setDefault]
    by_cases same : head.1 = k
    · subst same
      simp only [↓reduceIte, get?, Option.getD_some]
      split <;> rfl
    · simp only [same, ↓reduceIte, get?, ih]
      by_cases here : head.1 = k'
      · simp [here, show ¬ k = k' from fun other => same (here.trans other.symm)]
      · simp [here]

theorem setDefaultKeys (d : Dict κ ν) (k : κ) (v : ν) (k' : κ) :
    k' ∈ (d.setDefault k v).keys ↔ k' ∈ d.keys ∨ k' = k := by
  induction d with
  | nil => simp [setDefault, keys]
  | cons head d ih =>
    simp only [setDefault]
    split
    · rename_i same
      subst same
      simp only [keys, List.map_cons, List.mem_cons]
      tauto
    · simp only [keys, List.map_cons, List.mem_cons] at ih ⊢
      rw [ih]
      tauto

theorem setDefaultNodup {d : Dict κ ν} (k : κ) (v : ν) (unique : d.keys.Nodup) :
    (d.setDefault k v).keys.Nodup := by
  induction d with
  | nil => simp [setDefault, keys]
  | cons head d ih =>
    obtain ⟨fresh, rest⟩ := List.nodup_cons.mp unique
    simp only [setDefault]
    split
    · exact unique
    · rename_i different
      refine List.nodup_cons.mpr ⟨?_, ih rest⟩
      intro inside
      rcases (setDefaultKeys d k v head.1).mp inside with old | new
      · exact fresh old
      · exact different new

theorem setMember {d : Dict κ ν} {k : κ} {v : ν} {e : κ × ν} (member : e ∈ d.set k v) :
    e ∈ d ∨ e = (k, v) := by
  induction d with
  | nil => simpa [set] using member
  | cons head d ih =>
    simp only [set] at member
    split at member
    · rename_i same
      rcases List.mem_cons.mp member with rfl | inside
      · exact Or.inr (by rw [same])
      · exact Or.inl (List.mem_cons_of_mem _ inside)
    · rcases List.mem_cons.mp member with rfl | inside
      · exact Or.inl List.mem_cons_self
      · exact (ih inside).imp_left (List.mem_cons_of_mem _)

theorem setNodup {d : Dict κ ν} (k : κ) (v : ν) (unique : d.keys.Nodup) : (d.set k v).keys.Nodup := by
  induction d with
  | nil => simp [set, keys]
  | cons head d ih =>
    obtain ⟨fresh, rest⟩ := List.nodup_cons.mp unique
    simp only [set]
    split
    · exact unique
    · rename_i different
      refine List.nodup_cons.mpr ⟨?_, ih rest⟩
      intro inside
      obtain ⟨e, member, same⟩ := List.mem_map.mp inside
      rcases setMember member with old | rfl
      · exact fresh (List.mem_map.mpr ⟨e, old, same⟩)
      · exact different same.symm

theorem updateMember {d : Dict κ ν} {entries : List (κ × ν)} {e : κ × ν} (member : e ∈ d.update entries) :
    e ∈ d ∨ e ∈ entries := by
  induction entries generalizing d with
  | nil => exact Or.inl member
  | cons head entries ih =>
    rcases ih member with written | later
    · rcases setMember written with old | rfl
      · exact Or.inl old
      · exact Or.inr List.mem_cons_self
    · exact Or.inr (List.mem_cons_of_mem _ later)

theorem updateNodup {d : Dict κ ν} (entries : List (κ × ν)) (unique : d.keys.Nodup) :
    (d.update entries).keys.Nodup := by
  induction entries generalizing d with
  | nil => exact unique
  | cons e entries ih => exact ih (setNodup _ _ unique)

theorem updateAppend {d entries : Dict κ ν} (unique : (keys (d ++ entries)).Nodup) : d.update entries = d ++ entries := by
  induction entries generalizing d with
  | nil => simp [update]
  | cons e entries ih =>
    have fresh : e.1 ∉ keys d := by
      intro inside
      rw [keys, List.map_append, List.map_cons, List.nodup_append] at unique
      exact unique.2.2 e.1 inside e.1 (by simp) rfl
    have step : d.update (e :: entries) = (d ++ [e]).update entries := by
      rw [update, List.foldl_cons, setFresh e.2 fresh]
      rfl
    rw [step, ih (by simpa using unique), List.append_assoc]
    rfl

theorem updateSelf {entries : Dict κ ν} (unique : entries.keys.Nodup) : update [] entries = entries :=
  updateAppend unique

theorem updateGet (d : Dict κ ν) (entries : List (κ × ν)) (k : κ) :
    (d.update entries).get? k =
      ((entries.reverse.find? fun e => e.1 = k).map Prod.snd).or (d.get? k) := by
  induction entries generalizing d with
  | nil => rfl
  | cons e entries ih =>
    have step : d.update (e :: entries) = (d.set e.1 e.2).update entries := rfl
    rw [step, ih, getSet, List.reverse_cons, List.find?_append]
    cases entries.reverse.find? fun e => e.1 = k with
    | some found => simp
    | none => by_cases same : e.1 = k <;> simp [same]

theorem updateGetNone {d : Dict κ ν} {entries : List (κ × ν)} {k : κ} :
    (d.update entries).get? k = none ↔ d.get? k = none ∧ ∀ e ∈ entries, e.1 ≠ k := by
  rw [updateGet, Option.or_eq_none_iff, Option.map_eq_none_iff, List.find?_eq_none]
  simp [and_comm]

theorem updateGetSome {d : Dict κ ν} {entries : List (κ × ν)} {k : κ} {v : ν}
    (found : (d.update entries).get? k = some v) : (k, v) ∈ entries ∨ d.get? k = some v := by
  rw [updateGet] at found
  cases last : entries.reverse.find? fun e => e.1 = k with
  | none =>
    rw [last] at found
    exact Or.inr found
  | some e =>
    rw [last] at found
    cases found
    have same := List.find?_some last
    simp only [decide_eq_true_eq] at same
    subst same
    exact Or.inl (List.mem_reverse.mp (List.mem_of_find?_eq_some last))

theorem updateGetOther {d : Dict κ ν} {entries : List (κ × ν)} {k : κ} (other : ∀ e ∈ entries, e.1 ≠ k) :
    (d.update entries).get? k = d.get? k := by
  have missing : entries.reverse.find? (fun e => e.1 = k) = none := by
    simpa [List.find?_eq_none] using other
  rw [updateGet, missing]
  rfl

theorem updateGetUnique {d : Dict κ ν} {entries : List (κ × ν)} {k : κ} {v : ν} (unique : (keys entries).Nodup)
    (member : (k, v) ∈ entries) : (d.update entries).get? k = some v := by
  rw [updateGet]
  cases last : entries.reverse.find? fun e => e.1 = k with
  | none =>
    have absent := List.find?_eq_none.mp last (k, v) (List.mem_reverse.mpr member)
    simp at absent
  | some e =>
    have inside := List.mem_reverse.mp (List.mem_of_find?_eq_some last)
    have same : e.1 = k := by simpa using List.find?_some last
    rw [List.inj_on_of_nodup_map unique inside member same]
    rfl

section Build
variable (key : α → κ)

theorem buildGetSome {items : List α} {k : κ} {item : α} (found : (build key items).get? k = some item) :
    item ∈ items ∧ key item = k := by
  rcases updateGetSome found with inside | absurd
  · obtain ⟨other, member, same⟩ := List.mem_map.mp inside
    cases same
    exact ⟨member, rfl⟩
  · simp at absurd

theorem buildGetNone {items : List α} {k : κ} :
    (build key items).get? k = none ↔ ∀ item ∈ items, key item ≠ k := by
  rw [build, updateGetNone]
  simp

theorem buildGetUnique {items : List α} (unique : (items.map key).Nodup) {item : α} (member : item ∈ items) :
    (build key items).get? (key item) = some item := by
  cases found : (build key items).get? (key item) with
  | none => exact absurd rfl ((buildGetNone key).mp found item member)
  | some other =>
    obtain ⟨inside, same⟩ := buildGetSome key found
    rw [List.inj_on_of_nodup_map unique inside member same]

end Build

theorem eraseGet {d : Dict κ ν} (unique : d.keys.Nodup) (k k' : κ) :
    (d.erase k).get? k' = if k = k' then none else d.get? k' := by
  induction d with
  | nil => simp [erase]
  | cons e d ih =>
    obtain ⟨fresh, rest⟩ := List.nodup_cons.mp unique
    simp only [erase]
    by_cases same : e.1 = k
    · rw [if_pos same]
      subst same
      by_cases here : e.1 = k'
      · rw [if_pos here]
        cases found : Dict.get? d k' with
        | none => rfl
        | some v =>
          have inside := (getSome d k').mpr ⟨v, found⟩
          exact absurd (here ▸ inside) fresh
      · simp [get?, here]
    · rw [if_neg same]
      simp only [get?, ih rest]
      by_cases here : e.1 = k'
      · simp [here, show ¬ k = k' from fun other => same (here.trans other.symm)]
      · simp [here]

theorem eraseSublist (d : Dict κ ν) (k : κ) : (d.erase k).Sublist d := by
  induction d with
  | nil => exact .slnil
  | cons e d ih =>
    simp only [erase]
    split
    · exact List.sublist_cons_self _ _
    · exact ih.cons_cons _

section GroupFirst
variable (key : α → κ)

theorem groupFirstFrom (items : List α) (d : Dict κ α) (k : κ) :
    k ∈ (items.foldl (fun d item => d.setDefault (key item) item) d).keys ↔
      k ∈ d.keys ∨ ∃ item ∈ items, key item = k := by
  induction items generalizing d with
  | nil => simp
  | cons item items ih =>
    simp only [List.foldl_cons, ih, setDefaultKeys, List.mem_cons, exists_eq_or_imp]
    tauto

theorem groupFirstEntryFrom (items : List α) (d : Dict κ α) {e : κ × α}
    (member : e ∈ items.foldl (fun d item => d.setDefault (key item) item) d) :
    e ∈ d ∨ (e.2 ∈ items ∧ key e.2 = e.1) := by
  induction items generalizing d with
  | nil => exact Or.inl member
  | cons item items ih =>
    rcases ih _ member with old | new
    · rcases setDefaultMember old with old | rfl
      · exact Or.inl old
      · exact Or.inr ⟨List.mem_cons_self, rfl⟩
    · exact Or.inr ⟨List.mem_cons_of_mem _ new.1, new.2⟩

theorem groupFirstSource {items : List α} {item : α} (member : item ∈ (groupFirst key items).values) :
    item ∈ items := by
  obtain ⟨e, inside, rfl⟩ := List.mem_map.mp member
  rcases groupFirstEntryFrom key items [] inside with absurd | found
  · simp at absurd
  · exact found.1

/-- Every key an item carries is answered for by some item kept under it. -/
theorem groupFirstKept {items : List α} {item : α} (member : item ∈ items) :
    ∃ kept ∈ (groupFirst key items).values, key kept = key item := by
  have present : key item ∈ (groupFirst key items).keys :=
    (groupFirstFrom key items [] (key item)).mpr (Or.inr ⟨item, member, rfl⟩)
  obtain ⟨e, inside, same⟩ := List.mem_map.mp present
  rcases groupFirstEntryFrom key items [] inside with absurd | found
  · simp at absurd
  · exact ⟨e.2, List.mem_map.mpr ⟨e, inside, rfl⟩, found.2.trans same⟩

end GroupFirst
end Dict

section SortBy
variable {α β : Type*} [LinearOrder β]

/-- A stable sort by one key, as the language's own sort with a key is. -/
def sortBy (key : α → β) (items : List α) : List α :=
  items.insertionSort (fun a b => key a ≤ key b)

instance keyTotal (key : α → β) : Std.Total (fun a b => key a ≤ key b) := ⟨fun a b => le_total (key a) (key b)⟩
instance keyTrans (key : α → β) : IsTrans α (fun a b => key a ≤ key b) := ⟨fun _ _ _ => le_trans⟩

theorem sortByPerm (key : α → β) (items : List α) : (sortBy key items).Perm items :=
  List.perm_insertionSort _ items

@[simp] theorem memSortBy {key : α → β} {items : List α} {item : α} :
    item ∈ sortBy key items ↔ item ∈ items := (sortByPerm key items).mem_iff

theorem sortByOrdered (key : α → β) (items : List α) :
    (sortBy key items).Pairwise (fun a b => key a ≤ key b) :=
  List.pairwise_insertionSort _ items

/-- Items of one key come out in the order they went in. -/
theorem sortByStable (key : α → β) (items : List α) (k : β) :
    (items.filter (fun a => key a = k)).Sublist (sortBy key items) := by
  refine List.sublist_insertionSort ?_ List.filter_sublist
  refine List.Pairwise.imp_of_mem ?_ (List.pairwise_of_forall (R := fun _ _ => True) (fun _ _ => trivial))
  intro a b ha hb _
  simp only [List.mem_filter, decide_eq_true_eq] at ha hb
  rw [ha.2, hb.2]

theorem sortByFilter (key : α → β) (items : List α) (k : β) :
    (sortBy key items).filter (fun a => key a = k) = items.filter (fun a => key a = k) := by
  have kept := (sortByStable key items k).filter (fun a => key a = k)
  rw [List.filter_filter] at kept
  simp only [Bool.and_self] at kept
  exact (kept.eq_of_length ((sortByPerm key items).filter _).length_eq.symm).symm

end SortBy
end Kodezart
