import Mathlib
import Kodezart.Dict

/-! Retained native observations, receipts of the operation's own writes, and the replay
that tells its own churn from movement. -/
namespace Kodezart.SelfWrites

abbrev FieldValues := List (String × String)
abbrev CommentValues := List (String × FieldValues)

/-- A stable issue and complete comment log, separate from its scan stamp. -/
structure IssueMovementSnapshot where
  issueKey : String
  updatedAt : Int
  fields : FieldValues
  comments : CommentValues
  deriving DecidableEq, Repr

/-- Only fields actually written, never an arbitrary post-write snapshot. -/
structure OwnMutation where
  fields : FieldValues := []
  expectedFields : FieldValues := []
  additions : List (String × List String) := []
  created : CommentValues := []
  edited : CommentValues := []
  deleted : List String := []
  deriving DecidableEq, Repr

/-- The JSON the interpreter reads and writes: a text's value, its items where it is a list,
`==` between values, and a list's compact text. -/
structure JsonLibrary (Value : Type) where
  loads : String → Value
  items : Value → Option (List Value)
  same : Value → Value → Bool
  dumps : List Value → String

structure Content where
  fields : Dict String String
  comments : Dict String FieldValues
  deriving DecidableEq, Repr

def IssueMovementSnapshot.content (snapshot : IssueMovementSnapshot) : Content :=
  ⟨Dict.update [] snapshot.fields, Dict.update [] snapshot.comments⟩

def Content.sorted (content : Content) : FieldValues × CommentValues :=
  (sortBy Prod.fst content.fields, sortBy Prod.fst content.comments)

section Replay
variable {Value : Type} (json : JsonLibrary Value)

def appended (held : String) (additions : List String) : Option String := do
  let items ← json.items (json.loads held)
  return json.dumps (additions.foldl (fun items encoded =>
    if items.any (json.same (json.loads encoded)) then items else items ++ [json.loads encoded]) items)

def add (fields : Dict String String) : List (String × List String) → Option (Dict String String)
  | [] => some fields
  | (key, additions) :: rest => do
    let held ← fields.get? key
    let written ← appended json held additions
    add (fields.set key written) rest

def create (comments : Dict String FieldValues) : CommentValues → Option (Dict String FieldValues)
  | [] => some comments
  | (key, values) :: rest => if key ∈ comments.keys then none else create (comments.set key values) rest

def edit (comments : Dict String FieldValues) : CommentValues → Option (Dict String FieldValues)
  | [] => some comments
  | (key, values) :: rest =>
    match comments.get? key with
    | none => none
    | some held => edit (comments.set key (sortBy Prod.fst (Dict.update (Dict.update [] held) values))) rest

def delete (comments : Dict String FieldValues) : List String → Option (Dict String FieldValues)
  | [] => some comments
  | key :: rest => if key ∈ comments.keys then delete (comments.erase key) rest else none

/-- One receipt over the content it was written on, or nothing where it does not fit. -/
def replayOne (content : Content) (mutation : OwnMutation) : Option Content :=
  if ∃ e ∈ mutation.expectedFields, content.fields.get? e.1 ≠ some e.2 then none
  else do
    let fields ← add json (content.fields.update mutation.fields) mutation.additions
    let created ← create content.comments mutation.created
    let edited ← edit created mutation.edited
    let comments ← delete edited mutation.deleted
    return ⟨fields, comments⟩

/-- What the receipts make of a snapshot's fields and comments, in key order. -/
def replay (before : IssueMovementSnapshot) (mutations : List OwnMutation) : Option (FieldValues × CommentValues) :=
  (mutations.foldlM (replayOne json) before.content).map Content.sorted

/-- Whether replaying nonempty receipts explains the observed content. -/
def matchesOwnMutations (before after : IssueMovementSnapshot) (mutations : List OwnMutation) : Bool :=
  if before.issueKey ≠ after.issueKey ∨ mutations = [] then false
  else replay json before mutations = some (after.fields, after.comments)

end Replay

def selfWriteReceiptLimit : Nat := 256

/-- Atomic issue stamps and ordered explicit mutation receipts. -/
structure SelfWriteLedger where
  stamps : Dict String Int
  mutations : List (String × Nat × OwnMutation)
  versions : Dict String Nat
  discarded : Dict String Nat
  deriving DecidableEq, Repr

namespace SelfWriteLedger

def new : SelfWriteLedger := ⟨[], [], [], []⟩

def record (ledger : SelfWriteLedger) (issueKey : String) (updatedAt : Int) : SelfWriteLedger :=
  { ledger with stamps := ledger.stamps.set issueKey updatedAt }

/-- Whether a stamp is exactly what our own last write left. -/
def wrote (ledger : SelfWriteLedger) (issueKey : String) (updatedAt : Int) : Bool :=
  ledger.stamps.get? issueKey = some updatedAt

def version (ledger : SelfWriteLedger) (issueKey : String) : Nat := (ledger.versions.get? issueKey).getD 0

def discardedUpTo (ledger : SelfWriteLedger) (issueKey : String) : Nat := (ledger.discarded.get? issueKey).getD 0

/-- The oldest receipt goes once the limit is held. -/
def evicted (ledger : SelfWriteLedger) : SelfWriteLedger :=
  match ledger.mutations with
  | (issueKey, version, _) :: rest =>
    if ledger.mutations.length = selfWriteReceiptLimit then
      { ledger with mutations := rest, discarded := ledger.discarded.set issueKey version }
    else ledger
  | [] => ledger

def recordMutation (ledger : SelfWriteLedger) (issueKey : String) (mutation : OwnMutation) : SelfWriteLedger :=
  let kept := ledger.evicted
  let version := kept.version issueKey + 1
  { kept with
    versions := kept.versions.set issueKey version
    mutations := kept.mutations ++ [(issueKey, version, mutation)] }

/-- A cursor and complete receipts, or none for evicted history. -/
def receipts (ledger : SelfWriteLedger) (issueKey : String) (after : Nat) : Nat × Option (List OwnMutation) :=
  let version := ledger.version issueKey
  if after < ledger.discardedUpTo issueKey ∨ version < after then (version, none)
  else (version, some ((ledger.mutations.filter fun held => held.1 = issueKey ∧ after < held.2.1).map
    fun held => held.2.2))

end SelfWriteLedger

/-- The receipts of one issue among the mutations the operation has recorded. -/
def ownOn (issueKey : String) (log : List (String × OwnMutation)) : List OwnMutation :=
  (log.filter fun entry => entry.1 = issueKey).map Prod.snd

/-- Mutations numbered issue by issue, after those that went before. -/
def numbered (before : List (String × OwnMutation)) : List (String × OwnMutation) → List (String × Nat × OwnMutation)
  | [] => []
  | entry :: rest => (entry.1, (ownOn entry.1 before).length + 1, entry.2) :: numbered (before ++ [entry]) rest

/-- A ledger the recorded mutations have come through: the oldest are discarded, the rest
stand, each under its number. -/
structure Came (log : List (String × OwnMutation)) (ledger : SelfWriteLedger) : Prop where
  version : ∀ issueKey, ledger.version issueKey = (ownOn issueKey log).length
  held : ∃ dropped kept, log = dropped ++ kept ∧ ledger.mutations = numbered dropped kept ∧
    ∀ issueKey, ledger.discardedUpTo issueKey = (ownOn issueKey dropped).length

section Receipts
variable {log before more : List (String × OwnMutation)} {ledger : SelfWriteLedger} {issueKey : String}

@[simp] theorem ownOnAppend : ownOn issueKey (before ++ more) = ownOn issueKey before ++ ownOn issueKey more := by
  simp [ownOn]

theorem numberedAppend : numbered log (before ++ more) = numbered log before ++ numbered (log ++ before) more := by
  induction before generalizing log with
  | nil => simp [numbered]
  | cons entry before ih => simp [numbered, ih]

/-- The entries of one issue past a number are its mutations past that many. -/
theorem numberedPast (after : Nat) :
    ((numbered before log).filter fun held => held.1 = issueKey ∧ after < held.2.1).map (fun held => held.2.2) =
      (ownOn issueKey log).drop (after - (ownOn issueKey before).length) := by
  induction log generalizing before with
  | nil => simp [numbered, ownOn]
  | cons entry log ih =>
    have cons : ownOn issueKey (entry :: log) = ownOn issueKey [entry] ++ ownOn issueKey log := by
      rw [← ownOnAppend, List.singleton_append]
    rw [numbered, List.filter_cons, cons]
    by_cases mine : entry.1 = issueKey
    · subst mine
      have own : ownOn entry.1 [entry] = [entry.2] := by simp [ownOn]
      rw [own, List.singleton_append]
      by_cases past : after ≤ (ownOn entry.1 before).length
      · have none : after - (ownOn entry.1 before).length = 0 := by omega
        rw [if_pos (by simpa using Nat.lt_succ_of_le past), List.map_cons, ih, ownOnAppend, own, none,
          List.length_append, List.length_singleton, List.drop_zero]
        rw [show after - ((ownOn entry.1 before).length + 1) = 0 by omega, List.drop_zero]
      · rw [if_neg (by simpa using Nat.lt_of_not_le past), ih, ownOnAppend, own, List.length_append,
          List.length_singleton]
        rw [show after - (ownOn entry.1 before).length = after - ((ownOn entry.1 before).length + 1) + 1 by omega,
          List.drop_succ_cons]
    · have own : ownOn issueKey [entry] = [] := by simp [ownOn, mine]
      rw [if_neg (by simp [mine]), ih, ownOnAppend, own, List.append_nil, List.nil_append]

theorem cameNew : Came [] SelfWriteLedger.new :=
  ⟨fun _ => rfl, [], [], rfl, rfl, fun _ => rfl⟩

theorem cameRecord (came : Came log ledger) (issueKey : String) (updatedAt : Int) :
    Came log (ledger.record issueKey updatedAt) := ⟨came.version, came.held⟩

theorem cameEvicted (came : Came log ledger) : Came log ledger.evicted := by
  obtain ⟨version, dropped, kept, rfl, held, discarded⟩ := came
  simp only [SelfWriteLedger.evicted]
  split
  · rename_i oldest number mutation rest standing
    split
    · cases kept with
      | nil => simp [numbered, standing] at held
      | cons entry kept =>
        obtain ⟨first, last⟩ := List.cons.inj (standing.symm.trans held)
        cases first
        refine ⟨version, dropped ++ [entry], kept, by simp, last, fun issueKey => ?_⟩
        simp only [SelfWriteLedger.discardedUpTo, Dict.getSet, ownOnAppend, List.length_append]
        by_cases mine : entry.1 = issueKey
        · subst mine
          simp [ownOn]
        · rw [if_neg mine]
          simpa [ownOn, mine, SelfWriteLedger.discardedUpTo] using discarded issueKey
    · exact ⟨version, dropped, kept, rfl, held, discarded⟩
  · exact ⟨version, dropped, kept, rfl, held, discarded⟩

theorem cameMutation (came : Came log ledger) (issueKey : String) (mutation : OwnMutation) :
    Came (log ++ [(issueKey, mutation)]) (ledger.recordMutation issueKey mutation) := by
  obtain ⟨version, dropped, kept, rfl, held, discarded⟩ := cameEvicted came
  refine ⟨fun other => ?_, dropped, kept ++ [(issueKey, mutation)], by simp, ?_, discarded⟩
  · simp only [SelfWriteLedger.recordMutation, SelfWriteLedger.version, Dict.getSet, ownOnAppend, List.length_append]
    by_cases mine : issueKey = other
    · subst mine
      simpa [ownOn, SelfWriteLedger.version] using version issueKey
    · rw [if_neg mine]
      simpa [ownOn, mine, SelfWriteLedger.version] using version other
  · rw [numberedAppend, ← held]
    simp [SelfWriteLedger.recordMutation, numbered, version issueKey]

/-- What is read past a cursor is all of the issue's mutations past it, or evicted. -/
theorem receiptsPast (came : Came log ledger) (after : Nat) :
    (ledger.receipts issueKey after).1 = (ownOn issueKey log).length ∧
      ((ledger.receipts issueKey after).2 = none ∨
        (ledger.receipts issueKey after).2 = some ((ownOn issueKey log).drop after)) := by
  obtain ⟨version, dropped, kept, rfl, held, discarded⟩ := came
  simp only [SelfWriteLedger.receipts]
  split
  · exact ⟨version issueKey, Or.inl rfl⟩
  · rename_i present
    refine ⟨version issueKey, Or.inr ?_⟩
    have past : (ownOn issueKey dropped).length ≤ after := by
      rw [← discarded issueKey]
      omega
    rw [held, numberedPast, ownOnAppend, List.drop_append, List.drop_eq_nil_of_le past, List.nil_append]

/-- The numbers under which an issue's mutations stand after those that went before. -/
theorem numberedHolds {number : Nat} :
    (∃ mutation, (issueKey, number, mutation) ∈ numbered before log) ↔
      (ownOn issueKey before).length < number ∧ number ≤ (ownOn issueKey (before ++ log)).length := by
  induction log generalizing before with
  | nil =>
    simp only [numbered, List.not_mem_nil, exists_false, List.append_nil, false_iff]
    omega
  | cons entry log ih =>
    have here : (∃ mutation, (issueKey, number, mutation) = (entry.1, (ownOn entry.1 before).length + 1, entry.2)) ↔
        entry.1 = issueKey ∧ number = (ownOn issueKey before).length + 1 := by
      constructor
      · rintro ⟨mutation, same⟩
        obtain ⟨rfl, rest⟩ := Prod.mk.inj same
        exact ⟨rfl, (Prod.mk.inj rest).1⟩
      · rintro ⟨rfl, rfl⟩
        exact ⟨_, rfl⟩
    have later := @ih (before ++ [entry])
    rw [List.append_assoc, List.singleton_append] at later
    simp only [numbered, List.mem_cons, exists_or, here, later]
    by_cases mine : entry.1 = issueKey
    · have grown : (ownOn issueKey (before ++ [entry])).length = (ownOn issueKey before).length + 1 := by
        simp [ownOn, mine]
      have total : (ownOn issueKey before).length + 1 ≤ (ownOn issueKey (before ++ entry :: log)).length := by
        simp [ownOn, mine]
      simp only [mine, true_and]
      omega
    · have same : (ownOn issueKey (before ++ [entry])).length = (ownOn issueKey before).length := by
        simp [ownOn, mine]
      rw [same]
      simp only [mine, false_and, false_or]

/-- The ledger that a sequence of recorded mutations leaves. -/
def ledgerOf (log : List (String × OwnMutation)) : SelfWriteLedger :=
  log.foldl (fun ledger entry => ledger.recordMutation entry.1 entry.2) .new

theorem cameLedger (log : List (String × OwnMutation)) : Came log (ledgerOf log) := by
  induction log using List.reverseRecOn with
  | nil => exact cameNew
  | append_singleton log entry ih =>
    rw [ledgerOf, List.foldl_append]
    exact cameMutation ih entry.1 entry.2

/-- Every mutation of the issue numbered past the cursor still stands in the ledger. -/
def SelfWriteLedger.Retains (ledger : SelfWriteLedger) (issueKey : String) (after : Nat) : Prop :=
  ∀ number, after < number → number ≤ ledger.version issueKey →
    ∃ mutation, (issueKey, number, mutation) ∈ ledger.mutations

theorem retainsFrom (came : Came log ledger) (after : Nat) (within : after ≤ ledger.version issueKey) :
    ledger.Retains issueKey after ↔ ledger.discardedUpTo issueKey ≤ after := by
  obtain ⟨version, dropped, kept, rfl, held, discarded⟩ := came
  have total : (ownOn issueKey dropped).length ≤ (ownOn issueKey (dropped ++ kept)).length := by simp
  simp only [SelfWriteLedger.Retains, held, numberedHolds, version, discarded] at within ⊢
  constructor
  · intro retained
    by_contra short
    have next := retained (after + 1) (by omega) (by omega)
    omega
  · intro enough number past upTo
    exact ⟨by omega, upTo⟩

open Classical in
/-- What is read past a cursor is the whole of the issue's mutations past it, in the order they
were recorded, where all of them are retained; in every other case it is none. -/
theorem receiptsExact (log : List (String × OwnMutation)) (issueKey : String) (after : Nat) :
    (ledgerOf log).receipts issueKey after = ((ownOn issueKey log).length,
      if after ≤ (ownOn issueKey log).length ∧ (ledgerOf log).Retains issueKey after then
        some ((ownOn issueKey log).drop after)
      else none) := by
  have came := cameLedger log
  obtain ⟨cursor, history⟩ := receiptsPast came after
  refine Prod.ext cursor ?_
  rw [← came.version issueKey]
  by_cases within : after ≤ (ledgerOf log).version issueKey
  · rw [retainsFrom came after within]
    by_cases enough : (ledgerOf log).discardedUpTo issueKey ≤ after
    · have present : ((ledgerOf log).receipts issueKey after).2 ≠ none := by
        simp [SelfWriteLedger.receipts, Nat.not_lt.mpr enough, Nat.not_lt.mpr within]
      rw [if_pos ⟨within, enough⟩]
      exact history.resolve_left present
    · rw [if_neg fun both => enough both.2]
      simp [SelfWriteLedger.receipts, Nat.not_le.mp enough]
  · rw [if_neg fun both => within both.1]
    simp [SelfWriteLedger.receipts, Nat.not_le.mp within]

end Receipts
end Kodezart.SelfWrites
