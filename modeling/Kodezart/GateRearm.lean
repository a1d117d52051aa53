import Mathlib
import Kodezart.GateMarks

/-! What putting the marks back leaves after a delta, wherever it stopped: each ask of it
answered on its own, refused, or never reached. -/
namespace Kodezart.Gate
open SelfWrites

namespace PassGate
variable {Value : Type} (json : JsonLibrary Value)

def opened (gate : PassGate) : PassGate := { gate with advanced := [], previousObservations := gate.observations }

/-- Asks one after another, each with what its own reads were answered. An ask that is refused,
or cut short at a read, has moved nothing: what it saw is committed after the last of them. -/
def observeEach (gate : PassGate) : List (Asked × Tracker) → PassGate
  | [] => gate
  | (asked, tracker) :: rest =>
    match gate.observe json tracker asked with
    | .error _ => gate.observeEach rest
    | .ok (_, gate) => gate.observeEach rest

/-- Every question of the gate, in the order a delta asks them. -/
def questions (gate : PassGate) : List Asked :=
  match asks gate.teamKeys gate.repoUrls gate.signals with
  | .ok asked => asked
  | .error _ => []

/-- A delta that has come as far as these asks. -/
def Asks (gate : PassGate) (done : List (Asked × Tracker)) : Prop := done.map Prod.fst <+: gate.questions

/-- Gates that were built and have been used since: deltas that ran or were cut short, and
marks put back. -/
inductive Reached : PassGate → Prop where
  | new {signals : List PassSignal} {teamKeys repoUrls : List String} {pageSize : Nat} {gate : PassGate}
      (built : PassGate.new signals teamKeys repoUrls pageSize = .ok gate) : Reached gate
  | delta {gate : PassGate} {done : List (Asked × Tracker)} (before : Reached gate) (asks : gate.Asks done) :
      Reached (gate.opened.observeEach json done)
  | rearm {gate : PassGate} (before : Reached gate) : Reached gate.rearm

/-- A question whose answer moves a mark. -/
def movesMark (asked : Asked) : Bool := asked.1 ≠ .triageBacklog

/-- Putting the marks back is an exact rollback to the start, and there is nothing more to put back. -/
structure RolledBack (start after : PassGate) : Prop where
  marks : ∀ asked, after.rearm.marks.get? asked = start.marks.get? asked
  observations : after.rearm.observations = start.observations
  again : after.rearm.rearm = after.rearm
  idle : after.advanced = [] → after.rearm = after

section Steps
variable {json} {gate gate' : PassGate} {tracker : Tracker} {asked : Asked} {moved : List String}

/-- An answered ask leaves the gate, or advances its mark over some rows. -/
theorem observeCases (answered : gate.observe json tracker asked = .ok (moved, gate')) :
    gate' = gate ∨ movesMark asked = true ∧ ∃ rows observed,
      gate' = { gate.advance asked rows with observations := observed } := by
  cases observeOk answered with
  | still => exact .inl rfl
  | reviews => exact .inr ⟨rfl, _, _, rfl⟩
  | @issues signal team state rows seen scan =>
    refine .inr ⟨?_, _, _, rfl⟩
    cases signal with
    | triageBacklog => cases scan
    | _ => rfl

theorem observeEachKeeps {keep : PassGate → Prop}
    (step : ∀ gate asked rows observed, movesMark asked = true → keep gate →
      keep { gate.advance asked rows with observations := observed })
    (done : List (Asked × Tracker)) (kept : keep gate) : keep (gate.observeEach json done) := by
  induction done generalizing gate with
  | nil => exact kept
  | cons one rest ih =>
    obtain ⟨asked, tracker⟩ := one
    simp only [observeEach]
    split
    · exact ih kept
    · rename_i moved gate' answered
      rcases observeCases answered with rfl | ⟨moves, rows, observed, rfl⟩
      · exact ih kept
      · exact ih (step gate asked rows observed moves kept)

/-- What construction establishes and every use of a gate leaves: each question has a mark. -/
def Marked (gate : PassGate) : Prop := ∀ asked ∈ gate.questions, gate.marks.get? asked ≠ none

theorem advanceMarked {rows : List Scanned} {observed : Dict Watched Observation} (marked : Marked gate) :
    Marked { gate.advance asked rows with observations := observed } := by
  intro other inside
  simp only [advance, Dict.getSet]
  split
  · exact Option.some_ne_none _
  · exact marked other inside

theorem reachedMarked (reached : Reached json gate) : Marked gate := by
  induction reached with
  | new built =>
    obtain ⟨asked, found, made⟩ := bindOk.mp built
    cases made
    intro one inside absent
    simp only [questions, found] at inside
    exact (Dict.updateGetNone.mp absent).2 _ (List.mem_map_of_mem inside) rfl
  | delta before asks ih =>
    exact observeEachKeeps (fun gate asked rows observed _ marked => advanceMarked marked) _ ih
  | rearm before ih =>
    intro one inside absent
    exact ih one inside (Dict.updateGetNone.mp absent).1

end Steps

section Rollback
variable {json} {start gate : PassGate}

/-- How a gate stands to the one its delta began from: what it advanced held what is set aside,
and what it has not advanced is as it was. -/
structure Advanced (start gate : PassGate) : Prop where
  unique : gate.advanced.keys.Nodup
  known : ∀ asked ∈ gate.advanced.keys, start.marks.get? asked ≠ none
  held : ∀ asked previous, gate.advanced.get? asked = some previous → previous = start.mark asked
  others : ∀ asked, gate.advanced.get? asked = none → gate.marks.get? asked = start.marks.get? asked
  previous : gate.previousObservations = start.observations
  observations : gate.advanced = [] → gate.observations = start.observations

theorem openedAdvanced : Advanced gate gate.opened := by
  refine ⟨List.nodup_nil, by simp [opened, Dict.keys], ?_, fun _ _ => rfl, rfl, fun _ => rfl⟩
  intro asked previous held
  cases held

theorem advanceAdvanced {asked : Asked} {rows : List Scanned} {observed : Dict Watched Observation}
    (advanced : Advanced start gate) (known : start.marks.get? asked ≠ none) (fresh : asked ∉ gate.advanced.keys) :
    Advanced start { gate.advance asked rows with observations := observed } := by
  have absent : gate.advanced.get? asked = none := by
    rw [← Option.not_isSome_iff_eq_none]
    intro present
    obtain ⟨previous, found⟩ := Option.isSome_iff_exists.mp present
    exact fresh ((Dict.getSome _ _).mpr ⟨previous, found⟩)
  refine ⟨Dict.setNodup _ _ advanced.unique, ?_, ?_, ?_, advanced.previous, ?_⟩
  · intro other inside
    obtain ⟨previous, found⟩ := (Dict.getSome _ _).mp inside
    simp only [advance, Dict.getSet] at found
    split at found
    · rename_i same
      exact same ▸ known
    · exact advanced.known other ((Dict.getSome _ _).mpr ⟨previous, found⟩)
  · intro other previous found
    simp only [advance, Dict.getSet] at found
    split at found
    · rename_i same
      subst same
      rw [← Option.some.inj found, mark, advanced.others asked absent, mark]
    · exact advanced.held other previous found
  · intro other found
    simp only [advance, Dict.getSet] at found ⊢
    split at found
    · cases found
    · rename_i different
      rw [if_neg different]
      exact advanced.others other found
  · intro none_advanced
    have set : (gate.advanced.set asked (gate.mark asked)).get? asked = some _ := Dict.getSetSame _ _ _
    rw [show gate.advanced.set asked (gate.mark asked) = [] from none_advanced] at set
    cases set

theorem rearmIdle (idle : gate.advanced = []) : gate.rearm = gate := by
  cases gate
  cases idle
  rfl

theorem advancedRolledBack (advanced : Advanced start gate) : RolledBack start gate := by
  refine ⟨fun asked => ?_, ?_, ?_, fun idle => ?_⟩
  · simp only [rearm]
    cases found : gate.advanced.get? asked with
    | none =>
      rw [Dict.updateGetOther fun e member same => ?_]
      · exact advanced.others asked found
      · have held := Dict.getOfMember advanced.unique member
        rw [same, found] at held
        cases held
    | some previous =>
      rw [Dict.updateGetUnique advanced.unique (Dict.getMember found)]
      have before := advanced.known asked ((Dict.getSome _ _).mpr ⟨previous, found⟩)
      obtain ⟨stamp, stood⟩ := Option.ne_none_iff_exists'.mp before
      rw [stood, advanced.held asked previous found, mark, stood]
      rfl
  · simp only [rearm]
    split
    · rename_i idle
      exact advanced.observations idle
    · exact advanced.previous
  · simp [rearm, Dict.update]
  · exact rearmIdle idle

theorem observeEachAdvanced (done : List (Asked × Tracker)) (advanced : Advanced start gate)
    (known : ∀ one ∈ done, start.marks.get? one.1 ≠ none)
    (once : ((done.map Prod.fst).filter movesMark).Nodup)
    (fresh : ∀ asked ∈ gate.advanced.keys, asked ∉ done.map Prod.fst) :
    Advanced start (gate.observeEach json done) := by
  induction done generalizing gate with
  | nil => exact advanced
  | cons one rest ih =>
    obtain ⟨asked, tracker⟩ := one
    simp only [List.mem_cons, forall_eq_or_imp] at known
    have onceLater : ((rest.map Prod.fst).filter movesMark).Nodup :=
      once.sublist ((List.sublist_cons_self _ _).filter movesMark)
    have freshLater (other) (inside : other ∈ gate.advanced.keys) : other ∉ rest.map Prod.fst :=
      fun later => fresh other inside (List.mem_cons_of_mem _ later)
    simp only [observeEach]
    split
    · exact ih advanced known.2 onceLater freshLater
    · rename_i moved gate' answered
      rcases observeCases answered with rfl | ⟨moves, rows, observed, rfl⟩
      · exact ih advanced known.2 onceLater freshLater
      · have unasked : asked ∉ gate.advanced.keys := fun inside => fresh asked inside List.mem_cons_self
        refine ih (advanceAdvanced advanced known.1 unasked) known.2 onceLater fun other inside later => ?_
        obtain ⟨previous, found⟩ := (Dict.getSome _ _).mp inside
        simp only [advance, Dict.getSet] at found
        split at found
        · rename_i same
          subst same
          rw [List.map_cons, List.filter_cons, if_pos moves] at once
          exact (List.nodup_cons.mp once).1 (List.mem_filter.mpr ⟨later, moves⟩)
        · exact freshLater other ((Dict.getSome _ _).mpr ⟨previous, found⟩) later

end Rollback

section Twice
variable {json} {gate : PassGate} {question : Asked} {stamp : Int}

/-- A tracker that refuses every read, and one with a single row of one stamp for every scan. -/
def refusing : Tracker := ⟨fun _ => none, fun _ => none, fun _ => ⟨.new, none, .new⟩⟩

def stamped (stamp : Int) : Tracker :=
  ⟨fun _ => some [⟨"KOD-86", stamp⟩], fun _ => some [⟨"KOD-86", stamp⟩],
    fun row => ⟨.new, some ⟨row.key, row.updatedAt, [], []⟩, .new⟩⟩

theorem refusedStill (asked : Asked) : ∃ refusal, gate.observe json refusing asked = .error refusal := by
  obtain ⟨signal, container⟩ := asked
  cases signal <;> exact ⟨_, rfl⟩

theorem stampedSeen (asked : Asked) : ∃ seen,
    gate.observePage json (stamped stamp) asked [⟨"KOD-86", stamp⟩] = .ok seen := by
  have cursor (after : Nat) : (SelfWriteLedger.new.receipts "KOD-86" after).1 = 0 := by
    simp only [SelfWriteLedger.receipts]
    split <;> rfl
  simp [observePage, observeIssue, stamped, cursor, bind, Except.bind, pure, Except.pure]

theorem stampedAdvances (moves : movesMark question = true) : ∃ moved observed,
    gate.observe json (stamped stamp) question =
      .ok (moved, { gate.advance question [⟨"KOD-86", stamp⟩] with observations := observed }) := by
  obtain ⟨signal, container⟩ := question
  cases signal with
  | triageBacklog => cases moves
  | reviewsChanged => exact ⟨_, _, rfl⟩
  | approvedChanged =>
    obtain ⟨seen, found⟩ := stampedSeen (.approvedChanged, container)
    exact ⟨_, _, bindOk.mpr ⟨seen, found, rfl⟩⟩
  | issuesChanged =>
    obtain ⟨seen, found⟩ := stampedSeen (.issuesChanged, container)
    exact ⟨_, _, bindOk.mpr ⟨seen, found, rfl⟩⟩

/-- The delta in which the one question is answered and every other refused. -/
def answeredAlone (question : Asked) (stamp : Int) (asked : List Asked) : List (Asked × Tracker) :=
  asked.map fun one => (one, if one = question then stamped stamp else refusing)

theorem askedAlone (moves : movesMark question = true) (asked : List Asked) : ∃ observed,
    gate.observeEach json (answeredAlone question stamp (question :: asked)) =
      PassGate.observeEach json { gate.advance question [⟨"KOD-86", stamp⟩] with observations := observed }
        (answeredAlone question stamp asked) := by
  obtain ⟨moved, observed, answered⟩ : ∃ moved observed, gate.observe json (stamped stamp) question =
      .ok (moved, { gate.advance question [⟨"KOD-86", stamp⟩] with observations := observed }) := stampedAdvances moves
  exact ⟨observed, by simp [answeredAlone, observeEach, answered]⟩

theorem askedOther {one : Asked} (other : one ≠ question) (asked : List Asked) :
    gate.observeEach json (answeredAlone question stamp (one :: asked)) =
      gate.observeEach json (answeredAlone question stamp asked) := by
  obtain ⟨refusal, refused⟩ : ∃ refusal, gate.observe json refusing one = .error refusal := refusedStill one
  simp [answeredAlone, observeEach, other, refused]

/-- The mark of a question's first answer is the one set aside. -/
def Overwritten (question : Asked) (stamp : Int) (gate : PassGate) : Prop :=
  gate.mark question = some stamp ∧ gate.advanced.get? question = some (some stamp)

theorem advanceStamped {observed : Dict Watched Observation} :
    PassGate.mark { gate.advance question [⟨"KOD-86", stamp⟩] with observations := observed } question = some stamp := by
  simp [mark, advance]

theorem overwrittenStays (moves : movesMark question = true) (asked : List Asked)
    (overwritten : Overwritten question stamp gate) :
    Overwritten question stamp (gate.observeEach json (answeredAlone question stamp asked)) := by
  induction asked generalizing gate with
  | nil => exact overwritten
  | cons one asked ih =>
    by_cases same : one = question
    · subst same
      obtain ⟨observed, step⟩ := askedAlone moves asked
      rw [step]
      exact ih ⟨advanceStamped, by simp [advance, overwritten.1]⟩
    · rw [askedOther same]
      exact ih overwritten

theorem askedAgain (moves : movesMark question = true) {asked : List Asked} (again : question ∈ asked)
    (advanced : gate.mark question = some stamp) :
    Overwritten question stamp (gate.observeEach json (answeredAlone question stamp asked)) := by
  induction asked generalizing gate with
  | nil => simp at again
  | cons one asked ih =>
    by_cases same : one = question
    · subst same
      obtain ⟨observed, step⟩ := askedAlone moves asked
      rw [step]
      exact overwrittenStays moves asked ⟨advanceStamped, by simp [advance, advanced]⟩
    · rw [askedOther same]
      exact ih ((List.mem_cons.mp again).resolve_left (Ne.symm same)) advanced

/-- Asked twice, a question sets aside the mark its own first answer had left. -/
theorem askedTwice (moves : movesMark question = true) {asked : List Asked} (twice : asked.Duplicate question) :
    Overwritten question stamp (gate.observeEach json (answeredAlone question stamp asked)) := by
  induction twice generalizing gate with
  | cons_mem again =>
    obtain ⟨observed, step⟩ := askedAlone moves _
    rw [step]
    exact askedAgain moves again advanceStamped
  | @cons_duplicate one asked twice ih =>
    by_cases same : one = question
    · subst same
      obtain ⟨observed, step⟩ := askedAlone moves asked
      rw [step]
      exact ih
    · rw [askedOther same]
      exact ih

/-- A mark other than the one set aside is not what it is put back to. -/
theorem overwrittenLost {start : PassGate} (overwritten : Overwritten question stamp gate)
    (unique : gate.advanced.keys.Nodup) (other : start.mark question ≠ some stamp) : ¬ RolledBack start gate := by
  intro rolled
  refine other ?_
  rw [mark, ← rolled.marks question]
  simp only [rearm]
  rw [Dict.updateGetUnique unique (Dict.getMember overwritten.2)]
  rfl

end Twice

/-- A delta can be rolled back wherever it stops exactly where the gate asks no question whose
answer moves a mark a second time. -/
theorem rearmExactIff {json : JsonLibrary Value} {gate : PassGate} (reached : Reached json gate) :
    (∀ done, gate.Asks done → RolledBack gate (gate.opened.observeEach json done)) ↔
      (gate.questions.filter movesMark).Nodup := by
  constructor
  · intro rolls
    by_contra repeated
    obtain ⟨question, twice⟩ := List.exists_duplicate_iff_not_nodup.mpr repeated
    have moves : movesMark question = true := (List.mem_filter.mp twice.mem).2
    have asked : gate.questions.Duplicate question := twice.mono_sublist List.filter_sublist
    obtain ⟨stamp, other⟩ : ∃ stamp, gate.mark question ≠ some stamp := by
      cases held : gate.mark question with
      | none => exact ⟨0, nofun⟩
      | some mark => exact ⟨mark + 1, by simp⟩
    have whole : gate.Asks (answeredAlone question stamp gate.questions) := by
      simp [Asks, answeredAlone, Function.comp_def]
    have unique : (gate.opened.observeEach json (answeredAlone question stamp gate.questions)).advanced.keys.Nodup :=
      observeEachKeeps
        (fun _ _ _ _ _ unique => Dict.setNodup _ _ unique) _ List.nodup_nil
    exact overwrittenLost (askedTwice moves asked) unique other (rolls _ whole)
  · intro once done asks
    have known (one) (member : one ∈ done) : gate.marks.get? one.1 ≠ none :=
      reachedMarked reached one.1 (asks.subset (List.mem_map_of_mem member))
    refine advancedRolledBack (observeEachAdvanced done openedAdvanced known ?_ (by simp [opened, Dict.keys]))
    exact once.sublist (asks.sublist.filter movesMark)

theorem observeAllEach {json : JsonLibrary Value} {gate : PassGate} {tracker : Tracker} (asked : List Asked) :
    (gate.observeAll json tracker asked).2 = gate.observeEach json (asked.map fun one => (one, tracker)) := by
  induction asked generalizing gate with
  | nil => rfl
  | cons one asked ih =>
    simp only [observeAll, List.map_cons, observeEach]
    cases gate.observe json tracker one with
    | error refusal => exact ih
    | ok observed => exact ih

/-- A delta that returns has asked every question, each of the one tracker. -/
theorem deltaAsked {json : JsonLibrary Value} {gate after : PassGate} {tracker : Tracker} {delta : PassDelta}
    (ok : gate.delta json tracker = .ok (delta, after)) :
    ∃ done, gate.Asks done ∧ after = gate.opened.observeEach json done := by
  obtain ⟨asked, found, rest⟩ := bindOk.mp ok
  cases rest
  exact ⟨asked.map fun one => (one, tracker), by simp [Asks, questions, found, Function.comp_def], observeAllEach asked⟩

theorem distinctQuestionsRollBack : ∃ gate, PassGate.new [.approvedChanged, .issuesChanged] ["KOD"] [] 50 = .ok gate ∧
    ∀ done, gate.Asks done → RolledBack gate (gate.opened.observeEach plainJson done) := by
  obtain ⟨gate, built⟩ : ∃ gate, PassGate.new [.approvedChanged, .issuesChanged] ["KOD"] [] 50 = .ok gate := ⟨_, rfl⟩
  cases built
  exact ⟨_, rfl, (rearmExactIff (.new (show PassGate.new [.approvedChanged, .issuesChanged] ["KOD"] [] 50 = _ from rfl))).mpr
    (by decide)⟩

/-- One signal listed twice: its second answer sets aside the mark the first has just left. -/
theorem repeatedSignalSpendsWindow : ¬ ∀ gate, Reached plainJson gate → ∀ done, gate.Asks done →
    RolledBack gate (gate.opened.observeEach plainJson done) := by
  intro claim
  have built : PassGate.new [.approvedChanged, .approvedChanged] ["KOD"] [] 50 = .ok
    ⟨[.approvedChanged, .approvedChanged], ["KOD"], [], 50, [((.approvedChanged, "KOD"), none)], [], [], []⟩ := rfl
  have rolled := claim _ (.new built)
    [((.approvedChanged, "KOD"), stamped 5), ((.approvedChanged, "KOD"), stamped 5)] ⟨[], rfl⟩
  exact absurd (rolled.marks (.approvedChanged, "KOD")) (by decide)

end PassGate
end Kodezart.Gate
