import Kodezart.Branch
import Kodezart.Dict
import Kodezart.TextLines

/-! The per-criterion cross-off: one satisfaction state beside its graded sha.
What the source's model refuses cannot be built here: the constraints are fields. -/
namespace Kodezart
open TextLines

/-- A text the pattern `\S` matches somewhere. -/
def visible (text : String) : Bool := text.toList.any fun c => !patternSpace c

abbrev VisibleStr := {text : String // visible text}

instance visibleLawful : LawfulBEq VisibleStr := inferInstance

def lowerHexDigit (c : Char) : Bool := ('0' ≤ c && c ≤ '9') || ('a' ≤ c && c ≤ 'f')

def completeSha (text : String) : Bool :=
  (text.toList.length = 40 || text.toList.length = 64) && text.toList.all lowerHexDigit

theorem hexCode {c : Char} (hex : lowerHexDigit c) :
    (48 ≤ c.toNat ∧ c.toNat ≤ 57) ∨ (97 ≤ c.toNat ∧ c.toNat ≤ 102) := by
  simpa [lowerHexDigit, Char.le_def, UInt32.le_iff_toNat_le] using hex

abbrev Sha := {text : String // completeSha text}

theorem shaVisible {text : String} (sound : completeSha text) : visible text := by
  simp only [completeSha, Bool.and_eq_true, Bool.or_eq_true, decide_eq_true_eq, List.all_eq_true] at sound
  obtain ⟨size, hex⟩ := sound
  obtain ⟨c, member⟩ := List.exists_mem_of_length_pos (l := text.toList) (by omega)
  have code := hexCode (hex c member)
  refine List.any_eq_true.mpr ⟨c, member, ?_⟩
  simp only [patternSpace, Bool.not_eq_true', Bool.or_eq_false_iff, Bool.and_eq_false_iff,
    decide_eq_false_iff_not]
  omega

abbrev CriterionId := VisibleStr
abbrev CriterionRef := VisibleStr

/-- Identity and provenance are one value on the native arm: the sub-issue's own key. -/
def criterionRef (key : CriterionId) : CriterionRef := key

structure TrackerCriterion where
  id : CriterionId
  text : NonemptyStr
  deriving DecidableEq, Repr

structure CriterionEvidence where
  gradedSha : Sha
  test : VisibleStr
  deriving DecidableEq, Repr

inductive RederivationClass where
  | cheap | expensive | observed
  deriving DecidableEq, Repr

inductive CrossOffState where
  | passed | failed | lapsed | undemonstrated
  deriving DecidableEq, Repr

inductive UndemonstratedReason where
  | workspaceNotTheGradedSha | checkSurvivedMutation | satisfiedAtBase | baseReadingUnsettled
  deriving DecidableEq, Repr

def pathBoundClasses : List RederivationClass := [.expensive, .observed]

abbrev ExercisedPath := VisibleStr

/-- A cheap grading is bound to no path, so it may name none. -/
theorem cheapNamesNothing : RederivationClass.cheap ∈ pathBoundClasses → ([] : List ExercisedPath) ≠ [] := by
  simp [pathBoundClasses]

structure CriterionCrossOff where
  criterion : CriterionRef
  state : CrossOffState
  evidence : CriterionEvidence
  rederivationClass : RederivationClass := .cheap
  exercisedPaths : List ExercisedPath := []
  undemonstratedReason : Option UndemonstratedReason := none
  reasonIsTheState : undemonstratedReason = none ↔ state ≠ .undemonstrated
  pathsNamed : rederivationClass ∈ pathBoundClasses → exercisedPaths ≠ []
  deriving DecidableEq

structure StickyClassError where
  criterion : CriterionRef
  held : RederivationClass
  declared : RederivationClass
  deriving DecidableEq, Repr

/-- The class each criterion identity holds across successive iterations, folded from `held` on. -/
def heldRederivationClassesFrom : Dict CriterionRef RederivationClass → List CriterionCrossOff →
    Except StickyClassError (Dict CriterionRef RederivationClass)
  | held, [] => .ok held
  | held, crossOff :: crossOffs =>
    let declared := crossOff.rederivationClass
    let held' := held.setDefault crossOff.criterion declared
    let current := (held'.get? crossOff.criterion).getD declared
    if current ≠ declared then .error ⟨crossOff.criterion, current, declared⟩
    else heldRederivationClassesFrom held' crossOffs

def heldRederivationClasses (crossOffs : List CriterionCrossOff) :
    Except StickyClassError (Dict CriterionRef RederivationClass) :=
  heldRederivationClassesFrom [] crossOffs

end Kodezart
