import Mathlib

/-! Commits with their parents, and refs that name them. Objects are only ever added, so what a
commit contains it contains for good; a ref that moves forward goes on containing where it stood. -/
namespace Kodezart.CommitGraph
variable {κ τ : Type*}

structure Commit (κ τ : Type*) where
  parents : List κ
  tree : τ
  message : String
  deriving DecidableEq, Repr

abbrev Objects (κ τ : Type*) := κ → Option (Commit κ τ)

abbrev Refs (κ : Type*) := String → Option κ

def Parent (objects : Objects κ τ) (commit parent : κ) : Prop := ∃ o, objects commit = some o ∧ parent ∈ o.parents

/-- The commit is the other one or has it among its ancestors. -/
abbrev Contains (objects : Objects κ τ) (commit ancestor : κ) : Prop := Relation.ReflTransGen (Parent objects) commit ancestor

def Extends (objects objects' : Objects κ τ) : Prop := ∀ k o, objects k = some o → objects' k = some o

/-- Every ref still stands, at a commit that contains the one it stood at. -/
def Forward (objects : Objects κ τ) (refs refs' : Refs κ) : Prop :=
  ∀ name tip, refs name = some tip → ∃ tip', refs' name = some tip' ∧ Contains objects tip' tip

/-- A ref holds the commit. -/
def Holds (objects : Objects κ τ) (refs : Refs κ) (commit : κ) : Prop :=
  ∃ name tip, refs name = some tip ∧ Contains objects tip commit

variable {objects objects' : Objects κ τ} {refs refs' refs'' : Refs κ} {commit ancestor : κ}

theorem extendsRefl (objects : Objects κ τ) : Extends objects objects := fun _ _ => id

theorem extendsTrans {objects'' : Objects κ τ} (first : Extends objects objects') (second : Extends objects' objects'') :
    Extends objects objects'' := fun k o stored => second k o (first k o stored)

theorem containsExtends (extends_ : Extends objects objects') (contains : Contains objects commit ancestor) :
    Contains objects' commit ancestor := by
  induction contains with
  | refl => exact .refl
  | tail _ parent ih =>
    obtain ⟨o, stored, member⟩ := parent
    exact .tail ih ⟨o, extends_ _ _ stored, member⟩

theorem containsChild {o : Commit κ τ} {parent : κ} (stored : objects commit = some o) (member : parent ∈ o.parents) :
    Contains objects commit parent := .single ⟨o, stored, member⟩

theorem forwardRefl (objects : Objects κ τ) (refs : Refs κ) : Forward objects refs refs := fun _ tip named => ⟨tip, named, .refl⟩

theorem forwardExtends (extends_ : Extends objects objects') (forward : Forward objects refs refs') : Forward objects' refs refs' :=
  fun name tip named => by
    obtain ⟨tip', stands, contains⟩ := forward name tip named
    exact ⟨tip', stands, containsExtends extends_ contains⟩

theorem forwardTrans (first : Forward objects refs refs') (second : Forward objects refs' refs'') : Forward objects refs refs'' :=
  fun name tip named => by
    obtain ⟨mid, stands, older⟩ := first name tip named
    obtain ⟨tip', stands', newer⟩ := second name mid stands
    exact ⟨tip', stands', newer.trans older⟩

/-- A push that is not forced moves its ref forward and no other. -/
theorem forwardUpdate {name : String} {head : κ} (fast : ∀ tip, refs name = some tip → Contains objects head tip) :
    Forward objects refs (Function.update refs name (some head)) := by
  intro other tip named
  by_cases same : other = name
  · subst same
    exact ⟨head, Function.update_self .., fast tip named⟩
  · exact ⟨tip, by rw [Function.update_of_ne same, named], .refl⟩

theorem holdsForward (forward : Forward objects refs refs') (holds : Holds objects refs commit) : Holds objects refs' commit := by
  obtain ⟨name, tip, named, contains⟩ := holds
  obtain ⟨tip', stands, newer⟩ := forward name tip named
  exact ⟨name, tip', stands, newer.trans contains⟩

theorem holdsExtends (extends_ : Extends objects objects') (holds : Holds objects refs commit) : Holds objects' refs commit := by
  obtain ⟨name, tip, named, contains⟩ := holds
  exact ⟨name, tip, named, containsExtends extends_ contains⟩

/-- An object stored under a name that was free or already its own. -/
def Stored (objects : Objects κ τ) (k : κ) (o : Commit κ τ) [DecidableEq κ] : Objects κ τ := Function.update objects k (some o)

theorem storedExtends [DecidableEq κ] {k : κ} {o : Commit κ τ} (own : objects k = none ∨ objects k = some o) :
    Extends objects (Stored objects k o) := by
  intro other o' stored
  by_cases same : other = k
  · subst same
    rcases own with free | taken
    · rw [free] at stored
      cases stored
    · rw [Stored, Function.update_self, ← taken, stored]
  · rw [Stored, Function.update_of_ne same, stored]

end Kodezart.CommitGraph
