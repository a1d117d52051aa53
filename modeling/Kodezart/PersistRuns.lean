import Kodezart.ChangePersister

/-! Runs of the persister over a repository and its remote. Other processes may push forward in
between, and a step that fails may have taken effect all the same. -/
namespace Kodezart.Persist
open CommitGraph
open Prog

structure Repository where
  objects : Objects String String
  head : String
  /-- The local branch HEAD is on; none when it is detached. -/
  attached : Option String
  heads : Refs String
  remote : Refs String
  index : String
  /-- The tree that staging everything would write. -/
  work : String

namespace Repository

def tree (r : Repository) : Option String := (r.objects r.head).map Commit.tree

def Dirty (r : Repository) : Prop := r.tree ≠ some r.index ∨ r.index ≠ r.work

def moveHead (r : Repository) (sha : String) : Repository :=
  { r with head := sha, heads := r.attached.elim r.heads fun branch => Function.update r.heads branch (some sha) }

def store (r : Repository) (sha : String) (o : Commit String String) : Repository := { r with objects := Stored r.objects sha o }

end Repository

/-- Others push forward, in this clone's sight or out of it. -/
structure Drifts (r r' : Repository) : Prop where
  objects : Extends r.objects r'.objects
  forward : Forward r'.objects r.remote r'.remote
  local_ : r' = { r with objects := r'.objects, remote := r'.remote }

/-- The same, and nobody else pushes to the branch. -/
structure Spares (branch : String) (r r' : Repository) : Prop extends Drifts r r' where
  own : r'.remote branch = r.remote branch

/-- What a step that succeeds answers and leaves. The texts are left open: git trims a message, the
gate may redact one and the model writes one. -/
inductive Effect : Repository → (c : Call) → Reply c → Repository → Prop where
  | beforeCommit (r : Repository) : Effect r .beforeCommit () r
  | beforePublish (r : Repository) (sha : String) : Effect r (.beforePublish sha) () r
  | hasChanges {r : Repository} {changes : Bool} (told : changes = true ↔ r.Dirty) : Effect r .hasChanges changes r
  | currentSha (r : Repository) : Effect r .currentSha r.head r
  | remoteBranchSha (r : Repository) (branch : String) : Effect r (.remoteBranchSha branch) (r.remote branch) r
  | isAncestor {r : Repository} {ancestor descendant : String} {answer : Bool}
      (told : answer = true ↔ Contains r.objects descendant ancestor) : Effect r (.isAncestor ancestor descendant) answer r
  | headCommitMessage (r : Repository) (message : String) : Effect r .headCommitMessage message r
  | push {r : Repository} {branch : String} (fast : ∀ tip, r.remote branch = some tip → Contains r.objects r.head tip) :
      Effect r (.push branch) () { r with remote := Function.update r.remote branch (some r.head) }
  | generateCommitMessage (r : Repository) (output : CommitMessageOutput) : Effect r .generateCommitMessage output r
  | addAll (r : Repository) : Effect r .addAll () { r with index := r.work }
  | gatedMessage (r : Repository) (message text : String) (destination : Destination) :
      Effect r (.gatedMessage message destination) text r
  | commit {r : Repository} {sha message : String} (text : String) (changed : r.tree ≠ some r.index)
      (own : r.objects sha = none ∨ r.objects sha = some ⟨[r.head], r.index, text⟩) :
      Effect r (.commit message) sha ((r.store sha ⟨[r.head], r.index, text⟩).moveHead sha)
  | treeOf {r : Repository} {sha : String} {o : Commit String String} (stored : r.objects sha = some o) :
      Effect r (.treeOf sha) o.tree r
  -- files that are not tracked stay
  | resetHard {r : Repository} {sha : String} {o : Commit String String} (stored : r.objects sha = some o) (left : String) :
      Effect r (.resetHard sha) () ({ r with index := o.tree, work := left }.moveHead sha)
  | commitTree {r : Repository} {sha tree parent message : String} (text : String)
      (own : r.objects sha = none ∨ r.objects sha = some ⟨[parent], tree, text⟩) :
      Effect r (.commitTree tree parent message) sha (r.store sha ⟨[parent], tree, text⟩)

/-- What a step that fails leaves: nothing, its effect, or an index and a worktree half written. -/
inductive Breaks : Repository → Call → Repository → Prop where
  | untouched (r : Repository) (c : Call) : Breaks r c r
  | landed {r r' : Repository} {c : Call} {reply : Reply c} (effect : Effect r c reply r') : Breaks r c r'
  | staged (r : Repository) (index : String) : Breaks r .addAll { r with index }
  | torn (r : Repository) (sha index work : String) : Breaks r (.resetHard sha) { r with index, work }

/-- A request answered after what others did; no step raises the persister's own error. -/
def Takes (drifts : Repository → Repository → Prop) (r : Repository) (c : Call) : Except Raised (Reply c) → Repository → Prop
  | .ok reply, r' => ∃ mid, drifts r mid ∧ Effect mid c reply r'
  | .error e, r' => (∀ message, e ≠ .runtime message) ∧ ∃ mid, drifts r mid ∧ Breaks mid c r'

variable {r r' mid : Repository} {c : Call} {commit : String}

/-- HEAD or a ref of the remote holds the commit. -/
def Kept (r : Repository) (commit : String) : Prop := Contains r.objects r.head commit ∨ Holds r.objects r.remote commit

/-- Objects are only added, and every ref of the remote only moves forward. -/
structure Onward (r r' : Repository) : Prop where
  objects : Extends r.objects r'.objects
  forward : Forward r'.objects r.remote r'.remote

theorem onwardRefl (r : Repository) : Onward r r := ⟨extendsRefl _, forwardRefl _ _⟩

theorem onwardTrans (first : Onward r mid) (second : Onward mid r') : Onward r r' :=
  ⟨extendsTrans first.objects second.objects, forwardTrans (forwardExtends second.objects first.forward) second.forward⟩

theorem effectOnward {reply : Reply c} (effect : Effect r c reply r') : Onward r r' := by
  cases effect with
  | push fast => exact ⟨extendsRefl _, forwardUpdate fast⟩
  | commit text changed own => exact ⟨storedExtends own, forwardRefl _ _⟩
  | commitTree text own => exact ⟨storedExtends own, forwardRefl _ _⟩
  | beforeCommit => exact onwardRefl r
  | beforePublish => exact onwardRefl r
  | hasChanges => exact onwardRefl r
  | currentSha => exact onwardRefl r
  | remoteBranchSha => exact onwardRefl r
  | isAncestor => exact onwardRefl r
  | headCommitMessage => exact onwardRefl r
  | generateCommitMessage => exact onwardRefl r
  | addAll => exact ⟨extendsRefl _, forwardRefl _ _⟩
  | gatedMessage => exact onwardRefl r
  | treeOf => exact onwardRefl r
  | resetHard => exact ⟨extendsRefl _, forwardRefl _ _⟩

theorem takesOnward {answer : Except Raised (Reply c)} (taken : Takes Drifts r c answer r') : Onward r r' := by
  cases answer with
  | ok reply =>
    obtain ⟨mid, drifts, effect⟩ := taken
    exact onwardTrans ⟨drifts.objects, drifts.forward⟩ (effectOnward effect)
  | error e =>
    obtain ⟨-, mid, drifts, breaks⟩ := taken
    refine onwardTrans ⟨drifts.objects, drifts.forward⟩ ?_
    cases breaks with
    | untouched => exact onwardRefl _
    | landed effect => exact effectOnward effect
    | staged => exact ⟨extendsRefl _, forwardRefl _ _⟩
    | torn => exact ⟨extendsRefl _, forwardRefl _ _⟩

/-- A request that does not reset the branch. -/
def Mild (c : Call) : Prop := ∀ sha, c ≠ .resetHard sha

theorem effectHead {reply : Reply c} (mild : Mild c) (effect : Effect r c reply r') : Contains r'.objects r'.head r.head := by
  cases effect with
  | commit text changed own => exact containsChild (Function.update_self ..) (List.mem_singleton_self _)
  | resetHard => exact absurd rfl (mild _)
  | beforeCommit => exact .refl
  | beforePublish => exact .refl
  | hasChanges => exact .refl
  | currentSha => exact .refl
  | remoteBranchSha => exact .refl
  | isAncestor => exact .refl
  | headCommitMessage => exact .refl
  | push => exact .refl
  | generateCommitMessage => exact .refl
  | addAll => exact .refl
  | gatedMessage => exact .refl
  | treeOf => exact .refl
  | commitTree => exact .refl

theorem takesHead {answer : Except Raised (Reply c)} (mild : Mild c) (taken : Takes Drifts r c answer r') :
    Contains r'.objects r'.head r.head := by
  have drifted : ∀ {mid : Repository}, Drifts r mid → mid.head = r.head := fun drifts => by rw [drifts.local_]
  cases answer with
  | ok reply =>
    obtain ⟨mid, drifts, effect⟩ := taken
    exact drifted drifts ▸ effectHead mild effect
  | error e =>
    obtain ⟨-, mid, drifts, breaks⟩ := taken
    rw [← drifted drifts]
    cases breaks with
    | untouched => exact .refl
    | landed effect => exact effectHead mild effect
    | staged => exact .refl
    | torn => exact .refl

theorem keptOnward (onward : Onward r r') (head : Contains r'.objects r'.head r.head) (kept : Kept r commit) : Kept r' commit := by
  rcases kept with inHead | held
  · exact .inl (head.trans (containsExtends onward.objects inHead))
  · exact .inr (holdsForward onward.forward (holdsExtends onward.objects held))

section Preserving
variable {α β : Type} {g : GitChangePersister} {p : Persistence}

/-- However a run of the program ends, the commit is still held. -/
def Preserves (commit : String) (program : Persists α) : Prop :=
  ∀ r t r' out, Goes (Takes Drifts) program r t r' out → Kept r commit → Kept r' commit

theorem preservesAsking {program : Persists α} (asks : program.Asks Mild) : Preserves commit program :=
  fun _ _ _ _ went kept => goesKeepsAsking (Kept · commit) asks
    (fun _ _ _ _ mild held taken => keptOnward (takesOnward taken) (takesHead mild taken) held) kept went

theorem preservesBind {program : Persists α} {next : α → Persists β} (first : Preserves commit program)
    (second : ∀ a, Preserves commit (next a)) : Preserves commit (program >>= next) := by
  intro r t r' out went kept
  rcases goesBind program next went with ⟨e, -, failed⟩ | ⟨a, mid, early, late, ran, rest, -⟩
  · exact first _ _ _ _ failed kept
  · exact second a _ _ _ _ rest (first _ _ _ _ ran kept)

theorem goesHolds {program : Persists α} {t : List (Exchange Call Reply Raised)} {out : Except Raised α}
    (went : Goes (Takes Drifts) program r t r' out) (held : Holds r.objects r.remote commit) : Holds r'.objects r'.remote commit :=
  goesKeeps (fun r => Holds r.objects r.remote commit)
    (fun _ _ _ _ held taken => holdsForward (takesOnward taken).forward (holdsExtends (takesOnward taken).objects held)) held went

theorem goesOnward {program : Persists α} {t : List (Exchange Call Reply Raised)} {out : Except Raised α}
    (went : Goes (Takes Drifts) program r t r' out) : Onward r r' :=
  goesKeeps (Onward r) (fun _ _ _ _ onward taken => onwardTrans onward (takesOnward taken)) (onwardRefl r) went

theorem beforeCommitAsks : (beforeCommit p).Asks Mild := by
  unfold beforeCommit
  split
  · exact (asksRequest _).mpr (fun _ => by simp)
  · exact asksPure _

theorem beforePublishAsks (sha : String) : (beforePublish p sha).Asks Mild := by
  unfold beforePublish
  split
  · exact (asksRequest _).mpr (fun _ => by simp)
  · exact asksPure _

theorem askMild {c : Call} (mild : Mild c) : (ask c).Asks Mild := (asksRequest c).mpr mild

theorem dirtyAsks : (persistDirty p).Asks Mild :=
  asksCall (fun _ => by simp) fun _ =>
    asksCall (fun _ => by simp) fun _ =>
      asksCall (fun _ => by simp) fun _ =>
        asksBind beforeCommitAsks fun _ =>
          asksCall (fun _ => by simp) fun sha =>
            asksBind (beforePublishAsks sha) fun _ => asksCall (fun _ => by simp) fun _ => asksPure _

/-- A commit that the backup has taken is held however the reset and the replay go. -/
theorem recoverPreserves (headSha remoteTip : String) : Preserves commit (recoverFromDivergence g p headSha remoteTip) := by
  intro r t r' out went kept
  rcases goesBind _ _ went with ⟨e, -, failed⟩ | ⟨caught, mid, early, late, ran, rest, -⟩
  · obtain ⟨x, same, -⟩ := goesAttempt failed
    cases same
  · obtain ⟨x, same, ran⟩ := goesAttempt ran
    cases same
    have taken := (goesRequest ran).1
    have still := keptOnward (takesOnward taken) (takesHead (fun _ => by simp) taken) kept
    cases caught with
    | ok done =>
      obtain ⟨before, drifts, effect⟩ := taken
      have held : Holds mid.objects mid.remote commit := by
        rcases still with inHead | held
        · cases effect with
          | push fast => exact ⟨_, _, Function.update_self .., inHead⟩
        · exact held
      exact .inr (goesHolds rest held)
    | error e =>
      have stays : r' = mid := by
        cases e with
        | cancelled => exact (goesRaise rest).2.1
        | git => exact (goesRaise rest).2.1
        | nativeWriteRefusal => exact (goesRaise rest).2.1
        | runtime => exact (goesRaise rest).2.1
        | softFailure => exact (goesRaise rest).2.1
        | gate => exact (goesRaise rest).2.1
      exact stays ▸ still

theorem preservesMap {program : Persists α} (f : α → β) (preserves : Preserves commit program) : Preserves commit (f <$> program) :=
  preservesBind preserves fun a => preservesAsking (asksPure (f a))

theorem cleanPreserves : Preserves commit (persistClean g p) := by
  refine preservesBind (preservesAsking (askMild (fun _ => by simp))) fun headSha =>
    preservesBind (preservesAsking (askMild (fun _ => by simp))) fun remoteTip => ?_
  split
  · exact preservesAsking (asksPure _)
  · refine preservesBind ?_ fun descends => ?_
    · cases remoteTip with
      | none => exact preservesAsking (asksPure _)
      | some tip => exact preservesAsking (askMild (fun _ => by simp))
    · split
      · split
        · exact preservesAsking (asksRaise _)
        · cases remoteTip with
          | none => exact preservesAsking (asksRaise _)
          | some tip => exact preservesMap some (recoverPreserves headSha tip)
      · refine preservesAsking (asksCall (fun _ => by simp) fun _ => asksBind beforeCommitAsks fun _ =>
          asksBind (beforePublishAsks headSha) fun _ => asksCall (fun _ => by simp) fun _ => asksPure _)

theorem persistPreserves : Preserves commit (persist g p) := by
  refine preservesBind (preservesAsking beforeCommitAsks) fun _ =>
    preservesBind (preservesAsking (askMild (fun _ => by simp))) fun changes => ?_
  split
  · exact preservesMap some (preservesAsking dirtyAsks)
  · exact cleanPreserves

/-- However a persist ends, with whatever failing and whoever else pushing, each commit that HEAD or
the remote held is still held there, and each ref of the remote stands where it stood or ahead of it. -/
theorem persistLosesNothing {t : List (Exchange Call Reply Raised)} {out : Except Raised (Option PersistResult)}
    (went : Goes (Takes Drifts) (persist g p) r t r' out) :
    (∀ commit, Kept r commit → Kept r' commit) ∧ Forward r'.objects r.remote r'.remote :=
  ⟨fun _ kept => persistPreserves _ _ _ _ went kept, (goesOnward went).forward⟩

end Preserving
section Receipts
variable {α β : Type} {g : GitChangePersister} {p : Persistence} {r₀ : Repository} {b : String} {t : List (Exchange Call Reply Raised)}

/-- The clone as it was, and the branch of the remote too. -/
structure Untouched (b : String) (r r' : Repository) : Prop where
  head : r'.head = r.head
  heads : r'.heads = r.heads
  index : r'.index = r.index
  work : r'.work = r.work
  own : r'.remote b = r.remote b
  onward : Onward r r'

theorem untouchedRefl (b : String) (r : Repository) : Untouched b r r := ⟨rfl, rfl, rfl, rfl, rfl, onwardRefl r⟩

theorem untouchedTrans (first : Untouched b r mid) (second : Untouched b mid r') : Untouched b r r' :=
  ⟨second.head.trans first.head, second.heads.trans first.heads, second.index.trans first.index, second.work.trans first.work,
    second.own.trans first.own, onwardTrans first.onward second.onward⟩

theorem sparesUntouched (spares : Spares b r r') : Untouched b r r' where
  head := by rw [spares.local_]
  heads := by rw [spares.local_]
  index := by rw [spares.local_]
  work := by rw [spares.local_]
  own := spares.own
  onward := ⟨spares.objects, spares.forward⟩

/-- A request that only reads, or only writes an object. -/
def Reads : Call → Prop
  | .push _ | .addAll | .commit _ | .resetHard _ => False
  | _ => True

theorem effectReads {reply : Reply c} (reads : Reads c) (effect : Effect r c reply r') : Untouched b r r' := by
  have onward := effectOnward effect
  cases effect with
  | push => exact reads.elim
  | addAll => exact reads.elim
  | commit => exact reads.elim
  | resetHard => exact reads.elim
  | commitTree => exact ⟨rfl, rfl, rfl, rfl, rfl, onward⟩
  | beforeCommit => exact untouchedRefl b r
  | beforePublish => exact untouchedRefl b r
  | hasChanges => exact untouchedRefl b r
  | currentSha => exact untouchedRefl b r
  | remoteBranchSha => exact untouchedRefl b r
  | isAncestor => exact untouchedRefl b r
  | headCommitMessage => exact untouchedRefl b r
  | generateCommitMessage => exact untouchedRefl b r
  | gatedMessage => exact untouchedRefl b r
  | treeOf => exact untouchedRefl b r

theorem takesReads {answer : Except Raised (Reply c)} (reads : Reads c) (taken : Takes (Spares b) r c answer r') : Untouched b r r' := by
  cases answer with
  | ok reply =>
    obtain ⟨mid, spares, effect⟩ := taken
    exact untouchedTrans (sparesUntouched spares) (effectReads reads effect)
  | error e =>
    obtain ⟨-, mid, spares, breaks⟩ := taken
    refine untouchedTrans (sparesUntouched spares) ?_
    cases breaks with
    | untouched => exact untouchedRefl b _
    | landed effect => exact effectReads reads effect
    | staged => exact reads.elim
    | torn => exact reads.elim

theorem goesReads {program : Persists α} {out : Except Raised α} (asks : program.Asks Reads)
    (went : Goes (Takes (Spares b)) program r t r' out) : Untouched b r r' :=
  goesKeepsAsking (Untouched b r) asks (fun _ _ _ _ reads kept taken => untouchedTrans kept (takesReads reads taken)) (untouchedRefl b r) went

theorem okAsk {reply : Reply c} (went : Goes (Takes (Spares b)) (ask c) r t r' (.ok reply)) :
    ∃ mid, Untouched b r mid ∧ Effect mid c reply r' := by
  obtain ⟨mid, spares, effect⟩ := (goesRequest went).1
  exact ⟨mid, sparesUntouched spares, effect⟩

theorem beforeCommitReads : (beforeCommit p).Asks Reads := by
  unfold beforeCommit
  split
  · exact (asksRequest _).mpr trivial
  · exact asksPure _

theorem beforePublishReads (sha : String) : (beforePublish p sha).Asks Reads := by
  unfold beforePublish
  split
  · exact (asksRequest _).mpr trivial
  · exact asksPure _

theorem askReads (c : Call) (reads : Reads c) : (ask c).Asks Reads := (asksRequest c).mpr reads

/-- What a returned result says of the repository it leaves, and of the one it found. -/
structure Receipt (p : Persistence) (r r' : Repository) (result : PersistResult) : Prop where
  branch : result.branch = p.branch
  head : r'.head = result.commitSha
  pushed : r'.remote p.branch = some result.commitSha
  tree : ∃ o, r'.objects result.commitSha = some o ∧ o.tree = r.work
  recovery : ∀ name, result.recoveryRef = some name → ∃ tip, r'.remote name = some tip ∧ Contains r'.objects tip r.head

theorem dirtyReceipt {result : PersistResult} (went : Goes (Takes (Spares p.branch)) (persistDirty p) r t r' (.ok result)) :
    Receipt p r r' result := by
  obtain ⟨output, r₁, _, _, wrote, then₁, -⟩ := goesOk went
  have same₁ := goesReads (askReads .generateCommitMessage trivial) wrote
  obtain ⟨_, r₂, _, _, added, then₂, -⟩ := goesOk then₁
  obtain ⟨mid₂, same₂, effect₂⟩ := okAsk added
  cases effect₂
  obtain ⟨text, r₃, _, _, gated, then₃, -⟩ := goesOk then₂
  have same₃ := goesReads (askReads (.gatedMessage _ _) trivial) gated
  obtain ⟨_, r₄, _, _, guarded, then₄, -⟩ := goesOk then₃
  have same₄ := goesReads beforeCommitReads guarded
  obtain ⟨sha, r₅, _, _, committed, then₅, -⟩ := goesOk then₄
  obtain ⟨mid₅, same₅, effect₅⟩ := okAsk committed
  have staged := untouchedTrans (untouchedTrans same₃ same₄) same₅
  cases effect₅ with
  | commit text changed own =>
    obtain ⟨_, r₆, _, _, published, then₆, -⟩ := goesOk then₅
    have same₆ := goesReads (beforePublishReads sha) published
    obtain ⟨_, r₇, _, _, pushes, then₇, -⟩ := goesOk then₆
    obtain ⟨mid₇, same₇, effect₇⟩ := okAsk pushes
    have stored := untouchedTrans same₆ same₇
    obtain ⟨-, rfl, same⟩ := goesRet then₇
    cases same
    cases effect₇ with
    | push fast =>
      have head : mid₇.head = sha := stored.head
      have tree : mid₅.index = r.work := staged.index.trans (same₂.work.trans same₁.work)
      refine ⟨rfl, head, (Function.update_self ..).trans (congrArg some head), ?_, fun name named => by cases named⟩
      exact ⟨_, stored.onward.objects sha _ (Function.update_self ..), tree⟩

/-- A clean worktree is the tree of its HEAD. -/
theorem cleanTree (clean : ¬ r.Dirty) : r.tree = some r.work := by
  obtain ⟨staged, same⟩ := not_or.mp clean
  rw [not_not.mp staged, not_not.mp same]

theorem takesWider {answer : Except Raised (Reply c)} (taken : Takes (Spares b) r c answer r') : Takes Drifts r c answer r' := by
  cases answer with
  | ok reply =>
    obtain ⟨mid, spares, effect⟩ := taken
    exact ⟨mid, spares.toDrifts, effect⟩
  | error e =>
    obtain ⟨own, mid, spares, breaks⟩ := taken
    exact ⟨own, mid, spares.toDrifts, breaks⟩

theorem onwardSpared {program : Persists α} {out : Except Raised α} (went : Goes (Takes (Spares b)) program r t r' out) : Onward r r' :=
  goesOnward (goesMono (fun _ _ _ _ => takesWider) went)

/-- The backup has taken the line that is about to be left. -/
def Backed (p : Persistence) (r : Repository) (commit : String) : Prop :=
  ∃ tip, r.remote (backupBranchName p.branch p.backupRefIdPrefix) = some tip ∧ Contains r.objects tip commit

theorem backedOnward (onward : Onward r r') (backed : Backed p r commit) : Backed p r' commit := by
  obtain ⟨tip, named, contains⟩ := backed
  obtain ⟨tip', stands, newer⟩ := onward.forward _ tip named
  exact ⟨tip', stands, newer.trans (containsExtends onward.objects contains)⟩

theorem resetLeaves {sha : String} {done : Unit} (went : Goes (Takes (Spares b)) (ask (.resetHard sha)) r t r' (.ok done)) :
    r'.head = sha ∧ r'.remote b = r.remote b ∧ Extends r.objects r'.objects := by
  obtain ⟨mid, same, effect⟩ := okAsk went
  cases effect with
  | resetHard stored left => exact ⟨rfl, same.own, same.onward.objects⟩

theorem treeRead {sha tree : String} (went : Goes (Takes (Spares b)) (ask (.treeOf sha)) r t r' (.ok tree)) :
    Untouched b r r' ∧ ∃ o, r'.objects sha = some o ∧ o.tree = tree := by
  obtain ⟨mid, same, effect⟩ := okAsk went
  cases effect with
  | treeOf stored => exact ⟨same, _, stored, rfl⟩

theorem pushLeaves {done : Unit} (went : Goes (Takes (Spares b)) (ask (.push b)) r t r' (.ok done)) :
    r'.head = r.head ∧ r'.remote b = some r.head ∧ Extends r.objects r'.objects := by
  obtain ⟨mid, same, effect⟩ := okAsk went
  cases effect with
  | push fast => exact ⟨same.head, (Function.update_self ..).trans (congrArg some same.head), same.onward.objects⟩

theorem replayReceipt {headSha remoteTip : String} {result : PersistResult} (clean : r.tree = some r₀.work) (head : r.head = headSha)
    (tip : r.remote p.branch = some remoteTip) (backed : Backed p r r₀.head)
    (went : Goes (Takes (Spares p.branch)) (replay p headSha remoteTip) r t r' (.ok result)) : Receipt p r₀ r' result := by
  have last := backedOnward (onwardSpared went) backed
  obtain ⟨message, r₁, _, _, read₁, then₁, -⟩ := goesOk went
  obtain ⟨text, r₂, _, _, gated, then₂, -⟩ := goesOk then₁
  have same₂ := untouchedTrans (goesReads (askReads .headCommitMessage trivial) read₁) (goesReads (askReads (.gatedMessage _ _) trivial) gated)
  obtain ⟨headTree, r₃, _, _, read₃, then₃, -⟩ := goesOk then₂
  obtain ⟨same₃, o, stored, rfl⟩ := treeRead read₃
  have tree : o.tree = r₀.work := by
    obtain ⟨own, held, named⟩ := Option.map_eq_some_iff.mp clean
    have kept := (untouchedTrans same₂ same₃).onward.objects _ _ held
    rw [head, stored] at kept
    cases kept
    exact named
  obtain ⟨_, r₄, _, _, reset, then₄, -⟩ := goesOk then₃
  obtain ⟨head₄, own₄, -⟩ := resetLeaves reset
  have tip₄ : r₄.remote p.branch = some remoteTip := own₄.trans ((untouchedTrans same₂ same₃).own.trans tip)
  obtain ⟨tipTree, r₅, _, _, read₅, then₅, -⟩ := goesOk then₄
  obtain ⟨same₅, tipObject, tipStored, rfl⟩ := treeRead read₅
  split at then₅
  · rename_i equal
    obtain ⟨_, r₆, _, _, read₆, then₆, -⟩ := goesOk then₅
    have same₆ := untouchedTrans same₅ (goesReads (askReads .headCommitMessage trivial) read₆)
    obtain ⟨-, rfl, same⟩ := goesRet then₆
    cases same
    refine ⟨rfl, same₆.head.trans head₄, same₆.own.trans tip₄, ⟨tipObject, ?_, equal.symm.trans tree⟩, fun name named => ?_⟩
    · exact (goesReads (askReads .headCommitMessage trivial) read₆).onward.objects _ _ tipStored
    · cases named
      exact last
  · obtain ⟨replaySha, r₆, _, _, wrote, then₆, -⟩ := goesOk then₅
    obtain ⟨mid₆, same₆, effect₆⟩ := okAsk wrote
    obtain ⟨_, r₇, _, _, reset₇, then₇, -⟩ := goesOk then₆
    obtain ⟨head₇, -, kept₇⟩ := resetLeaves reset₇
    obtain ⟨_, r₈, _, _, pushes, then₈, -⟩ := goesOk then₇
    obtain ⟨head₈, pushed, kept₈⟩ := pushLeaves pushes
    obtain ⟨-, rfl, same⟩ := goesRet then₈
    cases same
    cases effect₆ with
    | commitTree text own =>
      have stays := kept₈ _ _ (kept₇ _ _ (Function.update_self ..))
      refine ⟨rfl, head₈.trans head₇, pushed.trans (congrArg some head₇), ⟨_, stays, tree⟩, fun name named => ?_⟩
      cases named
      exact last

/-- The backup's name is longer than the branch's own. -/
theorem backupApart (p : Persistence) : p.branch ≠ backupBranchName p.branch p.backupRefIdPrefix := by
  intro same
  have lengths := congrArg String.length same
  rw [backupBranchName, String.length_append, String.length_append] at lengths
  have infix_ : "-backup-".length = 8 := rfl
  omega

theorem recoverReceipt {remoteTip : String} {result : PersistResult} (clean : r.tree = some r.work)
    (tip : r.remote p.branch = some remoteTip)
    (went : Goes (Takes (Spares p.branch)) (recoverFromDivergence g p r.head remoteTip) r t r' (.ok result)) : Receipt p r r' result := by
  obtain ⟨caught, r₁, _, _, ran, rest, -⟩ := goesOk went
  obtain ⟨x, same, ran⟩ := goesAttempt ran
  cases same
  cases caught with
  | error e =>
    cases e with
    | cancelled => cases (goesRaise rest).2.2
    | git => cases (goesRaise rest).2.2
    | nativeWriteRefusal => cases (goesRaise rest).2.2
    | runtime => cases (goesRaise rest).2.2
    | softFailure => cases (goesRaise rest).2.2
    | gate => cases (goesRaise rest).2.2
  | ok done =>
    obtain ⟨mid, same₁, effect⟩ := okAsk ran
    cases effect with
    | push fast =>
      have tree : mid.tree = some r.work := by
        obtain ⟨o, stored, named⟩ := Option.map_eq_some_iff.mp clean
        rw [Repository.tree, same₁.head, same₁.onward.objects _ _ stored]
        exact congrArg some named
      let pushed := { mid with remote := Function.update mid.remote (backupBranchName p.branch p.backupRefIdPrefix) (some mid.head) }
      have backed : Backed p pushed r.head := ⟨mid.head, Function.update_self .., by rw [same₁.head]⟩
      have stands := (Function.update_of_ne (backupApart p) (some mid.head) mid.remote).trans (same₁.own.trans tip)
      exact replayReceipt (r := pushed) tree same₁.head stands backed rest

theorem receiptSince {result : PersistResult} (same : Untouched b r mid) (receipt : Receipt p mid r' result) : Receipt p r r' result where
  branch := receipt.branch
  head := receipt.head
  pushed := receipt.pushed
  tree := same.work ▸ receipt.tree
  recovery := same.head ▸ receipt.recovery

theorem cleanTrue {out : Option PersistResult} (clean : r.tree = some r.work)
    (went : Goes (Takes (Spares p.branch)) (persistClean g p) r t r' (.ok out)) :
    (∀ result, out = some result → Receipt p r r' result) ∧ (out = none → r'.remote p.branch = some r'.head ∧ Untouched p.branch r r') := by
  obtain ⟨headSha, r₁, _, _, asked, then₁, -⟩ := goesOk went
  obtain ⟨mid₁, same₁, effect₁⟩ := okAsk asked
  cases effect₁
  obtain ⟨remoteTip, r₂, _, _, probed, then₂, -⟩ := goesOk then₁
  obtain ⟨mid₂, same₂, effect₂⟩ := okAsk probed
  cases effect₂
  have same := untouchedTrans same₁ same₂
  have head : r₁.head = r₂.head := same₂.head.symm
  rw [head] at then₂
  split at then₂
  · rename_i level
    obtain ⟨-, rfl, given_⟩ := goesRet then₂
    cases given_
    exact ⟨fun result given => (by cases given), fun _ => ⟨level, same⟩⟩
  · obtain ⟨descends_, r₃, _, _, told, then₃, -⟩ := goesOk then₂
    have asks : (descends (r₂.remote p.branch) r₂.head).Asks Reads := by
      unfold descends
      split
      · exact asksPure _
      · exact askReads (.isAncestor _ _) trivial
    have same₃ := untouchedTrans same (goesReads asks told)
    have head₃ : r₂.head = r₃.head := (goesReads asks told).head.symm
    have tree₃ : r₃.tree = some r₃.work := by
      obtain ⟨o, stored, named⟩ := Option.map_eq_some_iff.mp clean
      rw [Repository.tree, same₃.head, same₃.onward.objects _ _ stored, same₃.work]
      exact congrArg some named
    split at then₃
    · split at then₃
      · cases (goesRaise then₃).2.2
      · cases tip : r₂.remote p.branch with
        | none =>
          rw [tip] at then₃
          cases (goesRaise then₃).2.2
        | some remoteTip =>
          rw [tip, head₃] at then₃
          obtain ⟨result, r₄, _, _, ran, done, -⟩ := goesOk then₃
          obtain ⟨-, rfl, given_⟩ := goesRet done
          cases given_
          refine ⟨fun result' given => ?_, fun none => by cases none⟩
          cases given
          exact receiptSince same₃ (recoverReceipt tree₃ ((goesReads asks told).own.trans tip) ran)
    · obtain ⟨message, r₄, _, _, read₄, then₄, -⟩ := goesOk then₃
      obtain ⟨_, r₅, _, _, guarded, then₅, -⟩ := goesOk then₄
      obtain ⟨_, r₆, _, _, published, then₆, -⟩ := goesOk then₅
      have same₆ := untouchedTrans (goesReads (askReads .headCommitMessage trivial) read₄)
        (untouchedTrans (goesReads beforeCommitReads guarded) (goesReads (beforePublishReads _) published))
      obtain ⟨_, r₇, _, _, pushes, then₇, -⟩ := goesOk then₆
      obtain ⟨head₇, pushed, kept⟩ := pushLeaves pushes
      obtain ⟨-, rfl, given_⟩ := goesRet then₇
      cases given_
      refine ⟨fun result given => ?_, fun none => by cases none⟩
      cases given
      have whole := untouchedTrans same₃ same₆
      have level : r₆.head = r₂.head := same₆.head.trans head₃.symm
      obtain ⟨o, stored, named⟩ := Option.map_eq_some_iff.mp clean
      refine ⟨rfl, head₇.trans level, pushed.trans (congrArg some level), ⟨o, ?_, named⟩, fun name given => by cases given⟩
      have stays := kept _ _ (whole.onward.objects _ _ stored)
      rwa [← whole.head, level] at stays

end Receipts
section Refusals
variable {α β : Type} {g : GitChangePersister} {p : Persistence} {b message : String} {t : List (Exchange Call Reply Raised)}

/-- The backup was refused: the clone and its branch are as they were, and the error names where they stand. -/
def Refused (g : GitChangePersister) (p : Persistence) (message : String) (r r' : Repository) : Prop :=
  Untouched p.branch r r' ∧ ∃ tip, r.remote p.branch = some tip ∧ message = backupRefused g p r.head tip

theorem refusedSince (same : Untouched p.branch r mid) (refused : Refused g p message mid r') : Refused g p message r r' := by
  obtain ⟨rest, tip, named, said⟩ := refused
  exact ⟨untouchedTrans same rest, tip, same.own ▸ named, same.head ▸ said⟩

/-- A program whose steps alone can fail does not raise the persister's own error. -/
theorem plainQuiet {program : Persists α} (plain : program.Plain)
    (went : Goes (Takes (Spares b)) program r t r' (.error (.runtime message))) : False := by
  rcases goesPlain plain went with ⟨a, same, -⟩ | ⟨e, early, c, same, trail, -⟩
  · cases same
  · cases same
    have each : ∀ x ∈ t, ∀ message, x.answer ≠ .error (.runtime message) := by
      refine goesEach (fun _ _ answer _ taken message given => ?_) went
      rw [show answer = _ from given] at taken
      exact taken.1 message rfl
    exact each _ (trail ▸ List.mem_append_right _ (List.mem_singleton_self _)) message rfl

theorem askPlain (c : Call) : (ask c).Plain := plainRequest c

theorem beforeCommitPlain : (beforeCommit p).Plain := by
  unfold beforeCommit
  split
  · exact plainRequest _
  · exact plainPure _

theorem beforePublishPlain (sha : String) : (beforePublish p sha).Plain := by
  unfold beforePublish
  split
  · exact plainRequest _
  · exact plainPure _

theorem dirtyPlain : (persistDirty p).Plain :=
  plainBind (askPlain _) fun _ => plainBind (askPlain _) fun _ => plainBind (askPlain _) fun _ => plainBind beforeCommitPlain fun _ =>
    plainBind (askPlain _) fun sha => plainBind (beforePublishPlain sha) fun _ => plainBind (askPlain _) fun _ => plainPure _

theorem replayPlain (headSha remoteTip : String) : (replay p headSha remoteTip).Plain := by
  refine plainBind (askPlain _) fun _ => plainBind (askPlain _) fun _ => plainBind (askPlain _) fun _ => plainBind (askPlain _) fun _ =>
    plainBind (askPlain _) fun _ => ?_
  split
  · exact plainBind (askPlain _) fun _ => plainPure _
  · exact plainBind (askPlain _) fun _ => plainBind (askPlain _) fun _ => plainBind (askPlain _) fun _ => plainPure _

/-- A bind whose first program is plain raises the error in its second. -/
theorem raisedSecond {program : Persists α} {next : α → Persists β} (plain : program.Plain)
    (went : Goes (Takes (Spares b)) (program >>= next) r t r' (.error (.runtime message))) :
    ∃ a mid early late, Goes (Takes (Spares b)) program r early mid (.ok a) ∧
      Goes (Takes (Spares b)) (next a) mid late r' (.error (.runtime message)) := by
  rcases goesBind program next went with ⟨e, same, failed⟩ | ⟨a, mid, early, late, ran, rest, -⟩
  · cases same
    exact (plainQuiet plain failed).elim
  · exact ⟨a, mid, early, late, ran, rest⟩

theorem pushFailed {name : String} {e : Raised} (went : Goes (Takes (Spares b)) (ask (.push name)) r t r' (.error e)) (other : b ≠ name) :
    Untouched b r r' := by
  obtain ⟨-, mid, spares, breaks⟩ := (goesRequest went).1
  refine untouchedTrans (sparesUntouched spares) ?_
  cases breaks with
  | untouched => exact untouchedRefl b _
  | landed effect =>
    have onward := effectOnward effect
    cases effect with
    | push fast => exact ⟨rfl, rfl, rfl, rfl, Function.update_of_ne other .., onward⟩

theorem recoverRefused {remoteTip : String} (tip : r.remote p.branch = some remoteTip)
    (went : Goes (Takes (Spares p.branch)) (recoverFromDivergence g p r.head remoteTip) r t r' (.error (.runtime message))) :
    Refused g p message r r' := by
  rcases goesBind _ _ went with ⟨e, -, failed⟩ | ⟨caught, mid, early, late, ran, rest, -⟩
  · obtain ⟨x, same, -⟩ := goesAttempt failed
    cases same
  · obtain ⟨x, same, tried⟩ := goesAttempt ran
    cases same
    cases caught with
    | ok done => exact (plainQuiet (replayPlain _ _) rest).elim
    | error e =>
      have same := pushFailed tried (backupApart p)
      cases e with
      | cancelled => cases (goesRaise rest).2.2
      | git =>
        obtain ⟨-, rfl, said⟩ := goesRaise rest
        cases said
        exact ⟨same, remoteTip, tip, rfl⟩
      | nativeWriteRefusal =>
        obtain ⟨-, rfl, said⟩ := goesRaise rest
        cases said
        exact ⟨same, remoteTip, tip, rfl⟩
      | runtime text => exact (plainQuiet (askPlain _) tried).elim
      | softFailure =>
        obtain ⟨-, rfl, said⟩ := goesRaise rest
        cases said
        exact ⟨same, remoteTip, tip, rfl⟩
      | gate =>
        obtain ⟨-, rfl, said⟩ := goesRaise rest
        cases said
        exact ⟨same, remoteTip, tip, rfl⟩

theorem cleanRefused (went : Goes (Takes (Spares p.branch)) (persistClean g p) r t r' (.error (.runtime message))) :
    Refused g p message r r' := by
  obtain ⟨headSha, r₁, _, _, asked, then₁⟩ := raisedSecond (askPlain _) went
  obtain ⟨mid₁, same₁, effect₁⟩ := okAsk asked
  cases effect₁
  obtain ⟨remoteTip, r₂, _, _, probed, then₂⟩ := raisedSecond (askPlain _) then₁
  obtain ⟨mid₂, same₂, effect₂⟩ := okAsk probed
  cases effect₂
  have same := untouchedTrans same₁ same₂
  rw [show r₁.head = r₂.head from same₂.head.symm] at then₂
  split at then₂
  · exact (plainQuiet (plainPure _) then₂).elim
  · have plain : (descends (r₂.remote p.branch) r₂.head).Plain := by
      unfold descends
      split
      · exact plainPure _
      · exact askPlain _
    have asks : (descends (r₂.remote p.branch) r₂.head).Asks Reads := by
      unfold descends
      split
      · exact asksPure _
      · exact askReads (.isAncestor _ _) trivial
    obtain ⟨descends_, r₃, _, _, told, then₃⟩ := raisedSecond plain then₂
    have same₃ := goesReads asks told
    refine refusedSince (untouchedTrans same same₃) ?_
    split at then₃
    · rename_i apart
      split at then₃
      · cases (goesRaise then₃).2.2
      · cases tip : r₂.remote p.branch with
        | none =>
          rw [tip] at told
          obtain ⟨-, -, given⟩ := goesRet told
          cases given
          exact absurd rfl apart
        | some remoteTip =>
          rw [tip, same₃.head.symm] at then₃
          rcases goesBind _ _ then₃ with ⟨e, given, failed⟩ | ⟨result, mid, early, late, ran, done, -⟩
          · cases given
            exact recoverRefused (same₃.own.trans tip) failed
          · cases (goesRet done).2.2
    · refine (plainQuiet ?_ then₃).elim
      exact plainBind (askPlain _) fun _ => plainBind beforeCommitPlain fun _ => plainBind (beforePublishPlain _) fun _ =>
        plainBind (askPlain _) fun _ => plainPure _

end Refusals
section Samples

theorem takesNow {b : String} {reply : Reply c} (effect : Effect r c reply r') : Takes (Spares b) r c (.ok reply) r' :=
  ⟨r, ⟨⟨extendsRefl _, forwardRefl _ _, rfl⟩, rfl⟩, effect⟩

def origin : GitChangePersister := ⟨"origin"⟩

def laneWork : Persistence := ⟨"lane", "12345678", false, false⟩

/-- One commit, an edited file and nothing on the remote. -/
def edited : Repository where
  objects sha := if sha = "c0" then some ⟨[], "t0", "first"⟩ else none
  head := "c0"
  attached := some "lane"
  heads _ := none
  remote _ := none
  index := "t0"
  work := "t1"

theorem editedPersists : ∃ t r', Goes (Takes (Spares laneWork.branch)) (persist origin laneWork) edited t r'
    (.ok (some ⟨"c1", "lane", "edit", .workingTreeCommit, none⟩)) := by
  have dirty : true = true ↔ edited.Dirty := iff_of_true rfl (.inr (by decide))
  refine ⟨_, _, .call (takesNow (.hasChanges dirty)) (.call (takesNow (.generateCommitMessage _ ⟨"edit", ""⟩))
    (.call (takesNow (.addAll _)) (.call (takesNow (.gatedMessage _ _ "edit" _)) (.call (takesNow (.commit "edit" ?_ ?_))
      (.call (takesNow (.push ?_)) .ret)))))⟩
  · decide
  · exact .inl rfl
  · intro tip named
    cases named

theorem editedKept : ∃ t r', Goes (Takes (Spares laneWork.branch)) (persist origin laneWork) edited t r'
    (.ok (some ⟨"c1", "lane", "edit", .workingTreeCommit, none⟩)) ∧ Kept r' "c0" := by
  obtain ⟨t, r', went⟩ := editedPersists
  exact ⟨t, r', went, (persistLosesNothing (goesMono (fun _ _ _ _ => takesWider) went)).1 "c0" (.inl .refl)⟩

/-- Two commits on one parent, HEAD on one of them and the remote's branch on the other. -/
def parted : Repository where
  objects sha :=
    if sha = "c0" then some ⟨[], "t0", "first"⟩
    else if sha = "c1" then some ⟨["c0"], "t1", "ours"⟩
    else if sha = "c2" then some ⟨["c0"], "t2", "theirs"⟩ else none
  head := "c1"
  attached := some "lane"
  heads _ := none
  remote name := if name = "lane" then some "c2" else none
  index := "t1"
  work := "t1"

theorem partedApart : ¬ Contains parted.objects "c1" "c2" := by
  intro contains
  rcases Relation.ReflTransGen.cases_head contains with same | ⟨x, ⟨o, stored, member⟩, rest⟩
  · exact absurd same (by decide)
  · cases stored
    obtain rfl := List.mem_singleton.mp member
    rcases Relation.ReflTransGen.cases_head rest with same | ⟨y, ⟨o, stored, member⟩, -⟩
    · exact absurd same (by decide)
    · cases stored
      cases member

end Samples
end Kodezart.Persist
