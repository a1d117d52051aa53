import Kodezart.BranchMerger

/-! Runs of the merger over one clone and its remote, other processes at work on the remote in
between. A step that fails may have taken effect all the same. -/
namespace Kodezart.Merging
open CommitGraph
open Prog

structure Checkout where
  branch : Option String
  sha : String
  deriving DecidableEq, Repr

/-- `pushes` records the pushes of this clone that the remote took, each as it moved the branch. -/
structure Clone where
  objects : Objects String String
  heads : Refs String
  tracking : Refs String
  remote : Refs String
  checkout : Option Checkout
  pushes : List (String × String)

namespace Clone

def resolve (r : Clone) : Rev → Option String
  | .head => r.checkout.map Checkout.sha
  | .tracking branch => r.tracking branch

/-- The worktree and the branch it is on, moved to a commit. -/
def moveHead (r : Clone) (at_ : Checkout) (sha : String) : Clone :=
  { r with checkout := some ⟨at_.branch, sha⟩,
           heads := at_.branch.elim r.heads fun branch => Function.update r.heads branch (some sha) }

end Clone

/-- Others do what they like to the remote. -/
structure Drifts (r r' : Clone) : Prop where
  objects : Extends r.objects r'.objects
  local_ : r' = { r with objects := r'.objects, remote := r'.remote }

/-- Others only push forward. -/
structure Forwards (r r' : Clone) : Prop extends Drifts r r' where
  forward : Forward r'.objects r.remote r'.remote

/-- Nor do they push to a branch in the one exchange that deletes it. -/
structure Spares (c : Call) (r r' : Clone) : Prop extends Forwards r r' where
  own : ∀ branch, c = .deleteRemoteBranch branch → r'.remote branch = r.remote branch

inductive Effect : Clone → (c : Call) → Reply c → Clone → Prop where
  | detach (r : Clone) (ref sha : String) : Effect r (.acquire ref none) () { r with checkout := some ⟨none, sha⟩ }
  | attach {r : Clone} {ref branch sha : String} (stands : r.heads branch = some sha) :
      Effect r (.acquire ref (some branch)) () { r with checkout := some ⟨some branch, sha⟩ }
  | create {r : Clone} {ref branch : String} (sha : String) (absent : r.heads branch = none) :
      Effect r (.acquire ref (some branch)) () (r.moveHead ⟨some branch, sha⟩ sha)
  | release (r : Clone) : Effect r .release () { r with checkout := none }
  | fetch (r : Clone) : Effect r .fetch () { r with tracking := fun branch => (r.remote branch).or (r.tracking branch) }
  | currentSha {r : Clone} {at_ : Checkout} (stands : r.checkout = some at_) : Effect r .currentSha at_.sha r
  | isAncestor {r : Clone} {ancestor descendant : Rev} {older newer : String} {answer : Bool}
      (first : r.resolve ancestor = some older) (second : r.resolve descendant = some newer)
      (told : answer = true ↔ Contains r.objects newer older) : Effect r (.isAncestor ancestor descendant) answer r
  | mergeNothing {r : Clone} {source : Rev} {tip : String} {at_ : Checkout} (stands : r.checkout = some at_)
      (named : r.resolve source = some tip) (already : Contains r.objects at_.sha tip) : Effect r (.mergeBranch source) () r
  | mergeFast {r : Clone} {source : Rev} {tip : String} {at_ : Checkout} (stands : r.checkout = some at_)
      (named : r.resolve source = some tip) (fast : Contains r.objects tip at_.sha) :
      Effect r (.mergeBranch source) () (r.moveHead at_ tip)
  | push {r : Clone} {branch : String} {at_ : Checkout} (stands : r.checkout = some at_)
      (fast : ∀ tip, r.remote branch = some tip → Contains r.objects at_.sha tip) :
      Effect r (.push branch) () { r with remote := Function.update r.remote branch (some at_.sha), pushes := (branch, at_.sha) :: r.pushes }
  | remoteBranchSha (r : Clone) (branch : String) : Effect r (.remoteBranchSha branch) (r.remote branch) r
  | deleteRemoteBranch (r : Clone) (branch : String) :
      Effect r (.deleteRemoteBranch branch) () { r with remote := Function.update r.remote branch none }
  | listRemoteBranches {r : Clone} {start : String} {names : List String}
      (told : ∀ name, name ∈ names ↔ (r.remote name).isSome = true ∧ start.toList <+: name.toList) :
      Effect r (.listRemoteBranches start) names r

/-- A failed step leaves nothing, its effect, or a branch made for a worktree that was not. -/
inductive Breaks : Clone → Call → Clone → Prop where
  | untouched (r : Clone) (c : Call) : Breaks r c r
  | landed {r r' : Clone} {c : Call} {reply : Reply c} (effect : Effect r c reply r') : Breaks r c r'
  | branched {r : Clone} (ref branch sha : String) (absent : r.heads branch = none) :
      Breaks r (.acquire ref (some branch)) { r with heads := Function.update r.heads branch (some sha) }

def Takes (drifts : Call → Clone → Clone → Prop) (r : Clone) (c : Call) : Except Raised (Reply c) → Clone → Prop
  | .ok reply, r' => ∃ mid, drifts c r mid ∧ Effect mid c reply r'
  | .error _, r' => ∃ mid, drifts c r mid ∧ Breaks mid c r'

variable {r r' mid : Clone} {c : Call} {commit : String} {k : Consolidation} {t : List (Exchange Call Reply Raised)} {α β : Type}

section Keeping

/-- Objects are only added, and every ref of the remote only moves forward. -/
structure Onward (r r' : Clone) : Prop where
  objects : Extends r.objects r'.objects
  forward : Forward r'.objects r.remote r'.remote

theorem onwardRefl (r : Clone) : Onward r r := ⟨extendsRefl _, forwardRefl _ _⟩

theorem onwardTrans (first : Onward r mid) (second : Onward mid r') : Onward r r' :=
  ⟨extendsTrans first.objects second.objects, forwardTrans (forwardExtends second.objects first.forward) second.forward⟩

/-- A request that deletes nothing. -/
def Mild (c : Call) : Prop := ∀ branch, c ≠ .deleteRemoteBranch branch

theorem effectOnward {reply : Reply c} (mild : Mild c) (effect : Effect r c reply r') : Onward r r' := by
  cases effect with
  | push stands fast => exact ⟨extendsRefl _, forwardUpdate fast⟩
  | deleteRemoteBranch => exact absurd rfl (mild _)
  | detach => exact ⟨extendsRefl _, forwardRefl _ _⟩
  | attach => exact ⟨extendsRefl _, forwardRefl _ _⟩
  | create => exact ⟨extendsRefl _, forwardRefl _ _⟩
  | release => exact ⟨extendsRefl _, forwardRefl _ _⟩
  | fetch => exact ⟨extendsRefl _, forwardRefl _ _⟩
  | currentSha => exact onwardRefl r
  | isAncestor => exact onwardRefl r
  | mergeNothing => exact onwardRefl r
  | mergeFast => exact ⟨extendsRefl _, forwardRefl _ _⟩
  | remoteBranchSha => exact onwardRefl r
  | listRemoteBranches => exact onwardRefl r

theorem takesOnward {answer : Except Raised (Reply c)} (mild : Mild c) (taken : Takes Spares r c answer r') : Onward r r' := by
  cases answer with
  | ok reply =>
    obtain ⟨mid, spares, effect⟩ := taken
    exact onwardTrans ⟨spares.objects, spares.forward⟩ (effectOnward mild effect)
  | error e =>
    obtain ⟨mid, spares, breaks⟩ := taken
    refine onwardTrans ⟨spares.objects, spares.forward⟩ ?_
    cases breaks with
    | untouched => exact onwardRefl _
    | landed effect => exact effectOnward mild effect
    | branched => exact ⟨extendsRefl _, forwardRefl _ _⟩

/-- The remote goes on holding what it held. -/
structure Keeps (r r' : Clone) : Prop where
  objects : Extends r.objects r'.objects
  held : ∀ commit, Holds r.objects r.remote commit → Holds r'.objects r'.remote commit

theorem keepsTrans (first : Keeps r mid) (second : Keeps mid r') : Keeps r r' :=
  ⟨extendsTrans first.objects second.objects, fun commit held => second.held commit (first.held commit held)⟩

theorem keepsOnward (onward : Onward r r') : Keeps r r' :=
  ⟨onward.objects, fun _ held => holdsForward onward.forward (holdsExtends onward.objects held)⟩

def Preserves (program : Merges α) : Prop := ∀ r t r' out, Goes (Takes Spares) program r t r' out → Keeps r r'

theorem goesOnward {program : Merges α} {out : Except Raised α} (asks : program.Asks Mild)
    (went : Goes (Takes Spares) program r t r' out) : Onward r r' :=
  goesKeepsAsking (Onward r) asks (fun _ _ _ _ mild onward taken => onwardTrans onward (takesOnward mild taken)) (onwardRefl r) went

theorem preservesAsking {program : Merges α} (asks : program.Asks Mild) : Preserves program :=
  fun _ _ _ _ went => keepsOnward (goesOnward asks went)

theorem preservesBind {program : Merges α} {next : α → Merges β} (first : Preserves program) (second : ∀ a, Preserves (next a)) :
    Preserves (program >>= next) := by
  intro r t r' out went
  rcases goesBind program next went with ⟨e, -, failed⟩ | ⟨a, mid, early, late, ran, rest, -⟩
  · exact first _ _ _ _ failed
  · exact keepsTrans (first _ _ _ _ ran) (second a _ _ _ _ rest)

theorem askMild (c : Call) (mild : Mild c) : (ask c).Asks Mild := (asksRequest c).mpr mild

/-- A branch of the remote contains the commit. -/
def Landed (feature commit : String) (r : Clone) : Prop := ∃ tip, r.remote feature = some tip ∧ Contains r.objects tip commit

theorem landedOnward {feature : String} (onward : Onward r r') (landed : Landed feature commit r) : Landed feature commit r' := by
  obtain ⟨tip, named, contains⟩ := landed
  obtain ⟨tip', stands, newer⟩ := onward.forward feature tip named
  exact ⟨tip', stands, newer.trans (containsExtends onward.objects contains)⟩

theorem deleteKeeps {source feature merged : String} (apart : feature ≠ source) (stands : r.remote source = some merged)
    (landed : Landed feature merged r) : Keeps r { r with remote := Function.update r.remote source none } := by
  refine ⟨extendsRefl _, fun commit held => ?_⟩
  obtain ⟨name, tip, named, contains⟩ := held
  by_cases here : name = source
  · subst here
    cases stands.symm.trans named
    obtain ⟨top, taken, reaches⟩ := landed
    exact ⟨feature, top, (Function.update_of_ne apart ..).trans taken, reaches.trans contains⟩
  · exact ⟨name, tip, (Function.update_of_ne here ..).trans named, contains⟩

theorem takesDelete {source feature merged : String} {answer : Except Raised Unit} (apart : feature ≠ source)
    (stands : r.remote source = some merged) (landed : Landed feature merged r)
    (taken : Takes Spares r (.deleteRemoteBranch source) answer r') : Keeps r r' := by
  have deleted : ∀ {mid : Clone}, Spares (.deleteRemoteBranch source) r mid → Keeps r { mid with remote := Function.update mid.remote source none } := by
    intro mid spares
    have onward : Onward r mid := ⟨spares.objects, spares.forward⟩
    exact keepsTrans (keepsOnward onward) (deleteKeeps apart ((spares.own source rfl).trans stands) (landedOnward onward landed))
  cases answer with
  | ok reply =>
    obtain ⟨mid, spares, effect⟩ := taken
    cases effect
    exact deleted spares
  | error e =>
    obtain ⟨mid, spares, breaks⟩ := taken
    cases breaks with
    | untouched => exact keepsOnward ⟨spares.objects, spares.forward⟩
    | landed effect =>
      cases effect
      exact deleted spares

theorem probeRead {source : String} {tip : Option String} (taken : Takes Spares r (.remoteBranchSha source) (.ok tip) r') :
    r'.remote source = tip := by
  obtain ⟨mid, spares, effect⟩ := taken
  cases effect
  rfl

theorem cleanupKeeps {source feature merged : String} {out : Except Raised Unit} (apart : feature ≠ source) (landed : Landed feature merged r)
    (went : Goes (Takes Spares) (cleanupSource source merged) r t r' out) : Keeps r r' := by
  have probe : Mild (.remoteBranchSha source) := fun _ => by simp
  rcases goesBind _ _ went with ⟨e, -, failed⟩ | ⟨tip, mid, early, late, asked, rest, -⟩
  · exact keepsOnward (takesOnward probe (goesRequest failed).1)
  · have onward := takesOnward probe (goesRequest asked).1
    cases tip with
    | none => exact (goesRet rest).2.1 ▸ keepsOnward onward
    | some remoteSha =>
      have stands := probeRead (goesRequest asked).1
      change Goes _ (if remoteSha = merged then ask (.deleteRemoteBranch source) else pure ()) _ _ _ _ at rest
      split at rest
      · rename_i same
        exact keepsTrans (keepsOnward onward) (takesDelete apart (same ▸ stands) (landedOnward onward landed) (goesRequest rest).1)
      · exact (goesRet rest).2.1 ▸ keepsOnward onward

theorem cleanupInternalKeeps {source feature merged : String} {out : Except Raised Unit} (apart : feature ≠ source) (landed : Landed feature merged r)
    (went : Goes (Takes Spares) (cleanupSourceInternal source merged) r t r' out) : Keeps r r' := by
  rcases goesBind _ _ went with ⟨e, -, failed⟩ | ⟨caught, mid, early, late, ran, rest, -⟩
  · obtain ⟨x, same, -⟩ := goesAttempt failed
    cases same
  · obtain ⟨x, same, tried⟩ := goesAttempt ran
    cases same
    have kept := cleanupKeeps apart landed tried
    have stays : r' = mid := by
      cases caught with
      | ok done => exact (goesRet rest).2.1
      | error e =>
        cases e with
        | cancelled => exact (goesRaise rest).2.1
        | step => exact (goesRet rest).2.1
        | runtime => exact (goesRet rest).2.1
    exact stays ▸ kept

/-- What a push that the remote takes leaves: the branch at HEAD. -/
theorem pushLands {feature : String} {done : Unit} (taken : Takes Spares r (.push feature) (.ok done) r') :
    ∃ at_, r'.checkout = some at_ ∧ Landed feature at_.sha r' := by
  obtain ⟨mid, spares, effect⟩ := taken
  cases effect with
  | push stands fast => exact ⟨_, stands, _, Function.update_self .., .refl⟩

theorem headRead {sha : String} (taken : Takes Spares r .currentSha (.ok sha) r') : r.checkout.map Checkout.sha = some sha := by
  obtain ⟨mid, spares, effect⟩ := taken
  cases effect with
  | currentSha stands =>
    rw [spares.local_] at stands
    exact congrArg (Option.map Checkout.sha) stands

theorem integratePreserves (apart : k.featureBranch ≠ k.sourceBranch) : Preserves (integrate k) := by
  refine preservesBind (preservesAsking (askMild _ fun _ => by simp)) fun _ =>
    preservesBind (preservesAsking (askMild _ fun _ => by simp)) fun headSha =>
      preservesBind (preservesAsking (askMild _ fun _ => by simp)) fun integrated => ?_
  split
  · exact preservesAsking (asksPure _)
  · refine preservesBind (preservesAsking (askMild _ fun _ => by simp)) fun ahead => ?_
    split
    · refine preservesBind (preservesAsking (askMild _ fun _ => by simp)) fun _ => ?_
      intro r t r' out went
      rcases goesBind _ _ went with ⟨e, -, failed⟩ | ⟨_, r₁, _, _, pushed, then₁, -⟩
      · exact keepsOnward (takesOnward (fun _ => by simp) (goesRequest failed).1)
      · have onward₁ := takesOnward (fun _ => by simp) (goesRequest pushed).1
        obtain ⟨at_, stands, landed⟩ := pushLands (goesRequest pushed).1
        rcases goesBind _ _ then₁ with ⟨e, -, failed⟩ | ⟨newHead, r₂, _, _, asked, then₂, -⟩
        · exact keepsOnward (onwardTrans onward₁ (takesOnward (fun _ => by simp) (goesRequest failed).1))
        · have onward₂ := takesOnward (fun _ => by simp) (goesRequest asked).1
          have head := headRead (goesRequest asked).1
          rw [stands] at head
          cases head
          have before := keepsOnward (onwardTrans onward₁ onward₂)
          rcases goesBind _ _ then₂ with ⟨e, -, failed⟩ | ⟨_, r₃, _, _, cleaned, then₃, -⟩
          · exact keepsTrans before (cleanupInternalKeeps apart (landedOnward onward₂ landed) failed)
          · exact (goesRet then₃).2.1 ▸ keepsTrans before (cleanupInternalKeeps apart (landedOnward onward₂ landed) cleaned)
    · exact preservesAsking (asksPure _)

theorem asksEnsuring {allowed : Call → Prop} {program : Merges α} {last : Merges Unit} (first : program.Asks allowed) (then_ : last.Asks allowed) :
    (ensuring program last).Asks allowed :=
  asksBind (asksAttempt first) fun x => asksBind then_ fun _ => asksOfExcept x

theorem goesEnsuring {takes : Clone → (c : Call) → Except Raised (Reply c) → Clone → Prop} {program : Merges α} {last : Merges Unit}
    {out : Except Raised α} (went : Goes takes (ensuring program last) r t r' out) :
    ∃ x mid early late, Goes takes program r early mid x ∧ t = early ++ late ∧ ∃ done, Goes takes last mid late r' done ∧
      ((∃ e, done = .error e ∧ out = .error e) ∨ done = .ok () ∧ out = x) := by
  rcases goesBind _ _ went with ⟨e, -, failed⟩ | ⟨caught, mid, early, late, ran, rest, trail⟩
  · obtain ⟨x, same, -⟩ := goesAttempt failed
    cases same
  · obtain ⟨x, same, tried⟩ := goesAttempt ran
    cases same
    refine ⟨caught, mid, early, late, tried, trail, ?_⟩
    rcases goesBind _ _ rest with ⟨e, given, failed⟩ | ⟨done, mid', early', late', closed, ended, trail'⟩
    · exact ⟨_, failed, .inl ⟨e, rfl, given⟩⟩
    · obtain ⟨rfl, rfl, given⟩ := goesOfExcept ended
      rw [List.append_nil] at trail'
      exact ⟨_, trail' ▸ closed, .inr ⟨rfl, given⟩⟩

theorem preservesEnsuring {program : Merges α} {last : Merges Unit} (first : Preserves program) (then_ : Preserves last) :
    Preserves (ensuring program last) := by
  intro r t r' out went
  obtain ⟨x, mid, early, late, ran, -, done, closed, -⟩ := goesEnsuring went
  exact keepsTrans (first _ _ _ _ ran) (then_ _ _ _ _ closed)

/-- The requests of a probe: a workspace on HEAD and a question to the remote. -/
structure Probes (allowed : Call → Prop) : Prop where
  acquires : allowed (.acquire "HEAD" none)
  releases : allowed .release
  reads : ∀ branch, allowed (.remoteBranchSha branch)

section Probing
variable {allowed : Call → Prop}

theorem featureTipAsks (probes : Probes allowed) : (featureTip k).Asks allowed := by
  refine asksCall (probes.reads _) fun tip => ?_
  cases tip with
  | some tip => exact asksPure _
  | none =>
    refine asksCall (probes.reads _) fun tip => ?_
    cases tip with
    | some tip => exact asksPure _
    | none => exact asksRaise _

theorem probeAsks (probes : Probes allowed) (branch : String) : (workspaceRemoteBranchSha branch).Asks allowed :=
  asksCall probes.acquires fun _ =>
    asksEnsuring ((asksRequest _).mpr (probes.reads branch)) ((asksRequest _).mpr probes.releases)

theorem resolveAsks (probes : Probes allowed) : (resolveFeatureTipOrRaise k).Asks allowed :=
  asksCall probes.acquires fun _ =>
    asksEnsuring (featureTipAsks probes) ((asksRequest _).mpr probes.releases)

end Probing

theorem probesMild : Probes Mild := ⟨fun _ => by simp, fun _ => by simp, fun _ _ => by simp⟩

theorem consolidatePreserves (apart : k.featureBranch ≠ k.sourceBranch) : Preserves (consolidate k) := by
  refine preservesBind (preservesAsking (probeAsks probesMild _)) fun tip => ?_
  cases tip with
  | none => exact preservesAsking (asksBind (resolveAsks probesMild) fun _ => asksPure _)
  | some tip =>
    exact preservesBind (preservesAsking (askMild _ fun _ => by simp)) fun _ =>
      preservesEnsuring (integratePreserves apart) (preservesAsking (askMild _ fun _ => by simp))

/-- Consolidations on one clone, one after the other, and what others pushed before and between them. -/
inductive Consolidations : Clone → Clone → Prop where
  | start (r : Clone) : Consolidations r r
  | others {r mid r' : Clone} (before : Consolidations r mid) (pushed : Forwards mid r') : Consolidations r r'
  | call {r mid r' : Clone} {k : Consolidation} {t : List (Exchange Call Reply Raised)} {out : Except Raised ConsolidationOutcome}
      (before : Consolidations r mid) (apart : k.featureBranch ≠ k.sourceBranch)
      (went : Goes (Takes Spares) (consolidate k) mid t r' out) : Consolidations r r'

end Keeping
section Telling
variable {feature sha : String}

/-- The clone's own refs, worktree and pushes as they were. -/
structure Same (r r' : Clone) : Prop where
  heads : r'.heads = r.heads
  tracking : r'.tracking = r.tracking
  checkout : r'.checkout = r.checkout
  pushes : r'.pushes = r.pushes
  objects : Extends r.objects r'.objects

theorem sameRefl (r : Clone) : Same r r := ⟨rfl, rfl, rfl, rfl, extendsRefl _⟩

theorem sameTrans (first : Same r mid) (second : Same mid r') : Same r r' :=
  ⟨second.heads.trans first.heads, second.tracking.trans first.tracking, second.checkout.trans first.checkout,
    second.pushes.trans first.pushes, extendsTrans first.objects second.objects⟩

theorem driftsSame (drifts : Drifts r r') : Same r r' where
  heads := by rw [drifts.local_]
  tracking := by rw [drifts.local_]
  checkout := by rw [drifts.local_]
  pushes := by rw [drifts.local_]
  objects := drifts.objects

/-- Others race with every request. -/
abbrev Races (_ : Call) (r r' : Clone) : Prop := Drifts r r'

/-- A request that leaves the clone alone. -/
def Quiet : Call → Prop
  | .currentSha | .isAncestor _ _ | .remoteBranchSha _ | .deleteRemoteBranch _ => True
  | _ => False

theorem effectSame {reply : Reply c} (quiet : Quiet c) (effect : Effect r c reply r') : Same r r' := by
  cases effect with
  | currentSha => exact sameRefl r
  | isAncestor => exact sameRefl r
  | remoteBranchSha => exact sameRefl r
  | deleteRemoteBranch => exact ⟨rfl, rfl, rfl, rfl, extendsRefl _⟩
  | detach => exact quiet.elim
  | attach => exact quiet.elim
  | create => exact quiet.elim
  | release => exact quiet.elim
  | fetch => exact quiet.elim
  | mergeNothing => exact quiet.elim
  | mergeFast => exact quiet.elim
  | push => exact quiet.elim
  | listRemoteBranches => exact quiet.elim

theorem takesSame {answer : Except Raised (Reply c)} (quiet : Quiet c) (taken : Takes Races r c answer r') : Same r r' := by
  cases answer with
  | ok reply =>
    obtain ⟨mid, drifts, effect⟩ := taken
    exact sameTrans (driftsSame drifts) (effectSame quiet effect)
  | error e =>
    obtain ⟨mid, drifts, breaks⟩ := taken
    refine sameTrans (driftsSame drifts) ?_
    cases breaks with
    | untouched => exact sameRefl _
    | landed effect => exact effectSame quiet effect
    | branched => exact quiet.elim

theorem goesSame {program : Merges α} {out : Except Raised α} (asks : program.Asks Quiet)
    (went : Goes (Takes Races) program r t r' out) : Same r r' :=
  goesKeepsAsking (Same r) asks (fun _ _ _ _ quiet same taken => sameTrans same (takesSame quiet taken)) (sameRefl r) went

theorem askQuiet (c : Call) (quiet : Quiet c) : (ask c).Asks Quiet := (asksRequest c).mpr quiet

theorem cleanupAsks (source merged : String) : (cleanupSource source merged).Asks Quiet := by
  refine asksCall trivial fun tip => ?_
  cases tip with
  | none => exact asksPure _
  | some remoteSha =>
    change Asks Quiet (if remoteSha = merged then ask (.deleteRemoteBranch source) else pure ())
    split
    · exact askQuiet _ trivial
    · exact asksPure _

theorem cleanupInternalAsks (source merged : String) : (cleanupSourceInternal source merged).Asks Quiet := by
  refine asksBind (asksAttempt (cleanupAsks source merged)) fun x => ?_
  cases x with
  | ok done => exact asksPure _
  | error e =>
    cases e with
    | cancelled => exact asksRaise _
    | step => exact asksPure _
    | runtime => exact asksPure _

/-- The worktree stands on the branch, both at the commit. -/
structure Stands (feature sha : String) (r : Clone) : Prop where
  checkout : r.checkout = some ⟨some feature, sha⟩
  head : r.heads feature = some sha

theorem standsSame (same : Same r r') (stands : Stands feature sha r) : Stands feature sha r' :=
  ⟨same.checkout.trans stands.checkout, by rw [same.heads, stands.head]⟩

/-- What an outcome says: what the clone fetched, where its feature branch stands, and what it pushed. -/
inductive Told (k : Consolidation) (r r' : Clone) : ConsolidationOutcome → Prop where
  | missing {tip : String} (pushes : r'.pushes = r.pushes) : Told k r r' ⟨.sourceMissing, tip⟩
  | integrated {tip source : String} (fetched : r'.tracking k.sourceBranch = some source) (head : r'.heads k.featureBranch = some tip)
      (contains : Contains r'.objects tip source) (pushes : r'.pushes = r.pushes) : Told k r r' ⟨.alreadyIntegrated, tip⟩
  | forwarded {tip source : String} (fetched : r'.tracking k.sourceBranch = some source) (head : r'.heads k.featureBranch = some tip)
      (contains : Contains r'.objects tip source) (pushes : r'.pushes = (k.featureBranch, tip) :: r.pushes) :
      Told k r r' ⟨.fastForwarded, tip⟩
  | divergent {tip source : String} (fetched : r'.tracking k.sourceBranch = some source) (head : r'.heads k.featureBranch = some tip)
      (pushes : r'.pushes = r.pushes) : Told k r r' ⟨.divergent, tip⟩

theorem toldSame {outcome : ConsolidationOutcome} (told : Told k r mid outcome) (heads : r'.heads = mid.heads) (tracking : r'.tracking = mid.tracking)
    (pushes : r'.pushes = mid.pushes) (objects : Extends mid.objects r'.objects) : Told k r r' outcome := by
  cases told with
  | missing none => exact .missing (pushes.trans none)
  | integrated fetched head contains same =>
    exact .integrated (tracking ▸ fetched) (heads ▸ head) (containsExtends objects contains) (pushes.trans same)
  | forwarded fetched head contains same =>
    exact .forwarded (tracking ▸ fetched) (heads ▸ head) (containsExtends objects contains) (pushes.trans same)
  | divergent fetched head same => exact .divergent (tracking ▸ fetched) (heads ▸ head) (pushes.trans same)

theorem toldFrom {outcome : ConsolidationOutcome} (told : Told k mid r' outcome) (pushes : mid.pushes = r.pushes) : Told k r r' outcome := by
  cases told with
  | missing none => exact .missing (none.trans pushes)
  | integrated fetched head contains same => exact .integrated fetched head contains (same.trans pushes)
  | forwarded fetched head contains same => exact .forwarded fetched head contains (pushes ▸ same)
  | divergent fetched head same => exact .divergent fetched head (same.trans pushes)

theorem okAsk {reply : Reply c} (went : Goes (Takes Races) (ask c) r t r' (.ok reply)) : ∃ mid, Same r mid ∧ Effect mid c reply r' := by
  obtain ⟨mid, drifts, effect⟩ := (goesRequest went).1
  exact ⟨mid, driftsSame drifts, effect⟩

theorem headIs (at_ : Checkout) {reply : String} (stands : r.checkout = some at_)
    (went : Goes (Takes Races) (ask .currentSha) r t r' (.ok reply)) : reply = at_.sha ∧ Same r r' := by
  have same := goesSame (askQuiet .currentSha trivial) went
  obtain ⟨mid, before, effect⟩ := okAsk went
  cases effect with
  | currentSha here =>
    cases here.symm.trans (before.checkout.trans stands)
    exact ⟨rfl, same⟩

theorem headSays {reply : String} (stands : Stands feature sha r) (went : Goes (Takes Races) (ask .currentSha) r t r' (.ok reply)) :
    reply = sha ∧ Same r r' := headIs _ stands.checkout went

/-- The fast-forward, the push, and where they leave the branch. -/
theorem mergedTold {outcome : ConsolidationOutcome} {source : String} (stands : Stands k.featureBranch sha r)
    (fetched : r.tracking k.sourceBranch = some source)
    (went : Goes (Takes Races) (fastForward k) r t r' (.ok outcome)) : Told k r r' outcome := by
  obtain ⟨_, r₁, _, _, merged, then₁, -⟩ := goesOk went
  obtain ⟨mid₁, same₁, effect₁⟩ := okAsk merged
  have stood := standsSame same₁ stands
  have standing : ∃ tip, Stands k.featureBranch tip r₁ ∧ Contains r₁.objects tip source ∧ r₁.tracking = r.tracking ∧ r₁.pushes = r.pushes := by
    cases effect₁ with
    | mergeNothing at_ named already =>
      cases at_.symm.trans stood.checkout
      cases named.symm.trans ((congrFun same₁.tracking _).trans fetched)
      exact ⟨sha, stood, already, same₁.tracking, same₁.pushes⟩
    | mergeFast at_ named fast =>
      cases at_.symm.trans stood.checkout
      cases named.symm.trans ((congrFun same₁.tracking _).trans fetched)
      exact ⟨source, ⟨rfl, Function.update_self ..⟩, .refl, same₁.tracking, same₁.pushes⟩
  obtain ⟨tip, stands₁, contains, tracking₁, pushes₁⟩ := standing
  obtain ⟨_, r₂, _, _, pushed, then₂, -⟩ := goesOk then₁
  obtain ⟨mid₂, same₂, effect₂⟩ := okAsk pushed
  cases effect₂ with
  | push at_ fast =>
    have stood₂ := standsSame same₂ stands₁
    cases at_.symm.trans stood₂.checkout
    have stands₂ : Stands k.featureBranch tip
        { mid₂ with remote := Function.update mid₂.remote k.featureBranch (some tip), pushes := (k.featureBranch, tip) :: mid₂.pushes } :=
      ⟨stood₂.checkout, stood₂.head⟩
    obtain ⟨newHead, r₃, _, _, asked, then₃, -⟩ := goesOk then₂
    obtain ⟨rfl, same₃⟩ := headSays stands₂ asked
    obtain ⟨_, r₄, _, _, cleaned, then₄, -⟩ := goesOk then₃
    obtain ⟨-, rfl, same⟩ := goesRet then₄
    cases same
    have same₄ := goesSame (cleanupInternalAsks _ _) cleaned
    have last := sameTrans same₃ same₄
    have known : r'.tracking k.sourceBranch = some source := by
      rw [last.tracking]
      exact (congrFun (same₂.tracking.trans tracking₁) _).trans fetched
    have took : r'.pushes = (k.featureBranch, newHead) :: r.pushes := by
      rw [last.pushes]
      exact congrArg _ (same₂.pushes.trans pushes₁)
    exact .forwarded known (standsSame last stands₂).head (containsExtends (extendsTrans same₂.objects last.objects) contains) took

theorem integrateTold {outcome : ConsolidationOutcome} (stands : Stands k.featureBranch sha r)
    (went : Goes (Takes Races) (integrate k) r t r' (.ok outcome)) : Told k r r' outcome := by
  obtain ⟨_, r₁, _, _, fetched, then₁, -⟩ := goesOk went
  obtain ⟨mid₁, same₁, effect₁⟩ := okAsk fetched
  cases effect₁
  have stands₁ : Stands k.featureBranch sha { mid₁ with tracking := fun branch => (mid₁.remote branch).or (mid₁.tracking branch) } :=
    ⟨(standsSame same₁ stands).checkout, (standsSame same₁ stands).head⟩
  obtain ⟨headSha, r₂, _, _, asked, then₂, -⟩ := goesOk then₁
  obtain ⟨rfl, same₂⟩ := headSays stands₁ asked
  have stands₂ := standsSame same₂ stands₁
  obtain ⟨integrated, r₃, _, _, older, then₃, -⟩ := goesOk then₂
  have same₃ := goesSame (askQuiet (.isAncestor _ _) trivial) older
  have stands₃ := standsSame same₃ stands₂
  have pushes₃ : r₃.pushes = r.pushes := same₃.pushes.trans (same₂.pushes.trans same₁.pushes)
  obtain ⟨mid₃, before₃, effect₃⟩ := okAsk older
  cases effect₃ with
  | @isAncestor _ _ source head _ first second told =>
    cases second.symm.trans (congrArg (Option.map Checkout.sha) stands₃.checkout)
    cases integrated with
    | true =>
      obtain ⟨-, rfl, same⟩ := goesRet then₃
      cases same
      exact .integrated first stands₃.head (told.mp rfl) pushes₃
    | false =>
      obtain ⟨ahead, r₄, _, _, newer, then₄, -⟩ := goesOk then₃
      have same₄ := goesSame (askQuiet (.isAncestor _ _) trivial) newer
      have stands₄ := standsSame same₄ stands₃
      have fetched₄ : r₄.tracking k.sourceBranch = some source := (congrFun same₄.tracking _).trans first
      have pushes₄ := same₄.pushes.trans pushes₃
      cases ahead with
      | true => exact toldFrom (mergedTold stands₄ fetched₄ then₄) pushes₄
      | false =>
        obtain ⟨-, rfl, same⟩ := goesRet then₄
        cases same
        exact .divergent fetched₄ stands₄.head pushes₄

/-- A request that pushes nothing. -/
def Pushless (c : Call) : Prop := ∀ branch, c ≠ .push branch

theorem effectPushless {reply : Reply c} (pushless : Pushless c) (effect : Effect r c reply r') : r'.pushes = r.pushes := by
  cases effect with
  | push => exact absurd rfl (pushless _)
  | _ => rfl

theorem takesPushless {answer : Except Raised (Reply c)} (pushless : Pushless c) (taken : Takes Races r c answer r') : r'.pushes = r.pushes := by
  cases answer with
  | ok reply =>
    obtain ⟨mid, drifts, effect⟩ := taken
    exact (effectPushless pushless effect).trans (driftsSame drifts).pushes
  | error e =>
    obtain ⟨mid, drifts, breaks⟩ := taken
    refine Eq.trans ?_ (driftsSame drifts).pushes
    cases breaks with
    | untouched => rfl
    | landed effect => exact effectPushless pushless effect
    | branched => rfl

theorem goesPushless {program : Merges α} {out : Except Raised α} (asks : program.Asks Pushless)
    (went : Goes (Takes Races) program r t r' out) : r'.pushes = r.pushes :=
  goesKeepsAsking (fun s => s.pushes = r.pushes) asks (fun _ _ _ _ pushless same taken => (takesPushless pushless taken).trans same) rfl went

theorem askPushless (c : Call) (pushless : Pushless c) : (ask c).Asks Pushless := (asksRequest c).mpr pushless

theorem probesPushless : Probes Pushless := ⟨fun _ => by simp, fun _ => by simp, fun _ _ => by simp⟩

theorem acquireStands {base : String} (went : Goes (Takes Races) (ask (.acquire base (some feature))) r t r' (.ok ())) :
    ∃ sha, Stands feature sha r' := by
  obtain ⟨mid, -, effect⟩ := okAsk went
  cases effect with
  | attach stands => exact ⟨_, rfl, stands⟩
  | create sha absent => exact ⟨sha, rfl, Function.update_self ..⟩

theorem releaseTold {outcome : ConsolidationOutcome} (told : Told k r mid outcome)
    (went : Goes (Takes Races) (ask .release) mid t r' (.ok ())) : Told k r r' outcome := by
  obtain ⟨between, same, effect⟩ := okAsk went
  cases effect
  exact toldSame told same.heads same.tracking same.pushes same.objects

end Telling
section Deleting

abbrev Trace := List (Exchange Call Reply Raised)

/-- The deletions of a trace: none, or a single one, of the source, which the remote has just said to stand
at the commit the feature branch was pushed at. -/
inductive Deletes (k : Consolidation) (pushes pushes' : List (String × String)) : Trace → Prop where
  | none {t : Trace} (mild : ∀ x ∈ t, Mild x.call) : Deletes k pushes pushes' t
  | one {early late : Trace} {merged : String} {answer : Except Raised Unit} (before : ∀ x ∈ early, Mild x.call)
      (after : ∀ x ∈ late, Mild x.call) (pushed : pushes' = (k.featureBranch, merged) :: pushes) : Deletes k pushes pushes'
        (early ++ ⟨.remoteBranchSha k.sourceBranch, .ok (some merged)⟩ :: ⟨.deleteRemoteBranch k.sourceBranch, answer⟩ :: late)

variable {pushes pushes' : List (String × String)} {sha : String}

theorem deletesAfter {early late : Trace} (mild : ∀ x ∈ early, Mild x.call) (deletes : Deletes k pushes pushes' late) :
    Deletes k pushes pushes' (early ++ late) := by
  cases deletes with
  | none rest => exact .none fun x member => (List.mem_append.mp member).elim (mild x) (rest x)
  | one before after pushed =>
    rw [← List.append_assoc]
    exact .one (fun x member => (List.mem_append.mp member).elim (mild x) (before x)) after pushed

theorem deletesBefore {early late : Trace} (mild : ∀ x ∈ late, Mild x.call) (deletes : Deletes k pushes pushes' early) :
    Deletes k pushes pushes' (early ++ late) := by
  cases deletes with
  | none rest => exact .none fun x member => (List.mem_append.mp member).elim (rest x) (mild x)
  | one before after pushed =>
    rw [List.append_assoc]
    exact .one before (fun x member => (List.mem_append.mp member).elim (after x) (mild x)) pushed

theorem cleanupDeletes {merged : String} {out : Except Raised Unit}
    (went : Goes (Takes Races) (cleanupSource k.sourceBranch merged) r t r' out) :
    Deletes k pushes ((k.featureBranch, merged) :: pushes) t := by
  have probe : Mild (.remoteBranchSha k.sourceBranch) := fun _ => by simp
  rcases goesBind _ _ went with ⟨e, -, failed⟩ | ⟨tip, mid, early, late, asked, rest, rfl⟩
  · exact .none (goesAllowed (askMild _ probe) failed)
  · have mild := goesAllowed (askMild _ probe) asked
    have trail := (goesRequest asked).2
    cases tip with
    | none => exact deletesAfter mild (.none (goesAllowed (asksPure _) rest))
    | some remoteSha =>
      change Goes _ (if remoteSha = merged then ask (.deleteRemoteBranch k.sourceBranch) else pure ()) _ _ _ _ at rest
      split at rest
      · rename_i same
        subst same
        rw [trail, (goesRequest rest).2]
        exact @Deletes.one k _ _ [] [] _ _ (by simp) (by simp) rfl
      · exact deletesAfter mild (.none (goesAllowed (asksPure _) rest))

theorem cleanupInternalDeletes {merged : String} {out : Except Raised Unit}
    (went : Goes (Takes Races) (cleanupSourceInternal k.sourceBranch merged) r t r' out) :
    Deletes k pushes ((k.featureBranch, merged) :: pushes) t := by
  rcases goesBind _ _ went with ⟨e, -, failed⟩ | ⟨caught, mid, early, late, ran, rest, rfl⟩
  · obtain ⟨x, same, -⟩ := goesAttempt failed
    cases same
  · obtain ⟨x, -, tried⟩ := goesAttempt ran
    refine deletesBefore (goesAllowed ?_ rest) (cleanupDeletes tried)
    cases caught with
    | ok done => exact asksPure _
    | error e =>
      cases e with
      | cancelled => exact asksRaise _
      | step => exact asksPure _
      | runtime => exact asksPure _

theorem fastForwardDeletes {out : Except Raised ConsolidationOutcome} (went : Goes (Takes Races) (fastForward k) r t r' out) :
    Deletes k r.pushes r'.pushes t := by
  rcases goesBind _ _ went with ⟨e, -, failed⟩ | ⟨_, r₁, _, _, merged, then₁, rfl⟩
  · exact .none (goesAllowed (askMild _ fun _ => by simp) failed)
  · refine deletesAfter (goesAllowed (askMild _ fun _ => by simp) merged) ?_
    rw [← goesPushless (askPushless _ fun _ => by simp) merged]
    rcases goesBind _ _ then₁ with ⟨e, -, failed⟩ | ⟨_, r₂, _, _, pushed, then₂, rfl⟩
    · exact .none (goesAllowed (askMild _ fun _ => by simp) failed)
    · refine deletesAfter (goesAllowed (askMild _ fun _ => by simp) pushed) ?_
      rcases goesBind _ _ then₂ with ⟨e, -, failed⟩ | ⟨newHead, r₃, _, _, asked, then₃, rfl⟩
      · exact .none (goesAllowed (askMild _ fun _ => by simp) failed)
      · refine deletesAfter (goesAllowed (askMild _ fun _ => by simp) asked) ?_
        obtain ⟨between, same, effect⟩ := okAsk pushed
        cases effect with
        | @push _ at_ stands fast =>
          obtain ⟨rfl, read⟩ := headIs at_ (by exact stands) asked
          have stays : r'.pushes = r₃.pushes := by
            rcases goesBind _ _ then₃ with ⟨e, -, failed⟩ | ⟨_, r₄, _, _, cleaned, then₄, -⟩
            · exact (goesSame (cleanupInternalAsks _ _) failed).pushes
            · exact (goesRet then₄).2.1 ▸ (goesSame (cleanupInternalAsks _ _) cleaned).pushes
          have took : r'.pushes = (k.featureBranch, at_.sha) :: r₁.pushes :=
            stays.trans (read.pushes.trans (congrArg _ same.pushes))
          rw [took]
          rcases goesBind _ _ then₃ with ⟨e, -, failed⟩ | ⟨_, r₄, _, _, cleaned, then₄, rfl⟩
          · exact cleanupInternalDeletes failed
          · exact deletesBefore (goesAllowed (asksPure _) then₄) (cleanupInternalDeletes cleaned)

theorem integrateDeletes {out : Except Raised ConsolidationOutcome} (went : Goes (Takes Races) (integrate k) r t r' out) :
    Deletes k r.pushes r'.pushes t := by
  rcases goesBind _ _ went with ⟨e, -, failed⟩ | ⟨_, r₁, _, _, fetched, then₁, rfl⟩
  · exact .none (goesAllowed (askMild _ fun _ => by simp) failed)
  · refine deletesAfter (goesAllowed (askMild _ fun _ => by simp) fetched) ?_
    rw [← goesPushless (askPushless _ fun _ => by simp) fetched]
    rcases goesBind _ _ then₁ with ⟨e, -, failed⟩ | ⟨_, r₂, _, _, asked, then₂, rfl⟩
    · exact .none (goesAllowed (askMild _ fun _ => by simp) failed)
    · refine deletesAfter (goesAllowed (askMild _ fun _ => by simp) asked) ?_
      rw [← goesPushless (askPushless _ fun _ => by simp) asked]
      rcases goesBind _ _ then₂ with ⟨e, -, failed⟩ | ⟨integrated, r₃, _, _, older, then₃, rfl⟩
      · exact .none (goesAllowed (askMild _ fun _ => by simp) failed)
      · refine deletesAfter (goesAllowed (askMild _ fun _ => by simp) older) ?_
        rw [← goesPushless (askPushless _ fun _ => by simp) older]
        cases integrated with
        | true => exact .none (goesAllowed (asksPure _) then₃)
        | false =>
          rcases goesBind _ _ then₃ with ⟨e, -, failed⟩ | ⟨ahead, r₄, _, _, newer, then₄, rfl⟩
          · exact .none (goesAllowed (askMild _ fun _ => by simp) failed)
          · refine deletesAfter (goesAllowed (askMild _ fun _ => by simp) newer) ?_
            rw [← goesPushless (askPushless _ fun _ => by simp) newer]
            cases ahead with
            | true => exact fastForwardDeletes then₄
            | false => exact .none (goesAllowed (asksPure _) then₄)

end Deleting
section Samples

/-- Two commits, the feature branch at the first and the source at the second. -/
def forked : Clone where
  objects sha :=
    if sha = "c0" then some ⟨[], "t0", "first"⟩ else if sha = "c1" then some ⟨["c0"], "t1", "second"⟩ else none
  heads _ := none
  tracking _ := none
  remote name := if name = "lane" then some "c1" else if name = "feat" then some "c0" else none
  checkout := none
  pushes := []

def landed : Consolidation := ⟨"origin", "trunk", "feat", "lane", "'feat'", "'trunk'"⟩

theorem takesNow {r r' : Clone} {c : Call} {reply : Reply c} (effect : Effect r c reply r') : Takes Spares r c (.ok reply) r' :=
  ⟨r, ⟨⟨⟨extendsRefl _, rfl⟩, forwardRefl _ _⟩, fun _ _ => rfl⟩, effect⟩

theorem forkedApart : ¬ Contains forked.objects "c0" "c1" := by
  intro contains
  rcases Relation.ReflTransGen.cases_head contains with same | ⟨x, ⟨o, stored, member⟩, -⟩
  · exact absurd same (by decide)
  · cases stored
    cases member

theorem forkedLands : ∃ t r', Goes (Takes Spares) (consolidate landed) forked t r' (.ok ⟨.fastForwarded, "c1"⟩) ∧ r'.remote "lane" = none := by
  have above : Contains forked.objects "c1" "c0" := .single ⟨⟨["c0"], "t1", "second"⟩, rfl, List.mem_singleton.mpr rfl⟩
  refine ⟨_, _, .call (takesNow (.detach _ _ "c0")) (.call (takesNow (.remoteBranchSha _ _)) (.call (takesNow (.release _))
    (.call (takesNow (.create "c0" rfl)) (.call (takesNow (.fetch _)) (.call (takesNow (.currentSha rfl))
    (.call (takesNow (@Effect.isAncestor _ _ _ "c1" "c0" false rfl rfl (iff_of_false Bool.false_ne_true forkedApart)))
    (.call (takesNow (@Effect.isAncestor _ _ _ "c0" "c1" true rfl rfl (iff_of_true rfl above)))
    (.call (takesNow (@Effect.mergeFast _ _ "c1" _ rfl rfl above)) (.call (takesNow (.push rfl ?_)) (.call (takesNow (.currentSha rfl))
    (.call (takesNow (.remoteBranchSha _ _)) (.call (takesNow (.deleteRemoteBranch _ _)) (.call (takesNow (.release _)) .ret))))))))))))), ?_⟩
  · intro tip named
    cases named
    exact above
  · rfl

theorem takesRaces {r r' : Clone} {c : Call} {answer : Except Raised (Reply c)} (taken : Takes Spares r c answer r') :
    Takes Races r c answer r' := by
  cases answer with
  | ok reply => exact taken.imp fun _ both => ⟨both.1.toDrifts, both.2⟩
  | error e => exact taken.imp fun _ both => ⟨both.1.toDrifts, both.2⟩

end Samples
end Kodezart.Merging
