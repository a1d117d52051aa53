import Kodezart.ScopeMembers

/-! Scope reads over a workspace that does not change while it is read, each of its listings
delivered over some pages. Every read ends, in the members or at the cycle that stands there. -/
namespace Kodezart.ScopeReader
open Tracker (ScopeKind ScopeRef)
open Paging (Page Delivers)

structure Workspace where
  issues : List ScopeIssue
  projects : List NonemptyStr
  milestones : NonemptyStr → List ScopeNamedWire
  initiatives : List ScopeInitiativeWire
  projectsOf : NonemptyStr → List NonemptyStr

/-- The row of an issue. -/
def RowOf (row : ScopeIssueWire) (issue : ScopeIssue) : Prop :=
  row.id = issue.issueKey ∧ row.projectMilestone.map Subtype.val = issue.milestoneKey

variable {ε α β σ : Type} {tools : Tools ε} {ref : ScopeRef} {fuel more : Nat} {found : Found} {w : Workspace}

/-- A listing that so many pages deliver: a row for each member, maybe more than one, and no other rows. -/
def Delivered (fuel : Nat) (list : Option String → Except ε (Page α)) (shows : α → β → Prop) (members : β → Prop) : Prop :=
  ∃ count rows, Delivers list [] none count rows ∧ count ≤ fuel ∧ (∀ row ∈ rows, ∃ m, members m ∧ shows row m) ∧
    ∀ m, members m → ∃ row ∈ rows, shows row m

/-- The tools answer from the workspace, each listing within the pages a traversal has. -/
structure Serves (fuel : Nat) (w : Workspace) (tools : Tools ε) : Prop where
  once : (w.issues.map (·.issueKey)).Nodup
  read : ∀ issue ∈ w.issues, tools.readIssue issue.issueKey = .ok issue
  under : ∀ issue ∈ w.issues, Delivered fuel (tools.listIssuesUnder issue.issueKey) RowOf
    fun child => child ∈ w.issues ∧ child.parentKey = some issue.issueKey
  inProject : ∀ p ∈ w.projects, Delivered fuel (tools.listIssuesOf p) RowOf
    fun issue => issue ∈ w.issues ∧ issue.projectId = some p.val
  projects : Delivered fuel tools.listProjects Eq (· ∈ w.projects)
  milestones : ∀ p ∈ w.projects, tools.listMilestones p = .ok (w.milestones p)
  milestone : ∀ p ∈ w.projects, ∀ m ∈ w.milestones p, tools.getMilestone p m.id = .ok m.id
  initiativesOnce : (w.initiatives.map (·.id)).Nodup
  initiative : ∀ i ∈ w.initiatives, tools.getInitiative i.id = .ok i
  closed : ∀ i ∈ w.initiatives, ∀ c ∈ i.subInitiatives, c ∈ w.initiatives.map (·.id)
  projectsOf : ∀ i ∈ w.initiatives, Delivered fuel (tools.listProjectsOf i.id) Eq (· ∈ w.projectsOf i.id)
  known : ∀ i ∈ w.initiatives, ∀ p ∈ w.projectsOf i.id, p ∈ w.projects

theorem deliveredMore {list : Option String → Except ε (Page α)} {shows : α → β → Prop} {members : β → Prop}
    (delivered : Delivered fuel list shows members) (less : fuel ≤ more) : Delivered more list shows members := by
  obtain ⟨count, rows, delivers, pages_, rest⟩ := delivered
  exact ⟨count, rows, delivers, pages_.trans less, rest⟩

theorem servesMore (serves : Serves fuel w tools) (less : fuel ≤ more) : Serves more w tools :=
  { serves with
    under := fun issue member => deliveredMore (serves.under issue member) less
    inProject := fun p known => deliveredMore (serves.inProject p known) less
    projects := deliveredMore serves.projects less
    projectsOf := fun i known => deliveredMore (serves.projectsOf i known) less }

theorem onlyIssue {one other : ScopeIssue} (once : (w.issues.map (·.issueKey)).Nodup) (first : one ∈ w.issues)
    (second : other ∈ w.issues) (same : one.issueKey = other.issueKey) : one = other :=
  List.inj_on_of_nodup_map once first second same

theorem holdingLength (holding : Holding (· ∈ w.issues) found) : found.length ≤ w.issues.length := by
  have inside : ∀ k ∈ found.keys, k ∈ w.issues.map (·.issueKey) := by
    intro k member
    obtain ⟨e, held, rfl⟩ := List.mem_map.mp member
    exact List.mem_map.mpr ⟨e.2, holding.kind e held, (holding.own e held).symm⟩
  have short := (holding.once.subperm inside).length_le
  simpa [Dict.keys] using short

/-- An issue of the workspace is the detail under its key, held or read. -/
theorem detailServed {issue : ScopeIssue} (serves : Serves fuel w tools) (holding : Holding (· ∈ w.issues) found)
    (member : issue ∈ w.issues) : detail tools found issue.issueKey = .ok issue := by
  rw [detailOk]
  cases got : found.get? issue.issueKey with
  | none => exact .inr ⟨rfl, serves.read issue member⟩
  | some other =>
    obtain ⟨named, inside⟩ := holdingGet holding got
    exact .inl (by rw [onlyIssue serves.once inside member named])

section Subtree
variable {root : ScopeIssue} {pending : List NonemptyStr} {state : Found × List NonemptyStr} {parentKey : NonemptyStr}
  {row : ScopeIssueWire} {issue : ScopeIssue}

theorem rowServed (ref : ScopeRef) (serves : Serves fuel w tools) (holding : Holding (· ∈ w.issues) state.1) (member : issue ∈ w.issues)
    (parent : issue.parentKey = some parentKey) (shown : RowOf row issue) :
    ∃ state', subtreeRow tools ref parentKey state row = .ok state' ∧ Holding (· ∈ w.issues) state'.1 := by
  have held : detail tools state.1 row.id = .ok issue := by
    rw [shown.1]
    exact detailServed serves holding member
  refine ⟨_, subtreeRowOk.mpr ⟨issue, held, shown.1.symm, parent, rfl⟩, ?_⟩
  split
  · exact holding
  · rename_i fresh
    have grown := holdingSet holding member
    rwa [Dict.setFresh issue (shown.1 ▸ fresh)] at grown

theorem subtreeEnds (ref : ScopeRef) (more : Nat) (serves : Serves fuel w tools) (holding : Holding (· ∈ w.issues) found)
    (gathering : Gathering tools root pending found) (enough : pending.length + (w.issues.length - found.length) ≤ more) :
    ∃ found', subtreeFrom tools ref fuel more pending found = .ok found' ∧ Holding (· ∈ w.issues) found' := by
  induction more generalizing pending found with
  | zero =>
    cases pending with
    | nil => exact ⟨found, rfl, holding⟩
    | cons _ _ =>
      rw [List.length_cons] at enough
      omega
  | succ more ih =>
    cases pending with
    | nil => exact ⟨found, rfl, holding⟩
    | cons parentKey pending =>
      obtain ⟨e, inside, same⟩ := List.mem_map.mp (gathering.queued parentKey (List.mem_cons_self ..))
      obtain ⟨count, rows, delivers, pages_, shown, all⟩ := serves.under e.2 (holding.kind e inside)
      rw [← holding.own e inside, same] at delivers shown
      have listed : ∀ row ∈ rows, Under tools parentKey row.id := fun row member => ⟨rows, ⟨count, delivers⟩, row, member, rfl⟩
      obtain ⟨⟨found', queue⟩, folded, grown, holding'⟩ :=
        Paging.foldKeeps (fun before state => Grown tools root found pending before state ∧ Holding (· ∈ w.issues) state.1)
          (subtreeRow tools ref parentKey) rows ⟨grownStart gathering, holding⟩ (fun before row state kept member => by
            obtain ⟨child, ⟨known, parent⟩, shows⟩ := shown row member
            obtain ⟨state', ok, held⟩ := rowServed ref serves kept.2 known parent shows
            exact ⟨state', ok, grownRow (listed row member) kept.1 ok, held⟩)
      obtain ⟨new, grew, appended, -⟩ := grown.new
      have sizes : found'.length = found.length + new.length := by rw [show found' = found ++ new from grew, List.length_append]
      have queued : queue.length = pending.length + new.length := by
        rw [show queue = pending ++ new.keys from appended, List.length_append, Dict.keys, List.length_map]
      have room : found'.length ≤ w.issues.length := holdingLength holding'
      rw [List.length_cons] at enough
      obtain ⟨last, ended, held⟩ := ih holding' (gatheringStep ⟨count, delivers⟩ gathering grown) (by
        show queue.length + (w.issues.length - found'.length) ≤ more
        omega)
      refine ⟨last, ?_, held⟩
      rw [subtreeFrom, pagesFolded delivers pages_, folded]
      exact ended

end Subtree
section Project
variable {project : NonemptyStr} {milestone : Option NonemptyStr} {state : Found × Found} {row : ScopeIssueWire} {issue : ScopeIssue}

theorem projectRowServed (ref : ScopeRef) (milestone : Option NonemptyStr) (serves : Serves fuel w tools) (found : Holding (· ∈ w.issues) state.1) (hydrated : Holding (· ∈ w.issues) state.2)
    (member : issue ∈ w.issues) (placed : issue.projectId = some project.val) (shown : RowOf row issue) :
    ∃ state', projectRow tools ref project milestone state row = .ok state' ∧
      Holding (· ∈ w.issues) state'.1 ∧ Holding (· ∈ w.issues) state'.2 := by
  have held : detail tools state.2 row.id = .ok issue := by
    rw [shown.1]
    exact detailServed serves hydrated member
  refine ⟨_, projectRowOk.mpr ⟨issue, held, shown.1.symm, placed, fun _ => shown.2.symm, rfl⟩, ?_, holdingSet hydrated member⟩
  show Holding (· ∈ w.issues) (if _ then _ else _)
  split
  · exact holdingSet found member
  · exact found

theorem projectEnds (ref : ScopeRef) (milestone : Option NonemptyStr) (serves : Serves fuel w tools) (known : project ∈ w.projects) :
    ∃ found, projectIssues tools ref fuel project milestone = .ok found ∧ Holding (· ∈ w.issues) found := by
  obtain ⟨count, rows, delivers, pages_, shown, all⟩ := serves.inProject project known
  let Kept (_ : List ScopeIssueWire) (state : Found × Found) : Prop := Holding (· ∈ w.issues) state.1 ∧ Holding (· ∈ w.issues) state.2
  have nothing : Holding (· ∈ w.issues) [] := ⟨by simp [Dict.keys], by simp, by simp⟩
  have start : Kept [] ([], []) := ⟨nothing, nothing⟩
  obtain ⟨⟨found, hydrated⟩, folded, held, -⟩ :=
    Paging.foldKeeps Kept (projectRow tools ref project milestone) rows start (fun before row state kept member => by
        obtain ⟨issue, ⟨known, placed⟩, shows⟩ := shown row member
        exact projectRowServed ref milestone serves kept.1 kept.2 known placed shows)
  refine ⟨found, ?_, held⟩
  rw [projectIssues, pagesFolded delivers pages_, folded]
  rfl

end Project

section Initiatives
variable {root initiative : ScopeInitiativeWire} {pending : List NonemptyStr} {walk : InitiativeWalk}
  {state : List NonemptyStr × Found} {project : NonemptyStr}

theorem initiativeProjectServed (ref : ScopeRef) (serves : Serves fuel w tools) (holding : Holding (· ∈ w.issues) state.2) (known : project ∈ w.projects) :
    ∃ state', initiativeProject tools ref fuel state project = .ok state' ∧ Holding (· ∈ w.issues) state'.2 := by
  unfold initiativeProject
  split
  · exact ⟨state, rfl, holding⟩
  · obtain ⟨issues, returned, held⟩ := projectEnds ref none serves known
    rw [returned]
    exact ⟨_, rfl, holdingUpdate holding held⟩

/-- What is left to do: the queue, and the children of each initiative not yet read. -/
def unread (w : Workspace) (seen pending : List NonemptyStr) : Nat :=
  pending.length + ((w.initiatives.filter fun i => !seen.contains i.id).map (·.subInitiatives.length)).sum

theorem unreadEntered {seen : List NonemptyStr} (once : (w.initiatives.map (·.id)).Nodup) (member : initiative ∈ w.initiatives)
    (fresh : initiative.id ∉ seen) :
    unread w (initiative.id :: seen) (pending ++ initiative.subInitiatives) = unread w seen pending := by
  have waiting : initiative ∈ w.initiatives.filter fun i => !seen.contains i.id :=
    List.mem_filter.mpr ⟨member, by simpa using fresh⟩
  have rest : (w.initiatives.filter fun i => !(initiative.id :: seen).contains i.id) =
      (w.initiatives.filter fun i => !seen.contains i.id).erase initiative := by
    rw [((List.Nodup.of_map _ once).filter _).erase_eq_filter, List.filter_filter]
    refine List.filter_congr fun i inside => ?_
    have same : i.id = initiative.id ↔ i = initiative := ⟨List.inj_on_of_nodup_map once inside member, congrArg _⟩
    by_cases here : i = initiative <;> simp [same, here]
  have total := List.sum_map_erase (·.subInitiatives.length) waiting
  simp only [unread, rest, List.length_append]
  omega

theorem projectsHandled (ref : ScopeRef) (state : List NonemptyStr × Found) (serves : Serves fuel w tools) (holding : Holding (· ∈ w.issues) state.2) (member : initiative ∈ w.initiatives) :
    ∃ state', pages "list_projects" fuel (tools.listProjectsOf initiative.id) (initiativeProject tools ref fuel) state = .ok state' ∧
      Holding (· ∈ w.issues) state'.2 := by
  obtain ⟨count, rows, delivers, pages_, shown, all⟩ := serves.projectsOf initiative member
  rw [pagesFolded delivers pages_]
  refine Paging.foldKeeps (fun _ (state : List NonemptyStr × Found) => Holding (· ∈ w.issues) state.2) _ rows holding fun before row state kept inside => ?_
  obtain ⟨p, listed, same⟩ := shown row inside
  exact initiativeProjectServed ref serves kept (same ▸ serves.known initiative member p listed)

theorem initiativesEntered {key : NonemptyStr} {projects : List NonemptyStr} (answered : tools.getInitiative key = .ok initiative)
    (unseen : key ∉ walk.seen) (agrees : ¬ (walk.seen ≠ [] ∧ initiative.id ≠ key)) (fresh : initiative.id ∉ walk.seen)
    (handled : pages "list_projects" fuel (tools.listProjectsOf initiative.id) (initiativeProject tools ref fuel)
      (walk.projects, walk.found) = .ok (projects, found)) :
    initiativesFrom tools ref fuel (more + 1) (key :: pending) walk =
      initiativesFrom tools ref fuel more (pending ++ initiative.subInitiatives)
        { found, projects, seen := initiative.id :: walk.seen,
          children := walk.children.set initiative.id initiative.subInitiatives.dedup } := by
  have entered : initiativesFrom tools ref fuel (more + 1) (key :: pending) walk =
      if walk.seen ≠ [] ∧ initiative.id ≠ key then .error (.scopeRead "initiative child lookup returned a different identity" ref)
      else if initiative.id ∈ walk.seen then initiativesFrom tools ref fuel more pending walk
      else pages "list_projects" fuel (tools.listProjectsOf initiative.id) (initiativeProject tools ref fuel)
        (walk.projects, walk.found) >>= fun handled =>
          initiativesFrom tools ref fuel more (pending ++ initiative.subInitiatives)
            { found := handled.2, projects := handled.1, seen := initiative.id :: walk.seen,
              children := walk.children.set initiative.id initiative.subInitiatives.dedup } := by
    rw [initiativesFrom, if_neg unseen, readOk.mpr answered]
    rfl
  rw [entered, if_neg agrees, if_neg fresh, handled]
  rfl

theorem initiativesEnd (ref : ScopeRef) (pending : List NonemptyStr) (walk : InitiativeWalk) (serves : Serves fuel w tools)
    (holding : Holding (· ∈ w.issues) walk.found) (started : walk.seen ≠ [])
    (queued : ∀ k ∈ pending, k ∈ w.initiatives.map (·.id)) (enough : unread w walk.seen pending ≤ more) :
    ∃ walk', initiativesFrom tools ref fuel more pending walk = .ok walk' ∧ Holding (· ∈ w.issues) walk'.found := by
  induction more generalizing pending walk with
  | zero =>
    cases pending with
    | nil => exact ⟨walk, rfl, holding⟩
    | cons _ _ => simp [unread] at enough
  | succ more ih =>
    cases pending with
    | nil => exact ⟨walk, rfl, holding⟩
    | cons key pending =>
      have later : ∀ k ∈ pending, k ∈ w.initiatives.map (·.id) := fun k member => queued k (List.mem_cons_of_mem _ member)
      have less : unread w walk.seen pending ≤ more := by
        rw [unread, List.length_cons] at enough
        rw [unread]
        omega
      rcases Decidable.em (key ∈ walk.seen) with known | unseen
      · rw [initiativesFrom, if_pos known]
        exact ih pending walk holding started later less
      · obtain ⟨initiative, member, rfl⟩ := List.mem_map.mp (queued key (List.mem_cons_self ..))
        obtain ⟨⟨projects, found⟩, handled, held⟩ :=
          projectsHandled ref (walk.projects, walk.found) serves holding member
        obtain ⟨walk', ended, last⟩ := ih (pending ++ initiative.subInitiatives)
          { found, projects, seen := initiative.id :: walk.seen,
            children := walk.children.set initiative.id initiative.subInitiatives.dedup }
          held (List.cons_ne_nil _ _) (fun k inside => (List.mem_append.mp inside).elim (later k) (serves.closed initiative member k))
          (by rwa [unreadEntered serves.initiativesOnce member unseen])
        have answered := serves.initiative initiative member
        rw [initiativesEntered answered unseen (fun both => both.2 rfl) unseen handled]
        exact ⟨walk', ended, last⟩

theorem childrenBound (walked : Walked tools root [] walk) (inside : ∀ k ∈ walk.seen, k ∈ w.initiatives.map (·.id))
    (opened : ∀ i ∈ w.initiatives, Opens tools root i.id i) :
    (walk.children.keys.map fun k => (childrenOf walk.children k).length + 1).sum ≤ (w.initiatives.map (·.subInitiatives.length + 1)).sum := by
  obtain ⟨listed, same, part⟩ := walked.once.subperm fun k member => inside k ((walked.keys k).mp member)
  rw [← (same.map _).sum_eq]
  refine le_trans ((part.map _).sum_le_sum fun _ _ => Nat.zero_le _) ?_
  rw [List.map_map]
  refine List.sum_le_sum fun i member => ?_
  show (childrenOf walk.children i.id).length + 1 ≤ i.subInitiatives.length + 1
  unfold childrenOf
  cases got : walk.children.get? i.id with
  | none => simp
  | some kids =>
    obtain ⟨other, opens, -, rfl⟩ := walked.opened i.id kids got
    cases opensOnce opens (opened i member)
    exact Nat.succ_le_succ (List.dedup_sublist _).length_le

/-- `b` is a sub-initiative of `a`. -/
def SubInitiative (w : Workspace) (a b : NonemptyStr) : Prop := ∃ i ∈ w.initiatives, i.id = a ∧ b ∈ i.subInitiatives

theorem opensServed (serves : Serves fuel w tools) (rooted : root ∈ w.initiatives) :
    ∀ i ∈ w.initiatives, Opens tools root i.id i := by
  intro i member
  by_cases same : i.id = root.id
  · exact .inl ⟨same, List.inj_on_of_nodup_map serves.initiativesOnce member rooted same⟩
  · exact .inr ⟨same, serves.initiative i member⟩

theorem childServed (serves : Serves fuel w tools) (rooted : root ∈ w.initiatives) {a b : NonemptyStr}
    (known : a ∈ w.initiatives.map (·.id)) : (Child tools root a b ↔ SubInitiative w a b) ∧ (SubInitiative w a b → b ∈ w.initiatives.map (·.id)) := by
  obtain ⟨i, member, rfl⟩ := List.mem_map.mp known
  have opens := opensServed serves rooted i member
  refine ⟨⟨fun ⟨other, opens', kid⟩ => ⟨i, member, rfl, opensOnce opens' opens ▸ kid⟩, fun sub => ?_⟩, fun sub => ?_⟩
  · obtain ⟨other, inside, same, kid⟩ := sub
    exact ⟨other, same ▸ opensServed serves rooted other inside, kid⟩
  · obtain ⟨other, inside, -, kid⟩ := sub
    exact serves.closed other inside b kid

theorem reachServed (serves : Serves fuel w tools) (rooted : root ∈ w.initiatives) (key : NonemptyStr) :
    Relation.ReflTransGen (Child tools root) root.id key ↔ Relation.ReflTransGen (SubInitiative w) root.id key := by
  have start : root.id ∈ w.initiatives.map (·.id) := List.mem_map_of_mem rooted
  constructor
  · intro reached
    refine (CycleSearch.reachWithin (fun a b known child => ?_) start reached).1
    exact ⟨(childServed serves rooted known).1.mp child, (childServed serves rooted known).2 ((childServed serves rooted known).1.mp child)⟩
  · intro reached
    refine (CycleSearch.reachWithin (fun a b known sub => ?_) start reached).1
    exact ⟨(childServed serves rooted known).1.mpr sub, (childServed serves rooted known).2 sub⟩

theorem reachKnown (serves : Serves fuel w tools) (rooted : root ∈ w.initiatives) {key : NonemptyStr}
    (reached : Relation.ReflTransGen (SubInitiative w) root.id key) : key ∈ w.initiatives.map (·.id) :=
  (CycleSearch.reachWithin (s := SubInitiative w) (fun _ _ known sub => ⟨sub, (childServed serves rooted known).2 sub⟩)
    (List.mem_map_of_mem rooted) reached).2

theorem cycleServed (serves : Serves fuel w tools) (rooted : root ∈ w.initiatives) {key : NonemptyStr}
    (known : key ∈ w.initiatives.map (·.id)) :
    Relation.TransGen (Child tools root) key key ↔ Relation.TransGen (SubInitiative w) key key := by
  constructor
  · intro cycle
    refine (CycleSearch.leadsWithin (fun a b known child => ?_) known cycle).1
    exact ⟨(childServed serves rooted known).1.mp child, (childServed serves rooted known).2 ((childServed serves rooted known).1.mp child)⟩
  · intro cycle
    refine (CycleSearch.leadsWithin (fun a b known sub => ?_) known cycle).1
    exact ⟨(childServed serves rooted known).1.mpr sub, (childServed serves rooted known).2 sub⟩

/-- A bound on every loop of a read: the pages, the issues, and the initiatives with their children. -/
def loops (w : Workspace) (pageBound : Nat) : Nat :=
  pageBound + w.issues.length + (w.initiatives.map (·.subInitiatives.length + 1)).sum + 2

theorem initiativesWalked (serves : Serves fuel w tools) (rooted : root ∈ w.initiatives) (read : tools.getInitiative ref.key = .ok root)
    (enough : (w.initiatives.map (·.subInitiatives.length + 1)).sum + 1 ≤ fuel) :
    ∃ walk, initiativesFrom tools ref fuel fuel [ref.key] ⟨[], [], [], []⟩ = .ok walk ∧ Walked tools root [] walk ∧
      root.id ∈ walk.seen ∧ Holding (· ∈ w.issues) walk.found := by
  obtain ⟨more, rfl⟩ : ∃ more, fuel = more + 1 := ⟨fuel - 1, by omega⟩
  have nothing : Holding (· ∈ w.issues) [] := ⟨by simp [Dict.keys], by simp, by simp⟩
  obtain ⟨⟨projects, found⟩, handled, held⟩ := projectsHandled ref ([], []) serves nothing rooted
  have fewer : unread w [root.id] ([] ++ root.subInitiatives) ≤ more := by
    rw [unreadEntered serves.initiativesOnce rooted List.not_mem_nil]
    have sums : ((w.initiatives.filter fun i => !([] : List NonemptyStr).contains i.id).map (·.subInitiatives.length)).sum ≤
        (w.initiatives.map (·.subInitiatives.length + 1)).sum := by
      have part : (w.initiatives.filter fun i => !([] : List NonemptyStr).contains i.id).Sublist w.initiatives := List.filter_sublist
      refine le_trans ((part.map _).sum_le_sum fun _ _ => Nat.zero_le _) ?_
      exact List.sum_le_sum fun i _ => Nat.le_succ _
    rw [unread, List.length_nil]
    omega
  have started : Walked tools root [root.id] ⟨[], [], [], []⟩ := walkedStart
  have entered := walkedEnter started (.inl ⟨rfl, rfl⟩) handled
  obtain ⟨walk, ended, last⟩ := initiativesEnd ref _ ⟨found, [root.id], projects, Dict.set [] root.id root.subInitiatives.dedup⟩
    serves held (List.cons_ne_nil _ _) (fun k member => serves.closed root rooted k member) fewer
  obtain ⟨walked, seen⟩ := walkedRun entered (List.mem_cons_self ..) ended
  refine ⟨walk, ?_, walked, seen, last⟩
  rw [initiativesEntered read List.not_mem_nil (fun both => both.1 rfl) List.not_mem_nil handled]
  exact ended

theorem initiativesOutcome (serves : Serves fuel w tools) (rooted : root ∈ w.initiatives) (read : tools.getInitiative ref.key = .ok root)
    (enough : (w.initiatives.map (·.subInitiatives.length + 1)).sum + 2 ≤ fuel) :
    (∃ found, initiativeIssues tools ref fuel = .ok found ∧ Holding (· ∈ w.issues) found) ∨
      initiativeIssues tools ref fuel = .error (.scopeRead "initiative child cycle" ref) ∧
        ∃ key, Relation.ReflTransGen (SubInitiative w) root.id key ∧ Relation.TransGen (SubInitiative w) key key := by
  obtain ⟨walk, walks, walked, seen, held⟩ := initiativesWalked serves rooted read (by omega)
  have inside : ∀ k ∈ walk.seen, k ∈ w.initiatives.map (·.id) := fun k member =>
    reachKnown serves rooted ((reachServed serves rooted k).mp (walked.reached k member))
  have bound := childrenBound walked inside (opensServed serves rooted)
  have within : ∀ x, ∀ c ∈ childrenOf walk.children x, x ∈ walk.children.keys ∧ c ∈ walk.children.keys := by
    intro x c member
    obtain ⟨known, child⟩ := (childrenIff walked).mp member
    exact ⟨(walked.keys x).mpr known, (walked.keys c).mpr (walkedEdge walked x c known child).2⟩
  rcases CycleSearch.searchAllExact walked.once within (by omega : _ ≤ fuel) with ⟨⟨checked, ended⟩, -⟩ | ⟨stopped, key, cycle⟩
  · refine .inl ⟨walk.found, ?_, held⟩
    rw [initiativeIssues, walks]
    show (checkInitiatives ref fuel walk.children >>= _) = _
    rw [checkInitiatives, ended]
    rfl
  · obtain ⟨c, step, -⟩ := Relation.TransGen.head'_iff.mp cycle
    have known := ((childrenIff walked).mp step).1
    refine .inr ⟨?_, key, (reachServed serves rooted key).mp (walked.reached key known),
      (cycleServed serves rooted (inside key known)).mp ((walkedLeads walked known).mp cycle)⟩
    rw [initiativeIssues, walks]
    show (checkInitiatives ref fuel walk.children >>= _) = _
    rw [checkInitiatives, stopped]
    rfl

end Initiatives
section Milestones

/-- A milestone of the workspace that the address names, with its project. -/
def Addressed (w : Workspace) (ref : ScopeRef) (pair : NonemptyStr × NonemptyStr) : Prop :=
  pair.1 ∈ w.projects ∧ ∃ milestone ∈ w.milestones pair.1, milestone.id = pair.2 ∧
    (ref.key.val = milestone.id.val ∨ ref.key.val = milestone.name)

theorem addressedServed (serves : Serves fuel w tools) {pair : NonemptyStr × NonemptyStr} (known : pair.1 ∈ w.projects) :
    Answers tools ref pair ↔ Addressed w ref pair := by
  constructor
  · rintro ⟨named, answered, found⟩
    cases (serves.milestones pair.1 known).symm.trans answered
    exact ⟨known, found⟩
  · exact fun addressed => ⟨_, serves.milestones pair.1 known, addressed.2⟩

/-- The milestone read ends: at the one its address names, or at how many it names otherwise. -/
theorem milestoneOutcome (ref : ScopeRef) (serves : Serves fuel w tools) :
    (∃ project key, milestone tools ref fuel = .ok (project, key) ∧ project ∈ w.projects ∧
        ∀ pair, Addressed w ref pair ↔ pair = (project, key)) ∨
      milestone tools ref fuel = .error (.scopeRead "milestone is missing" ref) ∧ (∀ pair, ¬ Addressed w ref pair) ∨
      milestone tools ref fuel = .error (.scopeRead "milestone address is ambiguous" ref) ∧
        ∃ one other, one ≠ other ∧ Addressed w ref one ∧ Addressed w ref other := by
  obtain ⟨count, rows, delivers, pages_, shown, all⟩ := serves.projects
  have project : ∀ p, p ∈ rows ↔ p ∈ w.projects := by
    intro p
    constructor
    · intro member
      obtain ⟨same, known, rfl⟩ := shown p member
      exact known
    · intro known
      obtain ⟨row, member, rfl⟩ := all p known
      exact member
  have start : Matched tools ref [] ([], []) := ⟨by simp, by simp, by simp⟩
  have kept := Paging.foldKeeps (Matched tools ref) (milestoneProject tools ref) rows start fun before p state matched member => by
      have answered := serves.milestones p ((project p).mp member)
      have handled : ∃ state', milestoneProject tools ref state p = .ok state' := by
        unfold milestoneProject
        rw [readOk.mpr answered]
        split
        · exact ⟨_, rfl⟩
        · exact ⟨_, rfl⟩
      obtain ⟨state', ok⟩ := handled
      exact ⟨state', ok, matchedRow matched ok⟩
  obtain ⟨⟨pairs, seen⟩, folded, matched⟩ := kept
  have handled : pages "list_projects" fuel tools.listProjects (milestoneProject tools ref) ([], []) = .ok (pairs, seen) :=
    (pagesFolded delivers pages_).trans folded
  have members : ∀ pair, pair ∈ pairs ↔ Addressed w ref pair := by
    intro pair
    rw [matched.pairs pair, project]
    constructor
    · rintro ⟨known, answers⟩
      exact (addressedServed serves known).mp answers
    · exact fun addressed => ⟨addressed.1, (addressedServed serves addressed.1).mpr addressed⟩
  have once := matched.once
  match pairs, handled, members, once with
  | [], handled, members, _ =>
    refine .inr (.inl ⟨?_, fun pair addressed => List.not_mem_nil ((members pair).mpr addressed)⟩)
    rw [milestone, handled]
    rfl
  | [(projectKey, key)], handled, members, _ =>
    obtain ⟨known, found, inside, rfl, -⟩ := (members (projectKey, key)).mp (List.mem_singleton_self _)
    refine .inl ⟨projectKey, found.id, ?_, known, fun pair => by rw [← members, List.mem_singleton]⟩
    rw [milestone, handled]
    show (read (tools.getMilestone projectKey found.id) >>= _) = _
    rw [readOk.mpr (serves.milestone projectKey known found inside)]
    show (if _ then _ else _) = _
    rw [if_neg (not_not.mpr rfl)]
  | one :: other :: pairs, handled, members, once =>
    refine .inr (.inr ⟨?_, one, other, ?_, (members one).mp (by simp), (members other).mp (by simp)⟩)
    · rw [milestone, handled]
      rfl
    · rintro rfl
      simp at once

end Milestones

section Checks

theorem parentsOutcome (ref : ScopeRef) (holding : Holding (· ∈ w.issues) found) (enough : w.issues.length < fuel) :
    (checkIssueParents (ε := ε) ref fuel found = .ok () ∧ ∀ key, ¬ Relation.TransGen (ParentIn found.values) key key) ∨
      checkIssueParents (ε := ε) ref fuel found = .error (.scopeRead "issue parent cycle" ref) ∧
        ∃ key, Relation.TransGen (ParentIn found.values) key key := by
  have short : found.keys.length < fuel := by
    have bound := holdingLength holding
    rw [Dict.keys, List.length_map]
    omega
  rcases CycleSearch.walkAllExact (parentOf found) short with ⟨⟨checked, ended⟩, -⟩ | ⟨stopped, key, cycle⟩
  · have ok : checkIssueParents (ε := ε) ref fuel found = .ok () := by
      rw [checkIssueParents, valuesKeys holding, ended]
    exact .inl ⟨ok, parentsChecked holding ok⟩
  · refine .inr ⟨by rw [checkIssueParents, valuesKeys holding, stopped], key, ?_⟩
    have edges : (fun a b => b ∈ CycleSearch.onward (parentOf found) found.keys a) ≤ ParentIn found.values :=
      fun a b edge => (parentOnward holding).mp edge
    exact Relation.TransGen.mono edges key key cycle

end Checks
section Outcomes
variable {issue root : ScopeIssue} {issues : List ScopeIssue}

/-- `a` is the parent of `b`. -/
def Parent (w : Workspace) (a b : NonemptyStr) : Prop := ∃ issue ∈ w.issues, issue.issueKey = b ∧ issue.parentKey = some a

/-- The scope holds an issue of the workspace. -/
inductive InScope (w : Workspace) (tools : Tools ε) (ref : ScopeRef) (issue : ScopeIssue) : Prop where
  | issue {root : ScopeIssue} (kind : ref.kind = .issue) (known : root ∈ w.issues) (read : tools.readIssue ref.key = .ok root)
      (reached : Relation.ReflTransGen (Parent w) root.issueKey issue.issueKey) : InScope w tools ref issue
  | project {project : NonemptyStr} (kind : ref.kind = .project) (read : tools.getProject ref.key = .ok project)
      (placed : issue.projectId = some project.val) : InScope w tools ref issue
  | milestone {pair : NonemptyStr × NonemptyStr} (kind : ref.kind = .milestone) (addressed : Addressed w ref pair)
      (placed : issue.projectId = some pair.1.val) (inside : issue.milestoneKey = some pair.2.val) : InScope w tools ref issue
  | initiative {root : ScopeInitiativeWire} {initiative project : NonemptyStr} (kind : ref.kind = .initiative)
      (known : root ∈ w.initiatives) (read : tools.getInitiative ref.key = .ok root)
      (reached : Relation.ReflTransGen (SubInitiative w) root.id initiative) (holds : project ∈ w.projectsOf initiative)
      (placed : issue.projectId = some project.val) : InScope w tools ref issue

/-- The address is one the workspace answers; a milestone's is searched for. -/
inductive Resolves (w : Workspace) (tools : Tools ε) (ref : ScopeRef) : Prop where
  | issue {root : ScopeIssue} (kind : ref.kind = .issue) (known : root ∈ w.issues) (read : tools.readIssue ref.key = .ok root)
  | project {project : NonemptyStr} (kind : ref.kind = .project) (known : project ∈ w.projects)
      (read : tools.getProject ref.key = .ok project)
  | milestone (kind : ref.kind = .milestone)
  | initiative {root : ScopeInitiativeWire} (kind : ref.kind = .initiative) (known : root ∈ w.initiatives)
      (read : tools.getInitiative ref.key = .ok root)

/-- One milestone is named, and no initiative below the address leads back to itself. -/
structure Clear (w : Workspace) (tools : Tools ε) (ref : ScopeRef) : Prop where
  addressed : ref.kind = .milestone → ∃ pair, ∀ other, Addressed w ref other ↔ other = pair
  acyclic : ref.kind = .initiative → ∀ root, tools.getInitiative ref.key = .ok root → ∀ key,
    Relation.ReflTransGen (SubInitiative w) root.id key → ¬ Relation.TransGen (SubInitiative w) key key

structure Exactly (w : Workspace) (tools : Tools ε) (ref : ScopeRef) (issues : List ScopeIssue) : Prop where
  once : (issues.map (·.issueKey)).Nodup
  members : ∀ issue, issue ∈ issues ↔ issue ∈ w.issues ∧ InScope w tools ref issue
  clear : Clear w tools ref

inductive Outcome (w : Workspace) (tools : Tools ε) (ref : ScopeRef) : Except (Failure ε) (List ScopeIssue) → Prop where
  | returned {issues : List ScopeIssue} (exact : Exactly w tools ref issues)
      (free : ∀ key, ¬ Relation.TransGen (ParentIn issues) key key) : Outcome w tools ref (.ok issues)
  | parentCycle {issues : List ScopeIssue} {key : NonemptyStr} (exact : Exactly w tools ref issues)
      (cycle : Relation.TransGen (ParentIn issues) key key) : Outcome w tools ref (.error (.scopeRead "issue parent cycle" ref))
  | childCycle {root : ScopeInitiativeWire} {key : NonemptyStr} (kind : ref.kind = .initiative)
      (read : tools.getInitiative ref.key = .ok root) (reached : Relation.ReflTransGen (SubInitiative w) root.id key)
      (cycle : Relation.TransGen (SubInitiative w) key key) : Outcome w tools ref (.error (.scopeRead "initiative child cycle" ref))
  | missing (kind : ref.kind = .milestone) (none : ∀ pair, ¬ Addressed w ref pair) :
      Outcome w tools ref (.error (.scopeRead "milestone is missing" ref))
  | ambiguous {one other : NonemptyStr × NonemptyStr} (kind : ref.kind = .milestone) (apart : one ≠ other)
      (first : Addressed w ref one) (second : Addressed w ref other) :
      Outcome w tools ref (.error (.scopeRead "milestone address is ambiguous" ref))

theorem underServed (serves : Serves fuel w tools) {a b : NonemptyStr} (known : a ∈ w.issues.map (·.issueKey)) :
    Under tools a b ↔ Parent w a b := by
  obtain ⟨parent, member, rfl⟩ := List.mem_map.mp known
  obtain ⟨count, rows, delivers, -, shown, all⟩ := serves.under parent member
  constructor
  · rintro ⟨rows', listed, row, inside, rfl⟩
    obtain ⟨child, ⟨held, below⟩, shows⟩ := shown row (listedOnce listed ⟨count, delivers⟩ ▸ inside)
    exact ⟨child, held, shows.1.symm, below⟩
  · rintro ⟨child, held, rfl, below⟩
    obtain ⟨row, inside, shows⟩ := all child ⟨held, below⟩
    exact ⟨rows, ⟨count, delivers⟩, row, inside, shows.1⟩

theorem parentKnown {a b : NonemptyStr} (parent : Parent w a b) : b ∈ w.issues.map (·.issueKey) := by
  obtain ⟨issue, member, rfl, -⟩ := parent
  exact List.mem_map_of_mem member

theorem subtreeServed (serves : Serves fuel w tools) (member : root ∈ w.issues) (key : NonemptyStr) :
    Relation.ReflTransGen (Under tools) root.issueKey key ↔ Relation.ReflTransGen (Parent w) root.issueKey key := by
  have start : root.issueKey ∈ w.issues.map (·.issueKey) := List.mem_map_of_mem member
  constructor
  · intro reached
    refine (CycleSearch.reachWithin (fun a b known under => ?_) start reached).1
    have parent := (underServed serves known).mp under
    exact ⟨parent, parentKnown parent⟩
  · intro reached
    refine (CycleSearch.reachWithin (fun a b known parent => ?_) start reached).1
    exact ⟨(underServed serves known).mpr parent, parentKnown parent⟩

theorem showsServed (serves : Serves fuel w tools) {project key : NonemptyStr} (known : project ∈ w.projects) :
    Shows tools project key ↔ ∃ issue ∈ w.issues, issue.issueKey = key ∧ issue.projectId = some project.val := by
  obtain ⟨count, rows, delivers, -, shown, all⟩ := serves.inProject project known
  constructor
  · rintro ⟨rows', listed, row, inside, rfl⟩
    obtain ⟨issue, ⟨held, placed⟩, shows⟩ := shown row (listedOnce listed ⟨count, delivers⟩ ▸ inside)
    exact ⟨issue, held, shows.1.symm, placed⟩
  · rintro ⟨issue, held, rfl, placed⟩
    obtain ⟨row, inside, shows⟩ := all issue ⟨held, placed⟩
    exact ⟨rows, ⟨count, delivers⟩, row, inside, shows.1⟩

theorem projectsServed (serves : Serves fuel w tools) {rows : List NonemptyStr} (listed : Listed tools.listProjects rows) (p : NonemptyStr) :
    p ∈ rows ↔ p ∈ w.projects := by
  obtain ⟨count, rows', delivers, -, shown, all⟩ := serves.projects
  cases listedOnce listed ⟨count, delivers⟩
  constructor
  · intro member
    obtain ⟨same, known, rfl⟩ := shown p member
    exact known
  · intro known
    obtain ⟨row, member, rfl⟩ := all p known
    exact member

theorem answersServed (serves : Serves fuel w tools) {rows : List NonemptyStr} (listed : Listed tools.listProjects rows)
    (pair : NonemptyStr × NonemptyStr) : pair.1 ∈ rows ∧ Answers tools ref pair ↔ Addressed w ref pair := by
  rw [projectsServed serves listed]
  constructor
  · rintro ⟨known, answers⟩
    exact (addressedServed serves known).mp answers
  · exact fun addressed => ⟨addressed.1, (addressedServed serves addressed.1).mpr addressed⟩

theorem holdsServed (serves : Serves fuel w tools) {i : ScopeInitiativeWire} (known : i ∈ w.initiatives) {project : NonemptyStr} :
    Holds tools i.id project ↔ project ∈ w.projectsOf i.id := by
  obtain ⟨count, rows, delivers, -, shown, all⟩ := serves.projectsOf i known
  constructor
  · rintro ⟨rows', listed, member⟩
    obtain ⟨same, held, rfl⟩ := shown project (listedOnce listed ⟨count, delivers⟩ ▸ member)
    exact held
  · intro held
    obtain ⟨row, member, rfl⟩ := all project held
    exact ⟨rows, ⟨count, delivers⟩, member⟩

/-- The keys the listings show are the keys of the scope's issues. -/
theorem membersServed (serves : Serves fuel w tools) (resolves : Resolves w tools ref) (clear : Clear w tools ref) (key : NonemptyStr) :
    Members tools ref key ↔ ∃ issue ∈ w.issues, issue.issueKey = key ∧ InScope w tools ref issue := by
  constructor
  · intro member
    cases member with
    | @issue root kind read reached =>
      obtain ⟨root', known, read'⟩ : ∃ root ∈ w.issues, tools.readIssue ref.key = .ok root := by
        cases resolves with
        | issue _ known read => exact ⟨_, known, read⟩
        | project kind' => cases kind.symm.trans kind'
        | milestone kind' => cases kind.symm.trans kind'
        | initiative kind' => cases kind.symm.trans kind'
      cases read.symm.trans read'
      have parents := (subtreeServed serves known key).mp reached
      obtain ⟨issue, member, rfl⟩ : ∃ issue ∈ w.issues, issue.issueKey = key := by
        cases parents with
        | refl => exact ⟨root, known, rfl⟩
        | tail _ parent => exact List.mem_map.mp (parentKnown parent)
      exact ⟨issue, member, rfl, .issue kind known read parents⟩
    | @project project kind read shows =>
      have known : project ∈ w.projects := by
        cases resolves with
        | issue kind' => cases kind.symm.trans kind'
        | project _ known read' =>
          cases read.symm.trans read'
          exact known
        | milestone kind' => cases kind.symm.trans kind'
        | initiative kind' => cases kind.symm.trans kind'
      obtain ⟨issue, member, named, placed⟩ := (showsServed serves known).mp shows
      exact ⟨issue, member, named, .project kind read placed⟩
    | @milestone project milestone rows listing row kind projects only listed inside named held =>
      have addressed : Addressed w ref (project, milestone) := (answersServed serves projects _).mp ((only _).mpr rfl)
      obtain ⟨count, rows', delivers, -, shown, -⟩ := serves.inProject project addressed.1
      obtain ⟨issue, ⟨member, placed⟩, shows⟩ := shown row (listedOnce listed ⟨count, delivers⟩ ▸ inside)
      have belongs : issue.milestoneKey = some milestone.val := by
        rw [← shows.2, held]
        rfl
      exact ⟨issue, member, shows.1.symm.trans named, .milestone kind addressed placed belongs⟩
    | @initiative root initiative project kind read reached holds shows =>
      obtain ⟨root', known, read'⟩ : ∃ root ∈ w.initiatives, tools.getInitiative ref.key = .ok root := by
        cases resolves with
        | issue kind' => cases kind.symm.trans kind'
        | project kind' => cases kind.symm.trans kind'
        | milestone kind' => cases kind.symm.trans kind'
        | initiative _ known read => exact ⟨_, known, read⟩
      cases read.symm.trans read'
      have path := (reachServed serves known initiative).mp reached
      obtain ⟨i, inside, rfl⟩ := List.mem_map.mp (reachKnown serves known path)
      have held := (holdsServed serves inside).mp holds
      obtain ⟨issue, member, named, placed⟩ := (showsServed serves (serves.known i inside project held)).mp shows
      exact ⟨issue, member, named, .initiative kind known read path held placed⟩
  · rintro ⟨issue, member, rfl, scope⟩
    cases scope with
    | issue kind known read reached => exact .issue kind read ((subtreeServed serves known _).mpr reached)
    | @project project kind read placed =>
      have known : project ∈ w.projects := by
        cases resolves with
        | issue kind' => cases kind.symm.trans kind'
        | project _ known read' =>
          cases read.symm.trans read'
          exact known
        | milestone kind' => cases kind.symm.trans kind'
        | initiative kind' => cases kind.symm.trans kind'
      exact .project kind read ((showsServed serves known).mpr ⟨issue, member, rfl, placed⟩)
    | @milestone pair kind addressed placed inside =>
      obtain ⟨only, unique⟩ := clear.addressed kind
      obtain rfl := (unique pair).mp addressed
      obtain ⟨countP, projects, deliversP, -⟩ := serves.projects
      obtain ⟨count, rows, delivers, -, -, all⟩ := serves.inProject pair.1 addressed.1
      obtain ⟨row, listed, shows⟩ := all issue ⟨member, placed⟩
      have listedP : Listed tools.listProjects projects := ⟨countP, deliversP⟩
      refine .milestone kind listedP (fun other => (answersServed serves listedP other).trans (unique other)) ⟨count, delivers⟩ listed shows.1 ?_
      have held := shows.2.trans inside
      rw [Option.map_eq_some_iff] at held
      obtain ⟨m, shown, same⟩ := held
      rw [shown, Subtype.ext same]
    | @initiative root initiative project kind known read reached holds placed =>
      obtain ⟨i, inside, rfl⟩ := List.mem_map.mp (reachKnown serves known reached)
      exact .initiative kind read ((reachServed serves known _).mpr reached) ((holdsServed serves inside).mpr holds)
        ((showsServed serves (serves.known i inside project holds)).mpr ⟨issue, member, rfl, placed⟩)

theorem subtreeOutcome (serves : Serves fuel w tools) (member : root ∈ w.issues) (read : tools.readIssue ref.key = .ok root)
    (enough : w.issues.length < fuel) : ∃ found, subtree tools ref fuel = .ok found ∧ Holding (· ∈ w.issues) found := by
  have gathering : Gathering tools root [root.issueKey] [(root.issueKey, root)] := gatheringStart
  obtain ⟨found, ended, held⟩ := subtreeEnds ref fuel serves (holdingOnly member) gathering
    (by simp only [List.length_cons, List.length_nil]; omega)
  refine ⟨found, ?_, held⟩
  rw [subtree, readOk.mpr read]
  exact ended

theorem inMilestones (kind : ref.kind = .milestone) : scopeMembers tools ref fuel =
    milestone tools ref fuel >>= fun (project, key) => projectIssues tools ref fuel project (some key) := by
  rw [scopeMembers, kind]

theorem membersEnd (serves : Serves fuel w tools) (resolves : Resolves w tools ref) (enough : loops w 0 ≤ fuel) :
    (∃ found, scopeMembers tools ref fuel = .ok found ∧ Holding (· ∈ w.issues) found ∧ Clear w tools ref) ∨
      ∃ failure, scopeMembers tools ref fuel = .error failure ∧ Outcome w tools ref (.error failure) := by
  rw [loops] at enough
  cases resolves with
  | issue kind known read =>
    obtain ⟨found, ended, held⟩ := subtreeOutcome serves known read (by omega)
    refine .inl ⟨found, ?_, held, fun other => absurd (kind.symm.trans other) (by decide), fun other => absurd (kind.symm.trans other) (by decide)⟩
    rw [scopeMembers, kind]
    exact ended
  | @project project kind known read =>
    obtain ⟨found, ended, held⟩ := projectEnds ref none serves known
    refine .inl ⟨found, ?_, held, fun other => absurd (kind.symm.trans other) (by decide), fun other => absurd (kind.symm.trans other) (by decide)⟩
    rw [scopeMembers, kind]
    show (ScopeReader.read (tools.getProject ref.key) >>= fun project => projectIssues tools ref fuel project none) = _
    rw [readOk.mpr read]
    exact ended
  | milestone kind =>
    rcases milestoneOutcome ref serves with ⟨project, key, addressed, known, only⟩ | ⟨stopped, none⟩ | ⟨stopped, one, other, apart, first, second⟩
    · obtain ⟨found, ended, held⟩ := projectEnds ref (some key) serves known
      refine .inl ⟨found, ?_, held, fun _ => ⟨(project, key), only⟩, fun other => absurd (kind.symm.trans other) (by decide)⟩
      rw [inMilestones kind, addressed]
      exact ended
    · refine .inr ⟨_, ?_, .missing kind none⟩
      rw [inMilestones kind, stopped]
      rfl
    · refine .inr ⟨_, ?_, .ambiguous kind apart first second⟩
      rw [inMilestones kind, stopped]
      rfl
  | @initiative root kind known read =>
    rcases initiativesOutcome serves known read (by omega) with ⟨found, ended, held⟩ | ⟨stopped, key, reached, cycle⟩
    · refine .inl ⟨found, ?_, held, fun other => absurd (kind.symm.trans other) (by decide), fun _ other read' key reached cycle => ?_⟩
      · rw [scopeMembers, kind]
        exact ended
      · cases read.symm.trans read'
        obtain ⟨root', read'', -, -, free⟩ := initiativesReturned ended
        cases read.symm.trans read''
        exact free key ((reachServed serves known key).mpr reached) ((cycleServed serves known (reachKnown serves known reached)).mpr cycle)
    · refine .inr ⟨_, ?_, .childCycle kind read reached cycle⟩
      rw [scopeMembers, kind]
      exact stopped

/-- On a workspace that stands still, a scope read with the fuel for its loops ends: in the scope's
issues, each once, or at the cycle or the milestone address that stands in the way. -/
theorem scopeSettles {pageBound : Nat} (serves : Serves pageBound w tools) (resolves : Resolves w tools ref)
    (enough : loops w pageBound ≤ fuel) : Outcome w tools ref (scopeIssues tools ref fuel) := by
  rw [loops] at enough
  have serves := servesMore serves (by omega : pageBound ≤ fuel)
  rcases membersEnd serves resolves (by rw [loops]; omega) with ⟨found, ended, held, clear⟩ | ⟨failure, stopped, outcome⟩
  · obtain ⟨-, keys⟩ := membersReturned ended
    have exact_ : Exactly w tools ref found.values := by
      refine ⟨valuesKeys held ▸ held.once, fun issue => ?_, clear⟩
      constructor
      · intro member
        obtain ⟨e, inside, rfl⟩ := List.mem_map.mp member
        have shown : e.2.issueKey ∈ found.keys := by
          rw [← held.own e inside]
          exact List.mem_map_of_mem inside
        obtain ⟨other, known, same, scope⟩ := (membersServed serves resolves clear _).mp ((keys _).mp shown)
        obtain rfl := onlyIssue serves.once known (held.kind e inside) same
        exact ⟨known, scope⟩
      · rintro ⟨known, scope⟩
        have shown := (keys _).mpr ((membersServed serves resolves clear issue.issueKey).mpr ⟨issue, known, rfl, scope⟩)
        obtain ⟨e, inside, same⟩ := List.mem_map.mp shown
        have named := (held.own e inside).symm.trans same
        obtain rfl := onlyIssue serves.once (held.kind e inside) known named
        exact List.mem_map_of_mem inside
    rcases parentsOutcome ref held (by omega : w.issues.length < fuel) with ⟨checked, free⟩ | ⟨stopped, key, cycle⟩
    · have same : scopeIssues tools ref fuel = .ok found.values := by
        rw [scopeIssues, ended]
        show (checkIssueParents ref fuel found >>= _) = _
        rw [checked]
        rfl
      exact same ▸ .returned exact_ free
    · have same : scopeIssues tools ref fuel = .error (.scopeRead "issue parent cycle" ref) := by
        rw [scopeIssues, ended]
        show (checkIssueParents ref fuel found >>= _) = _
        rw [stopped]
        rfl
      exact same ▸ .parentCycle exact_ cycle
  · have same : scopeIssues tools ref fuel = .error failure := by
      rw [scopeIssues, stopped]
      rfl
    exact same ▸ outcome

def family : Workspace := ⟨[parent104, child105], [], fun _ => [], [], fun _ => []⟩

theorem familyUnder : Delivered 2 (familyTools.listIssuesUnder parent104.issueKey) RowOf
    fun child => child ∈ family.issues ∧ child.parentKey = some parent104.issueKey := by
  have pages_ : Delivers (familyTools.listIssuesUnder parent104.issueKey) [] none 2 ([row105] ++ [row105]) :=
    Paging.deliversOn rfl (by decide) List.not_mem_nil (Paging.deliversEnd rfl)
  refine ⟨2, _, pages_, le_refl 2, ?_, ?_⟩
  · intro row member
    obtain rfl : row = row105 := by simpa using member
    exact ⟨child105, ⟨by decide, rfl⟩, rfl, rfl⟩
  · rintro child ⟨member, below⟩
    rcases List.mem_pair.mp member with rfl | rfl
    · exact absurd below (by decide)
    · exact ⟨row105, by simp, rfl, rfl⟩

theorem familyLeaf : Delivered 2 (familyTools.listIssuesUnder child105.issueKey) RowOf
    fun child => child ∈ family.issues ∧ child.parentKey = some child105.issueKey := by
  refine ⟨1, [], Paging.deliversEnd rfl, by decide, by simp, ?_⟩
  rintro child ⟨member, below⟩
  rcases List.mem_pair.mp member with rfl | rfl
  · exact absurd below (by decide)
  · exact absurd below (by decide)

theorem familyServes : Serves 2 family familyTools where
  once := by decide
  read issue member := by
    rcases List.mem_pair.mp member with rfl | rfl
    · rfl
    · rfl
  under issue member := by
    rcases List.mem_pair.mp member with rfl | rfl
    · exact familyUnder
    · exact familyLeaf
  inProject p known := absurd known List.not_mem_nil
  projects := ⟨1, [], Paging.deliversEnd rfl, by decide, by simp, fun m member => absurd member List.not_mem_nil⟩
  milestones p known := absurd known List.not_mem_nil
  milestone p known := absurd known List.not_mem_nil
  initiativesOnce := List.nodup_nil
  initiative i known := absurd known List.not_mem_nil
  closed i known := absurd known List.not_mem_nil
  projectsOf i known := absurd known List.not_mem_nil
  known i known := absurd known List.not_mem_nil

theorem familySettles : Outcome family familyTools scope104 (scopeIssues familyTools scope104 6) :=
  scopeSettles familyServes (.issue rfl (List.mem_cons_self ..) rfl) (by decide)

end Outcomes
end Kodezart.ScopeReader
