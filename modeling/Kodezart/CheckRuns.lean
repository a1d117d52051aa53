import Kodezart.TextLines

/-! The check runs of a ref, page by page, and the verdict a whole set of them comes to. -/
namespace Kodezart.CIWatch
open TextLines

structure CheckRun where
  id : Int
  name : String
  status : String
  conclusion : Option String
  headSha : Option String
  deriving DecidableEq, Repr

structure CheckRunsResponse where
  totalCount : Int
  checkRuns : List CheckRun
  deriving DecidableEq, Repr

inductive Raised where
  | forgeAPIError (message : String) (statusCode : Option Nat)
  | transientAPIError (message : String)
  | checkObservationError (ref reason : String)
  | validationError (message : String)
  deriving DecidableEq, Repr

/-- What the forge answers to the request of one page. -/
abbrev PageAnswer := Except Raised CheckRunsResponse

def failureConclusions : List String := ["failure", "timed_out", "cancelled", "action_required"]
def okConclusions : List String := ["success", "neutral", "skipped"]
def notFoundStatus : Nat := 404

def CheckRun.failed (run : CheckRun) : Bool := run.conclusion.any (· ∈ failureConclusions)
def CheckRun.passed (run : CheckRun) : Bool := run.conclusion.any (· ∈ okConclusions)

section Fetch
variable (answer : Nat → PageAnswer) (requireStableTotal : Bool)

/-- The pages from `page` on, `left` of them at most, behind what has been collected. -/
def walkPages : (left page : Nat) → List CheckRun → Int → Except Raised (Option CheckRunsResponse)
  | 0, _, collected, reported => .ok (some ⟨reported, collected⟩)
  | left + 1, page, collected, reported =>
    match answer page with
    | .error (.forgeAPIError message statusCode) =>
      if statusCode = some notFoundStatus then .ok none else .error (.forgeAPIError message statusCode)
    | .error raised => .error raised
    | .ok response =>
      if requireStableTotal ∧ 1 < page ∧ response.totalCount ≠ reported then
        .error (.forgeAPIError "Check listing changed during pagination" none)
      else if response.checkRuns = [] ∨ response.totalCount ≤ (collected ++ response.checkRuns).length then
        .ok (some ⟨response.totalCount, collected ++ response.checkRuns⟩)
      else walkPages left (page + 1) (collected ++ response.checkRuns) response.totalCount

/-- Every page of a ref's check runs, or nothing where one of them 404s. -/
def fetchCheckRuns (checkRunsMaxPages : Nat) : Except Raised (Option CheckRunsResponse) :=
  walkPages answer requireStableTotal checkRunsMaxPages 1 [] 0

/-- The pages the walk is answered with, the ones before a 404 or a failure among them. -/
def pagesRead : (left page : Nat) → (collected : Nat) → Int → List CheckRunsResponse
  | 0, _, _, _ => []
  | left + 1, page, collected, reported =>
    match answer page with
    | .error _ => []
    | .ok response =>
      if requireStableTotal ∧ 1 < page ∧ response.totalCount ≠ reported then [response]
      else if response.checkRuns = [] ∨ response.totalCount ≤ ↑(collected + response.checkRuns.length) then [response]
      else response :: pagesRead left (page + 1) (collected + response.checkRuns.length) response.totalCount

/-- The set a walk returns is what its pages list, in order. -/
theorem walkCollects (left page : Nat) (collected : List CheckRun) (reported : Int) {found : CheckRunsResponse}
    (ok : walkPages answer requireStableTotal left page collected reported = .ok (some found)) :
    found.checkRuns = collected ++
      (pagesRead answer requireStableTotal left page collected.length reported).flatMap (·.checkRuns) := by
  induction left generalizing page collected reported with
  | zero =>
    cases ok
    simp [pagesRead]
  | succ left ih =>
    simp only [walkPages] at ok
    simp only [pagesRead]
    split at ok
    · split at ok <;> cases ok
    · cases ok
    · rename_i response answered
      simp only [answered]
      split at ok
      · cases ok
      · rename_i stable
        rw [if_neg stable]
        rw [List.length_append] at ok
        split at ok
        · rename_i whole
          cases ok
          rw [if_pos whole]
          simp
        · rename_i more
          rw [if_neg more, ih _ _ _ ok]
          simp

end Fetch

/-- Terminal pass or fail of the run set, or nothing while it is pending or short. -/
def verdict (page : CheckRunsResponse) : Option (Bool × String) :=
  if page.totalCount = 0 then none
  else if (page.checkRuns.length : Int) ≠ page.totalCount then none
  else if page.checkRuns.any (·.status ≠ "completed") then none
  else
    let failedNames := (page.checkRuns.filter CheckRun.failed).map CheckRun.name
    if failedNames ≠ [] then some (false, "CI failed: " ++ ", ".intercalate failedNames)
    else if page.checkRuns.all CheckRun.passed then some (true, "All CI checks passed.")
    else none

structure ObservedChecks where
  commitSha : String
  checksPassed : Bool
  checkNames : Finset String
  failedCheckNames : Finset String
  summary : String
  deriving DecidableEq

def hexDigit (c : Char) : Bool := c.isDigit || ('a' ≤ c && c ≤ 'f') || ('A' ≤ c && c ≤ 'F')

/-- `re.fullmatch(r"[0-9a-fA-F]{40}", ref)` -/
def fullSha (ref : String) : Bool := ref.toList.length = 40 && ref.toList.all hexDigit

def unobservable (page : CheckRunsResponse) : Option String :=
  let checks := page.checkRuns
  if checks = [] then some "a completed check watch must be nonempty"
  else if (checks.length : Int) ≠ page.totalCount ∨ ((checks.map CheckRun.id).dedup.length : Int) ≠ page.totalCount then
    some "the watched check set was incomplete or repeated identities"
  else if checks.any fun check => check.status ≠ "completed" || !(check.failed || check.passed) ||
      strip check.name.toList = [] then
    some "the watched check set was not terminal and understood"
  else none

def completedWatch (ref : String) (page : CheckRunsResponse) (passed : Bool) (summary : String) :
    Except Raised ObservedChecks :=
  match unobservable page with
  | some reason => .error (.checkObservationError ref reason)
  | none =>
    match page.checkRuns.head?.bind CheckRun.headSha with
    | none => .error (.checkObservationError ref "the watched checks did not identify one immutable commit")
    | some sha =>
      if strip sha.toList = [] ∨ ∃ check ∈ page.checkRuns, check.headSha ≠ some sha then
        .error (.checkObservationError ref "the watched checks did not identify one immutable commit")
      else if fullSha ref ∧ sha.toLower ≠ ref.toLower then
        .error (.checkObservationError ref "the watched commit differs from the requested SHA")
      else
        .ok ⟨sha, passed, (page.checkRuns.map CheckRun.name).toFinset,
          ((page.checkRuns.filter CheckRun.failed).map CheckRun.name).toFinset, summary⟩

/-- A verdict's evidence: every reported run, each once, all settled on one commit. -/
structure Complete (ref : String) (page : CheckRunsResponse) (checks : ObservedChecks) : Prop where
  some_run : page.checkRuns ≠ []
  whole : (page.checkRuns.length : Int) = page.totalCount
  distinct : (page.checkRuns.map CheckRun.id).Nodup
  settled : ∀ run ∈ page.checkRuns, run.status = "completed" ∧ (run.failed = true ∨ run.passed = true)
  oneCommit : ∀ run ∈ page.checkRuns, run.headSha = some checks.commitSha
  requested : fullSha ref = true → checks.commitSha.toLower = ref.toLower
  passing : checks.checksPassed = true ↔ ∀ run ∈ page.checkRuns, run.failed = false

theorem verdictPassing {page : CheckRunsResponse} {passed : Bool} {summary : String}
    (reached : verdict page = some (passed, summary)) :
    passed = true ↔ ∀ run ∈ page.checkRuns, run.failed = false := by
  unfold verdict at reached
  split at reached
  · cases reached
  · split at reached
    · cases reached
    · split at reached
      · cases reached
      · dsimp only at reached
        have none_failed : (page.checkRuns.filter CheckRun.failed).map CheckRun.name = [] ↔
            ∀ run ∈ page.checkRuns, run.failed = false := by
          simp [List.filter_eq_nil_iff]
        split at reached
        · rename_i failing
          cases reached
          simpa [none_failed] using failing
        · rename_i clean
          split at reached
          · cases reached
            exact iff_of_true rfl (none_failed.mp (not_not.mp clean))
          · cases reached

theorem completedWatchComplete {ref : String} {page : CheckRunsResponse} {passed : Bool} {summary : String}
    {checks : ObservedChecks} (reached : verdict page = some (passed, summary))
    (ok : completedWatch ref page passed summary = .ok checks) : Complete ref page checks := by
  unfold completedWatch at ok
  split at ok
  · cases ok
  · rename_i observable
    split at ok
    · cases ok
    · rename_i sha first
      split at ok
      · cases ok
      · rename_i one
        split at ok
        · cases ok
        · rename_i same
          cases ok
          simp only [not_or, not_exists, not_and, not_not] at one same
          unfold unobservable at observable
          dsimp only at observable
          split at observable
          · cases observable
          · rename_i some_run
            split at observable
            · cases observable
            · rename_i sizes
              split at observable
              · cases observable
              · rename_i terminal
                simp only [not_or, not_not] at sizes
                refine ⟨some_run, sizes.1, ?_, ?_, one.2, fun full => same full, verdictPassing reached⟩
                · have lengths : (page.checkRuns.map CheckRun.id).dedup.length =
                      (page.checkRuns.map CheckRun.id).length := by
                    rw [List.length_map]
                    exact Int.ofNat_inj.mp (sizes.2.trans sizes.1.symm)
                  exact List.dedup_eq_self.mp ((List.dedup_sublist _).eq_of_length lengths)
                · intro run member
                  have understood : ∀ check ∈ page.checkRuns, ¬ (check.status ≠ "completed" ||
                      !(check.failed || check.passed) || strip check.name.toList = []) = true := by
                    simpa only [List.any_eq_true, not_exists, not_and] using terminal
                  have here := understood run member
                  simp only [Bool.or_eq_true, decide_eq_true_eq, Bool.not_eq_true', not_or, not_not,
                    Bool.not_eq_false] at here
                  exact ⟨here.1.1, here.1.2⟩

end Kodezart.CIWatch
