import Mathlib
import Kodezart.Requests

/-! Runs of a program whose requests are answered one by one, by a world that decides each
answer and what it leaves behind. Unlike a server, such a world may refuse a request it
has taken, and may answer the same request in different ways. -/
namespace Kodezart

structure Exchange (C : Type) (R : C → Type) (ε : Type) where
  call : C
  answer : Except ε (R call)

namespace Exchange
variable {C : Type} {R : C → Type} {ε : Type}

def answered (x : Exchange C R ε) : Bool := x.answer.isOk

def failed (x : Exchange C R ε) : Bool := !x.answered

end Exchange

namespace Prog
variable {C : Type} {R : C → Type} {ε α β S : Type}

/-- `try`: what a program raises becomes the value of the attempt. -/
def attempt : Prog C R ε α → Prog C R ε (Except ε α)
  | ret a => ret (.ok a)
  | raise e => ret (.error e)
  | call c next => call c fun answer => (next answer).attempt

section Runs
variable (takes : S → (c : C) → Except ε (R c) → S → Prop)

inductive Goes : Prog C R ε α → S → List (Exchange C R ε) → S → Except ε α → Prop where
  | ret {a : α} {s : S} : Goes (ret a) s [] s (.ok a)
  | raise {e : ε} {s : S} : Goes (raise e) s [] s (.error e)
  | call {c : C} {next : Except ε (R c) → Prog C R ε α} {answer : Except ε (R c)} {s mid s' : S}
      {t : List (Exchange C R ε)} {out : Except ε α} (taken : takes s c answer mid)
      (rest : Goes (next answer) mid t s' out) : Goes (call c next) s (⟨c, answer⟩ :: t) s' out

variable {takes} {s s' : S} {t : List (Exchange C R ε)} {out : Except ε α}

theorem goesRet {a : α} (went : Goes takes (ret a) s t s' out) : t = [] ∧ s' = s ∧ out = .ok a := by
  cases went
  exact ⟨rfl, rfl, rfl⟩

theorem goesRaise {e : ε} (went : Goes takes (raise e) s t s' out) : t = [] ∧ s' = s ∧ out = .error e := by
  cases went
  exact ⟨rfl, rfl, rfl⟩

theorem goesOfExcept {x : Except ε α} (went : Goes takes (ofExcept x) s t s' out) :
    t = [] ∧ s' = s ∧ out = x := by
  cases x with
  | error e => exact goesRaise went
  | ok a => exact goesRet went

/-- A request at the head of a program either ends it or is answered and left behind. -/
inductive Asked (takes : S → (c : C) → Except ε (R c) → S → Prop) (c : C) (f : R c → Prog C R ε α) (s : S) :
    List (Exchange C R ε) → S → Except ε α → Prop where
  | refused {e : ε} {s' : S} (taken : takes s c (.error e) s') : Asked takes c f s [⟨c, .error e⟩] s' (.error e)
  | answered {reply : R c} {mid s' : S} {t : List (Exchange C R ε)} {out : Except ε α}
      (taken : takes s c (.ok reply) mid) (rest : Goes takes (f reply) mid t s' out) :
      Asked takes c f s (⟨c, .ok reply⟩ :: t) s' out

theorem goesAsked {c : C} {f : R c → Prog C R ε α} (went : Goes takes (request c >>= f) s t s' out) :
    Asked takes c f s t s' out := by
  cases went with
  | @call _ _ answer _ _ _ _ _ taken rest =>
    cases answer with
    | error e =>
      obtain ⟨rfl, rfl, rfl⟩ := goesRaise rest
      exact .refused taken
    | ok reply => exact .answered taken rest

theorem goesRequest {c : C} {out : Except ε (R c)} (went : Goes takes (request c) s t s' out) :
    takes s c out s' ∧ t = [⟨c, out⟩] := by
  cases went with
  | @call _ _ answer _ _ _ _ _ taken rest =>
    cases answer with
    | error e =>
      obtain ⟨rfl, rfl, rfl⟩ := goesRaise rest
      exact ⟨taken, rfl⟩
    | ok reply =>
      obtain ⟨rfl, rfl, rfl⟩ := goesRet rest
      exact ⟨taken, rfl⟩

theorem goesBind (p : Prog C R ε β) (f : β → Prog C R ε α) (went : Goes takes (p >>= f) s t s' out) :
    (∃ e, out = .error e ∧ Goes takes p s t s' (.error e)) ∨
    ∃ a mid early late, Goes takes p s early mid (.ok a) ∧ Goes takes (f a) mid late s' out ∧ t = early ++ late := by
  induction p generalizing s t with
  | ret a => exact .inr ⟨a, s, [], t, .ret, went, rfl⟩
  | raise e =>
    obtain ⟨rfl, rfl, rfl⟩ := goesRaise went
    exact .inl ⟨e, rfl, .raise⟩
  | call c next ih =>
    cases went with
    | @call _ _ answer _ _ _ _ _ taken rest =>
      rcases ih answer rest with ⟨e, same, first⟩ | ⟨a, mid, early, late, first, second, same⟩
      · exact .inl ⟨e, same, .call taken first⟩
      · exact .inr ⟨a, mid, _ :: early, late, .call taken first, second, by simp [same]⟩

theorem goesOk {p : Prog C R ε β} {f : β → Prog C R ε α} {a : α} (went : Goes takes (p >>= f) s t s' (.ok a)) :
    ∃ b mid early late, Goes takes p s early mid (.ok b) ∧ Goes takes (f b) mid late s' (.ok a) ∧ t = early ++ late := by
  rcases goesBind p f went with ⟨e, same, -⟩ | found
  · cases same
  · exact found

/-- `finally`: the last program runs whether the first ended in a value or not. -/
def ensuring (p : Prog C R ε α) (last : Prog C R ε Unit) : Prog C R ε α := p.attempt >>= fun x => last >>= fun _ => ofExcept x

theorem goesAttempt {p : Prog C R ε α} {caught : Except ε (Except ε α)} (went : Goes takes p.attempt s t s' caught) :
    ∃ x, caught = .ok x ∧ Goes takes p s t s' x := by
  induction p generalizing s t with
  | ret a =>
    obtain ⟨rfl, rfl, rfl⟩ := goesRet went
    exact ⟨_, rfl, .ret⟩
  | raise e =>
    obtain ⟨rfl, rfl, rfl⟩ := goesRet went
    exact ⟨_, rfl, .raise⟩
  | call c next ih =>
    cases went with
    | @call _ _ answer _ _ _ _ _ taken rest =>
      obtain ⟨x, same, first⟩ := ih answer rest
      exact ⟨x, same, .call taken first⟩

/-- What every exchange keeps, a run keeps. -/
theorem goesKeeps (keep : S → Prop) {p : Prog C R ε α}
    (step : ∀ s c answer s', keep s → takes s c answer s' → keep s') (kept : keep s)
    (went : Goes takes p s t s' out) : keep s' := by
  induction went with
  | ret => exact kept
  | raise => exact kept
  | call taken _ ih => exact ih (step _ _ _ _ kept taken)

theorem goesEach {holds : Exchange C R ε → Prop} {p : Prog C R ε α}
    (each : ∀ s c answer s', takes s c answer s' → holds ⟨c, answer⟩) (went : Goes takes p s t s' out) :
    ∀ x ∈ t, holds x := by
  induction went with
  | ret => simp
  | raise => simp
  | call taken _ ih => simpa using ⟨each _ _ _ _ taken, ih⟩

/-- The same world with more of its answers allowed has every run it had. -/
theorem goesMono {takes' : S → (c : C) → Except ε (R c) → S → Prop} {p : Prog C R ε α}
    (wider : ∀ s c answer s', takes s c answer s' → takes' s c answer s') (went : Goes takes p s t s' out) :
    Goes takes' p s t s' out := by
  induction went with
  | ret => exact .ret
  | raise => exact .raise
  | call taken _ ih => exact .call (wider _ _ _ _ taken) ih

end Runs

section Asks

/-- Every request the program can come to is an allowed one. -/
def Asks (allowed : C → Prop) : Prog C R ε α → Prop
  | ret _ => True
  | raise _ => True
  | call c next => allowed c ∧ ∀ answer, (next answer).Asks allowed

variable {allowed : C → Prop}

@[simp] theorem asksRet (a : α) : (ret a : Prog C R ε α).Asks allowed := trivial
@[simp] theorem asksPure (a : α) : (pure a : Prog C R ε α).Asks allowed := trivial
@[simp] theorem asksRaise (e : ε) : (raise e : Prog C R ε α).Asks allowed := trivial

@[simp] theorem asksRequest (c : C) : (request c : Prog C R ε (R c)).Asks allowed ↔ allowed c := by
  refine ⟨And.left, fun fine => ⟨fine, fun answer => ?_⟩⟩
  cases answer <;> trivial

@[simp] theorem asksOfExcept (x : Except ε α) : (ofExcept x : Prog C R ε α).Asks allowed := by
  cases x <;> trivial

theorem asksBind {p : Prog C R ε β} {f : β → Prog C R ε α} (first : p.Asks allowed)
    (second : ∀ a, (f a).Asks allowed) : (p >>= f).Asks allowed := by
  induction p with
  | ret a => exact second a
  | raise e => trivial
  | call c next ih => exact ⟨first.1, fun answer => ih answer (first.2 answer)⟩

theorem asksCall {c : C} {f : R c → Prog C R ε α} (asked : allowed c) (second : ∀ answer, (f answer).Asks allowed) :
    (request c >>= f).Asks allowed :=
  asksBind ((asksRequest c).mpr asked) second

theorem asksAttempt {p : Prog C R ε α} (asks : p.Asks allowed) : p.attempt.Asks allowed := by
  induction p with
  | ret a => trivial
  | raise e => trivial
  | call c next ih => exact ⟨asks.1, fun answer => ih answer (asks.2 answer)⟩

theorem asksMono {allowed' : C → Prop} {p : Prog C R ε α} (wider : ∀ c, allowed c → allowed' c)
    (asks : p.Asks allowed) : p.Asks allowed' := by
  induction p with
  | ret a => trivial
  | raise e => trivial
  | call c next ih => exact ⟨wider c asks.1, fun answer => ih answer (asks.2 answer)⟩

variable {takes : S → (c : C) → Except ε (R c) → S → Prop} {s s' : S} {t : List (Exchange C R ε)} {out : Except ε α}

theorem goesAllowed {p : Prog C R ε α} (asks : p.Asks allowed) (went : Goes takes p s t s' out) :
    ∀ x ∈ t, allowed x.call := by
  induction went with
  | ret => simp
  | raise => simp
  | call taken rest ih => simpa using ⟨asks.1, ih (asks.2 _)⟩

/-- A run keeps what every request it may make keeps. -/
theorem goesKeepsAsking (keep : S → Prop) {p : Prog C R ε α} (asks : p.Asks allowed)
    (step : ∀ s c answer s', allowed c → keep s → takes s c answer s' → keep s') (kept : keep s)
    (went : Goes takes p s t s' out) : keep s' := by
  induction went with
  | ret => exact kept
  | raise => exact kept
  | call taken _ ih => exact ih (asks.2 _) (step _ _ _ _ asks.1 kept taken)

end Asks

section Plain

/-- A program that catches nothing and raises nothing of its own: a refusal ends it. -/
def Plain : Prog C R ε α → Prop
  | ret _ => True
  | raise _ => False
  | call _ next => (∀ e, next (.error e) = raise e) ∧ ∀ reply, (next (.ok reply)).Plain

@[simp] theorem plainRet (a : α) : (ret a : Prog C R ε α).Plain := trivial
@[simp] theorem plainPure (a : α) : (pure a : Prog C R ε α).Plain := trivial

@[simp] theorem plainRequest (c : C) : (request c : Prog C R ε (R c)).Plain := ⟨fun _ => rfl, fun _ => trivial⟩

theorem plainBind {p : Prog C R ε β} {f : β → Prog C R ε α} (first : p.Plain) (second : ∀ a, (f a).Plain) :
    (p >>= f).Plain := by
  induction p with
  | ret a => exact second a
  | raise e => exact first.elim
  | call c next ih =>
    refine ⟨fun e => ?_, fun reply => ih (.ok reply) (first.2 reply)⟩
    change next (.error e) >>= f = raise e
    rw [first.1 e, raiseBind]

variable {takes : S → (c : C) → Except ε (R c) → S → Prop} {s s' : S} {t : List (Exchange C R ε)} {out : Except ε α}

theorem goesPlain {p : Prog C R ε α} (plain : p.Plain) (went : Goes takes p s t s' out) :
    (∃ a, out = .ok a ∧ ∀ x ∈ t, x.answered = true) ∨
    ∃ e early c, out = .error e ∧ t = early ++ [⟨c, .error e⟩] ∧ ∀ x ∈ early, x.answered = true := by
  induction went with
  | ret => exact .inl ⟨_, rfl, by simp⟩
  | raise => exact plain.elim
  | @call c next answer _ _ _ _ _ _ rest ih =>
    cases answer with
    | error e =>
      rw [plain.1 e] at rest
      obtain ⟨rfl, rfl, rfl⟩ := goesRaise rest
      exact .inr ⟨e, [], c, rfl, rfl, by simp⟩
    | ok reply =>
      rcases ih (plain.2 reply) with ⟨a, same, fine⟩ | ⟨e, early, c', same, rfl, fine⟩
      · exact .inl ⟨a, same, by simpa [Exchange.answered, Except.isOk, Except.toBool] using fine⟩
      · exact .inr ⟨e, ⟨c, .ok reply⟩ :: early, c', same, rfl,
          by simpa [Exchange.answered, Except.isOk, Except.toBool] using fine⟩

end Plain

section Yields
variable {takes : S → (c : C) → Except ε (R c) → S → Prop} {s : S} {post : α → S → Prop}

/-- Every run of the program from the state ends in a value, with what is asked of it and of
the state it leaves. -/
def Yields (takes : S → (c : C) → Except ε (R c) → S → Prop) (p : Prog C R ε α) (s : S) (post : α → S → Prop) : Prop :=
  ∀ t s' out, Goes takes p s t s' out → ∃ a, out = .ok a ∧ post a s'

theorem yieldsPure {a : α} (holds : post a s) : Yields takes (pure a) s post := by
  intro t s' out went
  obtain ⟨rfl, rfl, rfl⟩ := goesRet went
  exact ⟨a, rfl, holds⟩

theorem yieldsRequest {c : C} {post : R c → S → Prop}
    (answers : ∀ answer s', takes s c answer s' → ∃ reply, answer = .ok reply ∧ post reply s') :
    Yields takes (request c) s post :=
  fun _ s' out went => answers out s' (goesRequest went).1

theorem yieldsBind {p : Prog C R ε β} {f : β → Prog C R ε α} {mid : β → S → Prop} (first : Yields takes p s mid)
    (second : ∀ b s', mid b s' → Yields takes (f b) s' post) : Yields takes (p >>= f) s post := by
  intro t s' out went
  rcases goesBind p f went with ⟨e, -, failed⟩ | ⟨b, between, early, late, ran, rest, -⟩
  · obtain ⟨b, impossible, -⟩ := first _ _ _ failed
    cases impossible
  · obtain ⟨b', same, held⟩ := first _ _ _ ran
    cases same
    exact second b between held _ _ _ rest

theorem yieldsMono {weaker : α → S → Prop} {p : Prog C R ε α} (yields : Yields takes p s post)
    (weakens : ∀ a s', post a s' → weaker a s') : Yields takes p s weaker := by
  intro t s' out went
  obtain ⟨a, same, held⟩ := yields _ _ _ went
  exact ⟨a, same, weakens a s' held⟩

theorem yieldsAsking {allowed : C → Prop} (keep : S → Prop) {p : Prog C R ε α} (asks : p.Asks allowed)
    (step : ∀ s c answer s', allowed c → keep s → takes s c answer s' → keep s') (kept : keep s)
    (yields : Yields takes p s post) : Yields takes p s fun a s' => post a s' ∧ keep s' := by
  intro t s' out went
  obtain ⟨a, same, held⟩ := yields _ _ _ went
  exact ⟨a, same, held, goesKeepsAsking keep asks step kept went⟩

end Yields

section Plays
variable (plays : S → (c : C) → Except ε (R c) × S)

/-- The one run of a program in a world that answers in one way. -/
def play : Prog C R ε α → S → List (Exchange C R ε) × S × Except ε α
  | ret a, s => ([], s, .ok a)
  | raise e, s => ([], s, .error e)
  | call c next, s =>
    let served := plays s c
    let rest := (next served.1).play served.2
    (⟨c, served.1⟩ :: rest.1, rest.2)

theorem playGoes {takes : S → (c : C) → Except ε (R c) → S → Prop}
    (taken : ∀ s c, takes s c (plays s c).1 (plays s c).2) (p : Prog C R ε α) (s : S) :
    Goes takes p s (p.play plays s).1 (p.play plays s).2.1 (p.play plays s).2.2 := by
  induction p generalizing s with
  | ret a => exact .ret
  | raise e => exact .raise
  | call c next ih => exact .call (taken s c) (ih _ _)

/-- The same where the world's answers are right for every request the one run makes. -/
theorem playGoesWhere {takes : S → (c : C) → Except ε (R c) → S → Prop} {fine : C → Prop}
    (taken : ∀ s c, fine c → takes s c (plays s c).1 (plays s c).2) (p : Prog C R ε α) (s : S)
    (each : ∀ x ∈ (p.play plays s).1, fine x.call) : Goes takes p s (p.play plays s).1 (p.play plays s).2.1 (p.play plays s).2.2 := by
  induction p generalizing s with
  | ret a => exact .ret
  | raise e => exact .raise
  | call c next ih =>
    obtain ⟨first, rest⟩ := List.forall_mem_cons.mp each
    exact .call (taken s c first) (ih _ _ rest)

end Plays
end Prog
end Kodezart
