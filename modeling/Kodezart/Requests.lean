import Mathlib

/-! Programs that make requests: each answer, a refusal among them, decides how the
program goes on. A backend serves one request at a time, and a run may be left after
any of them. -/
namespace Kodezart

inductive Prog (C : Type) (R : C → Type) (ε α : Type) : Type where
  | ret (a : α)
  | raise (e : ε)
  | call (c : C) (next : Except ε (R c) → Prog C R ε α)

namespace Prog
variable {C : Type} {R : C → Type} {ε α β : Type}

def bind : Prog C R ε α → (α → Prog C R ε β) → Prog C R ε β
  | ret a, f => f a
  | raise e, _ => raise e
  | call c next, f => call c fun answer => (next answer).bind f

instance : Monad (Prog C R ε) where
  pure := ret
  bind := bind

/-- A request whose refusal ends the program. -/
def request (c : C) : Prog C R ε (R c) :=
  call c fun answer => match answer with
    | .ok reply => ret reply
    | .error e => raise e

def ofExcept : Except ε α → Prog C R ε α
  | .ok a => ret a
  | .error e => raise e

@[simp] theorem retBind (a : α) (f : α → Prog C R ε β) : (ret a >>= f) = f a := rfl
@[simp] theorem pureBind (a : α) (f : α → Prog C R ε β) : (pure a >>= f) = f a := rfl
@[simp] theorem raiseBind (e : ε) (f : α → Prog C R ε β) : (raise e >>= f) = raise e := rfl
@[simp] theorem callBind (c : C) (next : Except ε (R c) → Prog C R ε α) (f : α → Prog C R ε β) :
    (call c next >>= f) = call c fun answer => next answer >>= f := rfl

section Alone

variable {S : Type} (serve : S → (c : C) → Except ε (S × R c))

/-- The state and the answer a program leaves that runs alone to its end. -/
def exec : Prog C R ε α → S → S × Except ε α
  | ret a, s => (s, .ok a)
  | raise e, s => (s, .error e)
  | call c next, s =>
    match serve s c with
    | .ok (s', reply) => (next (.ok reply)).exec s'
    | .error e => (next (.error e)).exec s

/-- The states a run passes through, one for each request the backend took. -/
def trace : Prog C R ε α → S → List S
  | ret _, _ => []
  | raise _, _ => []
  | call c next, s =>
    match serve s c with
    | .ok (s', reply) => s' :: (next (.ok reply)).trace s'
    | .error e => (next (.error e)).trace s

variable {serve} {keep : S → Prop} {s : S}

/-- A run ends in the last state it passed through. -/
theorem execReached (p : Prog C R ε α) (s : S) : (p.exec serve s).1 ∈ s :: p.trace serve s := by
  induction p generalizing s with
  | ret a => exact List.mem_cons_self
  | raise e => exact List.mem_cons_self
  | call c next ih =>
    simp only [exec, trace]
    cases serve s c with
    | error e => exact ih (.error e) s
    | ok served => exact List.mem_cons_of_mem _ (ih (.ok served.2) served.1)

theorem traceBind (p : Prog C R ε α) (f : α → Prog C R ε β) (s : S) :
    (p >>= f).trace serve s = p.trace serve s ++
      match (p.exec serve s).2 with
      | .ok a => (f a).trace serve (p.exec serve s).1
      | .error _ => [] := by
  induction p generalizing s with
  | ret a => rfl
  | raise e => rfl
  | call c next ih =>
    simp only [callBind, trace, exec]
    cases serve s c with
    | error e => exact ih (.error e) s
    | ok served => exact congrArg (served.1 :: ·) (ih (.ok served.2) served.1)

theorem execBind (p : Prog C R ε α) (f : α → Prog C R ε β) (s : S) :
    (p >>= f).exec serve s =
      match (p.exec serve s).2 with
      | .ok a => (f a).exec serve (p.exec serve s).1
      | .error e => ((p.exec serve s).1, .error e) := by
  induction p generalizing s with
  | ret a => rfl
  | raise e => rfl
  | call c next ih =>
    simp only [callBind, exec]
    cases serve s c with
    | error e => exact ih (.error e) s
    | ok served => exact ih (.ok served.2) served.1

/-- Every state on the way keeps `keep`, the last one too, and a run that ends well leaves `facts`. -/
structure Leads (serve : S → (c : C) → Except ε (S × R c)) (keep : S → Prop) (p : Prog C R ε α) (s : S)
    (facts : S → α → Prop) : Prop where
  passes : ∀ s' ∈ p.trace serve s, keep s'
  last : keep (p.exec serve s).1
  ends : ∀ a, (p.exec serve s).2 = .ok a → facts (p.exec serve s).1 a

theorem leadsRet {a : α} {facts : S → α → Prop} (kept : keep s) (holds : facts s a) :
    Leads serve keep (ret a) s facts :=
  ⟨by simp [trace], kept, fun _ same => by cases same; exact holds⟩

theorem leadsRaise {e : ε} {facts : S → α → Prop} (kept : keep s) :
    Leads serve keep (raise e) s facts :=
  ⟨by simp [trace], kept, fun _ same => by cases same⟩

theorem leadsOfExcept {x : Except ε α} {facts : S → α → Prop} (kept : keep s)
    (holds : ∀ a, x = .ok a → facts s a) : Leads serve keep (ofExcept x) s facts := by
  cases x with
  | error e => exact leadsRaise kept
  | ok a => exact leadsRet kept (holds a rfl)

theorem leadsMono {p : Prog C R ε α} {facts facts' : S → α → Prop} (leads : Leads serve keep p s facts)
    (weaker : ∀ s' a, keep s' → facts s' a → facts' s' a) : Leads serve keep p s facts' :=
  ⟨leads.passes, leads.last, fun a same => weaker _ a leads.last (leads.ends a same)⟩

/-- What a program leaves is where the rest of it starts. -/
theorem leadsBind {p : Prog C R ε α} {f : α → Prog C R ε β} {facts : S → β → Prop}
    (first : Leads serve keep p s fun s' a => Leads serve keep (f a) s' facts) :
    Leads serve keep (p >>= f) s facts := by
  cases ended : (p.exec serve s).2 with
  | error e =>
    refine ⟨?_, ?_, ?_⟩
    · rw [traceBind, ended, List.append_nil]
      exact first.passes
    · rw [execBind, ended]
      exact first.last
    · rw [execBind, ended]
      intro b same
      cases same
  | ok a =>
    have rest := first.ends a ended
    refine ⟨?_, ?_, ?_⟩
    · rw [traceBind, ended]
      intro s' member
      rcases List.mem_append.mp member with early | late
      · exact first.passes s' early
      · exact rest.passes s' late
    · rw [execBind, ended]
      exact rest.last
    · rw [execBind, ended]
      exact rest.ends

/-- A request the backend refuses leaves the state, and ends the program that made it. -/
theorem leadsRequest {c : C} {facts : S → R c → Prop} (kept : keep s)
    (served : ∀ s' reply, serve s c = .ok (s', reply) → keep s' ∧ facts s' reply) :
    Leads serve keep (request c) s facts := by
  cases answer : serve s c with
  | error e =>
    refine ⟨?_, ?_, ?_⟩
    · simp [request, trace, answer]
    · simpa [request, exec, answer] using kept
    · simp [request, exec, answer]
  | ok pair =>
    obtain ⟨kept, holds⟩ := served pair.1 pair.2 answer
    refine ⟨?_, ?_, ?_⟩
    · simpa [request, trace, answer] using kept
    · simpa [request, exec, answer] using kept
    · simpa [request, exec, answer] using holds

end Alone
end Prog
end Kodezart
