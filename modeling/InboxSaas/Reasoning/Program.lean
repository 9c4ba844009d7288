import Mathlib.Logic.Basic

/-!
# Effectful programs as trees of calls

A `Program` is the text of an effectful function: it returns, raises an error, or performs one
operation and goes on with the reply.  It has no state of its own, so one text can be run alone,
run with faults, or interleaved with other programs; each of those semantics is a recursion on, or
a relation over, the same tree.
-/

namespace Reasoning

/-- A computation that succeeds succeeds at its first step and goes on. -/
theorem bind_eq_ok {ε α β : Type} {x : Except ε α} {f : α → Except ε β} {b : β} :
    x >>= f = .ok b ↔ ∃ a, x = .ok a ∧ f a = .ok b := by
  constructor
  · intro h
    cases x with
    | error e => cases h
    | ok a => exact ⟨a, rfl, h⟩
  · rintro ⟨a, rfl, h⟩
    exact h

/-- A computation that fails fails at its first step or after it. -/
theorem bind_eq_error {ε α β : Type} {x : Except ε α} {f : α → Except ε β} {e : ε} :
    x >>= f = .error e ↔ x = .error e ∨ ∃ a, x = .ok a ∧ f a = .error e := by
  cases x with
  | error e' =>
      constructor
      · intro h
        cases h
        exact .inl rfl
      · intro h
        rcases h with h | ⟨_, h, _⟩
        · cases h
          rfl
        · cases h
  | ok a =>
      constructor
      · intro h
        exact .inr ⟨a, rfl, h⟩
      · intro h
        rcases h with h | ⟨a', h, hf⟩
        · cases h
        · cases h
          exact hf

/-- A program over the operations `Op`, whose replies have the types `Reply` or are errors in `ε`. -/
inductive Program (Op : Type) (Reply : Op → Type) (ε α : Type) : Type where
  | ret (a : α)
  | raise (e : ε)
  | call (op : Op) (next : Except ε (Reply op) → Program Op Reply ε α)

namespace Program

variable {Op : Type} {Reply : Op → Type} {ε α β γ : Type}

def bind : Program Op Reply ε α → (α → Program Op Reply ε β) → Program Op Reply ε β
  | .ret a, f => f a
  | .raise e, _ => .raise e
  | .call op next, f => .call op (fun r => (next r).bind f)

/-- `p.handle h` runs `p` and, where `p` raises, goes on with the handler. -/
def handle : Program Op Reply ε α → (ε → Program Op Reply ε α) → Program Op Reply ε α
  | .ret a, _ => .ret a
  | .raise e, h => h e
  | .call op next, h => .call op (fun r => (next r).handle h)

instance : Monad (Program Op Reply ε) where
  pure := .ret
  bind := bind

instance : MonadExceptOf ε (Program Op Reply ε) where
  throw := .raise
  tryCatch := handle

/-- What a program does with a reply when it does not catch errors. -/
def resume (f : β → Program Op Reply ε α) : Except ε β → Program Op Reply ε α
  | .ok b => f b
  | .error e => .raise e

/-- Local computation that can fail. -/
def ofExcept : Except ε α → Program Op Reply ε α :=
  resume .ret

/-- The program that performs one operation and returns its reply. -/
def perform (op : Op) : Program Op Reply ε (Reply op) :=
  .call op (resume .ret)

/-- How a program that has nothing left to do ended. -/
def outcome : Program Op Reply ε α → Option (Except ε α)
  | .ret a => some (.ok a)
  | .raise e => some (.error e)
  | .call _ _ => none

@[simp] theorem pure_eq (a : α) : (pure a : Program Op Reply ε α) = .ret a := rfl

@[simp] theorem throw_eq (e : ε) : (throw e : Program Op Reply ε α) = .raise e := rfl

@[simp] theorem tryCatch_eq (p : Program Op Reply ε α) (h : ε → Program Op Reply ε α) :
    tryCatch p h = p.handle h := rfl

@[simp] theorem ofExcept_ok (a : α) : (ofExcept (.ok a) : Program Op Reply ε α) = .ret a := rfl

@[simp] theorem ofExcept_error (e : ε) :
    (ofExcept (.error e) : Program Op Reply ε α) = .raise e := rfl

@[simp] theorem ret_bind (a : α) (f : α → Program Op Reply ε β) :
    (.ret a >>= f : Program Op Reply ε β) = f a := rfl

@[simp] theorem raise_bind (e : ε) (f : α → Program Op Reply ε β) :
    (.raise e >>= f : Program Op Reply ε β) = .raise e := rfl

@[simp] theorem call_bind (op : Op) (next : Except ε (Reply op) → Program Op Reply ε α)
    (f : α → Program Op Reply ε β) :
    (.call op next >>= f : Program Op Reply ε β) = .call op (fun r => next r >>= f) := rfl

@[simp] theorem ret_handle (a : α) (h : ε → Program Op Reply ε α) :
    (Program.ret a : Program Op Reply ε α).handle h = .ret a := rfl

@[simp] theorem raise_handle (e : ε) (h : ε → Program Op Reply ε α) :
    (Program.raise e : Program Op Reply ε α).handle h = h e := rfl

@[simp] theorem call_handle (op : Op) (next : Except ε (Reply op) → Program Op Reply ε α)
    (h : ε → Program Op Reply ε α) :
    (Program.call op next).handle h = .call op (fun r => (next r).handle h) := rfl

@[simp] theorem resume_ok (f : β → Program Op Reply ε α) (b : β) : resume f (.ok b) = f b := rfl

@[simp] theorem resume_error (f : β → Program Op Reply ε α) (e : ε) :
    resume f (.error e) = .raise e := rfl

/-- Performing an operation and going on is a single call node. -/
@[simp] theorem perform_bind (op : Op) (f : Reply op → Program Op Reply ε α) :
    (perform op >>= f : Program Op Reply ε α) = .call op (resume f) := by
  change Program.call op _ = _
  congr 1
  funext r
  cases r <;> rfl

theorem bind_assoc (p : Program Op Reply ε α) (f : α → Program Op Reply ε β)
    (g : β → Program Op Reply ε γ) : p >>= f >>= g = p >>= fun a => f a >>= g := by
  induction p with
  | ret a => rfl
  | raise e => rfl
  | call op next ih =>
      change Program.call op _ = Program.call op _
      congr 1
      funext r
      exact ih r

/-- Programs that never catch the error of an operation: whatever raises, ends them. -/
def Strict : Program Op Reply ε α → Prop
  | .ret _ => True
  | .raise _ => True
  | .call _ next => (∀ e, next (.error e) = .raise e) ∧ ∀ r, (next (.ok r)).Strict

@[simp] theorem strict_ret (a : α) : (Program.ret a : Program Op Reply ε α).Strict := trivial

@[simp] theorem strict_raise (e : ε) : (Program.raise e : Program Op Reply ε α).Strict := trivial

@[simp] theorem strict_call_resume {op : Op} {f : Reply op → Program Op Reply ε α} :
    (Program.call op (resume f)).Strict ↔ ∀ r, (f r).Strict :=
  ⟨fun h r => h.2 r, fun h => ⟨fun _ => rfl, h⟩⟩

theorem strict_perform_bind {op : Op} {f : Reply op → Program Op Reply ε α} :
    (perform op >>= f).Strict ↔ ∀ r, (f r).Strict := by
  rw [perform_bind, strict_call_resume]

theorem Strict.bind {p : Program Op Reply ε α} {f : α → Program Op Reply ε β} (hp : p.Strict)
    (hf : ∀ a, (f a).Strict) : (p >>= f).Strict := by
  induction p with
  | ret a => exact hf a
  | raise e => exact trivial
  | call op next ih =>
      refine ⟨fun e => ?_, fun r => ih _ (hp.2 r)⟩
      have he := hp.1 e
      change (next (.error e) >>= f) = _
      rw [he]
      rfl

@[simp] theorem strict_perform (op : Op) :
    (perform op : Program Op Reply ε (Reply op)).Strict :=
  ⟨fun _ => rfl, fun _ => trivial⟩

@[simp] theorem strict_ofExcept (r : Except ε α) :
    (ofExcept r : Program Op Reply ε α).Strict := by
  cases r <;> exact trivial

/-- Every operation that the program can come to is one of these. -/
def Issues (P : Op → Prop) : Program Op Reply ε α → Prop
  | .ret _ => True
  | .raise _ => True
  | .call op next => P op ∧ ∀ r, (next r).Issues P

section

variable {P : Op → Prop}

@[simp] theorem issues_ret (a : α) : (Program.ret a : Program Op Reply ε α).Issues P := trivial

@[simp] theorem issues_raise (e : ε) : (Program.raise e : Program Op Reply ε α).Issues P := trivial

theorem Issues.mono {Q : Op → Prop} {p : Program Op Reply ε α} (hPQ : ∀ op, P op → Q op)
    (h : p.Issues P) : p.Issues Q := by
  induction p with
  | ret a => exact trivial
  | raise e => exact trivial
  | call op next ih => exact ⟨hPQ op h.1, fun r => ih r (h.2 r)⟩

theorem issues_perform_bind {op : Op} {f : Reply op → Program Op Reply ε α} (hop : P op)
    (hf : ∀ r, (f r).Issues P) : (perform op >>= f).Issues P := by
  rw [perform_bind]
  refine ⟨hop, fun r => ?_⟩
  cases r with
  | error e => exact trivial
  | ok r => exact hf r

theorem Issues.bind {p : Program Op Reply ε α} {f : α → Program Op Reply ε β} (hp : p.Issues P)
    (hf : ∀ a, (f a).Issues P) : (p >>= f).Issues P := by
  induction p with
  | ret a => exact hf a
  | raise e => exact trivial
  | call op next ih => exact ⟨hp.1, fun r => ih r (hp.2 r)⟩

theorem issues_ofExcept_bind {r : Except ε α} {f : α → Program Op Reply ε β}
    (hf : ∀ a, (f a).Issues P) : (ofExcept r >>= f).Issues P := by
  cases r with
  | error e => exact trivial
  | ok a => exact hf a

theorem Issues.handle {p : Program Op Reply ε α} {h : ε → Program Op Reply ε α} (hp : p.Issues P)
    (hh : ∀ e, (h e).Issues P) : (p.handle h).Issues P := by
  induction p with
  | ret a => exact trivial
  | raise e => exact hh e
  | call op next ih => exact ⟨hp.1, fun r => ih r (hp.2 r)⟩

end

/-- The program performs at most `n` operations, whatever it is answered. -/
def Within : Program Op Reply ε α → Nat → Prop
  | .ret _, _ => True
  | .raise _, _ => True
  | .call _ next, n => ∃ m, n = m + 1 ∧ ∀ r, (next r).Within m

section

variable {m n : Nat}

theorem Within.mono {p : Program Op Reply ε α} (hp : p.Within m) (h : m ≤ n) : p.Within n := by
  induction p generalizing m n with
  | ret a => exact trivial
  | raise e => exact trivial
  | call op next ih =>
      obtain ⟨m', rfl, hnext⟩ := hp
      exact ⟨n - 1, by omega, fun r => ih r (hnext r) (by omega)⟩

theorem Within.bind {p : Program Op Reply ε α} {f : α → Program Op Reply ε β} (hp : p.Within m)
    (hf : ∀ a, (f a).Within n) : (p >>= f).Within (m + n) := by
  induction p generalizing m with
  | ret a => exact (hf a).mono (Nat.le_add_left n m)
  | raise e => exact trivial
  | call op next ih =>
      obtain ⟨m', rfl, hnext⟩ := hp
      exact ⟨m' + n, by omega, fun r => ih r (hnext r)⟩

theorem Within.handle {p : Program Op Reply ε α} {h : ε → Program Op Reply ε α} (hp : p.Within m)
    (hh : ∀ e, (h e).Within n) : (p.handle h).Within (m + n) := by
  induction p generalizing m with
  | ret a => exact trivial
  | raise e => exact (hh e).mono (Nat.le_add_left n m)
  | call op next ih =>
      obtain ⟨m', rfl, hnext⟩ := hp
      exact ⟨m' + n, by omega, fun r => ih r (hnext r)⟩

end

end Program

end Reasoning
