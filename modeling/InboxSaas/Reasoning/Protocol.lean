import InboxSaas.Reasoning.Traces

/-!
# Programs that obey a protocol

A protocol says which operation a program may perform after which events of its own.  `Obeys` checks
it along every path, against the replies that are possible; a postcondition says what is known of the
events where the program ends.  `Pool.Reaches.protocol` is the invariant rule it is for: a step of
the pool is then an operation that the protocol permits, whatever the program.
-/

namespace Reasoning

variable {ι σ Op : Type} {Reply : Op → Type} {ε α β : Type}

/-- What is assumed of replies, and what is asked of operations. -/
structure Protocol (Op : Type) (Reply : Op → Type) (ε : Type) where
  possible : Event Op Reply ε → Prop
  permits : List (Event Op Reply ε) → Op → Prop

namespace Program

/-- From the events `l` on, `p` performs what `P` permits and ends in `post`. -/
def Obeys (P : Protocol Op Reply ε) (post : Except ε α → List (Event Op Reply ε) → Prop) :
    Program Op Reply ε α → List (Event Op Reply ε) → Prop
  | .ret a, l => post (.ok a) l
  | .raise e, l => post (.error e) l
  | .call op next, l =>
      P.permits l op ∧ ∀ r, P.possible ⟨op, r⟩ → Obeys P post (next r) (l ++ [⟨op, r⟩])

variable {P : Protocol Op Reply ε} {l m : List (Event Op Reply ε)}

@[simp] theorem obeys_ret {post : Except ε α → List (Event Op Reply ε) → Prop} {a : α} :
    Obeys P post (.ret a) l ↔ post (.ok a) l := Iff.rfl

@[simp] theorem obeys_raise {post : Except ε α → List (Event Op Reply ε) → Prop} {e : ε} :
    Obeys P post (.raise e) l ↔ post (.error e) l := Iff.rfl

theorem Obeys.mono {post post' : Except ε α → List (Event Op Reply ε) → Prop}
    (hpost : ∀ r m, post r m → post' r m) {p : Program Op Reply ε α} (h : Obeys P post p l) :
    Obeys P post' p l := by
  induction p generalizing l with
  | ret a => exact hpost _ _ h
  | raise e => exact hpost _ _ h
  | call op next ih => exact ⟨h.1, fun r hr => ih r (h.2 r hr)⟩

/-- A returned value is passed on, an error ends the program. -/
theorem Obeys.bind {Q : Except ε α → List (Event Op Reply ε) → Prop}
    {post : Except ε β → List (Event Op Reply ε) → Prop} {p : Program Op Reply ε α}
    {f : α → Program Op Reply ε β} (h : Obeys P Q p l)
    (hok : ∀ a m, Q (.ok a) m → Obeys P post (f a) m)
    (herror : ∀ e m, Q (.error e) m → post (.error e) m) : Obeys P post (p >>= f) l := by
  induction p generalizing l with
  | ret a => exact hok a l h
  | raise e => exact herror e l h
  | call op next ih => exact ⟨h.1, fun r hr => ih r (h.2 r hr)⟩

theorem Obeys.handle {Q post : Except ε α → List (Event Op Reply ε) → Prop}
    {p : Program Op Reply ε α} {handler : ε → Program Op Reply ε α} (h : Obeys P Q p l)
    (hok : ∀ a m, Q (.ok a) m → post (.ok a) m)
    (herror : ∀ e m, Q (.error e) m → Obeys P post (handler e) m) :
    Obeys P post (p.handle handler) l := by
  induction p generalizing l with
  | ret a => exact hok a l h
  | raise e => exact herror e l h
  | call op next ih => exact ⟨h.1, fun r hr => ih r (h.2 r hr)⟩

/-- One operation, and what follows its reply. -/
theorem obeys_perform_bind {post : Except ε α → List (Event Op Reply ε) → Prop} {op : Op}
    {f : Reply op → Program Op Reply ε α} (hpermits : P.permits l op)
    (hok : ∀ r, P.possible ⟨op, .ok r⟩ → Obeys P post (f r) (l ++ [⟨op, .ok r⟩]))
    (herror : ∀ e, P.possible ⟨op, .error e⟩ → post (.error e) (l ++ [⟨op, .error e⟩])) :
    Obeys P post (perform op >>= f) l := by
  rw [perform_bind]
  refine ⟨hpermits, fun r hr => ?_⟩
  cases r with
  | ok r => exact hok r hr
  | error e => exact herror e hr

theorem obeys_perform {post : Except ε (Reply op) → List (Event Op Reply ε) → Prop}
    (hpermits : P.permits l op) (hpost : ∀ r, P.possible ⟨op, r⟩ → post r (l ++ [⟨op, r⟩])) :
    Obeys P post (perform op) l := by
  refine ⟨hpermits, fun r hr => ?_⟩
  cases r with
  | ok r => exact hpost _ hr
  | error e => exact hpost _ hr

/-- What is left of a program obeys too. -/
theorem Obeys.path {post : Except ε α → List (Event Op Reply ε) → Prop}
    {p q : Program Op Reply ε α} (h : Obeys P post p l) (hpath : Path p m q)
    (hpossible : ∀ e ∈ m, P.possible e) : Obeys P post q (l ++ m) := by
  induction hpath generalizing l with
  | nil => rwa [List.append_nil]
  | @cons op next r rest q _ ih =>
      rw [List.forall_mem_cons] at hpossible
      rw [← List.singleton_append, ← List.append_assoc]
      exact ih (h.2 r hpossible.1) hpossible.2

/-- What was performed was permitted. -/
theorem Obeys.permitted {post : Except ε α → List (Event Op Reply ε) → Prop}
    {p q : Program Op Reply ε α} {e : Event Op Reply ε} {rest : List (Event Op Reply ε)}
    (h : Obeys P post p l) (hpath : Path p (m ++ e :: rest) q)
    (hpossible : ∀ e ∈ m, P.possible e) : P.permits (l ++ m) e.op := by
  induction m generalizing p l with
  | nil =>
      cases hpath with
      | cons _ =>
          rw [List.append_nil]
          exact h.1
  | cons first m ih =>
      cases hpath with
      | cons hrest =>
          rw [List.forall_mem_cons] at hpossible
          rw [← List.singleton_append, ← List.append_assoc]
          exact ih (h.2 _ hpossible.1) hrest hpossible.2

/-- What holds at the end of a program that is over. -/
theorem Obeys.post {post : Except ε α → List (Event Op Reply ε) → Prop} {o : Except ε α}
    (h : Obeys P post (ofExcept o) l) : post o l := by
  cases o <;> exact h

end Program

/-! ## Pools -/

section

variable [DecidableEq ι]

/-- A property of the traced state that every permitted step and every drift preserves holds wherever
programs that obey their protocols get, and there they obey them still. -/
theorem Pool.Reaches.protocol {M : Machine ι σ Op Reply ε}
    {post : ι → Except ε α → List (Event Op Reply ε) → Prop} {P : ι → Protocol Op Reply ε}
    {u w : Pool ι (σ × Trace ι Op Reply ε) Op Reply ε α} {R : σ → Trace ι Op Reply ε → Prop}
    (h : Pool.Reaches M.traced u w) (hhalts : ∀ i s e s', ¬ M.halts i s e s')
    (hdrifts : ∀ s s' tr, R s tr → M.drifts s s' → R s' tr)
    (hpossible : ∀ i op s r s', M.performs i op s r s' → (P i).possible ⟨op, r⟩)
    (hobeys : ∀ i, (u.prog i).Obeys (P i) (post i) (own i u.shared.2))
    (hu : R u.shared.1 u.shared.2)
    (hstep : ∀ i op s r s' tr, R s tr → (P i).permits (own i tr) op → M.performs i op s r s' →
      R s' (tr ++ [(i, ⟨op, r⟩)])) :
    R w.shared.1 w.shared.2 ∧ ∀ i, (w.prog i).Obeys (P i) (post i) (own i w.shared.2) := by
  refine h.invariant (P := fun w => R w.shared.1 w.shared.2 ∧
    ∀ i, (w.prog i).Obeys (P i) (post i) (own i w.shared.2)) ⟨hu, hobeys⟩ ?_
  rintro v l v' ⟨hv, hov⟩ hs
  cases hs with
  | @run i op next r s hprog hperf =>
      have hi := hov i
      rw [hprog] at hi
      rw [hperf.2]
      refine ⟨hstep i op _ r _ _ hv hi.1 hperf.1, fun j => ?_⟩
      change (Function.update v.prog i (next r) j).Obeys _ _ _
      rw [own_append]
      by_cases hj : i = j
      · subst hj
        rw [own_self, Function.update_self]
        exact hi.2 r (hpossible i op _ r _ hperf.1)
      · rw [own_ne hj, List.append_nil, Function.update_of_ne (Ne.symm hj)]
        exact hov j
  | halt hprog hhalt => exact absurd hhalt.1 (hhalts _ _ _ _)
  | drift hd =>
      rw [hd.2]
      exact ⟨hdrifts _ _ _ hv hd.1, hov⟩

end

end Reasoning
