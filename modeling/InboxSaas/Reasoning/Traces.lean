import InboxSaas.Reasoning.Pool

/-!
# Traces

An `Event` is one operation with its reply.  `Path p l q` says that `p` performs the events `l` in
turn and `q` is left; `Ends p l o` that nothing is left but the outcome `o`.  Paths know nothing of
a machine: they are what one program does, whatever the replies are.

A traced machine remembers every event with the program that performed it, so each program of a
pool has taken the path that its own part of the trace spells (`Reaches.path`).
-/

namespace Reasoning

variable {ι σ Op : Type} {Reply : Op → Type} {ε α β : Type}

structure Event (Op : Type) (Reply : Op → Type) (ε : Type) where
  op : Op
  reply : Except ε (Reply op)

namespace Program

inductive Path : Program Op Reply ε α → List (Event Op Reply ε) → Program Op Reply ε α → Prop where
  | nil (p : Program Op Reply ε α) : Path p [] p
  | cons {op : Op} {next : Except ε (Reply op) → Program Op Reply ε α} {r : Except ε (Reply op)}
      {rest : List (Event Op Reply ε)} {q : Program Op Reply ε α} (h : Path (next r) rest q) :
      Path (.call op next) (⟨op, r⟩ :: rest) q

/-- The events `l` are all that `p` performs, and `o` is how it ends. -/
def Ends (p : Program Op Reply ε α) (l : List (Event Op Reply ε)) (o : Except ε α) : Prop :=
  Path p l (ofExcept o)

theorem Path.append {p q r : Program Op Reply ε α} {l m : List (Event Op Reply ε)}
    (h : Path p l q) (hq : Path q m r) : Path p (l ++ m) r := by
  induction h with
  | nil => exact hq
  | cons _ ih => exact .cons (ih hq)

theorem Path.bind {p q : Program Op Reply ε α} {l : List (Event Op Reply ε)}
    (h : Path p l q) (f : α → Program Op Reply ε β) : Path (p >>= f) l (q >>= f) := by
  induction h with
  | nil => exact .nil _
  | cons _ ih => exact .cons ih

theorem Path.handle {p q : Program Op Reply ε α} {l : List (Event Op Reply ε)}
    (h : Path p l q) (handler : ε → Program Op Reply ε α) :
    Path (p.handle handler) l (q.handle handler) := by
  induction h with
  | nil => exact .nil _
  | cons _ ih => exact .cons ih

/-- A program does one thing for one reply. -/
theorem Path.unique {p q r : Program Op Reply ε α} {l : List (Event Op Reply ε)}
    (h : Path p l q) (hr : Path p l r) : q = r := by
  induction h with
  | nil =>
      cases hr
      rfl
  | cons _ ih =>
      cases hr with
      | cons h => exact ih h

theorem path_ofExcept {o : Except ε α} {l : List (Event Op Reply ε)} {q : Program Op Reply ε α} :
    Path (ofExcept o) l q ↔ l = [] ∧ q = ofExcept o := by
  constructor
  · intro h
    cases o <;> cases h <;> exact ⟨rfl, rfl⟩
  · rintro ⟨rfl, rfl⟩
    exact .nil _

@[simp] theorem ends_ret {a : α} {l : List (Event Op Reply ε)} {o : Except ε α} :
    Ends (.ret a) l o ↔ l = [] ∧ o = .ok a := by
  change Path (ofExcept (.ok a)) l (ofExcept o) ↔ _
  rw [path_ofExcept]
  cases o <;> simp

@[simp] theorem ends_raise {e : ε} {l : List (Event Op Reply ε)} {o : Except ε α} :
    Ends (.raise e) l o ↔ l = [] ∧ o = .error e := by
  change Path (ofExcept (.error e)) l (ofExcept o) ↔ _
  rw [path_ofExcept]
  cases o <;> simp

theorem ends_call {op : Op} {next : Except ε (Reply op) → Program Op Reply ε α}
    {l : List (Event Op Reply ε)} {o : Except ε α} :
    Ends (.call op next) l o ↔ ∃ r rest, l = ⟨op, r⟩ :: rest ∧ Ends (next r) rest o := by
  constructor
  · intro h
    unfold Ends at h
    generalize hq : (ofExcept o : Program Op Reply ε α) = q at h
    cases h with
    | nil => cases o <;> cases hq
    | cons h =>
        subst hq
        exact ⟨_, _, rfl, h⟩
  · rintro ⟨r, rest, rfl, h⟩
    exact .cons h

@[simp] theorem ends_perform {op : Op} {l : List (Event Op Reply ε)} {o : Except ε (Reply op)} :
    Ends (perform op) l o ↔ l = [⟨op, o⟩] := by
  unfold perform
  rw [ends_call]
  constructor
  · rintro ⟨r, rest, rfl, h⟩
    cases r with
    | ok a =>
        obtain ⟨rfl, rfl⟩ := ends_ret.mp h
        rfl
    | error e =>
        obtain ⟨rfl, rfl⟩ := ends_raise.mp h
        rfl
  · rintro rfl
    exact ⟨o, [], rfl, Path.nil _⟩

/-- The path of `p >>= f` is a path of `p` and, if that returns, a path of `f`. -/
theorem ends_bind {p : Program Op Reply ε α} {f : α → Program Op Reply ε β}
    {l : List (Event Op Reply ε)} {o : Except ε β} :
    Ends (p >>= f) l o ↔
      (∃ l₁ l₂ a, l = l₁ ++ l₂ ∧ Ends p l₁ (.ok a) ∧ Ends (f a) l₂ o) ∨
        ∃ e, o = .error e ∧ Ends p l (.error e) := by
  induction p generalizing l with
  | ret a =>
      change Ends (f a) l o ↔ _
      constructor
      · exact fun hf => .inl ⟨[], l, a, rfl, Path.nil _, hf⟩
      · rintro (⟨l₁, l₂, b, rfl, hb, hf⟩ | ⟨e, -, he⟩)
        · obtain ⟨rfl, hab⟩ := ends_ret.mp hb
          cases hab
          exact hf
        · cases (ends_ret.mp he).2
  | raise e =>
      change Ends (.raise e) l o ↔ _
      constructor
      · intro he
        obtain ⟨rfl, ho⟩ := ends_raise.mp he
        exact .inr ⟨e, ho, Path.nil _⟩
      · rintro (⟨l₁, l₂, b, -, hb, -⟩ | ⟨e', ho, he⟩)
        · cases (ends_raise.mp hb).2
        · obtain ⟨hl, hee⟩ := ends_raise.mp he
          exact ends_raise.mpr ⟨hl, ho.trans (congrArg Except.error (Except.error.inj hee))⟩
  | call op next ih =>
      change Ends (.call op fun r => next r >>= f) l o ↔ _
      rw [ends_call]
      constructor
      · rintro ⟨r, rest, rfl, hr⟩
        rcases (ih r).mp hr with ⟨l₁, l₂, a, hl, hp, hf⟩ | ⟨e, ho, hp⟩
        · refine .inl ⟨⟨op, r⟩ :: l₁, l₂, a, ?_, ends_call.mpr ⟨r, l₁, rfl, hp⟩, hf⟩
          rw [hl, List.cons_append]
        · exact .inr ⟨e, ho, ends_call.mpr ⟨r, rest, rfl, hp⟩⟩
      · rintro (⟨l₁, l₂, a, rfl, hp, hf⟩ | ⟨e, ho, hp⟩)
        · obtain ⟨r, rest, hl, hr⟩ := ends_call.mp hp
          refine ⟨r, rest ++ l₂, ?_, (ih r).mpr (.inl ⟨rest, l₂, a, rfl, hr, hf⟩)⟩
          rw [hl, List.cons_append]
        · obtain ⟨r, rest, hl, hr⟩ := ends_call.mp hp
          exact ⟨r, rest, hl, (ih r).mpr (.inr ⟨e, ho, hr⟩)⟩

/-- One operation, and what follows its reply. -/
theorem ends_perform_bind {op : Op} {f : Reply op → Program Op Reply ε α}
    {l : List (Event Op Reply ε)} {o : Except ε α} :
    Ends (perform op >>= f) l o ↔
      (∃ e, l = [⟨op, .error e⟩] ∧ o = .error e) ∨
        ∃ r rest, l = ⟨op, .ok r⟩ :: rest ∧ Ends (f r) rest o := by
  rw [ends_bind]
  simp only [ends_perform]
  constructor
  · rintro (⟨l₁, l₂, a, rfl, rfl, h⟩ | ⟨e, ho, rfl⟩)
    · exact .inr ⟨a, l₂, rfl, h⟩
    · exact .inl ⟨e, rfl, ho⟩
  · rintro (⟨e, rfl, ho⟩ | ⟨r, rest, rfl, h⟩)
    · exact .inr ⟨e, ho, rfl⟩
    · exact .inl ⟨[_], rest, r, rfl, rfl, h⟩

/-- The path of a program with a handler ends where the program returns, or goes on in the
handler. -/
theorem ends_handle {p : Program Op Reply ε α} {h : ε → Program Op Reply ε α}
    {l : List (Event Op Reply ε)} {o : Except ε α} :
    Ends (p.handle h) l o ↔ (∃ a, o = .ok a ∧ Ends p l (.ok a)) ∨
      ∃ l₁ l₂ e, l = l₁ ++ l₂ ∧ Ends p l₁ (.error e) ∧ Ends (h e) l₂ o := by
  induction p generalizing l with
  | ret a =>
      change Ends (.ret a) l o ↔ _
      constructor
      · intro ha
        obtain ⟨rfl, ho⟩ := ends_ret.mp ha
        exact .inl ⟨a, ho, Path.nil _⟩
      · rintro (⟨b, ho, hb⟩ | ⟨l₁, l₂, e, -, he, -⟩)
        · rwa [ho]
        · cases (ends_ret.mp he).2
  | raise e =>
      change Ends (h e) l o ↔ _
      constructor
      · exact fun hr => .inr ⟨[], l, e, rfl, Path.nil _, hr⟩
      · rintro (⟨b, -, hb⟩ | ⟨l₁, l₂, e', rfl, he, hr⟩)
        · cases (ends_raise.mp hb).2
        · obtain ⟨rfl, hee⟩ := ends_raise.mp he
          cases hee
          exact hr
  | call op next ih =>
      change Ends (.call op fun r => (next r).handle h) l o ↔ _
      rw [ends_call]
      constructor
      · rintro ⟨r, rest, rfl, hr⟩
        rcases (ih r).mp hr with ⟨a, ho, hp⟩ | ⟨l₁, l₂, e, hl, hp, hh⟩
        · exact .inl ⟨a, ho, ends_call.mpr ⟨r, rest, rfl, hp⟩⟩
        · refine .inr ⟨⟨op, r⟩ :: l₁, l₂, e, ?_, ends_call.mpr ⟨r, l₁, rfl, hp⟩, hh⟩
          rw [hl, List.cons_append]
      · rintro (⟨a, ho, hp⟩ | ⟨l₁, l₂, e, rfl, hp, hh⟩)
        · obtain ⟨r, rest, hl, hr⟩ := ends_call.mp hp
          exact ⟨r, rest, hl, (ih r).mpr (.inl ⟨a, ho, hr⟩)⟩
        · obtain ⟨r, rest, hl, hr⟩ := ends_call.mp hp
          refine ⟨r, rest ++ l₂, ?_, (ih r).mpr (.inr ⟨rest, l₂, e, rfl, hr, hh⟩)⟩
          rw [hl, List.cons_append]

end Program

/-! ## Traces of a pool -/

/-- Who performed what, in order. -/
abbrev Trace (ι Op : Type) (Reply : Op → Type) (ε : Type) : Type :=
  List (ι × Event Op Reply ε)

/-- The machine that remembers every event. -/
def Machine.traced (M : Machine ι σ Op Reply ε) :
    Machine ι (σ × Trace ι Op Reply ε) Op Reply ε where
  performs i op s r s' := M.performs i op s.1 r s'.1 ∧ s'.2 = s.2 ++ [(i, ⟨op, r⟩)]
  halts i s e s' := M.halts i s.1 e s'.1 ∧ s'.2 = s.2
  drifts s s' := M.drifts s.1 s'.1 ∧ s'.2 = s.2

section

variable [DecidableEq ι]

/-- What one program performed. -/
def own (i : ι) (tr : Trace ι Op Reply ε) : List (Event Op Reply ε) :=
  (tr.filter (fun e => e.1 = i)).map Prod.snd

@[simp] theorem own_nil (i : ι) : own i ([] : Trace ι Op Reply ε) = [] := rfl

@[simp] theorem own_append (i : ι) (tr tr' : Trace ι Op Reply ε) :
    own i (tr ++ tr') = own i tr ++ own i tr' := by
  simp [own]

@[simp] theorem own_self (i : ι) (e : Event Op Reply ε) : own i [(i, e)] = [e] := by
  simp [own]

theorem own_ne {i j : ι} (h : j ≠ i) (e : Event Op Reply ε) : own i [(j, e)] = [] := by
  simp [own, h]

theorem own_snoc (i j : ι) (e : Event Op Reply ε) (tr : Trace ι Op Reply ε) :
    own i (tr ++ [(j, e)]) = if j = i then own i tr ++ [e] else own i tr := by
  rw [own_append]
  split
  · rename_i h
    rw [h, own_self]
  · rename_i h
    rw [own_ne h, List.append_nil]

theorem mem_own {i : ι} {tr : Trace ι Op Reply ε} {e : Event Op Reply ε} :
    e ∈ own i tr ↔ (i, e) ∈ tr := by
  simp [own]

/-- To play on the traced machine is to play and take notes. -/
def Pool.Player.traced {κ δ : Type} {M : Machine ι σ Op Reply ε} (P : Pool.Player M κ δ) :
    Pool.Player M.traced κ δ where
  perform i op how s :=
    (P.perform i op how s.1).map fun done => (done.1, (done.2, s.2 ++ [(i, ⟨op, done.1⟩)]))
  drift d s := (P.drift d s.1).map fun s' => (s', s.2)
  performs h := by
    obtain ⟨done, hdone, heq⟩ := Option.map_eq_some_iff.mp h
    cases heq
    exact ⟨P.performs hdone, rfl⟩
  drifts h := by
    obtain ⟨s', hs', heq⟩ := Option.map_eq_some_iff.mp h
    cases heq
    exact ⟨P.drifts hs', rfl⟩

/-- Each program has taken the path that its own events spell. -/
theorem Pool.Reaches.path {M : Machine ι σ Op Reply ε} (hM : ∀ i s e s', ¬ M.halts i s e s')
    {s : σ} {progs : ι → Program Op Reply ε α}
    {w : Pool ι (σ × Trace ι Op Reply ε) Op Reply ε α}
    (h : Pool.Reaches M.traced ⟨(s, []), progs⟩ w) (i : ι) :
    (progs i).Path (own i w.shared.2) (w.prog i) := by
  refine h.invariant (P := fun w => (progs i).Path (own i w.shared.2) (w.prog i)) (.nil _) ?_
  intro v l v' hv hs
  cases hs with
  | run hprog hperf =>
      rename_i j op next r s
      change (progs i).Path (own i s.2) (Function.update v.prog j (next r) i)
      rw [hperf.2, own_append]
      by_cases hj : j = i
      · subst hj
        rw [hprog] at hv
        rw [own_self, Function.update_self]
        exact hv.append (.cons (.nil _))
      · rw [own_ne hj, List.append_nil, Function.update_of_ne (Ne.symm hj)]
        exact hv
  | halt hprog hhalt => exact absurd hhalt.1 (hM _ _ _ _)
  | drift hd =>
      rw [hd.2]
      exact hv

/-- Every event of a trace was performed. -/
theorem Pool.Reaches.events {M : Machine ι σ Op Reply ε} {Q : ι → Event Op Reply ε → Prop}
    (hM : ∀ i op s r s', M.performs i op s r s' → Q i ⟨op, r⟩) {s : σ}
    {progs : ι → Program Op Reply ε α} {w : Pool ι (σ × Trace ι Op Reply ε) Op Reply ε α}
    (h : Pool.Reaches M.traced ⟨(s, []), progs⟩ w) : ∀ e ∈ w.shared.2, Q e.1 e.2 := by
  refine h.invariant (P := fun w => ∀ e ∈ w.shared.2, Q e.1 e.2) (fun _ he => by cases he) ?_
  intro v l v' hv hs
  cases hs with
  | run hprog hperf =>
      rw [hperf.2, List.forall_mem_append]
      refine ⟨hv, fun e he => ?_⟩
      cases List.mem_singleton.mp he
      exact hM _ _ _ _ _ hperf.1
  | halt hprog hhalt =>
      rw [hhalt.2]
      exact hv
  | drift hd =>
      rw [hd.2]
      exact hv

end

end Reasoning
