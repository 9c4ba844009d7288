import Mathlib.Logic.Relation
import Mathlib.Logic.Function.Basic
import InboxSaas.Reasoning.Program

/-!
# Pools of interleaved programs, and their rely/guarantee rule

A `Pool` is a shared state and a family of programs over it.  One step performs the next operation
of one program, stops one program for good, or changes the shared state alone; which of these are
possible is the `Machine`.  Any number of programs can be in a pool, so a theorem about the worlds
a pool reaches holds for every interleaving.

A `Contract` fixes an invariant of the shared state (extended by a ghost state), what each program
may rely on and what it guarantees.  `Outline` is the proof obligation of one program: it is checked
call by call, each call from every state that the others' steps may have led to.  `Contract.reaches`
turns the outlines of all programs into facts about every reachable world.
-/

namespace Reasoning

/-- How operations act on the shared state `σ` when the program `ι` performs them. -/
structure Machine (ι σ Op : Type) (Reply : Op → Type) (ε : Type) where
  /-- One operation, its reply and the state after it. -/
  performs : ι → (op : Op) → σ → Except ε (Reply op) → σ → Prop
  /-- A program is stopped: nothing of it is executed any more. -/
  halts : ι → σ → ε → σ → Prop
  /-- A change no program makes. -/
  drifts : σ → σ → Prop

/-- The machine without the steps that are not allowed. -/
def Machine.restrict {ι σ Op : Type} {Reply : Op → Type} {ε : Type} (M : Machine ι σ Op Reply ε)
    (allowed : ι → (op : Op) → σ → Except ε (Reply op) → σ → Prop) (mayHalt : ι → σ → Prop) :
    Machine ι σ Op Reply ε where
  performs i op s r s' := M.performs i op s r s' ∧ allowed i op s r s'
  halts i s e s' := M.halts i s e s' ∧ mayHalt i s
  drifts := M.drifts

structure Pool (ι σ Op : Type) (Reply : Op → Type) (ε α : Type) where
  shared : σ
  prog : ι → Program Op Reply ε α

inductive Label (ι : Type) where
  | run (i : ι)
  | halt (i : ι)
  | drift

variable {ι σ γ Op : Type} {Reply : Op → Type} {ε α : Type}

namespace Pool

variable [DecidableEq ι]

inductive Step (M : Machine ι σ Op Reply ε) :
    Pool ι σ Op Reply ε α → Label ι → Pool ι σ Op Reply ε α → Prop where
  | run {w : Pool ι σ Op Reply ε α} {i : ι} {op : Op}
      {next : Except ε (Reply op) → Program Op Reply ε α} {r : Except ε (Reply op)} {s : σ}
      (prog : w.prog i = .call op next) (performs : M.performs i op w.shared r s) :
      Step M w (.run i) ⟨s, Function.update w.prog i (next r)⟩
  | halt {w : Pool ι σ Op Reply ε α} {i : ι} {op : Op}
      {next : Except ε (Reply op) → Program Op Reply ε α} {e : ε} {s : σ}
      (prog : w.prog i = .call op next) (halts : M.halts i w.shared e s) :
      Step M w (.halt i) ⟨s, Function.update w.prog i (.raise e)⟩
  | drift {w : Pool ι σ Op Reply ε α} {s : σ} (drifts : M.drifts w.shared s) :
      Step M w .drift ⟨s, w.prog⟩

/-- The program that makes a step was not over. -/
theorem Step.waiting {M : Machine ι σ Op Reply ε} {w v : Pool ι σ Op Reply ε α} {i : ι}
    (h : Step M w (.run i) v) : (w.prog i).outcome = none := by
  cases h with
  | run hprog _ =>
      rw [hprog]
      rfl

/-- The worlds that some interleaving leads to. -/
def Reaches (M : Machine ι σ Op Reply ε) :
    Pool ι σ Op Reply ε α → Pool ι σ Op Reply ε α → Prop :=
  Relation.ReflTransGen (fun w v => ∃ l, Step M w l v)

theorem Reaches.refl (M : Machine ι σ Op Reply ε) (w : Pool ι σ Op Reply ε α) : Reaches M w w :=
  Relation.ReflTransGen.refl

theorem Reaches.step {M : Machine ι σ Op Reply ε} {u v w : Pool ι σ Op Reply ε α} {l : Label ι}
    (h : Reaches M u v) (hs : Step M v l w) : Reaches M u w :=
  Relation.ReflTransGen.tail h ⟨l, hs⟩

/-- A property that holds at first and that every step preserves holds in every reachable world. -/
theorem Reaches.invariant {M : Machine ι σ Op Reply ε} {u w : Pool ι σ Op Reply ε α}
    {P : Pool ι σ Op Reply ε α → Prop} (h : Reaches M u w) (hu : P u)
    (hstep : ∀ v l v', P v → Step M v l v' → P v') : P w := by
  induction h with
  | refl => exact hu
  | tail _ hs ih =>
      obtain ⟨l, hs⟩ := hs
      exact hstep _ l _ ih hs

/-- A program that is over stays as it is. -/
theorem Reaches.over {M : Machine ι σ Op Reply ε} {u w : Pool ι σ Op Reply ε α}
    (h : Reaches M u w) {i : ι} {o : Except ε α} (hu : u.prog i = .ofExcept o) :
    w.prog i = .ofExcept o := by
  refine h.invariant (P := fun w => w.prog i = .ofExcept o) hu ?_
  intro v l v' hv hs
  have hcall : ∀ {j : ι} {op : Op} {next : Except ε (Reply op) → Program Op Reply ε α},
      v.prog j = .call op next → i ≠ j := by
    rintro j op next hj rfl
    rw [hv] at hj
    cases o <;> cases hj
  cases hs with
  | run hprog _ => exact (Function.update_of_ne (hcall hprog) _ _).trans hv
  | halt hprog _ => exact (Function.update_of_ne (hcall hprog) _ _).trans hv
  | drift _ => exact hv

/-! ## Playing a schedule -/

/-- One turn of a schedule: a program performs its next operation in the way `how`, or the shared
state drifts. -/
inductive Turn (ι κ δ : Type) where
  | run (i : ι) (how : κ)
  | drift (d : δ)

/-- A computable part of a machine. -/
structure Player (M : Machine ι σ Op Reply ε) (κ δ : Type) where
  perform : ι → (op : Op) → κ → σ → Option (Except ε (Reply op) × σ)
  drift : δ → σ → Option σ
  performs {i : ι} {op : Op} {how : κ} {s s' : σ} {r : Except ε (Reply op)}
    (h : perform i op how s = some (r, s')) : M.performs i op s r s'
  drifts {d : δ} {s s' : σ} (h : drift d s = some s') : M.drifts s s'

variable {κ δ : Type} {M : Machine ι σ Op Reply ε}

/-- A turn that is not possible is skipped. -/
def Player.turn (P : Player M κ δ) (w : Pool ι σ Op Reply ε α) :
    Turn ι κ δ → Pool ι σ Op Reply ε α
  | .run i how =>
      match w.prog i with
      | .call op next =>
          match P.perform i op how w.shared with
          | some (r, s) => ⟨s, Function.update w.prog i (next r)⟩
          | none => w
      | _ => w
  | .drift d =>
      match P.drift d w.shared with
      | some s => ⟨s, w.prog⟩
      | none => w

def Player.play (P : Player M κ δ) (w : Pool ι σ Op Reply ε α) (turns : List (Turn ι κ δ)) :
    Pool ι σ Op Reply ε α :=
  turns.foldl P.turn w

theorem Player.turn_cases (P : Player M κ δ) (w : Pool ι σ Op Reply ε α) (turn : Turn ι κ δ) :
    P.turn w turn = w ∨ ∃ l, Step M w l (P.turn w turn) := by
  unfold Player.turn
  split
  · split
    · rename_i hprog
      split
      · rename_i hp
        exact .inr ⟨_, .run hprog (P.performs hp)⟩
      · exact .inl rfl
    · exact .inl rfl
  · split
    · rename_i hd
      exact .inr ⟨_, .drift (P.drifts hd)⟩
    · exact .inl rfl

theorem Player.reaches_turn (P : Player M κ δ) (w : Pool ι σ Op Reply ε α) (turn : Turn ι κ δ) :
    Reaches M w (P.turn w turn) := by
  rcases P.turn_cases w turn with hsame | ⟨l, hs⟩
  · rw [hsame]
    exact .refl M w
  · exact (Reaches.refl M w).step hs

theorem Player.reaches (P : Player M κ δ) (w : Pool ι σ Op Reply ε α)
    (turns : List (Turn ι κ δ)) : Reaches M w (P.play w turns) := by
  induction turns generalizing w with
  | nil => exact .refl M w
  | cons turn rest ih => exact Relation.ReflTransGen.trans (P.reaches_turn w turn) (ih _)

end Pool

/-- An invariant of the shared state with its ghost state, and what the programs rely on and
guarantee. -/
structure Contract (ι σ γ Op : Type) where
  inv : σ × γ → Prop
  rely : ι → σ × γ → σ × γ → Prop
  guar : ι → σ × γ → σ × γ → Prop
  /-- Holds whenever a program is about to perform an operation. -/
  ctl : ι → Op → σ × γ → Prop

namespace Contract

variable (M : Machine ι σ Op Reply ε) (C : Contract ι σ γ Op)

/-- The proof obligation of program `i` with text `p` left, last seen in state `t`: it keeps its
guarantee, returns with `post` and raises with `fail`. -/
def Outline (i : ι) (post : α → σ × γ → Prop) (fail : ε → σ × γ → Prop) :
    Program Op Reply ε α → σ × γ → Prop
  | .ret a, t => ∀ u, C.rely i t u → C.inv u → post a u
  | .raise e, t => ∀ u, C.rely i t u → C.inv u → fail e u
  | .call op next, t => ∀ u, C.rely i t u → C.inv u → C.ctl i op u ∧
      (∀ r s, M.performs i op u.1 r s →
        ∃ g, C.inv (s, g) ∧ C.guar i u (s, g) ∧ Outline i post fail (next r) (s, g)) ∧
      (∀ e s, M.halts i u.1 e s → ∃ g, C.inv (s, g) ∧ C.guar i u (s, g) ∧
        ∀ v, C.rely i (s, g) v → C.inv v → fail e v)

/-- What makes a contract a contract: the others' guarantees are what a program relies on. -/
structure Sound : Prop where
  rely_refl : ∀ i t, C.rely i t t
  rely_trans : ∀ i t u v, C.rely i t u → C.rely i u v → C.rely i t v
  rely_of_guar : ∀ i j t u, i ≠ j → C.inv t → C.inv u → C.guar i t u → C.rely j t u
  drift : ∀ t s, C.inv t → M.drifts t.1 s →
    ∃ g, C.inv (s, g) ∧ ∀ i, C.rely i t (s, g)

variable {M C}

section

variable {i : ι} {post : α → σ × γ → Prop} {fail : ε → σ × γ → Prop}

theorem Outline.mono (hC : C.Sound M) {p : Program Op Reply ε α} {t u : σ × γ}
    (h : C.Outline M i post fail p t) (hr : C.rely i t u) : C.Outline M i post fail p u := by
  cases p with
  | ret a => exact fun v hv => h v (hC.rely_trans i t u v hr hv)
  | raise e => exact fun v hv => h v (hC.rely_trans i t u v hr hv)
  | call op next => exact fun v hv => h v (hC.rely_trans i t u v hr hv)

/-- The invariant may be assumed of the state a program is seen in. -/
theorem Outline.intro (hC : C.Sound M) {p : Program Op Reply ε α} {t : σ × γ}
    (h : ∀ u, C.rely i t u → C.inv u → C.Outline M i post fail p u) :
    C.Outline M i post fail p t := by
  cases p with
  | ret a => exact fun u hr hu => h u hr hu u (hC.rely_refl i u) hu
  | raise e => exact fun u hr hu => h u hr hu u (hC.rely_refl i u) hu
  | call op next => exact fun u hr hu => h u hr hu u (hC.rely_refl i u) hu

variable {β : Type} {post' : β → σ × γ → Prop} {fail' : ε → σ × γ → Prop}

theorem Outline.bind (hC : C.Sound M) {p : Program Op Reply ε β} {f : β → Program Op Reply ε α}
    {t : σ × γ} (h : C.Outline M i (fun b u => C.Outline M i post fail (f b) u) fail p t) :
    C.Outline M i post fail (p >>= f) t := by
  induction p generalizing t with
  | ret b => exact .intro hC h
  | raise e => exact h
  | call op next ih =>
      intro u hr hu
      obtain ⟨hctl, hstep, hhalt⟩ := h u hr hu
      refine ⟨hctl, fun r s hp => ?_, hhalt⟩
      obtain ⟨g, hinv, hg, ho⟩ := hstep r s hp
      exact ⟨g, hinv, hg, ih r ho⟩

/-- Where no program is ever stopped, an error reaches the handler. -/
theorem Outline.handle (hC : C.Sound M) (hM : ∀ i s e s', ¬ M.halts i s e s')
    {p : Program Op Reply ε α} {h : ε → Program Op Reply ε α} {t : σ × γ}
    (ho : C.Outline M i post (fun e u => C.Outline M i post fail (h e) u) p t) :
    C.Outline M i post fail (p.handle h) t := by
  induction p generalizing t with
  | ret a => exact ho
  | raise e => exact .intro hC ho
  | call op next ih =>
      intro u hr hu
      obtain ⟨hctl, hstep, -⟩ := ho u hr hu
      refine ⟨hctl, fun r s hp => ?_, fun e s hh => absurd hh (hM i u.1 e s)⟩
      obtain ⟨g, hinv, hg, ho⟩ := hstep r s hp
      exact ⟨g, hinv, hg, ih r ho⟩

/-- A program of which every operation keeps the guarantee, whatever the program does. -/
theorem Outline.of_issues {P : Op → Prop} (hM : ∀ i s e s', ¬ M.halts i s e s')
    (hop : ∀ op u, P op → C.inv u → C.ctl i op u ∧ ∀ r s, M.performs i op u.1 r s →
      ∃ g, C.inv (s, g) ∧ C.guar i u (s, g))
    {p : Program Op Reply ε α} (h : p.Issues P) (t : σ × γ) :
    C.Outline M i (fun _ _ => True) (fun _ _ => True) p t := by
  induction p generalizing t with
  | ret a => exact fun _ _ _ => trivial
  | raise e => exact fun _ _ _ => trivial
  | call op next ih =>
      intro u hr hu
      obtain ⟨hctl, hstep⟩ := hop op u h.1 hu
      refine ⟨hctl, fun r s hp => ?_, fun e s hh => absurd hh (hM i u.1 e s)⟩
      obtain ⟨g, hinv, hg⟩ := hstep r s hp
      exact ⟨g, hinv, hg, ih r (h.2 r) (s, g)⟩

/-- The rule of consequence. -/
theorem Outline.conseq {post' : α → σ × γ → Prop} {p : Program Op Reply ε α} {t : σ × γ}
    (h : C.Outline M i post' fail' p t) (hpost : ∀ a u, C.inv u → post' a u → post a u)
    (hfail : ∀ e u, C.inv u → fail' e u → fail e u) : C.Outline M i post fail p t := by
  induction p generalizing t with
  | ret a => exact fun u hr hu => hpost a u hu (h u hr hu)
  | raise e => exact fun u hr hu => hfail e u hu (h u hr hu)
  | call op next ih =>
      intro u hr hu
      obtain ⟨hctl, hstep, hhalt⟩ := h u hr hu
      refine ⟨hctl, fun r s hp => ?_, fun e s hh => ?_⟩
      · obtain ⟨g, hinv, hg, ho⟩ := hstep r s hp
        exact ⟨g, hinv, hg, ih r ho⟩
      · obtain ⟨g, hinv, hg, hf⟩ := hhalt e s hh
        exact ⟨g, hinv, hg, fun v hr hv => hfail e v hv (hf v hr hv)⟩

end

/-- The invariant with every program's outline, for some ghost state. -/
def Holds (M : Machine ι σ Op Reply ε) (C : Contract ι σ γ Op) (post : ι → α → σ × γ → Prop)
    (fail : ι → ε → σ × γ → Prop) (w : Pool ι σ Op Reply ε α) : Prop :=
  ∃ g, C.inv (w.shared, g) ∧ ∀ i, C.Outline M i (post i) (fail i) (w.prog i) (w.shared, g)

variable {post : ι → α → σ × γ → Prop} {fail : ι → ε → σ × γ → Prop}

/-- Each program that returned has its postcondition, all in one ghost state; each that raised
has its own. -/
theorem Holds.ended (hC : C.Sound M) {w : Pool ι σ Op Reply ε α} (h : C.Holds M post fail w) :
    ∃ g, C.inv (w.shared, g) ∧ (∀ i a, w.prog i = .ret a → post i a (w.shared, g)) ∧
      (∀ i e, w.prog i = .raise e → fail i e (w.shared, g)) ∧
      ∀ i op next, w.prog i = .call op next → C.ctl i op (w.shared, g) := by
  obtain ⟨g, hinv, hout⟩ := h
  refine ⟨g, hinv, fun i a ha => ?_, fun i e he => ?_, fun i op next hc => ?_⟩
  · have ho := hout i
    rw [ha] at ho
    exact ho _ (hC.rely_refl i _) hinv
  · have ho := hout i
    rw [he] at ho
    exact ho _ (hC.rely_refl i _) hinv
  · have ho := hout i
    rw [hc] at ho
    exact (ho _ (hC.rely_refl i _) hinv).1

variable [DecidableEq ι]

/-- One program moved by its guarantee: the others keep their outlines. -/
theorem Holds.advance (hC : C.Sound M) {w : Pool ι σ Op Reply ε α} {i : ι} {g g' : γ} {s : σ}
    {p : Program Op Reply ε α}
    (hw : ∀ j, C.Outline M j (post j) (fail j) (w.prog j) (w.shared, g))
    (hi : C.inv (w.shared, g)) (hs : C.inv (s, g')) (hg : C.guar i (w.shared, g) (s, g'))
    (hp : C.Outline M i (post i) (fail i) p (s, g')) :
    C.Holds M post fail ⟨s, Function.update w.prog i p⟩ := by
  refine ⟨g', hs, fun j => ?_⟩
  by_cases hj : j = i
  · subst hj
    simpa using hp
  · change C.Outline M j (post j) (fail j) (Function.update w.prog i p j) (s, g')
    rw [Function.update_of_ne hj]
    exact (hw j).mono hC (hC.rely_of_guar i j _ _ (Ne.symm hj) hi hs hg)

theorem Holds.step (hC : C.Sound M) {w v : Pool ι σ Op Reply ε α} {l : Label ι}
    (h : C.Holds M post fail w) (hs : Pool.Step M w l v) : C.Holds M post fail v := by
  obtain ⟨g, hinv, hout⟩ := h
  cases hs with
  | run hprog hperf =>
      rename_i i op next r s
      have ho := hout i
      rw [hprog] at ho
      obtain ⟨g', hinv', hg, ho'⟩ := (ho _ (hC.rely_refl i _) hinv).2.1 r s hperf
      exact Holds.advance hC hout hinv hinv' hg ho'
  | halt hprog hhalt =>
      rename_i i op next e s
      have ho := hout i
      rw [hprog] at ho
      obtain ⟨g', hinv', hg, ho'⟩ := (ho _ (hC.rely_refl i _) hinv).2.2 e s hhalt
      exact Holds.advance hC hout hinv hinv' hg ho'
  | drift hd =>
      rename_i s
      obtain ⟨g', hinv', hr⟩ := hC.drift _ s hinv hd
      exact ⟨g', hinv', fun i => (hout i).mono hC (hr i)⟩

/-- The rely/guarantee rule: outlines at the start hold in every reachable world. -/
theorem reaches (hC : C.Sound M) {u w : Pool ι σ Op Reply ε α} (hu : C.Holds M post fail u)
    (h : Pool.Reaches M u w) : C.Holds M post fail w :=
  h.invariant hu (fun _ _ _ hv hs => hv.step hC hs)

/-- A step of a program keeps its guarantee; the outlines go on from there. -/
theorem outlines_run {w v : Pool ι σ Op Reply ε α} (hC : C.Sound M) {g : γ}
    (hinv : C.inv (w.shared, g))
    (hout : ∀ j, C.Outline M j (post j) (fail j) (w.prog j) (w.shared, g))
    {i : ι} (hs : Pool.Step M w (.run i) v) :
    ∃ g', C.guar i (w.shared, g) (v.shared, g') ∧ C.inv (v.shared, g') ∧
      ∀ j, C.Outline M j (post j) (fail j) (v.prog j) (v.shared, g') := by
  cases hs with
  | run hprog hperf =>
      rename_i op next r s
      have ho := hout i
      rw [hprog] at ho
      obtain ⟨g', hinv', hg, hnext⟩ := (ho _ (hC.rely_refl i _) hinv).2.1 r s hperf
      refine ⟨g', hg, hinv', fun j => ?_⟩
      by_cases hj : j = i
      · subst hj
        simpa using hnext
      · change C.Outline M j (post j) (fail j) (Function.update w.prog i (next r) j) (s, g')
        rw [Function.update_of_ne hj]
        exact (hout j).mono hC (hC.rely_of_guar i j _ _ (Ne.symm hj) hinv hinv' hg)

theorem Holds.guar {w v : Pool ι σ Op Reply ε α} (hC : C.Sound M) (h : C.Holds M post fail w)
    {i : ι} (hs : Pool.Step M w (.run i) v) :
    ∃ g g', C.inv (w.shared, g) ∧ C.guar i (w.shared, g) (v.shared, g') ∧ C.inv (v.shared, g') ∧
      ∀ j, C.Outline M j (post j) (fail j) (v.prog j) (v.shared, g') := by
  obtain ⟨g, hinv, hout⟩ := h
  obtain ⟨g', hguar⟩ := outlines_run hC hinv hout hs
  exact ⟨g, g', hinv, hguar⟩

end Contract

end Reasoning
