import Mathlib.Data.Fintype.Defs
import InboxSaas.Reasoning.Pool
import InboxSaas.Reasoning.Transaction

/-!
# Interleaved transactions under READ COMMITTED

A `Server` is a committed store with one connection for each client and the answers each client got.
The clients' programs are interleaved command by command.  A statement sees the committed store with
its own transaction's writes; it waits while another transaction holds a lock that it needs, and a
transaction keeps its locks until it ends.

`Locking` says what a lock protects.  Every command keeps the locks of the connections apart
(`Locked.advance`) and leaves what the others' locks protect as it is, so a client relies on its
locks (`readCommittedContract`).
-/

namespace Reasoning

variable {ι γ Op : Type} {Reply : Op → Type} {ε Store Write Key α : Type}

/-- A statement and the reply a client got to it. -/
structure Answer (Op : Type) (Reply : Op → Type) (ε : Type) where
  op : Op
  reply : Except ε (Reply op)

def Command.answer : (c : Command Op) → Except ε (c.Reply Reply) → List (Answer Op Reply ε)
  | .statement op, r => [⟨op, r⟩]
  | .begin, _ => []
  | .commit, _ => []
  | .rollback, _ => []

structure Server (ι Op : Type) (Reply : Op → Type) (ε Store Write Key : Type) where
  db : Store
  session : ι → Session Write Key
  log : ι → List (Answer Op Reply ε)

/-- No client is connected yet. -/
def Server.initial (db : Store) : Server ι Op Reply ε Store Write Key :=
  ⟨db, fun _ => .idle, fun _ => []⟩

namespace Engine

variable (E : Engine Op Reply ε Store Write Key)

/-- No other connection holds a lock that the command needs. -/
def Free (σ : Server ι Op Reply ε Store Write Key) (i : ι) (c : Command Op) : Prop :=
  ∀ j, j ≠ i → ∀ k ∈ E.needs c σ.db (σ.session i), k ∉ (σ.session j).held

variable [DecidableEq ι]

/-- The server after a command of client `i`. -/
def advance (σ : Server ι Op Reply ε Store Write Key) (i : ι) (c : Command Op) :
    Server ι Op Reply ε Store Write Key where
  db := (E.perform c σ.db (σ.session i)).2.1
  session := Function.update σ.session i (E.perform c σ.db (σ.session i)).2.2
  log := Function.update σ.log i (σ.log i ++ c.answer (E.perform c σ.db (σ.session i)).1)

/-- Clients interleave command by command; none is stopped. -/
def readCommitted : Machine ι (Server ι Op Reply ε Store Write Key) (Command Op)
    (Command.Reply Reply) ε where
  performs i c σ r σ' :=
    E.Free σ i c ∧ r = (E.perform c σ.db (σ.session i)).1 ∧ σ' = E.advance σ i c
  halts _ _ _ _ := False
  drifts _ _ := False

section

variable (σ : Server ι Op Reply ε Store Write Key) (i : ι) (c : Command Op)

@[simp] theorem advance_db : (E.advance σ i c).db = (E.perform c σ.db (σ.session i)).2.1 := rfl

@[simp] theorem advance_session :
    (E.advance σ i c).session i = (E.perform c σ.db (σ.session i)).2.2 :=
  Function.update_self ..

@[simp] theorem advance_log : (E.advance σ i c).log i =
    σ.log i ++ c.answer (E.perform c σ.db (σ.session i)).1 :=
  Function.update_self ..

theorem advance_session_ne {j : ι} (h : j ≠ i) : (E.advance σ i c).session j = σ.session j :=
  Function.update_of_ne h ..

theorem advance_log_ne {j : ι} (h : j ≠ i) : (E.advance σ i c).log j = σ.log j :=
  Function.update_of_ne h ..

end

end Engine

/-- Every step is a command of a client. -/
theorem readCommitted_run [DecidableEq ι] {E : Engine Op Reply ε Store Write Key}
    {w v : Pool ι (Server ι Op Reply ε Store Write Key) (Command Op) (Command.Reply Reply) ε α}
    {l : Label ι} (hs : Pool.Step E.readCommitted w l v) : ∃ i, l = .run i := by
  cases hs with
  | run => exact ⟨_, rfl⟩
  | halt _ hhalts => exact absurd hhalts not_false
  | drift hdrifts => exact absurd hdrifts not_false

namespace Engine

variable (E : Engine Op Reply ε Store Write Key) [DecidableEq ι]

/-! ### Playing a schedule -/

instance [Fintype ι] [DecidableEq Key] (σ : Server ι Op Reply ε Store Write Key) (i : ι)
    (c : Command Op) : Decidable (E.Free σ i c) :=
  inferInstanceAs (Decidable (∀ j, j ≠ i → ∀ k ∈ E.needs c σ.db (σ.session i),
    k ∉ (σ.session j).held))

/-- A client whose turn it is sends its next command, unless it has to wait for a lock. -/
def schedule [Fintype ι] [DecidableEq Key] :
    Pool.Player (E.readCommitted : Machine ι (Server ι Op Reply ε Store Write Key) (Command Op)
      (Command.Reply Reply) ε) Unit Empty where
  perform i c _ σ :=
    if E.Free σ i c then some ((E.perform c σ.db (σ.session i)).1, E.advance σ i c) else none
  drift d _ := d.elim
  performs {i c how σ σ' r} h := by
    by_cases hfree : E.Free σ i c
    · rw [if_pos hfree] at h
      cases h
      exact ⟨hfree, rfl, rfl⟩
    · rw [if_neg hfree] at h
      cases h
  drifts {d} _ := d.elim

end Engine

/-! ## Locks -/

/-- What locks are for: a write that does not carry a lock leaves alone what the lock protects, and
a statement takes every lock that its writes carry. -/
structure Locking (E : Engine Op Reply ε Store Write Key) where
  protects : Key → Store → Store → Prop
  locks : Write → List Key
  refl : ∀ k db, protects k db db
  trans : ∀ k db db₁ db', protects k db db₁ → protects k db₁ db' → protects k db db'
  covers : ∀ op db, ∀ w ∈ (E.exec op db).2.1, ∀ k ∈ locks w, k ∈ (E.exec op db).2.2
  frame : ∀ k w db, k ∉ locks w → protects k db (E.write w db)

/-- The connections' locks are apart and cover their uncommitted writes. -/
structure Locked {E : Engine Op Reply ε Store Write Key} (L : Locking E)
    (session : ι → Session Write Key) : Prop where
  covered : ∀ i, ∀ w ∈ (session i).pending, ∀ k ∈ L.locks w, k ∈ (session i).held
  disjoint : ∀ i j, i ≠ j → ∀ k ∈ (session i).held, k ∉ (session j).held
  idle : ∀ i, (session i).inTransaction = false → session i = .idle

variable {E : Engine Op Reply ε Store Write Key} {L : Locking E}

theorem Locking.writes {k : Key} {ws : List Write} (h : ∀ w ∈ ws, k ∉ L.locks w) (db : Store) :
    L.protects k db (E.writes ws db) := by
  induction ws generalizing db with
  | nil => exact L.refl k db
  | cons w ws ih =>
      exact L.trans _ _ _ _ (L.frame k w db (h w List.mem_cons_self))
        (ih (fun v hv => h v (List.mem_cons_of_mem w hv)) _)

namespace Locked

theorem initial : Locked L (fun _ : ι => Session.idle) where
  covered _ _ hw := absurd hw List.not_mem_nil
  disjoint _ _ _ _ hk := absurd hk List.not_mem_nil
  idle _ _ := rfl

variable {σ : Server ι Op Reply ε Store Write Key} {i : ι} {c : Command Op}

/-- What the connection holds after a command was held before or was free. -/
theorem held_perform {k : Key}
    (hk : k ∈ (E.perform c σ.db (σ.session i)).2.2.held) :
    k ∈ (σ.session i).held ∨ k ∈ E.needs c σ.db (σ.session i) := by
  cases c with
  | statement op =>
      unfold Engine.perform at hk
      dsimp only at hk
      split at hk
      · exact List.mem_append.mp hk
      · exact .inl hk
  | begin => exact absurd hk List.not_mem_nil
  | commit => exact absurd hk List.not_mem_nil
  | rollback => exact absurd hk List.not_mem_nil

theorem covered_perform (h : Locked L σ.session) :
    ∀ w ∈ (E.perform c σ.db (σ.session i)).2.2.pending, ∀ k ∈ L.locks w,
      k ∈ (E.perform c σ.db (σ.session i)).2.2.held := by
  intro w hw k hk
  cases c with
  | statement op =>
      unfold Engine.perform at hw ⊢
      dsimp only at hw ⊢
      split
      · rename_i ht
        rw [if_pos ht] at hw
        rcases List.mem_append.mp hw with hw | hw
        · exact List.mem_append_left _ (h.covered i w hw k hk)
        · exact List.mem_append_right _ (L.covers op _ w hw k hk)
      · rename_i ht
        rw [if_neg ht] at hw
        exact h.covered i w hw k hk
  | begin => exact absurd hw List.not_mem_nil
  | commit => exact absurd hw List.not_mem_nil
  | rollback => exact absurd hw List.not_mem_nil

theorem idle_perform (h : Locked L σ.session)
    (ht : (E.perform c σ.db (σ.session i)).2.2.inTransaction = false) :
    (E.perform c σ.db (σ.session i)).2.2 = .idle := by
  cases c with
  | statement op =>
      unfold Engine.perform at ht ⊢
      dsimp only at ht ⊢
      split
      · rename_i hin
        rw [if_pos hin] at ht
        cases ht
      · rename_i hin
        exact h.idle i (Bool.eq_false_iff.mpr hin)
  | begin => cases ht
  | commit => rfl
  | rollback => rfl

/-- A command leaves alone what another connection's lock protects. -/
theorem protects_perform (h : Locked L σ.session) (hfree : E.Free σ i c) {j : ι} (hj : j ≠ i)
    {k : Key} (hk : k ∈ (σ.session j).held) :
    L.protects k σ.db (E.perform c σ.db (σ.session i)).2.1 := by
  cases c with
  | statement op =>
      unfold Engine.perform
      dsimp only
      split
      · exact L.refl k σ.db
      · exact Locking.writes (fun w hw hl => hfree j hj k (L.covers op _ w hw k hl) hk) _
  | commit =>
      exact Locking.writes
        (fun w hw hl => h.disjoint j i hj k hk (h.covered i w hw k hl)) _
  | begin => exact L.refl k σ.db
  | rollback => exact L.refl k σ.db

variable [DecidableEq ι]

/-- Every command keeps the locks apart. -/
theorem advance (h : Locked L σ.session) (hfree : E.Free σ i c) :
    Locked L (E.advance σ i c).session where
  covered j := by
    by_cases hj : j = i
    · subst hj
      rw [E.advance_session]
      exact h.covered_perform
    · rw [E.advance_session_ne σ i c hj]
      exact h.covered j
  disjoint j j' hne k hk hk' := by
    have hmine : ∀ {j}, j ≠ i → k ∈ (E.perform c σ.db (σ.session i)).2.2.held →
        k ∉ (σ.session j).held := by
      intro j hj hk
      rcases held_perform hk with hk | hk
      · exact h.disjoint i j (Ne.symm hj) k hk
      · exact hfree j hj k hk
    by_cases hj : j = i
    · subst hj
      rw [E.advance_session] at hk
      rw [E.advance_session_ne σ j c (Ne.symm hne)] at hk'
      exact hmine (Ne.symm hne) hk hk'
    · rw [E.advance_session_ne σ i c hj] at hk
      by_cases hj' : j' = i
      · subst hj'
        rw [E.advance_session] at hk'
        exact hmine hj hk' hk
      · rw [E.advance_session_ne σ i c hj'] at hk'
        exact h.disjoint j j' hne k hk hk'
  idle j ht := by
    by_cases hj : j = i
    · subst hj
      rw [E.advance_session] at ht ⊢
      exact h.idle_perform ht
    · rw [E.advance_session_ne σ i c hj] at ht ⊢
      exact h.idle j ht

end Locked

/-! ## The contract of a client -/

section

variable (L) (inv : Server ι Op Reply ε Store Write Key × γ → Prop)
  (rely guar : ι → Store × γ → Store × γ → Prop)
  (ctl : ι → Command Op → Server ι Op Reply ε Store Write Key × γ → Prop)

/-- What is said of the store and the ghost state, with what the connections and locks add: a client
alone uses its connection, and the others leave what its locks protect as it is. -/
def readCommittedContract :
    Contract ι (Server ι Op Reply ε Store Write Key) γ (Command Op) where
  inv t := Locked L t.1.session ∧ inv t
  rely i t u := u.1.session i = t.1.session i ∧ u.1.log i = t.1.log i ∧
    (∀ k ∈ (t.1.session i).held, L.protects k t.1.db u.1.db) ∧ rely i (t.1.db, t.2) (u.1.db, u.2)
  guar i t u := (∀ j, j ≠ i → u.1.session j = t.1.session j ∧ u.1.log j = t.1.log j ∧
    ∀ k ∈ (t.1.session j).held, L.protects k t.1.db u.1.db) ∧ guar i (t.1.db, t.2) (u.1.db, u.2)
  ctl := ctl

variable {L} {inv} {rely} {guar} {ctl} [DecidableEq ι]

theorem readCommitted_sound (hrefl : ∀ i t, rely i t t)
    (htrans : ∀ i t u v, rely i t u → rely i u v → rely i t v)
    (hguar : ∀ i j t u, i ≠ j → guar i t u → rely j t u) :
    (readCommittedContract L inv rely guar ctl).Sound E.readCommitted where
  rely_refl i t := ⟨rfl, rfl, fun k _ => L.refl k _, hrefl i _⟩
  rely_trans i t u v h h' := by
    refine ⟨h'.1.trans h.1, h'.2.1.trans h.2.1, fun k hk => ?_, htrans i _ _ _ h.2.2.2 h'.2.2.2⟩
    exact L.trans _ _ _ _ (h.2.2.1 k hk) (h'.2.2.1 k (h.1 ▸ hk))
  rely_of_guar i j t u hij _ _ h :=
    ⟨(h.1 j (Ne.symm hij)).1, (h.1 j (Ne.symm hij)).2.1, (h.1 j (Ne.symm hij)).2.2,
      hguar i j _ _ hij h.2⟩
  drift t s _ h := absurd h not_false

/-- A command of one client leaves the locks and the other clients' connections in order. -/
theorem readCommittedContract_advance {i : ι} {c : Command Op}
    {u : Server ι Op Reply ε Store Write Key × γ} {g : γ}
    (hu : (readCommittedContract L inv rely guar ctl).inv u) (hfree : E.Free u.1 i c)
    (hinv : inv (E.advance u.1 i c, g))
    (hg : guar i (u.1.db, u.2) ((E.perform c u.1.db (u.1.session i)).2.1, g)) :
    (readCommittedContract L inv rely guar ctl).inv (E.advance u.1 i c, g) ∧
      (readCommittedContract L inv rely guar ctl).guar i u (E.advance u.1 i c, g) := by
  refine ⟨⟨hu.1.advance hfree, hinv⟩, ⟨fun j hj => ?_, hg⟩⟩
  exact ⟨E.advance_session_ne _ _ _ hj, E.advance_log_ne _ _ _ hj,
    fun k hk => hu.1.protects_perform hfree hj hk⟩

/-- The next command of a client: it keeps the invariant and the guarantee, and so does what
follows its reply. -/
theorem Contract.Outline.command {i : ι} {post : α → Server ι Op Reply ε Store Write Key × γ → Prop}
    {fail : ε → Server ι Op Reply ε Store Write Key × γ → Prop} {c : Command Op}
    {next : Except ε (c.Reply Reply) → Sql Op Reply ε α}
    {t : Server ι Op Reply ε Store Write Key × γ}
    (h : ∀ u, (readCommittedContract L inv rely guar ctl).rely i t u →
      (readCommittedContract L inv rely guar ctl).inv u → ctl i c u ∧
        (E.Free u.1 i c → ∃ g, inv (E.advance u.1 i c, g) ∧
          guar i (u.1.db, u.2) ((E.perform c u.1.db (u.1.session i)).2.1, g) ∧
          (readCommittedContract L inv rely guar ctl).Outline E.readCommitted i post fail
            (next (E.perform c u.1.db (u.1.session i)).1) (E.advance u.1 i c, g))) :
    (readCommittedContract L inv rely guar ctl).Outline E.readCommitted i post fail
      (.call c next) t := by
  intro u hr hu
  obtain ⟨hctl, hstep⟩ := h u hr hu
  refine ⟨hctl, ?_, fun e s hh => absurd hh not_false⟩
  rintro r s ⟨hfree, rfl, rfl⟩
  obtain ⟨g, hinv, hg, ho⟩ := hstep hfree
  obtain ⟨hinv', hg'⟩ := readCommittedContract_advance hu hfree hinv hg
  exact ⟨g, hinv', hg', ho⟩

end

end Reasoning
