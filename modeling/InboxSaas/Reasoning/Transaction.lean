import InboxSaas.Reasoning.Program

/-!
# Statements, transactions and sessions

A database client sends commands: it opens a transaction, commits or rolls it back, and executes
statements.  An `Engine` says what one statement does to the store it sees: its reply or error, the
rows it writes and the locks it needs.  A statement outside a transaction commits by itself.

`Runs` is the execution of one program on a session nobody interferes with, where every command may
also fail; `run` is its deterministic part, without failures.  `runs_transaction` is the rule for a
transaction: it commits what its body computes, or it leaves the store as it was.
-/

namespace Reasoning

/-- What a client sends over a connection. -/
inductive Command (Op : Type) where
  | begin
  | commit
  | rollback
  | statement (op : Op)

@[reducible] def Command.Reply {Op : Type} (Reply : Op → Type) : Command Op → Type
  | .statement op => Reply op
  | _ => Unit

/-- A client program: commands and local computation. -/
abbrev Sql (Op : Type) (Reply : Op → Type) (ε α : Type) : Type :=
  Program (Command Op) (Command.Reply Reply) ε α

/-- A statement outside a transaction: it commits by itself. -/
def autocommit {Op : Type} {Reply : Op → Type} {ε : Type} (op : Op) : Sql Op Reply ε (Reply op) :=
  Program.perform (Command.statement op)

/-- What statements do.  `exec` is evaluated on the store the statement sees. -/
structure Engine (Op : Type) (Reply : Op → Type) (ε Store Write Key : Type) where
  exec : (op : Op) → Store → Except ε (Reply op) × List Write × List Key
  write : Write → Store → Store

/-- A connection: the open transaction with its uncommitted writes and the locks it holds. -/
structure Session (Write Key : Type) where
  inTransaction : Bool
  pending : List Write
  held : List Key

/-- A connection without an open transaction. -/
def Session.idle {Write Key : Type} : Session Write Key := ⟨false, [], []⟩

variable {Op : Type} {Reply : Op → Type} {ε Store Write Key α β : Type}

namespace Engine

variable (E : Engine Op Reply ε Store Write Key)

def writes (ws : List Write) (db : Store) : Store :=
  ws.foldl (fun s w => E.write w s) db

@[simp] theorem writes_nil (db : Store) : E.writes [] db = db := rfl

@[simp] theorem writes_cons (w : Write) (ws : List Write) (db : Store) :
    E.writes (w :: ws) db = E.writes ws (E.write w db) := rfl

theorem writes_append (ws vs : List Write) (db : Store) :
    E.writes (ws ++ vs) db = E.writes vs (E.writes ws db) :=
  List.foldl_append

/-- The locks a command needs before it can be executed. -/
def needs : Command Op → Store → Session Write Key → List Key
  | .statement op, db, s => (E.exec op (E.writes s.pending db)).2.2
  | _, _, _ => []

/-- One command on committed store `db`: its reply, the committed store and the connection after. -/
def perform : (c : Command Op) → Store → Session Write Key →
    Except ε (c.Reply Reply) × Store × Session Write Key
  | .begin, db, _ => (.ok (), db, ⟨true, [], []⟩)
  | .commit, db, s => (.ok (), E.writes s.pending db, .idle)
  | .rollback, db, _ => (.ok (), db, .idle)
  | .statement op, db, s =>
      let (r, ws, ks) := E.exec op (E.writes s.pending db)
      if s.inTransaction then
        (r, db, ⟨true, s.pending ++ ws, s.held ++ ks⟩)
      else
        (r, E.writes ws db, s)

/-- How a command can fail: nothing happened, or it took effect and only the answer was lost. -/
inductive Fails : Command Op → Store → Session Write Key → Store → Session Write Key → Prop where
  | begin (db : Store) (s : Session Write Key) : Fails .begin db s db .idle
  | commit (db : Store) (s : Session Write Key) : Fails .commit db s db .idle
  | committed (db : Store) (s : Session Write Key) : Fails .commit db s (E.writes s.pending db) .idle
  | rollback (db : Store) (s : Session Write Key) : Fails .rollback db s db .idle
  | statement (op : Op) (db : Store) (s : Session Write Key) : Fails (.statement op) db s db s
  | answer (op : Op) (db : Store) (s : Session Write Key) (h : s.inTransaction = false) :
      Fails (.statement op) db s (E.writes (E.exec op (E.writes s.pending db)).2.1 db) s

/-- One command, executed or failing with one of the errors `fault`. -/
def Performs (fault : ε → Prop) (c : Command Op) (db : Store) (s : Session Write Key)
    (r : Except ε (c.Reply Reply)) (db' : Store) (s' : Session Write Key) : Prop :=
  (r, db', s') = E.perform c db s ∨ ∃ e, fault e ∧ r = .error e ∧ E.Fails c db s db' s'

/-- `p` alone on a connection, with failures: its outcome, and the store and connection after. -/
def Runs (fault : ε → Prop) : Sql Op Reply ε α → Store → Session Write Key →
    Except ε α → Store → Session Write Key → Prop
  | .ret a, db, s, o, db', s' => o = .ok a ∧ db' = db ∧ s' = s
  | .raise e, db, s, o, db', s' => o = .error e ∧ db' = db ∧ s' = s
  | .call c next, db, s, o, db', s' =>
      ∃ r db₁ s₁, E.Performs fault c db s r db₁ s₁ ∧ Runs fault (next r) db₁ s₁ o db' s'

/-- `p` alone on a connection, without failures. -/
def run : Sql Op Reply ε α → Store → Session Write Key → Except ε α × Store × Session Write Key
  | .ret a, db, s => (.ok a, db, s)
  | .raise e, db, s => (.error e, db, s)
  | .call c next, db, s =>
      run (next (E.perform c db s).1) (E.perform c db s).2.1 (E.perform c db s).2.2

theorem runs_run (fault : ε → Prop) (p : Sql Op Reply ε α) (db : Store) (s : Session Write Key) :
    E.Runs fault p db s (E.run p db s).1 (E.run p db s).2.1 (E.run p db s).2.2 := by
  induction p generalizing db s with
  | ret a => exact ⟨rfl, rfl, rfl⟩
  | raise e => exact ⟨rfl, rfl, rfl⟩
  | call c next ih => exact ⟨_, _, _, .inl rfl, ih _ _ _⟩

/-- Local computation on what a program returns. -/
theorem run_map (p : Sql Op Reply ε α) (g : α → β) (db : Store) (s : Session Write Key) :
    (E.run (p >>= fun a => .ret (g a)) db s).1 = (E.run p db s).1.map g := by
  induction p generalizing db s with
  | ret a => rfl
  | raise e => rfl
  | call c next ih => exact ih _ _ _

/-- A statement that only reads, and what follows its reply. -/
theorem run_read {op : Op} {f : Reply op → Sql Op Reply ε α} {db : Store} {r : Reply op}
    {ks : List Key} (h : E.exec op db = (.ok r, [], ks)) :
    E.run (autocommit op >>= f) db .idle = E.run (f r) db .idle := by
  have hperform : E.perform (.statement op) db .idle = (.ok r, db, .idle) := by
    change ((E.exec op db).1, E.writes (E.exec op db).2.1 db, Session.idle) = _
    rw [h]
    rfl
  unfold autocommit
  rw [Program.perform_bind, run, hperform]
  rfl

section

variable {E} {fault : ε → Prop} {db db' : Store} {s s' : Session Write Key}

@[simp] theorem runs_ret {a : α} {o : Except ε α} :
    E.Runs fault (.ret a) db s o db' s' ↔ o = .ok a ∧ db' = db ∧ s' = s := Iff.rfl

@[simp] theorem runs_raise {e : ε} {o : Except ε α} :
    E.Runs fault (.raise e) db s o db' s' ↔ o = .error e ∧ db' = db ∧ s' = s := Iff.rfl

/-- Where errors are caught, the handler goes on from wherever the error left the connection. -/
theorem runs_handle {p : Sql Op Reply ε α} {h : ε → Sql Op Reply ε α} {o : Except ε α}
    (hr : E.Runs fault (p.handle h) db s o db' s') :
    (∃ a, o = .ok a ∧ E.Runs fault p db s (.ok a) db' s') ∨
      ∃ e db₁ s₁, E.Runs fault p db s (.error e) db₁ s₁ ∧ E.Runs fault (h e) db₁ s₁ o db' s' := by
  induction p generalizing db s with
  | ret a =>
      obtain ⟨rfl, hs⟩ := hr
      exact .inl ⟨a, rfl, rfl, hs⟩
  | raise e => exact .inr ⟨e, db, s, ⟨rfl, rfl, rfl⟩, hr⟩
  | call c next ih =>
      obtain ⟨r, db₁, s₁, hp, hn⟩ := hr
      rcases ih r hn with ⟨a, ha, hrun⟩ | ⟨e, db₂, s₂, hrun, hh⟩
      · exact .inl ⟨a, ha, r, db₁, s₁, hp, hrun⟩
      · exact .inr ⟨e, db₂, s₂, ⟨r, db₁, s₁, hp, hrun⟩, hh⟩

theorem runs_bind {p : Sql Op Reply ε α} {f : α → Sql Op Reply ε β} {o : Except ε β}
    (hr : E.Runs fault (p >>= f) db s o db' s') :
    (∃ a db₁ s₁, E.Runs fault p db s (.ok a) db₁ s₁ ∧ E.Runs fault (f a) db₁ s₁ o db' s') ∨
      ∃ e, o = .error e ∧ E.Runs fault p db s (.error e) db' s' := by
  induction p generalizing db s with
  | ret a => exact .inl ⟨a, db, s, ⟨rfl, rfl, rfl⟩, hr⟩
  | raise e =>
      obtain ⟨rfl, hs⟩ := hr
      exact .inr ⟨e, rfl, rfl, hs⟩
  | call c next ih =>
      obtain ⟨r, db₁, s₁, hp, hn⟩ := hr
      rcases ih r hn with ⟨a, db₂, s₂, hrun, hf⟩ | ⟨e, he, hrun⟩
      · exact .inl ⟨a, db₂, s₂, ⟨r, db₁, s₁, hp, hrun⟩, hf⟩
      · exact .inr ⟨e, he, r, db₁, s₁, hp, hrun⟩

/-- A statement outside a transaction: its reply, the error it reports, or a failure that may have
hidden its effect. -/
theorem runs_statement {op : Op} {o : Except ε (Reply op)}
    (h : E.Runs fault (autocommit op) db .idle o db' s') :
    s' = .idle ∧ (o = (E.exec op db).1 ∧ db' = E.writes (E.exec op db).2.1 db ∨
      ∃ e, fault e ∧ o = .error e ∧ (db' = db ∨ db' = E.writes (E.exec op db).2.1 db)) := by
  obtain ⟨r, db₁, s₁, hp, hr⟩ := h
  rcases hp with hp | ⟨e, he, rfl, hf⟩
  · change (r, db₁, s₁) = ((E.exec op db).1, E.writes (E.exec op db).2.1 db, Session.idle) at hp
    cases hp
    cases hx : (E.exec op db).1 with
    | ok a =>
        rw [hx] at hr
        exact ⟨hr.2.2, .inl ⟨hr.1, hr.2.1⟩⟩
    | error e =>
        rw [hx] at hr
        exact ⟨hr.2.2, .inl ⟨hr.1, hr.2.1⟩⟩
  · cases hf with
    | statement => exact ⟨hr.2.2, .inr ⟨e, he, hr.1, .inl hr.2.1⟩⟩
    | answer _ _ _ _ => exact ⟨hr.2.2, .inr ⟨e, he, hr.1, .inr hr.2.1⟩⟩

end

end Engine

/-! ## Transactions -/

/-- A transaction body issues statements only; as a client program it sends them one by one. -/
def Program.statements : Program Op Reply ε α → Sql Op Reply ε α
  | .ret a => .ret a
  | .raise e => .raise e
  | .call op next => .call (.statement op) (fun r => (next r).statements)

/-- What follows the body: commit its value, or roll back and raise its error again. -/
def Program.finish : Sql Op Reply ε α → Sql Op Reply ε α
  | .ret a => .call .commit (fun r => match r with
      | .ok _ => .ret a
      | .error e => .call .rollback (fun r => match r with
          | .ok _ => .raise e
          | .error e' => .raise e'))
  | .raise e => .call .rollback (fun r => match r with
      | .ok _ => .raise e
      | .error e' => .raise e')
  | .call c next => .call c (fun r => (next r).finish)

/-- `transaction body`: open, run the body, then commit; on an error roll back and raise it. -/
def transaction (body : Program Op Reply ε α) : Sql Op Reply ε α :=
  .call .begin (Program.resume (fun _ => body.statements.finish))

/-- The command sends no statement but these. -/
def Command.Sends (P : Op → Prop) : Command Op → Prop
  | .statement op => P op
  | _ => True

section

variable {P : Op → Prop}

theorem Program.Issues.statements {body : Program Op Reply ε α} (h : body.Issues P) :
    body.statements.Issues (Command.Sends P) := by
  induction body with
  | ret a => exact trivial
  | raise e => exact trivial
  | call op next ih => exact ⟨h.1, fun r => ih r (h.2 r)⟩

theorem Program.Issues.finish {p : Sql Op Reply ε α} (h : p.Issues (Command.Sends P)) :
    p.finish.Issues (Command.Sends P) := by
  induction p with
  | ret a =>
      refine ⟨trivial, fun r => ?_⟩
      cases r with
      | ok _ => exact trivial
      | error e => exact ⟨trivial, fun r => by cases r <;> exact trivial⟩
  | raise e => exact ⟨trivial, fun r => by cases r <;> exact trivial⟩
  | call c next ih => exact ⟨h.1, fun r => ih r (h.2 r)⟩

/-- A transaction sends the statements of its body. -/
theorem Program.Issues.transaction {body : Program Op Reply ε α} (h : body.Issues P) :
    (Reasoning.transaction body).Issues (Command.Sends P) := by
  refine ⟨trivial, fun r => ?_⟩
  cases r with
  | ok _ => exact h.statements.finish
  | error e => exact trivial

end

section

variable {n : Nat}

theorem Program.Within.statements {body : Program Op Reply ε α} (h : body.Within n) :
    body.statements.Within n := by
  induction body generalizing n with
  | ret a => exact trivial
  | raise e => exact trivial
  | call op next ih =>
      obtain ⟨m, rfl, hnext⟩ := h
      exact ⟨m, rfl, fun r => ih r (hnext r)⟩

theorem Program.Within.finish {p : Sql Op Reply ε α} (h : p.Within n) :
    p.finish.Within (n + 2) := by
  induction p generalizing n with
  | ret a =>
      refine ⟨n + 1, rfl, fun r => ?_⟩
      cases r with
      | ok _ => exact trivial
      | error e => exact ⟨n, rfl, fun r => by cases r <;> exact trivial⟩
  | raise e => exact ⟨n + 1, rfl, fun r => by cases r <;> exact trivial⟩
  | call c next ih =>
      obtain ⟨m, rfl, hnext⟩ := h
      exact ⟨m + 2, by omega, fun r => ih r (hnext r)⟩

/-- A transaction sends three commands more than its body has statements: it opens, and where the
commit fails it rolls back. -/
theorem Program.Within.transaction {body : Program Op Reply ε α} (h : body.Within n) :
    (Reasoning.transaction body).Within (n + 3) := by
  refine ⟨n + 2, rfl, fun r => ?_⟩
  cases r with
  | ok _ => exact h.statements.finish
  | error e => exact trivial

end

namespace Engine

variable (E : Engine Op Reply ε Store Write Key)

/-- A transaction body on the store it sees, without failures: its outcome and its writes. -/
def eval : Program Op Reply ε α → Store → Except ε α × List Write
  | .ret a, _ => (.ok a, [])
  | .raise e, _ => (.error e, [])
  | .call op next, view =>
      let (r, ws, _) := E.exec op view
      let (o, vs) := eval (next r) (E.writes ws view)
      (o, ws ++ vs)

@[simp] theorem eval_ret (a : α) (view : Store) : E.eval (.ret a) view = (.ok a, []) := rfl

@[simp] theorem eval_raise (e : ε) (view : Store) :
    E.eval (.raise e : Program Op Reply ε α) view = (.error e, []) := rfl

theorem eval_call (op : Op) (next : Except ε (Reply op) → Program Op Reply ε α) (view : Store) :
    E.eval (.call op next) view =
      ((E.eval (next (E.exec op view).1) (E.writes (E.exec op view).2.1 view)).1,
        (E.exec op view).2.1 ++ (E.eval (next (E.exec op view).1)
          (E.writes (E.exec op view).2.1 view)).2) := rfl

/-- A statement that replies: the rest of the body sees its writes. -/
theorem eval_perform_ok {op : Op} {f : Reply op → Program Op Reply ε α} {view : Store}
    {r : Reply op} {ws : List Write} {ks : List Key} (h : E.exec op view = (.ok r, ws, ks)) :
    E.eval (Program.perform op >>= f) view =
      ((E.eval (f r) (E.writes ws view)).1, ws ++ (E.eval (f r) (E.writes ws view)).2) := by
  rw [Program.perform_bind, eval_call, h]
  rfl

/-- A statement that fails ends the body. -/
theorem eval_perform_error {op : Op} {f : Reply op → Program Op Reply ε α} {view : Store} {e : ε}
    {ws : List Write} {ks : List Key} (h : E.exec op view = (.error e, ws, ks)) :
    E.eval (Program.perform op >>= f) view = (.error e, ws) := by
  rw [Program.perform_bind, eval_call, h]
  simp

/-- Where a transaction can end: committed, rolled back on the body's error, or failed; a failed
commit may still have taken effect. -/
inductive Ends (fault : ε → Prop) (body : Program Op Reply ε α) (view : Store) (ws : List Write)
    (db : Store) : Except ε α → Store → Prop where
  | committed {a : α} {vs : List Write} (h : E.eval body view = (.ok a, vs)) :
      Ends fault body view ws db (.ok a) (E.writes (ws ++ vs) db)
  | unanswered {a : α} {vs : List Write} {e : ε} (h : E.eval body view = (.ok a, vs)) (he : fault e) :
      Ends fault body view ws db (.error e) (E.writes (ws ++ vs) db)
  | rolledBack {vs : List Write} {e : ε} (h : E.eval body view = (.error e, vs)) :
      Ends fault body view ws db (.error e) db
  | failed {e : ε} (he : fault e) : Ends fault body view ws db (.error e) db

private theorem runs_rollback {fault : ε → Prop} {e : ε} {db db' : Store} {s s' : Session Write Key}
    {o : Except ε α}
    (h : E.Runs fault (.call .rollback (fun r => match r with
      | .ok _ => .raise e
      | .error e' => .raise e')) db s o db' s') :
    s' = .idle ∧ db' = db ∧ (o = .error e ∨ ∃ e', fault e' ∧ o = .error e') := by
  obtain ⟨r, db₁, s₁, hp, hr⟩ := h
  rcases hp with hp | ⟨e', he', rfl, hf⟩
  · change (r, db₁, s₁) = (.ok (), db, Session.idle) at hp
    cases hp
    exact ⟨hr.2.2, hr.2.1, .inl hr.1⟩
  · cases hf
    exact ⟨hr.2.2, hr.2.1, .inr ⟨e', he', hr.1⟩⟩

/-- The body of an open transaction, from any point of it on. -/
theorem runs_finish {fault : ε → Prop} {body : Program Op Reply ε α} (hstrict : body.Strict)
    {db db' : Store} {ws : List Write} {ks : List Key} {o : Except ε α} {s' : Session Write Key}
    (h : E.Runs fault body.statements.finish db ⟨true, ws, ks⟩ o db' s') :
    s' = .idle ∧ E.Ends fault body (E.writes ws db) ws db o db' := by
  induction body generalizing ws ks with
  -- the commit is answered, or its answer is lost: then it took effect, or it did not
  | ret a =>
      obtain ⟨r, db₁, s₁, hp, hr⟩ := h
      rcases hp with hp | ⟨e, he, rfl, hf⟩
      · change (r, db₁, s₁) = (.ok (), E.writes ws db, Session.idle) at hp
        cases hp
        obtain ⟨rfl, rfl, rfl⟩ := hr
        have hc : E.Ends fault (.ret a) (E.writes ws db) ws db (.ok a) (E.writes (ws ++ []) db) :=
          .committed (E.eval_ret a _)
        exact ⟨rfl, by simpa using hc⟩
      · obtain ⟨hs, hdb, ho⟩ := E.runs_rollback hr
        have hfault : ∃ e', fault e' ∧ o = .error e' := by
          rcases ho with ho | ho
          · exact ⟨e, he, ho⟩
          · exact ho
        obtain ⟨e', he', rfl⟩ := hfault
        rw [hdb]
        cases hf with
        | commit => exact ⟨hs, .failed he'⟩
        | committed =>
            have hc : E.Ends fault (.ret a) (E.writes ws db) ws db (.error e')
                (E.writes (ws ++ []) db) := .unanswered (E.eval_ret a _) he'
            exact ⟨hs, by simpa using hc⟩
  | raise e =>
      obtain ⟨hs, rfl, ho⟩ := E.runs_rollback h
      rcases ho with rfl | ⟨e', he', rfl⟩
      · exact ⟨hs, .rolledBack (E.eval_raise e _)⟩
      · exact ⟨hs, .failed he'⟩
  | call op next ih =>
      obtain ⟨r, db₁, s₁, hp, hr⟩ := h
      rcases hp with hp | ⟨e, he, rfl, hf⟩
      · change (r, db₁, s₁) = ((E.exec op (E.writes ws db)).1, db,
          (⟨true, ws ++ (E.exec op (E.writes ws db)).2.1,
            ks ++ (E.exec op (E.writes ws db)).2.2⟩ : Session Write Key)) at hp
        cases hp
        have hnext : (next (E.exec op (E.writes ws db)).1).Strict := by
          cases hx : (E.exec op (E.writes ws db)).1 with
          | ok a => exact hstrict.2 a
          | error e =>
              rw [hstrict.1 e]
              exact trivial
        obtain ⟨hs, hi⟩ := ih _ hnext hr
        rw [E.writes_append] at hi
        have he := E.eval_call op next (E.writes ws db)
        refine ⟨hs, ?_⟩
        cases hi with
        | committed h =>
            rw [h] at he
            rw [List.append_assoc]
            exact .committed he
        | unanswered h hfault =>
            rw [h] at he
            rw [List.append_assoc]
            exact .unanswered he hfault
        | rolledBack h =>
            rw [h] at he
            exact .rolledBack he
        | failed hfault => exact .failed hfault
      -- a strict body raises what a statement raises, and the transaction is rolled back
      · have hn : (next (.error e)) = .raise e := hstrict.1 e
        change E.Runs fault (next (.error e)).statements.finish db₁ s₁ o db' s' at hr
        rw [hn] at hr
        obtain ⟨hs, hdb, ho⟩ := E.runs_rollback hr
        have hdb₁ : db₁ = db := by
          cases hf with
          | statement => rfl
          | answer _ _ _ h => cases h
        rw [hdb, hdb₁]
        rcases ho with rfl | ⟨e', he', rfl⟩
        · exact ⟨hs, .failed he⟩
        · exact ⟨hs, .failed he'⟩

/-- The rule for a transaction run alone: what the body computes is committed as a whole, or the
store is as before. -/
theorem runs_transaction {fault : ε → Prop} {body : Program Op Reply ε α} (hstrict : body.Strict)
    {db db' : Store} {o : Except ε α} {s' : Session Write Key}
    (h : E.Runs fault (transaction body) db .idle o db' s') :
    s' = .idle ∧ E.Ends fault body db [] db o db' := by
  obtain ⟨r, db₁, s₁, hp, hr⟩ := h
  rcases hp with hp | ⟨e, he, rfl, hf⟩
  · change (r, db₁, s₁) = (.ok (), db, (⟨true, [], []⟩ : Session Write Key)) at hp
    cases hp
    exact E.runs_finish hstrict hr
  · cases hf
    obtain ⟨rfl, rfl, rfl⟩ := hr
    exact ⟨rfl, .failed he⟩

end Engine

end Reasoning
