import InboxSaas.Reasoning.Transaction

/-!
# A client among others' commits

`Amid` is the execution of one program on its own connection while the committed store drifts: before
each command it may have changed, by what others did in between.  A program that only reads answers
from several moments of the drift, in the order of its statements.
-/

namespace Reasoning.Engine

variable {Op : Type} {Reply : Op → Type} {ε Store Write Key α β : Type}

/-- `p` on its own connection, where the store may change by `drift` before each command. -/
def Amid (E : Engine Op Reply ε Store Write Key) (drift : Store → Store → Prop) (fault : ε → Prop) :
    Sql Op Reply ε α → Store → Session Write Key → Except ε α → Store → Session Write Key → Prop
  | .ret a, db, s, o, db', s' => o = .ok a ∧ db' = db ∧ s' = s
  | .raise e, db, s, o, db', s' => o = .error e ∧ db' = db ∧ s' = s
  | .call c next, db, s, o, db', s' =>
      ∃ db₀ r db₁ s₁, drift db db₀ ∧ E.Performs fault c db₀ s r db₁ s₁ ∧
        Amid E drift fault (next r) db₁ s₁ o db' s'

variable {E : Engine Op Reply ε Store Write Key} {drift : Store → Store → Prop} {fault : ε → Prop}
  {db db' : Store} {s s' : Session Write Key}

@[simp] theorem amid_ret {a : α} {o : Except ε α} :
    E.Amid drift fault (.ret a) db s o db' s' ↔ o = .ok a ∧ db' = db ∧ s' = s := Iff.rfl

@[simp] theorem amid_raise {e : ε} {o : Except ε α} :
    E.Amid drift fault (.raise e) db s o db' s' ↔ o = .error e ∧ db' = db ∧ s' = s := Iff.rfl

/-- Nothing need happen in between. -/
theorem Runs.amid (hdrift : ∀ db, drift db db) {p : Sql Op Reply ε α} {o : Except ε α}
    (h : E.Runs fault p db s o db' s') : E.Amid drift fault p db s o db' s' := by
  induction p generalizing db s with
  | ret a => exact h
  | raise e => exact h
  | call c next ih =>
      obtain ⟨r, db₁, s₁, hp, hrest⟩ := h
      exact ⟨db, r, db₁, s₁, hdrift db, hp, ih r hrest⟩

theorem amid_bind {p : Sql Op Reply ε α} {f : α → Sql Op Reply ε β} {o : Except ε β}
    (h : E.Amid drift fault (p >>= f) db s o db' s') :
    (∃ a db₁ s₁, E.Amid drift fault p db s (.ok a) db₁ s₁ ∧
        E.Amid drift fault (f a) db₁ s₁ o db' s') ∨
      ∃ e, o = .error e ∧ E.Amid drift fault p db s (.error e) db' s' := by
  induction p generalizing db s with
  | ret a => exact .inl ⟨a, db, s, ⟨rfl, rfl, rfl⟩, h⟩
  | raise e =>
      obtain ⟨rfl, hs⟩ := h
      exact .inr ⟨e, rfl, rfl, hs⟩
  | call c next ih =>
      obtain ⟨db₀, r, db₁, s₁, hd, hp, hrest⟩ := h
      rcases ih r hrest with ⟨a, db₂, s₂, hrun, hf⟩ | ⟨e, he, hrun⟩
      · exact .inl ⟨a, db₂, s₂, ⟨db₀, r, db₁, s₁, hd, hp, hrun⟩, hf⟩
      · exact .inr ⟨e, he, db₀, r, db₁, s₁, hd, hp, hrun⟩

/-- A statement that writes nothing answers from the store of its own moment, or fails. -/
theorem amid_read {op : Op} {o : Except ε (Reply op)}
    (hx : ∀ db, (E.exec op db).2.1 = [])
    (h : E.Amid drift fault (autocommit op) db .idle o db' s') :
    s' = .idle ∧ drift db db' ∧ (o = (E.exec op db').1 ∨ ∃ e, fault e ∧ o = .error e) := by
  obtain ⟨db₀, r, db₁, s₁, hd, hp, hrest⟩ := h
  have hruns : E.Runs fault (autocommit op) db₀ .idle o db' s' := by
    refine ⟨r, db₁, s₁, hp, ?_⟩
    cases r with
    | ok a => exact hrest
    | error e => exact hrest
  obtain ⟨hs, hcases⟩ := runs_statement hruns
  rw [hx db₀, writes_nil] at hcases
  rcases hcases with ⟨ho, rfl⟩ | ⟨e, he, ho, rfl | rfl⟩
  · exact ⟨hs, hd, .inl ho⟩
  · exact ⟨hs, hd, .inr ⟨e, he, ho⟩⟩
  · exact ⟨hs, hd, .inr ⟨e, he, ho⟩⟩

/-- `p` without failures, where these changes come before its first commands. -/
def runAmid (E : Engine Op Reply ε Store Write Key) (changes : List (Store → Store)) :
    Sql Op Reply ε α → Store → Session Write Key → Except ε α × Store × Session Write Key
  | .ret a, db, s => (.ok a, db, s)
  | .raise e, db, s => (.error e, db, s)
  | .call c next, db, s =>
      let db₀ := changes.headD id db
      runAmid E changes.tail (next (E.perform c db₀ s).1) (E.perform c db₀ s).2.1
        (E.perform c db₀ s).2.2

theorem amid_runAmid (fault : ε → Prop) (hrefl : ∀ db, drift db db)
    {changes : List (Store → Store)} (h : ∀ change ∈ changes, ∀ db, drift db (change db))
    (p : Sql Op Reply ε α) (db : Store) (s : Session Write Key) :
    E.Amid drift fault p db s (E.runAmid changes p db s).1 (E.runAmid changes p db s).2.1
      (E.runAmid changes p db s).2.2 := by
  induction p generalizing changes db s with
  | ret a => exact ⟨rfl, rfl, rfl⟩
  | raise e => exact ⟨rfl, rfl, rfl⟩
  | call c next ih =>
      refine ⟨changes.headD id db, _, _, _, ?_, .inl rfl, ih _ ?_ _ _⟩
      · cases changes with
        | nil => exact hrefl db
        | cons change _ => exact h change List.mem_cons_self db
      · exact fun change hmem => h change (List.mem_of_mem_tail hmem)

theorem Amid.mono {drift' : Store → Store → Prop} (hdrift : ∀ db db', drift db db' → drift' db db')
    {p : Sql Op Reply ε α} {o : Except ε α} (h : E.Amid drift fault p db s o db' s') :
    E.Amid drift' fault p db s o db' s' := by
  induction p generalizing db s with
  | ret a => exact h
  | raise e => exact h
  | call c next ih =>
      obtain ⟨db₀, r, db₁, s₁, hd, hp, hrest⟩ := h
      exact ⟨db₀, r, db₁, s₁, hdrift _ _ hd, hp, ih r hrest⟩

/-- A program that only reads leaves the store to the drift. -/
theorem Amid.drifts (hrefl : ∀ db, drift db db)
    (htrans : ∀ db db₁ db', drift db db₁ → drift db₁ db' → drift db db') {p : Sql Op Reply ε α}
    {o : Except ε α} (h : E.Amid drift fault p db .idle o db' s')
    (hp : p.Issues (fun c => ∃ op, c = .statement op ∧ ∀ db, (E.exec op db).2.1 = [])) :
    drift db db' := by
  induction p generalizing db with
  | ret a =>
      obtain ⟨-, rfl, -⟩ := h
      exact hrefl db'
  | raise e =>
      obtain ⟨-, rfl, -⟩ := h
      exact hrefl db'
  | call c next ih =>
      obtain ⟨⟨op, rfl, hx⟩, hnext⟩ := hp
      obtain ⟨db₀, r, db₁, s₁, hd, hperforms, hrest⟩ := h
      have hread : E.Amid drift fault (autocommit op) db .idle r db₁ s₁ := by
        refine ⟨db₀, r, db₁, s₁, hd, hperforms, ?_⟩
        cases r with
        | ok a => exact ⟨rfl, rfl, rfl⟩
        | error e => exact ⟨rfl, rfl, rfl⟩
      obtain ⟨rfl, hd', -⟩ := amid_read hx hread
      exact htrans _ _ _ hd' (ih r hrest (hnext r))

end Reasoning.Engine
