import InboxSaas.Product.Fencing
import InboxSaas.Product.Keeping
import InboxSaas.Product.Creations
import InboxSaas.Reasoning.Drift

/-!
# A lookup among other calls

`getJobWithTenant` reads a job and its connection in two statements and no transaction.  Other calls
may come in between, so the connection can be further along than the job: settled while the job was
still open, but never the other way round.
-/

namespace InboxSaas.Product

open Reasoning

/-- Calls of any kind lead from one store to the other. -/
def Later (db db' : Store) : Prop :=
  ∃ history, Run db history db'

theorem Moves.keeps {db db' : Store} {ms : List Move} (h : Moves db ms db') : Keeps db db' := by
  induction h with
  | nil => exact .refl _
  | cons head _ ih =>
      rcases head.creates with ⟨hk, -⟩ | ⟨c, -, hfresh, rfl⟩
      · exact hk.trans ih
      · exact hfresh.keeps.trans ih

namespace Later

variable {db db₁ db' : Store}

theorem refl (db : Store) : Later db db := ⟨[], .nil db⟩

theorem trans (h : Later db db₁) (h' : Later db₁ db') : Later db db' := by
  obtain ⟨history, hrun⟩ := h
  obtain ⟨later, hrun'⟩ := h'
  exact ⟨_, hrun.append hrun'⟩

theorem consistent (h : Later db db') (hc : Consistent db) : Consistent db' := by
  obtain ⟨_, hrun⟩ := h
  exact hrun.consistent hc

theorem keeps (h : Later db db') (hc : Consistent db) : Keeps db db' := by
  obtain ⟨_, hrun⟩ := h
  induction hrun with
  | nil => exact .refl _
  | cons runs _ ih =>
      obtain ⟨ms, hmoves, -⟩ := call_moves hc runs
      exact hmoves.keeps.trans (ih (hc.call runs))

/-- A finished job and its connection stay as they are. -/
theorem sameJob (h : Later db db') (hc : Consistent db) {id : Uuid} {job : Job}
    (hjob : db.jobs.find id = some job) (hf : job.finished) : SameJob id db db' := by
  obtain ⟨_, hrun⟩ := h
  exact finished_run hrun hc hjob hf

end Later

/-- The job, and its connection as it is at the end or at some moment after. -/
inductive LooksUp (id : Uuid) (db : Store) :
    Except JsError (Option (TenantConnection × Job)) → Store → Prop where
  | failed {e : JsError} {db' : Store} (he : Infrastructure e) (hlater : Later db db') :
      LooksUp id db (.error e) db'
  | missing {db' : Store} (hlater : Later db db') (hjob : db'.jobs.find id = none) :
      LooksUp id db (.ok none) db'
  | found {db₁ db' : Store} {job : Job} {connection : TenantConnection} (hlater : Later db db₁)
      (hlater' : Later db₁ db') (hjob : db₁.jobs.find id = some job)
      (hconnection : db'.tenantConnections.find job.tenantConnectionId = some connection) :
      LooksUp id db (.ok (some (connection, job))) db'

/-- A stored job always has its connection, whatever happens between the statements. -/
theorem amid_getJobWithTenant {id : Uuid} {db db' : Store} {s' : Session Write Lock}
    {o : Except JsError (Option (TenantConnection × Job))} (hc : Consistent db)
    (h : postgres.Amid Later Infrastructure (getJobWithTenant id) db .idle o db' s') :
    s' = .idle ∧ LooksUp id db o db' := by
  unfold getJobWithTenant at h
  rcases Engine.amid_bind h with ⟨found, db₁, s₁, hread, hrest⟩ | ⟨e, rfl, hread⟩
  · obtain ⟨rfl, hlater, hr | ⟨e, _, hr⟩⟩ := Engine.amid_read (fun _ => rfl) hread
    swap
    · cases hr
    have hfind : db₁.jobs.find id = found := (Except.ok.inj hr).symm
    cases found with
    | none =>
        obtain ⟨rfl, rfl, rfl⟩ := hrest
        exact ⟨rfl, .missing hlater hfind⟩
    | some job =>
        rcases Engine.amid_bind hrest with ⟨connection, db₂, s₂, hread', hret⟩ | ⟨e, rfl, hread'⟩
        · obtain ⟨rfl, hlater', hr' | ⟨e, _, hr'⟩⟩ := Engine.amid_read (fun _ => rfl) hread'
          swap
          · cases hr'
          have hfind' : db₂.tenantConnections.find job.tenantConnectionId = connection :=
            (Except.ok.inj hr').symm
          cases connection with
          | none =>
              -- the connection was there with the job, and stays
              obtain ⟨row, hrow, -⟩ := (hlater.consistent hc).connection hfind
              obtain ⟨row', hrow', -⟩ := (hlater'.keeps (hlater.consistent hc)).connection hrow
              rw [hfind'] at hrow'
              cases hrow'
          | some connection =>
              obtain ⟨rfl, rfl, rfl⟩ := hret
              exact ⟨rfl, .found hlater hlater' hfind hfind'⟩
        · obtain ⟨rfl, hlater', hr' | ⟨e', he, hr'⟩⟩ := Engine.amid_read (fun _ => rfl) hread'
          · cases hr'
          · cases hr'
            exact ⟨rfl, .failed he (hlater.trans hlater')⟩
  · obtain ⟨rfl, hlater, hr | ⟨e', he, hr⟩⟩ := Engine.amid_read (fun _ => rfl) hread
    · cases hr
    · cases hr
      exact ⟨rfl, .failed he hlater⟩

/-! ## Rows from two moments -/

section

variable {db db₁ db' : Store} {id : Uuid} {job : Job} {row : TenantConnection}

theorem Agrees.finished (ha : Agrees job row) (h : row.state ≠ .validating) : job.finished := by
  have hopen : ¬ (job.state = .queued ∨ job.state = .running) := fun ho => h (ha.validating.mp ho)
  rw [not_or] at hopen
  cases hstate : job.state with
  | queued => exact absurd hstate hopen.1
  | running => exact absurd hstate hopen.2
  | completed => exact .inl hstate
  | failed => exact .inr hstate
  | cancelled => exact absurd hstate ha.cancelled

theorem Agrees.attached (ha : Agrees job row) : row.state ≠ .detached := by
  intro hdetached
  have hf := ha.finished (by rw [hdetached]; exact nofun)
  rcases hf with hf | hf
  · rw [ha.active.mp hf] at hdetached
    cases hdetached
  · rw [ha.validationFailed.mp hf] at hdetached
    cases hdetached

/-- The job still has the connection later. -/
theorem Later.connection (h : Later db db') (hc : Consistent db)
    (hjob : db.jobs.find id = some job) :
    ∃ job' row, db'.jobs.find id = some job' ∧ job'.tenantConnectionId = job.tenantConnectionId ∧
      db'.tenantConnections.find job.tenantConnectionId = some row ∧ Agrees job' row := by
  obtain ⟨job', hjob', htc⟩ := (h.keeps hc).job hjob
  obtain ⟨row, hrow, ha⟩ := (h.consistent hc).connection hjob'
  rw [htc] at hrow
  exact ⟨job', row, hjob', htc, hrow, ha⟩

/-- A finished job was read with the connection that it is finished with. -/
theorem Later.agrees (h : Later db db') (hc : Consistent db) (hjob : db.jobs.find id = some job)
    (hf : job.finished) (hrow : db'.tenantConnections.find job.tenantConnectionId = some row) :
    Agrees job row := by
  obtain ⟨stored, hstored, ha⟩ := hc.connection hjob
  rw [← (h.sameJob hc hjob hf).connection hjob, hrow] at hstored
  rwa [Option.some.inj hstored]

end

end InboxSaas.Product
