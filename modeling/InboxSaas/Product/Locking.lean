import InboxSaas.Reasoning.ReadCommitted
import InboxSaas.Product.Calls

/-!
# The locks of the product database

What another transaction leaves alone while a lock is held: the row with a primary key, the absence
of an idempotency key, and the absence of a further active connection of a Microsoft tenant.  Every
statement takes the locks of the rows it writes.
-/

namespace InboxSaas.Product

open Reasoning

namespace Lock

/-- What the lock keeps from one store to another. -/
def Protects : Lock → Store → Store → Prop
  | .tenantConnection id, db, db' => db'.tenantConnections.find id = db.tenantConnections.find id
  | .job id, db, db' => db'.jobs.find id = db.jobs.find id
  | .idempotencyRecord id, db, db' => db'.idempotencyRecords.find id = db.idempotencyRecords.find id
  | .outboxEvent id, db, db' => db'.outboxEvents.find id = db.outboxEvents.find id
  | .idempotencyKey organizationId key, db, db' =>
      db.idempotencyRecord organizationId key = none → db'.idempotencyRecord organizationId key = none
  | .activeTenant microsoftTenantId, db, db' =>
      ∀ row ∈ db'.tenantConnections, row.indexed = true →
        row.microsoftTenantId = microsoftTenantId → row ∈ db.tenantConnections
  -- a connection has one job, so no index entry of a job is ever contended
  | .nonTerminalJob _, _, _ => True

theorem Protects.refl (k : Lock) (db : Store) : k.Protects db db := by
  cases k with
  | idempotencyKey => exact id
  | activeTenant => exact fun _ h _ _ => h
  | nonTerminalJob => exact trivial
  | _ => rfl

theorem Protects.trans {k : Lock} {db db₁ db' : Store} (h : k.Protects db db₁)
    (h' : k.Protects db₁ db') : k.Protects db db' := by
  cases k with
  | idempotencyKey => exact fun hnone => h' (h hnone)
  | activeTenant => exact fun row hrow hi ht => h row (h' row hrow hi ht) hi ht
  | nonTerminalJob => exact trivial
  | tenantConnection => exact Eq.trans h' h
  | job => exact Eq.trans h' h
  | idempotencyRecord => exact Eq.trans h' h
  | outboxEvent => exact Eq.trans h' h

end Lock

/-- The locks that go with a row version. -/
def Write.locks : Write → List Lock
  | .tenantConnection row => tenantConnectionLocks row
  | .job row => [.job row.id]
  | .idempotencyRecord row => [.idempotencyRecord row.id, .idempotencyKey row.organizationId row.key]
  | .outboxEvent row => [.outboxEvent row.id]

theorem mem_tenantConnectionLocks {row : TenantConnection} {k : Lock} :
    k ∈ tenantConnectionLocks row ↔ k = .tenantConnection row.id ∨
      row.indexed = true ∧ k = .activeTenant row.microsoftTenantId := by
  unfold tenantConnectionLocks
  cases hi : row.indexed <;> simp

theorem mem_jobLocks {row : Job} : Lock.job row.id ∈ jobLocks row :=
  List.mem_cons_self

/-- A record that is not written under the key leaves its absence alone. -/
theorem idempotencyRecord_put_of_ne {db : Store} {row : IdempotencyRecord} {organizationId : Uuid}
    {key : JsString} (hne : ¬ (row.organizationId = organizationId ∧ row.key = key))
    (hnone : db.idempotencyRecord organizationId key = none) :
    (db.putIdempotencyRecord row).idempotencyRecord organizationId key = none := by
  unfold Store.idempotencyRecord at hnone ⊢
  rw [List.find?_eq_none] at hnone ⊢
  intro other ho
  rcases Table.mem_put.mp ho with rfl | ⟨ho, -⟩
  · simpa using hne
  · exact hnone other ho

theorem Write.frame {k : Lock} {w : Write} (h : k ∉ w.locks) (db : Store) :
    k.Protects db (Store.write w db) := by
  cases w with
  | tenantConnection row =>
      have hrow := fun hk => h (mem_tenantConnectionLocks.mpr hk)
      cases k with
      | tenantConnection id => exact Table.find_put_ne _ fun he => hrow (.inl (congrArg _ he.symm))
      | activeTenant microsoftTenantId =>
          intro other ho hi ht
          rcases Table.mem_put.mp ho with rfl | ⟨ho, -⟩
          · exact absurd (.inr ⟨hi, congrArg _ ht.symm⟩) hrow
          · exact ho
      | idempotencyKey => exact id
      | nonTerminalJob => exact trivial
      | _ => rfl
  | job row =>
      cases k with
      | job id =>
          refine Table.find_put_ne _ fun he => h ?_
          exact List.mem_singleton.mpr (congrArg Lock.job he.symm)
      | activeTenant => exact fun _ h _ _ => h
      | idempotencyKey => exact id
      | nonTerminalJob => exact trivial
      | _ => rfl
  | idempotencyRecord row =>
      have hlocks : ∀ {k : Lock}, k = .idempotencyRecord row.id ∨
          k = .idempotencyKey row.organizationId row.key →
          k ∈ (Write.idempotencyRecord row).locks := by
        intro k hk
        simpa [Write.locks] using hk
      cases k with
      | idempotencyRecord id =>
          exact Table.find_put_ne _ fun he => h (hlocks (.inl (congrArg _ he.symm)))
      | idempotencyKey organizationId key =>
          intro hnone
          refine idempotencyRecord_put_of_ne (fun he => h (hlocks (.inr ?_))) hnone
          rw [he.1, he.2]
      | activeTenant => exact fun _ h _ _ => h
      | nonTerminalJob => exact trivial
      | _ => rfl
  | outboxEvent row =>
      cases k with
      | outboxEvent id =>
          refine Table.find_put_ne _ fun he => h ?_
          exact List.mem_singleton.mpr (congrArg Lock.outboxEvent he.symm)
      | activeTenant => exact fun _ h _ _ => h
      | idempotencyKey => exact id
      | nonTerminalJob => exact trivial
      | _ => rfl

/-- A statement that writes nothing, or one row whose locks it takes. -/
theorem covers_of_writes {rejects : Store → TenantConnection → Bool} {statement : Statement}
    {db : Store} (row : Write) (hrow : ∀ k ∈ row.locks, k ∈ (exec rejects statement db).2.2)
    (hx : (exec rejects statement db).2.1 = [] ∨ (exec rejects statement db).2.1 = [row]) :
    ∀ w ∈ (exec rejects statement db).2.1, ∀ k ∈ w.locks, k ∈ (exec rejects statement db).2.2 := by
  intro w hw k hk
  rcases hx with hx | hx
  · rw [hx] at hw
    cases hw
  · rw [hx] at hw
    rw [List.mem_singleton.mp hw] at hk
    exact hrow k hk

/-- An `INSERT` locks the row whether or not it is refused. -/
theorem exec_insert_locks (rejects : Store → TenantConnection → Bool) (db : Store) :
    (∀ row, (exec rejects (.insertTenantConnection row) db).2 = ([], tenantConnectionLocks row) ∨
      (exec rejects (.insertTenantConnection row) db).2 =
        ([.tenantConnection row], tenantConnectionLocks row)) ∧
    (∀ row, (exec rejects (.insertJob row) db).2 = ([], jobLocks row) ∨
      (exec rejects (.insertJob row) db).2 = ([.job row], jobLocks row)) ∧
    (∀ row, (exec rejects (.insertIdempotencyRecord row) db).2 =
        ([], (Write.idempotencyRecord row).locks) ∨
      (exec rejects (.insertIdempotencyRecord row) db).2 =
        ([.idempotencyRecord row], (Write.idempotencyRecord row).locks)) ∧
    ∀ row, (exec rejects (.insertOutboxEvent row) db).2 = ([], (Write.outboxEvent row).locks) ∨
      (exec rejects (.insertOutboxEvent row) db).2 =
        ([.outboxEvent row], (Write.outboxEvent row).locks) := by
  refine ⟨fun row => ?_, fun row => ?_, fun row => ?_, fun row => ?_⟩
  all_goals
    rw [exec]
    split
    · exact .inl rfl
    · split
      · exact .inl rfl
      · exact .inr rfl

/-- A statement locks what it writes. -/
theorem exec_covers (rejects : Store → TenantConnection → Bool) (statement : Statement) (db : Store) :
    ∀ w ∈ (exec rejects statement db).2.1, ∀ k ∈ w.locks, k ∈ (exec rejects statement db).2.2 := by
  cases statement with
  | insertTenantConnection row =>
      have hx := (exec_insert_locks rejects db).1 row
      apply covers_of_writes (.tenantConnection row)
      · rcases hx with hx | hx <;> rw [hx] <;> exact fun _ hk => hk
      · rcases hx with hx | hx <;> simp [hx]
  | insertJob row =>
      have hx := (exec_insert_locks rejects db).2.1 row
      apply covers_of_writes (.job row)
      · intro k hk
        rw [List.mem_singleton.mp hk]
        rcases hx with hx | hx <;> rw [hx] <;> exact mem_jobLocks
      · rcases hx with hx | hx <;> simp [hx]
  | insertIdempotencyRecord row =>
      have hx := (exec_insert_locks rejects db).2.2.1 row
      apply covers_of_writes (.idempotencyRecord row)
      · rcases hx with hx | hx <;> rw [hx] <;> exact fun _ hk => hk
      · rcases hx with hx | hx <;> simp [hx]
  | insertOutboxEvent row =>
      have hx := (exec_insert_locks rejects db).2.2.2 row
      apply covers_of_writes (.outboxEvent row)
      · rcases hx with hx | hx <;> rw [hx] <;> exact fun _ hk => hk
      · rcases hx with hx | hx <;> simp [hx]
  -- an update locks the index entries of the row it writes
  | updateJob id guard set =>
      intro w hw k hk
      cases hf : (db.jobs.find id).filter guard with
      | none =>
          simp only [exec, hf] at hw
          cases hw
      | some job =>
          simp only [exec, hf] at hw ⊢
          split at hw
          · cases hw
          · rename_i hn
            rw [if_neg hn]
            rw [List.mem_singleton.mp hw] at hk
            rw [List.mem_singleton.mp hk]
            exact mem_jobLocks
  | updateTenantConnection id set =>
      intro w hw k hk
      cases hf : db.tenantConnections.find id with
      | none =>
          simp only [exec, hf] at hw
          cases hw
      | some row =>
          simp only [exec, hf] at hw ⊢
          split at hw
          · cases hw
          · rename_i hn
            rw [if_neg hn]
            rw [List.mem_singleton.mp hw] at hk
            exact hk
  | updateOutboxEvent id set =>
      intro w hw k hk
      cases hf : db.outboxEvents.find id with
      | none =>
          simp only [exec, hf] at hw
          cases hw
      | some row =>
          simp only [exec, hf] at hw ⊢
          rw [List.mem_singleton.mp hw] at hk
          exact hk
  | selectWorkspace id =>
      intro w hw
      rw [exec_selectWorkspace] at hw
      cases hw
  | selectIdempotencyRecord => exact fun w hw => by cases hw
  | selectJob => exact fun w hw => by cases hw
  | selectTenantConnection => exact fun w hw => by cases hw
  | selectExpiredJobs => exact fun w hw => by cases hw
  | selectPendingOutboxEvents => exact fun w hw => by cases hw

def productLocking : Locking postgres where
  protects := Lock.Protects
  locks := Write.locks
  refl := Lock.Protects.refl
  trans _ _ _ _ := Lock.Protects.trans
  covers op db := exec_covers Store.activeElsewhere op db
  frame _ _ db h := Write.frame h db

/-! ## What an insert answers -/

section

variable (rejects : Store → TenantConnection → Bool) {db : Store}

theorem exec_insertTenantConnection {row : TenantConnection} (hindex : row.indexed = false)
    (hworkspace : (db.workspace row.workspaceId row.organizationId).isSome = true) :
    exec rejects (.insertTenantConnection row) db =
      if (db.tenantConnections.find row.id).isSome then
        (.error uniqueViolation, [], tenantConnectionLocks row)
      else (.ok (some row), [.tenantConnection row], tenantConnectionLocks row) := by
  have hnone : ¬ (db.workspace row.workspaceId row.organizationId).isNone = true := by
    rw [Option.isNone_iff_eq_none]
    exact Option.isSome_iff_ne_none.mp hworkspace
  rw [exec, hindex, if_neg hnone, Bool.false_and, Bool.or_false]

theorem exec_insertJob {row : Job} (hindex : db.nonTerminalElsewhere row = false)
    (hconnection : (db.tenantConnections.find row.tenantConnectionId).isSome = true) :
    exec rejects (.insertJob row) db =
      if (db.jobs.find row.id).isSome then (.error uniqueViolation, [], jobLocks row)
      else (.ok (some row), [.job row], jobLocks row) := by
  have hnone : ¬ (db.tenantConnections.find row.tenantConnectionId).isNone = true := by
    rw [Option.isNone_iff_eq_none]
    exact Option.isSome_iff_ne_none.mp hconnection
  rw [exec, hindex, if_neg hnone, Bool.and_false, Bool.or_false]

theorem exec_insertIdempotencyRecord {row : IdempotencyRecord}
    (hjob : (db.jobs.find row.jobId).isSome = true) :
    exec rejects (.insertIdempotencyRecord row) db =
      if (db.idempotencyRecords.find row.id).isSome ||
          (db.idempotencyRecord row.organizationId row.key).isSome then
        (.error uniqueViolation, [], (Write.idempotencyRecord row).locks)
      else (.ok (), [.idempotencyRecord row], (Write.idempotencyRecord row).locks) := by
  have hnone : ¬ (db.jobs.find row.jobId).isNone = true := by
    rw [Option.isNone_iff_eq_none]
    exact Option.isSome_iff_ne_none.mp hjob
  rw [exec, if_neg hnone]
  rfl

theorem exec_insertOutboxEvent {row : OutboxEvent}
    (hjob : (db.jobs.find row.jobId).isSome = true) :
    exec rejects (.insertOutboxEvent row) db =
      if (db.outboxEvents.find row.id).isSome then
        (.error uniqueViolation, [], (Write.outboxEvent row).locks)
      else (.ok (), [.outboxEvent row], (Write.outboxEvent row).locks) := by
  have hnone : ¬ (db.jobs.find row.jobId).isNone = true := by
    rw [Option.isNone_iff_eq_none]
    exact Option.isSome_iff_ne_none.mp hjob
  rw [exec, if_neg hnone]
  rfl

theorem exec_insertOutboxEvent_free {row : OutboxEvent} {job : Job}
    (hfree : db.outboxEvents.find row.id = none) (hjob : db.jobs.find row.jobId = some job) :
    exec rejects (.insertOutboxEvent row) db =
      (.ok (), [.outboxEvent row], (Write.outboxEvent row).locks) := by
  rw [exec_insertOutboxEvent rejects (by rw [hjob]; rfl), hfree]
  rfl

end

end InboxSaas.Product
