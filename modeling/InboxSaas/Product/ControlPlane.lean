import InboxSaas.Product.TenantValidation

/-!
# The control plane

What the holder of some grants may read: the organizations and workspaces that are listed, and the
jobs that can be looked up.  A store with names is a store with the two columns that only the lists
show.
-/

namespace InboxSaas.Product

open Reasoning

/-- The product tables with the organizations and the names of the workspaces. -/
structure ControlPlaneStore where
  product : Store
  organizations : Table Organization
  workspaceName : Uuid → JsString

/-- The foreign keys of the schema. -/
structure ForeignKeys (db : ControlPlaneStore) : Prop where
  workspace_organization : ∀ row ∈ db.product.workspaces,
    ∃ organization ∈ db.organizations, organization.id = row.organizationId
  tenantConnection_organization : ∀ row ∈ db.product.tenantConnections,
    ∃ organization ∈ db.organizations, organization.id = row.organizationId
  tenantConnection_workspace : ∀ row ∈ db.product.tenantConnections,
    ∃ workspace ∈ db.product.workspaces,
      workspace.id = row.workspaceId ∧ workspace.organizationId = row.organizationId
  job_tenantConnection : ∀ row ∈ db.product.jobs,
    ∃ connection ∈ db.product.tenantConnections, connection.id = row.tenantConnectionId
  idempotencyRecord_organization : ∀ row ∈ db.product.idempotencyRecords,
    ∃ organization ∈ db.organizations, organization.id = row.organizationId
  idempotencyRecord_job : ∀ row ∈ db.product.idempotencyRecords,
    ∃ job ∈ db.product.jobs, job.id = row.jobId
  outboxEvent_job : ∀ row ∈ db.product.outboxEvents, ∃ job ∈ db.product.jobs, job.id = row.jobId

structure OrganizationDto where
  id : Uuid
  name : JsString
  deriving DecidableEq, Repr

structure WorkspaceDto where
  id : Uuid
  organizationId : Uuid
  name : JsString
  deriving DecidableEq, Repr

structure AccessibleControlPlane where
  organizations : List OrganizationDto
  workspaces : List WorkspaceDto
  deriving DecidableEq, Repr

inductive GetTenantValidationJobResult where
  | notFound
  | found (tenantConnection : TenantConnectionDto) (job : Job)
  deriving DecidableEq, Repr

def readOrganization (organizationId : Uuid) : AccessRequest :=
  ⟨organizationId, .read, .organization⟩

def readWorkspace (organizationId workspaceId : Uuid) : AccessRequest :=
  ⟨organizationId, .read, .workspace workspaceId⟩

def ControlPlaneStore.workspaceDto (db : ControlPlaneStore) (row : Workspace) : WorkspaceDto :=
  ⟨row.id, row.organizationId, db.workspaceName row.id⟩

def organizationDto (row : Organization) : OrganizationDto :=
  ⟨row.id, row.name⟩

def getAccessibleControlPlane (db : ControlPlaneStore) (grants : List AccessGrant) :
    AccessibleControlPlane :=
  -- `[...new Set(..)]` keeps the first of equal elements
  let organizationIds := (grants.map AccessGrant.organizationId).eraseDups
  if organizationIds.length = 0 then ⟨[], []⟩
  else
    let organizations := db.organizations.rows.filter (fun row => organizationIds.contains row.id)
    let workspaces :=
      db.product.workspaces.rows.filter (fun row => organizationIds.contains row.organizationId)
    ⟨(organizations.filter (fun row => isAuthorized grants (readOrganization row.id))).map
        organizationDto,
      (workspaces.filter (fun row =>
        isAuthorized grants (readWorkspace row.organizationId row.id))).map db.workspaceDto⟩

/-- The id is parsed where the first statement compares it. -/
def getTenantValidationJob (grants : List AccessGrant) (jobId : JsString) :
    DatabaseProgram GetTenantValidationJobResult :=
  match uuidIn jobId with
  | none => throw invalidTextRepresentation
  | some jobId => do
      match ← getJobWithTenant jobId with
      | none => return .notFound
      | some (connection, storedJob) =>
          if !isAuthorized grants (readWorkspace connection.organizationId connection.workspaceId) then
            return .notFound
          else return .found (toTenantConnectionDto connection) storedJob

/-! ## Which grants give read access -/

/-- The grant gives its holder the workspace. -/
def AccessGrant.Covers (grant : AccessGrant) (workspace : Workspace) : Prop :=
  grant.organizationId = workspace.organizationId ∧
    (grant.scope = .organization ∨ grant.scope = .workspace workspace.id)

/-- The grant gives its holder the organization. -/
def AccessGrant.Names (grant : AccessGrant) (organization : Organization) : Prop :=
  grant.organizationId = organization.id ∧ grant.scope = .organization

theorem isAuthorized_iff {grants : List AccessGrant} {request : AccessRequest} :
    isAuthorized grants request = true ↔ ∃ grant ∈ grants,
      grant.organizationId = request.organizationId ∧
        (grant.permission = .read → request.permission = .read) ∧
        (grant.scope = .organization ∨
          ∃ workspaceId, grant.scope = .workspace workspaceId ∧
            request.scope = .workspace workspaceId) := by
  unfold isAuthorized
  rw [List.any_eq_true]
  apply exists_congr
  intro grant
  apply and_congr_right
  intro hgrant
  by_cases horganization : grant.organizationId = request.organizationId
  · by_cases hpermission : grant.permission = .read ∧ request.permission ≠ .read
    · simp [horganization, hpermission]
    · have himp : grant.permission = .read → request.permission = .read := fun h =>
        not_not.mp fun hne => hpermission ⟨h, hne⟩
      rw [if_neg (not_not.mpr horganization), if_neg hpermission]
      rcases hscope : grant.scope with _ | workspaceId
      · simpa [horganization] using himp
      · simpa [horganization] using fun _ => himp
  · simp [horganization]

theorem isAuthorized_readWorkspace {grants : List AccessGrant} {workspace : Workspace} :
    isAuthorized grants (readWorkspace workspace.organizationId workspace.id) = true ↔
      ∃ grant ∈ grants, grant.Covers workspace := by
  rw [isAuthorized_iff]
  apply exists_congr
  intro grant
  simp [readWorkspace, AccessGrant.Covers]

theorem isAuthorized_readOrganization {grants : List AccessGrant} {organization : Organization} :
    isAuthorized grants (readOrganization organization.id) = true ↔
      ∃ grant ∈ grants, grant.Names organization := by
  rw [isAuthorized_iff]
  apply exists_congr
  intro grant
  simp [readOrganization, AccessGrant.Names]

/-- A request is authorized by grants of its own organization only. -/
theorem contains_of_isAuthorized {grants : List AccessGrant} {request : AccessRequest}
    (h : isAuthorized grants request = true) :
    ((grants.map AccessGrant.organizationId).eraseDups).contains request.organizationId = true := by
  obtain ⟨grant, hgrant, horganization, -⟩ := isAuthorized_iff.mp h
  rw [List.contains_iff_mem, List.mem_eraseDups, ← horganization]
  exact List.mem_map_of_mem hgrant

/-- Filtering first by the organizations of the grants drops no row that the second filter keeps. -/
theorem filter_prefetch {α : Type} (grants : List AccessGrant) (request : α → AccessRequest)
    (rows : List α) :
    (rows.filter (fun row => ((grants.map AccessGrant.organizationId).eraseDups).contains
        (request row).organizationId)).filter (fun row => isAuthorized grants (request row)) =
      rows.filter (fun row => isAuthorized grants (request row)) := by
  rw [List.filter_filter]
  apply List.filter_congr
  intro row _
  cases hrow : isAuthorized grants (request row) with
  | false => rfl
  | true =>
      rw [contains_of_isAuthorized hrow]
      rfl

theorem filter_isAuthorized_nil {α : Type} (request : α → AccessRequest) (rows : List α) :
    rows.filter (fun row => isAuthorized [] (request row)) = [] :=
  List.filter_eq_nil_iff.mpr fun _ _ => Bool.false_ne_true

/-- The lists are those of filtering every row. -/
theorem getAccessibleControlPlane_eq (db : ControlPlaneStore) (grants : List AccessGrant) :
    getAccessibleControlPlane db grants =
      ⟨(db.organizations.rows.filter (fun row =>
          isAuthorized grants (readOrganization row.id))).map organizationDto,
        (db.product.workspaces.rows.filter (fun row =>
          isAuthorized grants (readWorkspace row.organizationId row.id))).map db.workspaceDto⟩ := by
  unfold getAccessibleControlPlane
  dsimp only
  split
  · rename_i hlength
    -- no grant names an organization, so there is no grant
    have hgrants : grants = [] := by
      rcases grants with _ | ⟨grant, rest⟩
      · rfl
      · have hmem : grant.organizationId ∈
            ((grant :: rest).map AccessGrant.organizationId).eraseDups :=
          List.mem_eraseDups.mpr List.mem_cons_self
        rw [List.eq_nil_of_length_eq_zero hlength] at hmem
        cases hmem
    rw [hgrants, filter_isAuthorized_nil, filter_isAuthorized_nil]
    rfl
  · have horganizations := filter_prefetch grants
      (fun row : Organization => readOrganization row.id) db.organizations.rows
    have hworkspaces := filter_prefetch grants
      (fun row : Workspace => readWorkspace row.organizationId row.id) db.product.workspaces.rows
    simp only [readOrganization] at horganizations
    simp only [readWorkspace] at hworkspaces
    simp only [readOrganization, readWorkspace]
    rw [horganizations, hworkspaces]

/-! ## Looking a job up -/

theorem getTenantValidationJob_missing {grants : List AccessGrant} {jobId : JsString} {id : Uuid}
    {db : Store} (hid : uuidIn jobId = some id) (hjob : db.jobs.find id = none) :
    postgres.run (getTenantValidationJob grants jobId) db .idle = (.ok .notFound, db, .idle) := by
  unfold getTenantValidationJob
  rw [hid]
  dsimp only
  unfold getJobWithTenant
  rw [Program.bind_assoc, execute, Engine.run_read _ (by
    change _ = (Except.ok none, [], [])
    rw [← hjob]
    rfl)]
  rfl

theorem getTenantValidationJob_found {grants : List AccessGrant} {jobId : JsString} {id : Uuid}
    {db : Store} {job : Job} {connection : TenantConnection} (hid : uuidIn jobId = some id)
    (hjob : db.jobs.find id = some job)
    (hconnection : db.tenantConnections.find job.tenantConnectionId = some connection) :
    postgres.run (getTenantValidationJob grants jobId) db .idle =
      (.ok (if isAuthorized grants
          (readWorkspace connection.organizationId connection.workspaceId) then
        .found (toTenantConnectionDto connection) job else .notFound), db, .idle) := by
  unfold getTenantValidationJob
  rw [hid]
  dsimp only
  unfold getJobWithTenant
  rw [Program.bind_assoc, execute, Engine.run_read _ (by
    change _ = (Except.ok (some job), [], [])
    rw [← hjob]
    rfl)]
  dsimp only
  rw [Program.bind_assoc, execute, Engine.run_read _ (by
    change _ = (Except.ok (some connection), [], [])
    rw [← hconnection]
    rfl)]
  change postgres.run (if (!isAuthorized grants
      (readWorkspace connection.organizationId connection.workspaceId)) = true then
      Program.ret GetTenantValidationJobResult.notFound
    else .ret (GetTenantValidationJobResult.found (toTenantConnectionDto connection) job)) db
      .idle = _
  cases isAuthorized grants (readWorkspace connection.organizationId connection.workspaceId) <;> rfl

/-! ## One notion of readability -/

theorem mem_workspaces {db : ControlPlaneStore} {grants : List AccessGrant} {dto : WorkspaceDto} :
    dto ∈ (getAccessibleControlPlane db grants).workspaces ↔
      ∃ workspace ∈ db.product.workspaces, dto = db.workspaceDto workspace ∧
        ∃ grant ∈ grants, grant.Covers workspace := by
  rw [getAccessibleControlPlane_eq]
  simp only [List.mem_map, List.mem_filter, isAuthorized_readWorkspace]
  constructor
  · rintro ⟨workspace, ⟨hmem, hcovers⟩, rfl⟩
    exact ⟨workspace, hmem, rfl, hcovers⟩
  · rintro ⟨workspace, hmem, rfl, hcovers⟩
    exact ⟨workspace, ⟨hmem, hcovers⟩, rfl⟩

theorem mem_organizations {db : ControlPlaneStore} {grants : List AccessGrant}
    {dto : OrganizationDto} :
    dto ∈ (getAccessibleControlPlane db grants).organizations ↔
      ∃ organization ∈ db.organizations, dto = organizationDto organization ∧
        ∃ grant ∈ grants, grant.Names organization := by
  rw [getAccessibleControlPlane_eq]
  simp only [List.mem_map, List.mem_filter, isAuthorized_readOrganization]
  constructor
  · rintro ⟨organization, ⟨hmem, hnames⟩, rfl⟩
    exact ⟨organization, hmem, rfl, hnames⟩
  · rintro ⟨organization, hmem, rfl, hnames⟩
    exact ⟨organization, ⟨hmem, hnames⟩, rfl⟩

/-- No workspace is listed twice. -/
theorem workspaces_nodup (db : ControlPlaneStore) (grants : List AccessGrant) :
    ((getAccessibleControlPlane db grants).workspaces.map WorkspaceDto.id).Nodup := by
  rw [getAccessibleControlPlane_eq, List.map_map]
  exact db.product.workspaces.keys_nodup.sublist (List.filter_sublist.map _)

theorem organizations_nodup (db : ControlPlaneStore) (grants : List AccessGrant) :
    ((getAccessibleControlPlane db grants).organizations.map OrganizationDto.id).Nodup := by
  rw [getAccessibleControlPlane_eq, List.map_map]
  exact db.organizations.keys_nodup.sublist (List.filter_sublist.map _)

/-- The workspace of a connection is listed exactly if the connection may be read. -/
theorem readable_iff {db : ControlPlaneStore} (hdb : ForeignKeys db) {grants : List AccessGrant}
    {connection : TenantConnection} (h : connection ∈ db.product.tenantConnections) :
    isAuthorized grants (readWorkspace connection.organizationId connection.workspaceId) = true ↔
      ∃ dto ∈ (getAccessibleControlPlane db grants).workspaces,
        dto.id = connection.workspaceId := by
  obtain ⟨workspace, hmem, hid, horganization⟩ := hdb.tenantConnection_workspace connection h
  rw [← hid, ← horganization, isAuthorized_readWorkspace]
  constructor
  · intro hcovers
    exact ⟨db.workspaceDto workspace, mem_workspaces.mpr ⟨workspace, hmem, rfl, hcovers⟩, rfl⟩
  · rintro ⟨dto, hdto, hdtoId⟩
    obtain ⟨other, hother, rfl, hcovers⟩ := mem_workspaces.mp hdto
    rwa [Table.eq_of_key_eq hother hmem hdtoId] at hcovers

theorem ForeignKeys.connection {db : ControlPlaneStore} (hdb : ForeignKeys db) {id : Uuid}
    {job : Job} (h : db.product.jobs.find id = some job) :
    ∃ connection, db.product.tenantConnections.find job.tenantConnectionId = some connection := by
  obtain ⟨connection, hmem, hid⟩ := hdb.job_tenantConnection job (Table.mem_of_find h)
  exact ⟨connection, hid ▸ Table.find_of_mem hmem⟩

/-- A stored job is found exactly if the workspace of its connection is listed. -/
theorem getTenantValidationJob_listed {db : ControlPlaneStore} (hdb : ForeignKeys db)
    {grants : List AccessGrant} {jobId : JsString} {id : Uuid} {job : Job}
    {connection : TenantConnection} (hid : uuidIn jobId = some id)
    (hjob : db.product.jobs.find id = some job)
    (hconnection : db.product.tenantConnections.find job.tenantConnectionId = some connection) :
    postgres.run (getTenantValidationJob grants jobId) db.product .idle =
      (.ok (if ∃ dto ∈ (getAccessibleControlPlane db grants).workspaces,
          dto.id = connection.workspaceId then
        .found (toTenantConnectionDto connection) job else .notFound), db.product, .idle) := by
  rw [getTenantValidationJob_found hid hjob hconnection]
  simp only [readable_iff hdb (Table.mem_of_find hconnection)]

/-- More grants list whatever fewer grants list. -/
theorem workspaces_mono {db : ControlPlaneStore} {grants more : List AccessGrant}
    (h : ∀ grant ∈ grants, grant ∈ more) {dto : WorkspaceDto}
    (hdto : dto ∈ (getAccessibleControlPlane db grants).workspaces) :
    dto ∈ (getAccessibleControlPlane db more).workspaces := by
  obtain ⟨workspace, hmem, heq, grant, hgrant, hcovers⟩ := mem_workspaces.mp hdto
  exact mem_workspaces.mpr ⟨workspace, hmem, heq, grant, h grant hgrant, hcovers⟩

theorem organizations_mono {db : ControlPlaneStore} {grants more : List AccessGrant}
    (h : ∀ grant ∈ grants, grant ∈ more) {dto : OrganizationDto}
    (hdto : dto ∈ (getAccessibleControlPlane db grants).organizations) :
    dto ∈ (getAccessibleControlPlane db more).organizations := by
  obtain ⟨organization, hmem, heq, grant, hgrant, hnames⟩ := mem_organizations.mp hdto
  exact mem_organizations.mpr ⟨organization, hmem, heq, grant, h grant hgrant, hnames⟩

/-- More grants find whatever fewer grants find. -/
theorem getTenantValidationJob_mono {db : ControlPlaneStore} (hdb : ForeignKeys db)
    {grants more : List AccessGrant} (h : ∀ grant ∈ grants, grant ∈ more) {jobId : JsString}
    {connection : TenantConnectionDto} {job : Job}
    (hfound : (postgres.run (getTenantValidationJob grants jobId) db.product .idle).1 =
      .ok (.found connection job)) :
    (postgres.run (getTenantValidationJob more jobId) db.product .idle).1 =
      .ok (.found connection job) := by
  rcases hid : uuidIn jobId with _ | id
  · rw [getTenantValidationJob, hid] at hfound
    cases hfound
  · rcases hjob : db.product.jobs.find id with _ | stored
    · rw [getTenantValidationJob_missing hid hjob] at hfound
      cases hfound
    · obtain ⟨row, hrow⟩ := hdb.connection hjob
      rw [getTenantValidationJob_listed hdb hid hjob hrow] at hfound ⊢
      split at hfound
      · rename_i hlisted
        obtain ⟨dto, hdto, hdtoId⟩ := hlisted
        rw [if_pos ⟨dto, workspaces_mono h hdto, hdtoId⟩]
        exact hfound
      · cases hfound

/-- The lists of the control plane and the job lookup agree on what may be read: the lists are all
rows that a grant covers, each once, a stored job is found exactly if its connection's workspace is
listed and is otherwise answered like a missing one, and more grants never hide anything. -/
theorem one_readability (db : ControlPlaneStore) (hdb : ForeignKeys db)
    (grants : List AccessGrant) :
    getAccessibleControlPlane db grants =
        ⟨(db.organizations.rows.filter (fun row =>
            isAuthorized grants (readOrganization row.id))).map organizationDto,
          (db.product.workspaces.rows.filter (fun row =>
            isAuthorized grants (readWorkspace row.organizationId row.id))).map db.workspaceDto⟩ ∧
      (∀ dto, dto ∈ (getAccessibleControlPlane db grants).workspaces ↔
        ∃ workspace ∈ db.product.workspaces, dto = db.workspaceDto workspace ∧
          ∃ grant ∈ grants, grant.Covers workspace) ∧
      ((getAccessibleControlPlane db grants).workspaces.map WorkspaceDto.id).Nodup ∧
      (∀ dto, dto ∈ (getAccessibleControlPlane db grants).organizations ↔
        ∃ organization ∈ db.organizations, dto = organizationDto organization ∧
          ∃ grant ∈ grants, grant.Names organization) ∧
      ((getAccessibleControlPlane db grants).organizations.map OrganizationDto.id).Nodup ∧
      (∀ jobId id, uuidIn jobId = some id → db.product.jobs.find id = none →
        postgres.run (getTenantValidationJob grants jobId) db.product .idle =
          (.ok .notFound, db.product, .idle)) ∧
      (∀ jobId id job, uuidIn jobId = some id → db.product.jobs.find id = some job →
        ∃ connection, db.product.tenantConnections.find job.tenantConnectionId = some connection ∧
          postgres.run (getTenantValidationJob grants jobId) db.product .idle =
            (.ok (if ∃ dto ∈ (getAccessibleControlPlane db grants).workspaces,
                dto.id = connection.workspaceId then
              .found (toTenantConnectionDto connection) job else .notFound), db.product, .idle)) ∧
      ∀ more, (∀ grant ∈ grants, grant ∈ more) →
        (∀ dto ∈ (getAccessibleControlPlane db grants).workspaces,
          dto ∈ (getAccessibleControlPlane db more).workspaces) ∧
        (∀ dto ∈ (getAccessibleControlPlane db grants).organizations,
          dto ∈ (getAccessibleControlPlane db more).organizations) ∧
        ∀ jobId connection job,
          (postgres.run (getTenantValidationJob grants jobId) db.product .idle).1 =
            .ok (.found connection job) →
          (postgres.run (getTenantValidationJob more jobId) db.product .idle).1 =
            .ok (.found connection job) := by
  refine ⟨getAccessibleControlPlane_eq db grants, fun _ => mem_workspaces,
    workspaces_nodup db grants, fun _ => mem_organizations, organizations_nodup db grants,
    fun _ _ => getTenantValidationJob_missing, ?_, ?_⟩
  · intro jobId id job hid hjob
    obtain ⟨connection, hconnection⟩ := hdb.connection hjob
    exact ⟨connection, hconnection, getTenantValidationJob_listed hdb hid hjob hconnection⟩
  · intro more hmore
    exact ⟨fun _ => workspaces_mono hmore, fun _ => organizations_mono hmore,
      fun _ _ _ => getTenantValidationJob_mono hdb hmore⟩

def samplePlaneJob : Job :=
  ⟨4, 3, .queued, .tenantValidation, none, none, 0, 0, none, none⟩

def samplePlaneConnection : TenantConnection :=
  ⟨3, 1, 2, .validating, none, [], [], [], []⟩

/-- One organization with one workspace, whose validation is queued. -/
def samplePlane : ControlPlaneStore where
  product :=
    { Store.empty (Table.put ∅ ⟨2, 1⟩) with
      tenantConnections := Table.put ∅ samplePlaneConnection
      jobs := Table.put ∅ samplePlaneJob }
  organizations := Table.put ∅ ⟨1, []⟩
  workspaceName := fun _ => []

theorem samplePlane_foreignKeys : ForeignKeys samplePlane := by
  have hput : ∀ {ρ : Type} [Keyed ρ Uuid] (r row : ρ), row ∈ Table.put ∅ r → row = r := by
    intro ρ _ r row h
    rcases Table.mem_put.mp h with heq | ⟨hnone, -⟩
    · exact heq
    · cases hnone
  refine ⟨fun row h => ?_, fun row h => ?_, fun row h => ?_, fun row h => ?_, ?_, ?_, ?_⟩
  · rw [hput _ row h]
    exact ⟨_, Table.mem_put_self _ _, rfl⟩
  · rw [hput _ row h]
    exact ⟨_, Table.mem_put_self _ _, rfl⟩
  · rw [hput _ row h]
    exact ⟨_, Table.mem_put_self _ _, rfl, rfl⟩
  · rw [hput _ row h]
    exact ⟨_, Table.mem_put_self _ _, rfl⟩
  all_goals exact fun row h => by cases h

/-- A grant on another workspace of the organization hides the job. -/
theorem one_readability_hidden :
    (postgres.run (getTenantValidationJob [⟨1, .write, .workspace 5⟩] (uuidOut 4))
      samplePlane.product .idle).1 = .ok .notFound := by
  obtain ⟨-, -, -, -, -, -, hfound, -⟩ := one_readability samplePlane samplePlane_foreignKeys
    [⟨1, .write, .workspace 5⟩]
  obtain ⟨connection, hconnection, hrun⟩ := hfound (uuidOut 4) 4 samplePlaneJob
    (by decide +kernel) (by decide)
  rw [hrun, if_neg]
  rintro ⟨dto, hdto, -⟩
  revert hdto
  rw [show (getAccessibleControlPlane samplePlane [⟨1, .write, .workspace 5⟩]).workspaces = [] by
    decide]
  exact List.not_mem_nil

end InboxSaas.Product
