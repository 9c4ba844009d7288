import InboxSaas.Auth.SignUp
import InboxSaas.Product.ForeignKeys

/-!
# Accounts and their control planes

The procedure that lists what a signed-in user may see, and what sign-ups keep of it: every user has
one grant, on an organization of its own with one workspace, and no other sign-up changes this.
-/

namespace InboxSaas.Auth

open Encoding Product Reasoning

/-! ## Signing up and looking -/

/-- A sign-up; nothing is stored where the hook or the database refuses. -/
def signUp (ids : ControlPlaneIds) (user : NewUser Json) (db : AccountStore) : Option AccountStore :=
  match beforeCreateUser user with
  | none => none
  | some stored => (insertUser ids stored db).toOption

def getUserAccessGrants (db : AccountStore) (userId : List Char) : List AccessGrant :=
  (db.accessGrants.rows.filter (fun row => row.userId = userId)).map AccessGrantRow.grant

inductive ControlPlaneAnswer where
  | unauthorized
  | ok (plane : AccessibleControlPlane)
  deriving DecidableEq, Repr

/-- The `controlPlane` procedure behind `requireAuth`; a session holds the id of its user. -/
def controlPlane (db : AccountStore) (session : Option (List Char)) : ControlPlaneAnswer :=
  match session with
  | none => .unauthorized
  | some userId => .ok (getAccessibleControlPlane db.controlPlane (getUserAccessGrants db userId))

/-! ## One sign-up -/

/-- The user and the rows of the trigger. -/
def AccountStore.join (ids : ControlPlaneIds) (row : UserRow) (db : AccountStore) :
    AccountStore where
  users := db.users.put row
  accessGrants := db.accessGrants.put
    ⟨ids.accessGrantId, row.id, ⟨ids.organizationId, .write, .organization⟩⟩
  controlPlane :=
    { product :=
        { db.controlPlane.product with
          workspaces :=
            db.controlPlane.product.workspaces.put ⟨ids.workspaceId, ids.organizationId⟩ }
      organizations := db.controlPlane.organizations.put
        ⟨ids.organizationId, row.initialOrganizationName.flatMap encodeChar⟩
      workspaceName := fun id =>
        if id = ids.workspaceId then js "Default" else db.controlPlane.workspaceName id }

/-- None of the rows is taken. -/
structure Joins (ids : ControlPlaneIds) (row : UserRow) (db : AccountStore) : Prop where
  user : db.users.find row.id = none
  organization : db.controlPlane.organizations.find ids.organizationId = none
  workspace : db.controlPlane.product.workspaces.find ids.workspaceId = none
  accessGrant : db.accessGrants.find ids.accessGrantId = none

theorem createInitialControlPlane_eq {ids : ControlPlaneIds} {row : UserRow} {db db' : AccountStore}
    (huser : db.users.find row.id = none)
    (h : createInitialControlPlane ids row { db with users := db.users.put row } = .ok db') :
    Joins ids row db ∧ db' = db.join ids row := by
  unfold createInitialControlPlane at h
  split at h
  · cases h
  rename_i horganization
  split at h
  · cases h
  rename_i hworkspace
  split at h
  · cases h
  rename_i hgrant
  dsimp only at h
  split at h
  · cases h
  refine ⟨⟨huser, ?_, ?_, ?_⟩, (Except.ok.inj h).symm⟩
  · exact Option.not_isSome_iff_eq_none.mp horganization
  · exact Option.not_isSome_iff_eq_none.mp hworkspace
  · exact Option.not_isSome_iff_eq_none.mp hgrant

theorem textParameter_eq {value : JsString} {text : List Char} (h : textParameter value = .ok text) :
    text = chars value := by
  unfold textParameter at h
  split at h
  · cases h
  · exact (Except.ok.inj h).symm

/-- The row of a new user: the name of its organization is what the hook made of it. -/
def newUserRow (user : NewUser Json) (name : JsString) : UserRow :=
  ⟨chars user.id, chars user.name, chars user.email, chars (trim name)⟩

theorem insertUser_eq {ids : ControlPlaneIds} {user : NewUser JsString} {db db' : AccountStore}
    (h : insertUser ids user db = .ok db') :
    let row : UserRow := ⟨chars user.id, chars user.name, chars user.email,
      chars user.initialOrganizationName⟩
    Joins ids row db ∧ db' = db.join ids row := by
  unfold insertUser at h
  obtain ⟨id, hid, h⟩ := bind_eq_ok.mp h
  obtain ⟨name, hname, h⟩ := bind_eq_ok.mp h
  obtain ⟨email, hemail, h⟩ := bind_eq_ok.mp h
  obtain ⟨organizationName, horganizationName, h⟩ := bind_eq_ok.mp h
  rw [textParameter_eq hid, textParameter_eq hname, textParameter_eq hemail,
    textParameter_eq horganizationName] at h
  dsimp only at h
  split at h
  · cases h
  split at h
  · cases h
  rename_i huser
  split at h
  · cases h
  exact createInitialControlPlane_eq (Option.not_isSome_iff_eq_none.mp huser) h

/-- A sign-up that succeeds adds one user with everything that belongs to it. -/
theorem signUp_eq_some {ids : ControlPlaneIds} {user : NewUser Json} {db db' : AccountStore}
    (h : signUp ids user db = some db') :
    ∃ name, user.initialOrganizationName = .string name ∧
      2 ≤ zodLength (trim name) ∧ zodLength (trim name) ≤ 100 ∧
      Joins ids (newUserRow user name) db ∧ db' = db.join ids (newUserRow user name) := by
  unfold signUp at h
  cases hstored : beforeCreateUser user with
  | none =>
      rw [hstored] at h
      cases h
  | some stored =>
      rw [hstored] at h
      have hinsert : insertUser ids stored db = .ok db' := by
        dsimp only at h
        cases hr : insertUser ids stored db with
        | error e =>
            rw [hr] at h
            cases h
        | ok db'' =>
            rw [hr] at h
            rw [Option.some.inj h]
      cases hname : user.initialOrganizationName with
      | string name =>
          obtain ⟨hlength, rfl⟩ := (beforeCreateUser_string hname).mp hstored
          exact ⟨name, rfl, hlength.1, hlength.2, insertUser_eq hinsert⟩
      | _ =>
          rw [beforeCreateUser, hname] at hstored
          cases hstored

/-! ## Homes -/

/-- What belongs to one user: one grant, on one organization, with one workspace. -/
structure Home (db : AccountStore) (user : UserRow) (ids : ControlPlaneIds) : Prop where
  grants : db.accessGrants.rows.filter (fun row => row.userId = user.id) =
    [⟨ids.accessGrantId, user.id, ⟨ids.organizationId, .write, .organization⟩⟩]
  organization : db.controlPlane.organizations.find ids.organizationId =
    some ⟨ids.organizationId, user.initialOrganizationName.flatMap encodeChar⟩
  workspaces : db.controlPlane.product.workspaces.rows.filter
    (fun row => row.organizationId = ids.organizationId) = [⟨ids.workspaceId, ids.organizationId⟩]
  name : db.controlPlane.workspaceName ids.workspaceId = js "Default"

/-- Every user has a home, and everything stored is part of one. -/
structure Homes (db : AccountStore) : Prop where
  home : ∀ user ∈ db.users, ∃ ids, Home db user ids
  grantUser : ∀ row ∈ db.accessGrants, (db.users.find row.userId).isSome = true
  grantOrganization : ∀ row ∈ db.accessGrants,
    (db.controlPlane.organizations.find row.grant.organizationId).isSome = true
  apart : ∀ row ∈ db.accessGrants, ∀ other ∈ db.accessGrants,
    row.grant.organizationId = other.grant.organizationId → row = other
  workspaceOrganization : ∀ row ∈ db.controlPlane.product.workspaces,
    (db.controlPlane.organizations.find row.organizationId).isSome = true

section

variable {db : AccountStore} {ids : ControlPlaneIds} {user row : UserRow}

theorem find_ne_of_none {ρ κ : Type} [Keyed ρ κ] [DecidableEq κ] {t : Table ρ} {k k' : κ}
    (h : t.find k = none) (h' : (t.find k').isSome = true) : k ≠ k' := by
  rintro rfl
  rw [h] at h'
  cases h'

theorem isSome_find_put {ρ κ : Type} [Keyed ρ κ] [DecidableEq κ] {t : Table ρ} {r : ρ} {k : κ}
    (h : (t.find k).isSome = true) : ((t.put r).find k).isSome = true := by
  rw [Table.find_put]
  split
  · rfl
  · exact h

/-- The home of the new user. -/
theorem Homes.home_join (h : Homes db) (hjoins : Joins ids row db) :
    Home (db.join ids row) row ids where
  grants := by
    have hnone : db.accessGrants.rows.filter (fun grant => grant.userId = row.id) = [] := by
      rw [List.filter_eq_nil_iff]
      intro grant hgrant hsame
      rw [decide_eq_true_iff] at hsame
      exact find_ne_of_none hjoins.user (h.grantUser grant hgrant) hsame.symm
    change (db.accessGrants.put _).rows.filter _ = _
    rw [Table.rows_put_of_find_none hjoins.accessGrant, List.filter_append, hnone]
    simp
  organization := Table.find_put_self _ _
  workspaces := by
    have hnone : db.controlPlane.product.workspaces.rows.filter
        (fun workspace => workspace.organizationId = ids.organizationId) = [] := by
      rw [List.filter_eq_nil_iff]
      intro workspace hworkspace hsame
      rw [decide_eq_true_iff] at hsame
      exact find_ne_of_none hjoins.organization (h.workspaceOrganization workspace hworkspace)
        hsame.symm
    change (db.controlPlane.product.workspaces.put _).rows.filter _ = _
    rw [Table.rows_put_of_find_none hjoins.workspace, List.filter_append, hnone]
    simp
  name := if_pos rfl

theorem Home.mem_accessGrants (h : Home db user ids) :
    ⟨ids.accessGrantId, user.id, ⟨ids.organizationId, .write, .organization⟩⟩ ∈
      db.accessGrants := by
  refine List.mem_of_mem_filter (p := fun row => row.userId = user.id) ?_
  rw [h.grants]
  exact List.mem_singleton_self _

theorem Home.mem_workspaces (h : Home db user ids) :
    ⟨ids.workspaceId, ids.organizationId⟩ ∈ db.controlPlane.product.workspaces := by
  refine List.mem_of_mem_filter (p := fun row => row.organizationId = ids.organizationId) ?_
  rw [h.workspaces]
  exact List.mem_singleton_self _

/-- A sign-up leaves every other home as it is. -/
theorem Home.join (h : Home db user ids) {ids' : ControlPlaneIds} (hjoins : Joins ids' row db)
    (huser : user ∈ db.users) : Home (db.join ids' row) user ids where
  grants := by
    have hfound : db.users.find user.id = some user := Table.find_of_mem huser
    have hne : row.id ≠ user.id := find_ne_of_none hjoins.user (by rw [hfound]; rfl)
    change (db.accessGrants.put _).rows.filter _ = _
    rw [Table.rows_put_of_find_none hjoins.accessGrant, List.filter_append, h.grants]
    simp [hne]
  organization := by
    have hne : ids'.organizationId ≠ ids.organizationId :=
      find_ne_of_none hjoins.organization (by rw [h.organization]; rfl)
    exact (Table.find_put_ne _ hne).trans h.organization
  workspaces := by
    have hne : ids'.organizationId ≠ ids.organizationId :=
      find_ne_of_none hjoins.organization (by rw [h.organization]; rfl)
    change (db.controlPlane.product.workspaces.put _).rows.filter _ = _
    rw [Table.rows_put_of_find_none hjoins.workspace, List.filter_append, h.workspaces]
    simp [hne]
  name := by
    have hfound : db.controlPlane.product.workspaces.find ids.workspaceId = some _ :=
      Table.find_of_mem h.mem_workspaces
    have hne : ids'.workspaceId ≠ ids.workspaceId :=
      find_ne_of_none hjoins.workspace (by rw [hfound]; rfl)
    exact (if_neg (Ne.symm hne)).trans h.name

theorem Homes.empty : Homes ⟨∅, ∅, ⟨.empty ∅, ∅, fun _ => []⟩⟩ where
  home _ h := absurd h List.not_mem_nil
  grantUser _ h := absurd h List.not_mem_nil
  grantOrganization _ h := absurd h List.not_mem_nil
  apart _ h := absurd h List.not_mem_nil
  workspaceOrganization _ h := absurd h List.not_mem_nil

theorem Homes.join (h : Homes db) (hjoins : Joins ids row db) : Homes (db.join ids row) where
  home user huser := by
    rcases Table.mem_put.mp huser with rfl | ⟨hold, -⟩
    · exact ⟨ids, h.home_join hjoins⟩
    · obtain ⟨ids', hhome⟩ := h.home user hold
      exact ⟨ids', hhome.join hjoins hold⟩
  grantUser grant hgrant := by
    rcases Table.mem_put.mp hgrant with rfl | ⟨hold, -⟩
    · have hself : (db.users.put row).find row.id = some row := Table.find_put_self db.users row
      exact Option.isSome_iff_exists.mpr ⟨_, hself⟩
    · exact isSome_find_put (h.grantUser grant hold)
  grantOrganization grant hgrant := by
    rcases Table.mem_put.mp hgrant with rfl | ⟨hold, -⟩
    · have hself := Table.find_put_self db.controlPlane.organizations
        ⟨ids.organizationId, row.initialOrganizationName.flatMap encodeChar⟩
      exact Option.isSome_iff_exists.mpr ⟨_, hself⟩
    · exact isSome_find_put (h.grantOrganization grant hold)
  apart grant hgrant other hother hsame := by
    rcases Table.mem_put.mp hgrant with rfl | ⟨hold, -⟩
    · rcases Table.mem_put.mp hother with rfl | ⟨hold', -⟩
      · rfl
      · exact absurd hsame
          (find_ne_of_none hjoins.organization (h.grantOrganization other hold'))
    · rcases Table.mem_put.mp hother with rfl | ⟨hold', -⟩
      · exact absurd hsame.symm
          (find_ne_of_none hjoins.organization (h.grantOrganization grant hold))
      · exact h.apart grant hold other hold' hsame
  workspaceOrganization workspace hworkspace := by
    rcases Table.mem_put.mp hworkspace with rfl | ⟨hold, -⟩
    · have hself := Table.find_put_self db.controlPlane.organizations
        ⟨ids.organizationId, row.initialOrganizationName.flatMap encodeChar⟩
      exact Option.isSome_iff_exists.mpr ⟨_, hself⟩
    · exact isSome_find_put (h.workspaceOrganization workspace hold)

/-- Homes depend on the workspaces alone among the product tables. -/
theorem Homes.withProduct (h : Homes db) {product : Store}
    (hworkspaces : product.workspaces = db.controlPlane.product.workspaces) :
    Homes { db with controlPlane := db.controlPlane.withProduct product } where
  home user huser := by
    obtain ⟨ids, hhome⟩ := h.home user huser
    refine ⟨ids, hhome.grants, hhome.organization, ?_, hhome.name⟩
    change product.workspaces.rows.filter _ = _
    rw [hworkspaces]
    exact hhome.workspaces
  grantUser := h.grantUser
  grantOrganization := h.grantOrganization
  apart := h.apart
  workspaceOrganization row hrow := by
    change row ∈ product.workspaces at hrow
    rw [hworkspaces] at hrow
    exact h.workspaceOrganization row hrow

/-- What the user of a home sees. -/
theorem Home.controlPlane (h : Home db user ids) : controlPlane db (some user.id) =
    .ok ⟨[⟨ids.organizationId, user.initialOrganizationName.flatMap encodeChar⟩],
      [⟨ids.workspaceId, ids.organizationId, js "Default"⟩]⟩ := by
  have hgrants : getUserAccessGrants db user.id = [⟨ids.organizationId, .write, .organization⟩] := by
    rw [getUserAccessGrants, h.grants]
    rfl
  rw [Auth.controlPlane, hgrants, getAccessibleControlPlane_eq]
  have horganizations : db.controlPlane.organizations.rows.filter (fun row =>
      isAuthorized [⟨ids.organizationId, .write, .organization⟩] (readOrganization row.id)) =
      [⟨ids.organizationId, user.initialOrganizationName.flatMap encodeChar⟩] := by
    rw [← Table.filter_key h.organization]
    apply List.filter_congr
    intro row _
    simp [isAuthorized, readOrganization, eq_comm]
  have hworkspaces : db.controlPlane.product.workspaces.rows.filter (fun row =>
      isAuthorized [⟨ids.organizationId, .write, .organization⟩]
        (readWorkspace row.organizationId row.id)) = [⟨ids.workspaceId, ids.organizationId⟩] := by
    rw [← h.workspaces]
    apply List.filter_congr
    intro row _
    simp [isAuthorized, readWorkspace, eq_comm]
  rw [horganizations, hworkspaces]
  simp only [List.map_cons, List.map_nil, organizationDto, ControlPlaneStore.workspaceDto, h.name]

/-- Nobody else sees anything. -/
theorem Homes.stranger (h : Homes db) {userId : List Char} (hnone : db.users.find userId = none) :
    controlPlane db (some userId) = .ok ⟨[], []⟩ := by
  have hgrants : getUserAccessGrants db userId = [] := by
    rw [getUserAccessGrants, List.map_eq_nil_iff, List.filter_eq_nil_iff]
    intro row hrow hsame
    rw [decide_eq_true_iff] at hsame
    exact find_ne_of_none hnone (h.grantUser row hrow) hsame.symm
  rw [controlPlane, hgrants]
  rfl

/-- No two users have an organization or a workspace in common. -/
theorem Homes.disjoint (h : Homes db) {userId otherId : List Char} (hne : userId ≠ otherId)
    {plane other : AccessibleControlPlane} (hplane : controlPlane db (some userId) = .ok plane)
    (hother : controlPlane db (some otherId) = .ok other) :
    (∀ a ∈ plane.organizations, ∀ b ∈ other.organizations, a.id ≠ b.id) ∧
      ∀ a ∈ plane.workspaces, ∀ b ∈ other.workspaces, a.id ≠ b.id := by
  rcases huser : db.users.find userId with _ | user
  · rw [h.stranger huser] at hplane
    cases hplane
    exact ⟨fun _ h => absurd h List.not_mem_nil, fun _ h => absurd h List.not_mem_nil⟩
  rcases huser' : db.users.find otherId with _ | user'
  · rw [h.stranger huser'] at hother
    cases hother
    exact ⟨fun _ _ _ h => absurd h List.not_mem_nil, fun _ _ _ h => absurd h List.not_mem_nil⟩
  obtain ⟨ids, hhome⟩ := h.home user (Table.mem_of_find huser)
  obtain ⟨ids', hhome'⟩ := h.home user' (Table.mem_of_find huser')
  obtain rfl : user.id = userId := Table.key_of_find huser
  obtain rfl : user'.id = otherId := Table.key_of_find huser'
  rw [hhome.controlPlane] at hplane
  rw [hhome'.controlPlane] at hother
  cases hplane
  cases hother
  have horganization : ids.organizationId ≠ ids'.organizationId := fun hsame =>
    hne (congrArg AccessGrantRow.userId (h.apart _ hhome.mem_accessGrants _
      hhome'.mem_accessGrants hsame))
  refine ⟨fun a ha b hb => ?_, fun a ha b hb hsame => horganization ?_⟩
  · rw [List.mem_singleton.mp ha, List.mem_singleton.mp hb]
    exact horganization
  · rw [List.mem_singleton.mp ha, List.mem_singleton.mp hb] at hsame
    exact congrArg Workspace.organizationId
      (Table.eq_of_key_eq hhome.mem_workspaces hhome'.mem_workspaces hsame)

end

end InboxSaas.Auth
