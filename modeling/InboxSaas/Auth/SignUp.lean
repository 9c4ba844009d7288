import InboxSaas.Encoding.Trim
import InboxSaas.Product.ControlPlane
import InboxSaas.Product.Text

/-!
# Sign-up

The hook that runs before a user is created, the `user` table with its constraints, and the trigger
that gives every new user an organization.  The hook trims white space of the organization name and
the constraint blanks; both count characters, the hook because zod does.
-/

namespace InboxSaas.Auth

open Encoding Product Reasoning

/-! ## The hook -/

/-- A user about to be created: the columns that the database constrains.  `initialOrganizationName`
is a value of the request before the hook and a string after it. -/
structure NewUser (Name : Type) where
  id : JsString
  name : JsString
  email : JsString
  initialOrganizationName : Name

/-- What zod takes for the length of a string: its code points, an unpaired surrogate being one. -/
def zodLength (value : JsString) : Nat := (chars value).length

/-- `z.string().trim().min(2).max(100).safeParse`, by a given measure of strings. -/
def parseOrganizationName (length : JsString → Nat) (initialOrganizationName : Json) :
    Option JsString :=
  match initialOrganizationName with
  | .string value =>
      if 2 ≤ length (trim value) ∧ length (trim value) ≤ 100 then some (trim value) else none
  | _ => none

/-- `databaseHooks.user.create.before`; `none` stands for `false`, which abandons the creation. -/
def beforeCreateUser (user : NewUser Json) : Option (NewUser JsString) :=
  match parseOrganizationName zodLength user.initialOrganizationName with
  | none => none
  | some data => some ⟨user.id, user.name, user.email, data⟩

/-! ## The database -/

structure UserRow where
  id : List Char
  name : List Char
  email : List Char
  initialOrganizationName : List Char
  deriving DecidableEq, Repr

structure AccessGrantRow where
  id : Uuid
  userId : List Char
  grant : AccessGrant
  deriving DecidableEq, Repr

instance : Keyed UserRow (List Char) := ⟨UserRow.id⟩

instance : Keyed AccessGrantRow Uuid := ⟨AccessGrantRow.id⟩

structure AccountStore where
  users : Table UserRow
  accessGrants : Table AccessGrantRow
  controlPlane : ControlPlaneStore

/-- Why an insert is refused. -/
inductive InsertError where
  | invalidByteSequence
  | checkViolation (constraint : String)
  | uniqueViolation (constraint : String)
  deriving DecidableEq, Repr

/-- A parameter of type `text`: the driver sends it as UTF-8, and the server refuses U+0000. -/
def textParameter (value : JsString) : Except InsertError (List Char) :=
  if 0 ∈ value then .error .invalidByteSequence else .ok (chars value)

def btrim (text : List Char) : List Char := trimEnds (· == ' ') text

/-- `user_initial_organization_name_check`. -/
def userInitialOrganizationNameCheck (initialOrganizationName : List Char) : Bool :=
  (2 ≤ initialOrganizationName.length && initialOrganizationName.length ≤ 100) &&
    initialOrganizationName = btrim initialOrganizationName

/-- The ids that `gen_random_uuid` draws for the rows of the trigger. -/
structure ControlPlaneIds where
  organizationId : Uuid
  workspaceId : Uuid
  accessGrantId : Uuid

/-- The trigger `create_initial_control_plane` on the inserted row.  Its foreign keys refer to the
rows it inserts and to the new user, so they hold. -/
def createInitialControlPlane (ids : ControlPlaneIds) (new : UserRow) (db : AccountStore) :
    Except InsertError AccountStore :=
  let grant : AccessGrant := ⟨ids.organizationId, .write, .organization⟩
  if (db.controlPlane.organizations.find ids.organizationId).isSome then
    .error (.uniqueViolation "organization_pkey")
  else if (db.controlPlane.product.workspaces.find ids.workspaceId).isSome then
    .error (.uniqueViolation "workspace_pkey")
  else if (db.accessGrants.find ids.accessGrantId).isSome then
    .error (.uniqueViolation "access_grant_pkey")
  else if db.accessGrants.rows.any (fun row => row.userId = new.id && row.grant = grant) then
    .error (.uniqueViolation "access_grant_organization_uidx")
  else
    .ok { db with
      accessGrants := db.accessGrants.put ⟨ids.accessGrantId, new.id, grant⟩
      controlPlane :=
        { product :=
            { db.controlPlane.product with
              workspaces :=
                db.controlPlane.product.workspaces.put ⟨ids.workspaceId, ids.organizationId⟩ }
          organizations := db.controlPlane.organizations.put
            ⟨ids.organizationId, new.initialOrganizationName.flatMap encodeChar⟩
          workspaceName := fun id =>
            if id = ids.workspaceId then js "Default" else db.controlPlane.workspaceName id } }

/-- The insert of a user, with the trigger that runs after it. -/
def insertUser (ids : ControlPlaneIds) (user : NewUser JsString) (db : AccountStore) :
    Except InsertError AccountStore := do
  let id ← textParameter user.id
  let name ← textParameter user.name
  let email ← textParameter user.email
  let initialOrganizationName ← textParameter user.initialOrganizationName
  let row : UserRow := ⟨id, name, email, initialOrganizationName⟩
  if !userInitialOrganizationNameCheck row.initialOrganizationName then
    .error (.checkViolation "user_initial_organization_name_check")
  else if (db.users.find row.id).isSome then .error (.uniqueViolation "user_pkey")
  else if db.users.rows.any (fun other => other.email = row.email) then
    .error (.uniqueViolation "user_email_unique")
  else createInitialControlPlane ids row { db with users := db.users.put row }

/-- Nothing but the organization name stands in the way of the insert. -/
structure Insertable (ids : ControlPlaneIds) (user : NewUser JsString) (db : AccountStore) :
    Prop where
  id_text : 0 ∉ user.id
  name_text : 0 ∉ user.name
  email_text : 0 ∉ user.email
  id_fresh : db.users.find (chars user.id) = none
  email_fresh : ∀ row ∈ db.users, row.email ≠ chars user.email
  organization_fresh : db.controlPlane.organizations.find ids.organizationId = none
  workspace_fresh : db.controlPlane.product.workspaces.find ids.workspaceId = none
  accessGrant_fresh : db.accessGrants.find ids.accessGrantId = none
  -- grants belong to stored organizations
  grant_fresh : ∀ row ∈ db.accessGrants, row.grant.organizationId ≠ ids.organizationId

/-! ## The two validators -/

/-- What the hook accepts under this name, the database takes. -/
structure AcceptedByDatabase (name : JsString) : Prop where
  check : ∀ user stored, user.initialOrganizationName = .string name →
    beforeCreateUser user = some stored →
    userInitialOrganizationNameCheck (chars stored.initialOrganizationName) = true
  insert : ∀ user stored ids db, user.initialOrganizationName = .string name →
    beforeCreateUser user = some stored → Insertable ids stored db →
    ∃ db', insertUser ids stored db = .ok db'

theorem beforeCreateUser_string {user : NewUser Json} {stored : NewUser JsString} {name : JsString}
    (h : user.initialOrganizationName = .string name) :
    beforeCreateUser user = some stored ↔
      (2 ≤ zodLength (trim name) ∧ zodLength (trim name) ≤ 100) ∧
        stored = ⟨user.id, user.name, user.email, trim name⟩ := by
  rw [beforeCreateUser, h, parseOrganizationName]
  by_cases hlength : 2 ≤ zodLength (trim name) ∧ zodLength (trim name) ≤ 100
  · rw [if_pos hlength]
    change some _ = some stored ↔ _
    rw [Option.some.injEq, eq_comm, and_iff_right hlength]
  · rw [if_neg hlength]
    constructor
    · intro hnone
      cases hnone
    · intro hstored
      exact absurd hstored.1 hlength

/-- White space includes the blank, so the trimmed text has no blank at its ends. -/
theorem btrim_chars_trim (name : JsString) : btrim (chars (trim name)) = chars (trim name) := by
  have htrimmed := trimmed_trimEnds isWhiteSpace name
  have hblank : isWhiteSpace 0x20 = true := rfl
  apply Trimmed.trimEnds_eq
  constructor
  · intro c hc
    rw [beq_eq_false_iff_ne]
    intro h
    rw [h] at hc
    have hfirst := htrimmed.first _ (head?_of_chars (by decide) hc)
    exact Bool.false_ne_true (hfirst.symm.trans hblank)
  · intro c hc
    rw [beq_eq_false_iff_ne]
    intro h
    rw [h] at hc
    have hlast := htrimmed.last _ (getLast?_of_chars (by decide) hc)
    exact Bool.false_ne_true (hlast.symm.trans hblank)

/-- The constraint takes a trimmed name exactly if its length is in the bounds of the hook. -/
theorem userInitialOrganizationNameCheck_trim (name : JsString) :
    userInitialOrganizationNameCheck (chars (trim name)) = true ↔
      2 ≤ zodLength (trim name) ∧ zodLength (trim name) ≤ 100 := by
  rw [userInitialOrganizationNameCheck, btrim_chars_trim]
  simp [zodLength]

/-! ## The insert -/

theorem createInitialControlPlane_ok {ids : ControlPlaneIds} {user : NewUser JsString}
    {db : AccountStore} (h : Insertable ids user db) (new : UserRow) (users : Table UserRow) :
    ∃ db', createInitialControlPlane ids new { db with users := users } = .ok db' := by
  have hgrant : ¬ db.accessGrants.rows.any (fun row => row.userId = new.id &&
      row.grant = (⟨ids.organizationId, .write, .organization⟩ : AccessGrant)) = true := by
    intro hany
    have ⟨row, hrow, hsame⟩ := List.any_eq_true.mp hany
    rw [Bool.and_eq_true, decide_eq_true_eq, decide_eq_true_eq] at hsame
    exact h.grant_fresh row hrow (congrArg AccessGrant.organizationId hsame.2)
  simp only [createInitialControlPlane, h.organization_fresh, h.workspace_fresh,
    h.accessGrant_fresh, Option.isSome_none, Bool.false_eq_true, if_false, if_neg hgrant]
  exact ⟨_, rfl⟩

theorem insertUser_ok {ids : ControlPlaneIds} {user : NewUser JsString} {db : AccountStore}
    (h : Insertable ids user db) (hnul : 0 ∉ user.initialOrganizationName)
    (hcheck : userInitialOrganizationNameCheck (chars user.initialOrganizationName) = true) :
    ∃ db', insertUser ids user db = .ok db' := by
  have hemail : ¬ db.users.rows.any (fun other => other.email = chars user.email) = true := by
    intro hany
    have ⟨row, hrow, hsame⟩ := List.any_eq_true.mp hany
    exact h.email_fresh row hrow (of_decide_eq_true hsame)
  have htext : ∀ {value : JsString}, 0 ∉ value → textParameter value = .ok (chars value) :=
    fun hvalue => if_neg hvalue
  simp only [insertUser, htext h.id_text, htext h.name_text, htext h.email_text, htext hnul,
    bind, Except.bind, hcheck, h.id_fresh, Bool.not_true, Bool.false_eq_true, if_false,
    Option.isSome_none, if_neg hemail]
  exact createInitialControlPlane_ok h _ _

/-- What the hook accepts, the database takes. -/
theorem signUp_names (name : JsString) (hnul : 0 ∉ name) : AcceptedByDatabase name := by
  have hcheck : ∀ (user : NewUser Json) (stored : NewUser JsString),
      user.initialOrganizationName = .string name → beforeCreateUser user = some stored →
      stored.initialOrganizationName = trim name ∧
        userInitialOrganizationNameCheck (chars stored.initialOrganizationName) = true := by
    intro user stored huser hstored
    have ⟨hlength, heq⟩ := (beforeCreateUser_string huser).mp hstored
    rw [heq]
    exact ⟨rfl, (userInitialOrganizationNameCheck_trim name).mpr hlength⟩
  constructor
  · intro user stored huser hstored
    exact (hcheck user stored huser hstored).2
  · intro user stored ids db huser hstored hinsertable
    have ⟨htrim, hcheck⟩ := hcheck user stored huser hstored
    have hnul' : 0 ∉ stored.initialOrganizationName := by
      rw [htrim]
      exact fun h => hnul (trimEnds_subset isWhiteSpace name h)
    exact insertUser_ok hinsertable hnul' hcheck

/-- A name of two characters outside the Basic Multilingual Plane is accepted by both. -/
theorem signUp_names_example : AcceptedByDatabase (js " 😀😀 ") :=
  signUp_names _ (by decide)

/-- U+1F600 is two code units and one character.  By a measure in code units the name would be
accepted and the insert refused; the hook, which counts as the constraint does, refuses it. -/
theorem grinning_face_refused :
    0 ∉ js "😀" ∧
      parseOrganizationName List.length (.string (js "😀")) = some (js "😀") ∧
      userInitialOrganizationNameCheck (chars (js "😀")) = false ∧
      (∀ ids id name email db, 0 ∉ id → 0 ∉ name → 0 ∉ email →
        insertUser ids ⟨id, name, email, js "😀"⟩ db =
          .error (.checkViolation "user_initial_organization_name_check")) ∧
      ∀ user : NewUser Json, user.initialOrganizationName = .string (js "😀") →
        beforeCreateUser user = none := by
  have hcheck : userInitialOrganizationNameCheck (chars (js "😀")) = false := by decide
  refine ⟨by decide, by decide, hcheck, fun ids id name email db hid hname hemail => ?_,
    fun user huser => ?_⟩
  · have htext : ∀ {value : JsString}, 0 ∉ value → textParameter value = .ok (chars value) :=
      fun hvalue => if_neg hvalue
    simp only [insertUser, htext hid, htext hname, htext hemail,
      htext (show 0 ∉ js "😀" by decide), bind, Except.bind, hcheck]
    rfl
  · cases hstored : beforeCreateUser user with
    | none => rfl
    | some stored =>
        have hlength := ((beforeCreateUser_string huser).mp hstored).1
        exact absurd hlength (by decide)

end InboxSaas.Auth
