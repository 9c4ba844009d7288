import Mathlib.Data.List.Induction
import InboxSaas.Encoding.Base64
import InboxSaas.Product.Access
import InboxSaas.Product.Text

/-!
# API keys

A token is `inbx_`, a prefix that finds its row, and a secret.  Only the SHA-256 digest of the
whole token is stored; the digest is a parameter.
-/

namespace InboxSaas.Product

open Reasoning

/-- `access_grant_scope` -/
inductive GrantScope where
  | organization
  | workspace
  deriving DecidableEq, Repr

structure ApiKey where
  id : Uuid
  tokenPrefix : JsString
  secretHash : JsString
  creatorUserId : JsString
  organizationId : Uuid
  workspaceId : Option Uuid
  permission : Permission
  scope : GrantScope
  expiresAt : Time
  revokedAt : Option Time
  createdAt : Time
  deriving DecidableEq, Repr

instance : Keyed ApiKey Uuid := ⟨ApiKey.id⟩

@[simp] theorem key_apiKey (r : ApiKey) : key r = r.id := rfl

/-- The tables an API key refers to, and the keys. -/
structure ApiKeyStore where
  users : List JsString
  organizations : Table Organization
  workspaces : Table Workspace
  apiKeys : Table ApiKey

def ApiKeyStore.initial (users : List JsString) (organizations : Table Organization)
    (workspaces : Table Workspace) : ApiKeyStore :=
  ⟨users, organizations, workspaces, ∅⟩

structure IssueApiKeyInput extends AccessGrant where
  creatorUserId : JsString
  expiresAt : Time
  deriving DecidableEq, Repr

structure IssuedApiKey extends IssueApiKeyInput where
  id : Uuid
  tokenPrefix : JsString
  token : JsString
  createdAt : Time
  deriving DecidableEq, Repr

/-- The clock of the process, the random bytes, and the defaults the database fills in. -/
structure ApiKeyDraw where
  now : Time
  prefixBytes : Bytes
  secretBytes : Bytes
  id : Uuid
  createdAt : Time
  length_prefixBytes : prefixBytes.length = 24
  length_secretBytes : secretBytes.length = 32

/-- `toString("base64url")` -/
def base64Url (bytes : Bytes) : JsString :=
  (Encoding.base64UrlEncode bytes).map (fun c => UInt16.ofNat c.toNat)

def checkViolation : JsError :=
  databaseError "new row for relation violates check constraint" "23514"

namespace ApiKey

/-- `api_key_scope_workspace_check` -/
def scopeWorkspace (row : ApiKey) : Bool :=
  (row.scope = .organization && row.workspaceId.isNone) ||
    (row.scope = .workspace && row.workspaceId.isSome)

end ApiKey

namespace ApiKeyStore

/-- The foreign keys of a row; `api_key_workspace_organization_fk` ignores a null workspace. -/
def refers (db : ApiKeyStore) (row : ApiKey) : Bool :=
  db.users.contains row.creatorUserId && (db.organizations.find row.organizationId).isSome &&
    row.workspaceId.all (fun id =>
      db.workspaces.rows.any (fun w => w.id = id && w.organizationId = row.organizationId))

/-- The row loses against a stored one in a unique index. -/
def duplicates (db : ApiKeyStore) (row : ApiKey) : Bool :=
  db.apiKeys.rows.any (fun other =>
    other.id = row.id || other.tokenPrefix = row.tokenPrefix || other.secretHash = row.secretHash)

/-- The `INSERT` with its `RETURNING`. -/
def insertApiKey (row : ApiKey) (db : ApiKeyStore) : Except JsError (Option ApiKey) × ApiKeyStore :=
  if !row.scopeWorkspace || row.expiresAt ≤ row.createdAt then (.error checkViolation, db)
  else if db.duplicates row then (.error uniqueViolation, db)
  else if !db.refers row then (.error foreignKeyViolation, db)
  else (.ok (some row), { db with apiKeys := db.apiKeys.put row })

/-- `api_key_prefix_unique` makes this the only such row. -/
def apiKeyOfPrefix (db : ApiKeyStore) (tokenPrefix : JsString) : Option ApiKey :=
  db.apiKeys.rows.find? (fun row => row.tokenPrefix = tokenPrefix)

end ApiKeyStore

/-- `timingSafeEqual`, which takes buffers of one length only. -/
def timingSafeEqual (a b : Bytes) : Except JsError Bool :=
  if a.length ≠ b.length then
    .error (.error "Input buffers must have the same byte length"
      (some "ERR_CRYPTO_TIMING_SAFE_EQUAL_LENGTH"))
  else .ok (a = b)

def requireWorkspace : JsError := .new "Workspace API keys require a workspace"

def toAccessGrant (key : ApiKey) : Except JsError AccessGrant :=
  match key.scope, key.workspaceId with
  | .organization, _ => .ok ⟨key.organizationId, key.permission, .organization⟩
  | .workspace, none => .error requireWorkspace
  | .workspace, some workspaceId =>
      .ok ⟨key.organizationId, key.permission, .workspace workspaceId⟩

/-- `[A-Za-z0-9_-]` -/
def isTokenUnit (unit : UInt16) : Bool :=
  (65 ≤ unit && unit ≤ 90) || (97 ≤ unit && unit ≤ 122) || (48 ≤ unit && unit ≤ 57) ||
    unit == 95 || unit == 45

/-- `match[1]` of `/^inbx_([A-Za-z0-9_-]{32})_([A-Za-z0-9_-]{43})$/` -/
def matchToken (token : JsString) : Option JsString :=
  let groups := token.drop 5
  let tokenPrefix := groups.take 32
  if token.length = 81 ∧ token.take 5 = js "inbx_" ∧ tokenPrefix.all isTokenUnit ∧
      (groups.drop 32).head? = some 95 ∧ (groups.drop 33).all isTokenUnit then some tokenPrefix
  else none

section

variable (sha256 : Bytes → Bytes)

def hashToken (token : JsString) : JsString :=
  hexText (sha256 (Encoding.utf8 token))

def ApiKeyDraw.token (draw : ApiKeyDraw) : JsString :=
  js "inbx_" ++ base64Url draw.prefixBytes ++ js "_" ++ base64Url draw.secretBytes

/-- The row that `issueApiKey` inserts. -/
def apiKeyRow (input : IssueApiKeyInput) (draw : ApiKeyDraw) : ApiKey where
  id := draw.id
  tokenPrefix := base64Url draw.prefixBytes
  secretHash := hashToken sha256 draw.token
  creatorUserId := input.creatorUserId
  organizationId := input.organizationId
  workspaceId := match input.scope with
    | .workspace workspaceId => some workspaceId
    | .organization => none
  permission := input.permission
  scope := match input.scope with
    | .workspace _ => .workspace
    | .organization => .organization
  expiresAt := input.expiresAt
  revokedAt := none
  createdAt := draw.createdAt

/-- The result of `issueApiKey`, from the row the database returned. -/
def issuedApiKey (token : JsString) (key : ApiKey) : Except JsError IssuedApiKey :=
  let issued (scope : AccessScope) : IssuedApiKey :=
    { creatorUserId := key.creatorUserId, createdAt := key.createdAt, expiresAt := key.expiresAt,
      id := key.id, organizationId := key.organizationId, permission := key.permission,
      tokenPrefix := key.tokenPrefix, token := token, scope := scope }
  match key.scope, key.workspaceId with
  | .organization, _ => .ok (issued .organization)
  | .workspace, none => .error requireWorkspace
  | .workspace, some workspaceId => .ok (issued (.workspace workspaceId))

def issueApiKey (input : IssueApiKeyInput) (draw : ApiKeyDraw) (db : ApiKeyStore) :
    Except JsError IssuedApiKey × ApiKeyStore :=
  if input.expiresAt ≤ draw.now then (.error (.new "API key expiry must be in the future"), db)
  else
    let (inserted, db) := db.insertApiKey (apiKeyRow sha256 input draw)
    match inserted with
    | .error e => (.error e, db)
    | .ok none => (.error (.new "Failed to issue API key"), db)
    | .ok (some key) => (issuedApiKey draw.token key, db)

def authenticateApiKey (token : JsString) (now : Time) (db : ApiKeyStore) :
    Except JsError (Option AccessGrant) :=
  match matchToken token with
  | none => .ok none
  | some tokenPrefix =>
      if tokenPrefix = [] then .ok none
      else
        let tokenHash := hashToken sha256 token
        match db.apiKeyOfPrefix tokenPrefix with
        | none => .ok none
        | some key =>
            if key.secretHash.length ≠ tokenHash.length then .ok none
            else do
              let same ← timingSafeEqual (Encoding.utf8 key.secretHash) (Encoding.utf8 tokenHash)
              if !same || key.revokedAt.isSome || key.expiresAt ≤ now then
                return none
              else
                let grant ← toAccessGrant key
                return some grant

def revokeApiKey (apiKeyId : JsString) (now : Time) (db : ApiKeyStore) :
    Except JsError Unit × ApiKeyStore :=
  match uuidIn apiKeyId with
  | none => (.error invalidTextRepresentation, db)
  | some id =>
      match (db.apiKeys.find id).filter (fun row => row.revokedAt.isNone) with
      | none => (.ok (), db)
      | some row => (.ok (), { db with apiKeys := db.apiKeys.put { row with revokedAt := some now } })

/-! ## Sequences of calls -/

inductive ApiKeyCall where
  | issue (input : IssueApiKeyInput) (draw : ApiKeyDraw)
  | revoke (apiKeyId : JsString) (now : Time)
  | authenticate (token : JsString) (now : Time)

def ApiKeyCall.run : ApiKeyCall → ApiKeyStore → ApiKeyStore
  | .issue input draw, db => (issueApiKey sha256 input draw db).2
  | .revoke apiKeyId now, db => (revokeApiKey apiKeyId now db).2
  | .authenticate _ _, db => db

def runApiKeyCalls (calls : List ApiKeyCall) (db : ApiKeyStore) : ApiKeyStore :=
  calls.foldl (fun db call => call.run sha256 db) db

/-- One of the calls issued this key, and `after` are the calls that followed it. -/
def Issued (calls : List ApiKeyCall) (db : ApiKeyStore) (input : IssueApiKeyInput)
    (issued : IssuedApiKey) (after : List ApiKeyCall) : Prop :=
  ∃ before draw, calls = before ++ .issue input draw :: after ∧
    (issueApiKey sha256 input draw (runApiKeyCalls sha256 before db)).1 = .ok issued

end

def ApiKeyCall.revokes : ApiKeyCall → Uuid → Prop
  | .revoke apiKeyId _, id => uuidIn apiKeyId = some id
  | _, _ => False

/-- One of the calls revokes the key with this id. -/
def Revoked (calls : List ApiKeyCall) (id : Uuid) : Prop :=
  ∃ call ∈ calls, call.revokes id

/-! ## Tokens -/

theorem length_base64Url (bytes : Bytes) :
    (base64Url bytes).length = (bytes.length * 4 + 2) / 3 := by
  rw [base64Url, List.length_map, Encoding.length_base64UrlEncode]

theorem isTokenUnit_base64Url (bytes : Bytes) : (base64Url bytes).all isTokenUnit = true := by
  have hchar : ∀ n < 64, isTokenUnit (UInt16.ofNat
      (Encoding.base64UrlChar (Encoding.base64Char n)).toNat) = true := by decide
  rw [base64Url, List.all_map, List.all_eq_true]
  exact Encoding.forall_base64UrlEncode (P := fun c => isTokenUnit (UInt16.ofNat c.toNat) = true)
    hchar bytes

theorem isTokenUnit_lt {unit : UInt16} (h : isTokenUnit unit = true) : unit.toNat < 0x80 := by
  simp only [isTokenUnit, Bool.or_eq_true, Bool.and_eq_true, decide_eq_true_eq,
    UInt16.le_iff_toNat_le, beq_iff_eq, ← UInt16.toNat_inj] at h
  have h₁ : (65 : UInt16).toNat = 65 := rfl
  have h₂ : (90 : UInt16).toNat = 90 := rfl
  have h₃ : (97 : UInt16).toNat = 97 := rfl
  have h₄ : (122 : UInt16).toNat = 122 := rfl
  have h₅ : (48 : UInt16).toNat = 48 := rfl
  have h₆ : (57 : UInt16).toNat = 57 := rfl
  have h₇ : (95 : UInt16).toNat = 95 := rfl
  have h₈ : (45 : UInt16).toNat = 45 := rfl
  omega

/-- Every issued token gets through the pattern, wherever its text has an underscore. -/
theorem matchToken_token (draw : ApiKeyDraw) :
    matchToken draw.token = some (base64Url draw.prefixBytes) := by
  have hp : (base64Url draw.prefixBytes).length = 32 := by
    rw [length_base64Url, draw.length_prefixBytes]
  have hs : (base64Url draw.secretBytes).length = 43 := by
    rw [length_base64Url, draw.length_secretBytes]
  have hparts : draw.token =
      js "inbx_" ++ (base64Url draw.prefixBytes ++ (95 :: base64Url draw.secretBytes)) := by
    rw [ApiKeyDraw.token, List.append_assoc, List.append_assoc]
    rfl
  have hinbx : (js "inbx_").length = 5 := by decide
  have hlength : draw.token.length = 81 := by
    rw [hparts, List.length_append, List.length_append, List.length_cons, hp, hs, hinbx]
  have htake : draw.token.take 5 = js "inbx_" := by
    rw [hparts, List.take_left' hinbx]
  have hdrop : draw.token.drop 5 =
      base64Url draw.prefixBytes ++ (95 :: base64Url draw.secretBytes) := by
    rw [hparts, List.drop_left' hinbx]
  have hgroup : (draw.token.drop 5).take 32 = base64Url draw.prefixBytes := by
    rw [hdrop, List.take_left' hp]
  have hrest : (draw.token.drop 5).drop 32 = 95 :: base64Url draw.secretBytes := by
    rw [hdrop, List.drop_left' hp]
  have hsecret : (draw.token.drop 5).drop 33 = base64Url draw.secretBytes := by
    rw [show 33 = 32 + 1 from rfl, ← List.drop_drop, hrest, List.drop_one, List.tail_cons]
  unfold matchToken
  dsimp only
  rw [hgroup, hrest, hsecret, if_pos]
  exact ⟨hlength, htake, isTokenUnit_base64Url _, rfl, isTokenUnit_base64Url _⟩

theorem matchToken_length {token tokenPrefix : JsString} (h : matchToken token = some tokenPrefix) :
    tokenPrefix.length = 32 := by
  unfold matchToken at h
  dsimp only at h
  split at h
  · rename_i hmatch
    rw [← Option.some.inj h, List.length_take, List.length_drop, hmatch.1]
    rfl
  · cases h

/-- What gets through the pattern is ASCII. -/
theorem matchToken_ascii {token tokenPrefix : JsString} (h : matchToken token = some tokenPrefix) :
    ∀ unit ∈ token, unit.toNat < 0x80 := by
  unfold matchToken at h
  dsimp only at h
  split at h
  · rename_i hmatch
    have hinbx : (js "inbx_").all (fun unit => decide (unit.toNat < 0x80)) = true := by decide
    intro unit hunit
    rw [← List.take_append_drop 5 token, List.mem_append, hmatch.2.1] at hunit
    rcases hunit with hunit | hunit
    · exact of_decide_eq_true (List.all_eq_true.mp hinbx unit hunit)
    · rw [← List.take_append_drop 32 (token.drop 5), List.mem_append] at hunit
      rcases hunit with hunit | hunit
      · exact isTokenUnit_lt (List.all_eq_true.mp hmatch.2.2.1 unit hunit)
      · have hhead := hmatch.2.2.2.1
        have hsecret := hmatch.2.2.2.2
        rw [show 33 = 32 + 1 from rfl, ← List.drop_drop] at hsecret
        rcases hrest : (token.drop 5).drop 32 with _ | ⟨first, secret⟩
        · rw [hrest] at hunit
          cases hunit
        · rw [hrest] at hunit hhead hsecret
          rcases List.mem_cons.mp hunit with rfl | hmem
          · rw [Option.some.inj hhead]
            decide
          · exact isTokenUnit_lt (List.all_eq_true.mp hsecret unit hmem)
  · cases h

/-- ASCII text is its own bytes. -/
theorem utf8_injective_ascii {s t : JsString} (hs : ∀ unit ∈ s, unit.toNat < 0x80)
    (ht : ∀ unit ∈ t, unit.toNat < 0x80) (h : Encoding.utf8 s = Encoding.utf8 t) : s = t := by
  have hs' := Encoding.isWellFormed_of_lt fun unit hunit =>
    Nat.lt_trans (hs unit hunit) (by decide : 0x80 < 0xD800)
  have ht' := Encoding.isWellFormed_of_lt fun unit hunit =>
    Nat.lt_trans (ht unit hunit) (by decide : 0x80 < 0xD800)
  have hwell := Encoding.utf8_eq_iff.mp h
  rwa [Encoding.toWellFormed_of_isWellFormed hs', Encoding.toWellFormed_of_isWellFormed ht'] at hwell

theorem length_utf8_ascii {s : JsString} (hs : ∀ unit ∈ s, unit.toNat < 0x80) :
    (Encoding.utf8 s).length = s.length := by
  have hlt : ∀ unit ∈ s, unit.toNat < 0xD800 := fun unit hunit =>
    Nat.lt_trans (hs unit hunit) (by decide)
  have hchars : ∀ c ∈ Encoding.chars s, c.toNat < 0x80 := by
    intro c hc
    rw [Encoding.chars, Encoding.decode_of_lt hlt, List.map_map] at hc
    obtain ⟨unit, hunit, rfl⟩ := List.mem_map.mp hc
    change (Char.ofNat unit.toNat).toNat < 0x80
    rw [Encoding.char_toNat_ofNat (.inl (hlt unit hunit))]
    exact hs unit hunit
  rw [Encoding.utf8, Encoding.length_utf8_of_ascii hchars, Encoding.length_chars_of_lt hlt]

theorem hexText_ascii (bytes : Bytes) : ∀ unit ∈ hexText bytes, unit.toNat < 0x80 := by
  have hdigit : ∀ n < 16, (hexDigit n).toNat < 0x80 := by decide
  intro unit hunit
  obtain ⟨byte, -, hmem⟩ := List.mem_flatMap.mp hunit
  have hlt : byte.toNat < 256 := byte.toNat_lt
  simp only [List.mem_cons, List.not_mem_nil, or_false] at hmem
  rcases hmem with rfl | rfl
  · exact hdigit _ (by omega)
  · exact hdigit _ (by omega)

/-! ## One call -/

section

variable (sha256 : Bytes → Bytes)

def ApiKeyDraw.issued (draw : ApiKeyDraw) (input : IssueApiKeyInput) : IssuedApiKey :=
  { input with
    id := draw.id, tokenPrefix := base64Url draw.prefixBytes, token := draw.token,
    createdAt := draw.createdAt }

theorem issuedApiKey_apiKeyRow (input : IssueApiKeyInput) (draw : ApiKeyDraw) :
    issuedApiKey draw.token (apiKeyRow sha256 input draw) = .ok (draw.issued input) := by
  obtain ⟨⟨organizationId, permission, scope⟩, creatorUserId, expiresAt⟩ := input
  cases scope <;> rfl

/-- The row of an issued key carries exactly the access it was issued with. -/
theorem toAccessGrant_apiKeyRow (input : IssueApiKeyInput) (draw : ApiKeyDraw) :
    toAccessGrant (apiKeyRow sha256 input draw) = .ok input.toAccessGrant := by
  obtain ⟨⟨organizationId, permission, scope⟩, creatorUserId, expiresAt⟩ := input
  cases scope <;> rfl

theorem insertApiKey_cases (row : ApiKey) (db : ApiKeyStore) :
    (∃ e, db.insertApiKey row = (.error e, db)) ∨
      db.duplicates row = false ∧
        db.insertApiKey row = (.ok (some row), { db with apiKeys := db.apiKeys.put row }) := by
  unfold ApiKeyStore.insertApiKey
  split
  · exact .inl ⟨_, rfl⟩
  · split
    · exact .inl ⟨_, rfl⟩
    · rename_i hduplicates
      split
      · exact .inl ⟨_, rfl⟩
      · exact .inr ⟨Bool.eq_false_iff.mpr hduplicates, rfl⟩

/-- A call throws and stores nothing, or stores the row of the key it returns. -/
theorem issueApiKey_cases (input : IssueApiKeyInput) (draw : ApiKeyDraw) (db : ApiKeyStore) :
    (∃ e, issueApiKey sha256 input draw db = (.error e, db)) ∨
      db.duplicates (apiKeyRow sha256 input draw) = false ∧
        issueApiKey sha256 input draw db =
          (.ok (draw.issued input),
            { db with apiKeys := db.apiKeys.put (apiKeyRow sha256 input draw) }) := by
  unfold issueApiKey
  split
  · exact .inl ⟨_, rfl⟩
  · rcases insertApiKey_cases (apiKeyRow sha256 input draw) db with ⟨e, he⟩ | ⟨hnew, hok⟩
    · left
      rw [he]
      exact ⟨e, rfl⟩
    · right
      rw [hok]
      dsimp only
      rw [issuedApiKey_apiKeyRow]
      exact ⟨hnew, rfl⟩

theorem not_duplicates {db : ApiKeyStore} {row other : ApiKey} (h : db.duplicates row = false)
    (hother : other ∈ db.apiKeys) : other.id ≠ row.id ∧ other.tokenPrefix ≠ row.tokenPrefix := by
  have hall := List.any_eq_false.mp h other hother
  simp only [Bool.or_eq_true, decide_eq_true_eq, not_or] at hall
  exact ⟨hall.1.1, hall.1.2⟩

theorem revokeApiKey_cases (apiKeyId : JsString) (now : Time) (db : ApiKeyStore) :
    ((revokeApiKey apiKeyId now db).2 = db ∧
      ∀ row ∈ db.apiKeys, uuidIn apiKeyId = some row.id → row.revokedAt.isSome = true) ∨
    ∃ row ∈ db.apiKeys, uuidIn apiKeyId = some row.id ∧ row.revokedAt.isSome = false ∧
      (revokeApiKey apiKeyId now db).2 =
        { db with apiKeys := db.apiKeys.put { row with revokedAt := some now } } := by
  unfold revokeApiKey
  rcases hid : uuidIn apiKeyId with _ | id
  · exact .inl ⟨rfl, fun row _ h => by cases h⟩
  · dsimp only
    rcases hrow : (db.apiKeys.find id).filter (fun row => row.revokedAt.isNone) with _ | row
    · left
      refine ⟨by rw [hrow], fun row hmem heq => ?_⟩
      rw [Option.some.inj heq, ← key_apiKey, Table.find_of_mem hmem] at hrow
      rw [Option.filter_eq_none_iff] at hrow
      simpa [Option.isSome_iff_ne_none] using hrow row rfl
    · right
      have hfound := Option.filter_eq_some_iff.mp hrow
      have hkey : row.id = id := Table.key_of_find hfound.1
      refine ⟨row, Table.mem_of_find hfound.1, by rw [hkey], ?_, by rw [hrow]⟩
      simpa using hfound.2

/-- A returned key has a new prefix. -/
theorem fresh_tokenPrefix {input : IssueApiKeyInput} {draw : ApiKeyDraw} {db : ApiKeyStore}
    {issued : IssuedApiKey} (h : (issueApiKey sha256 input draw db).1 = .ok issued)
    {other : ApiKey} (hother : other ∈ db.apiKeys) :
    other.tokenPrefix ≠ (apiKeyRow sha256 input draw).tokenPrefix := by
  rcases issueApiKey_cases sha256 input draw db with ⟨e, he⟩ | ⟨hnew, -⟩
  · rw [he] at h
    cases h
  · exact (not_duplicates hnew hother).2

/-- What a call leaves of a stored row: it is the same row, revoked if the call revokes it. -/
structure ApiKeyCall.Leaves (call : ApiKeyCall) (row row' : ApiKey) : Prop where
  same : row' = { row with revokedAt := row'.revokedAt }
  revoked : row'.revokedAt.isSome = true ↔ row.revokedAt.isSome = true ∨ call.revokes row.id

theorem ApiKeyCall.Leaves.refl {call : ApiKeyCall} {row : ApiKey}
    (h : call.revokes row.id → row.revokedAt.isSome = true) : call.Leaves row row :=
  ⟨rfl, .inl, fun hor => hor.elim id h⟩

theorem ApiKeyCall.Leaves.id_eq {call : ApiKeyCall} {row row' : ApiKey}
    (h : call.Leaves row row') : row'.id = row.id := by
  rw [h.same]

theorem ApiKeyCall.Leaves.tokenPrefix_eq {call : ApiKeyCall} {row row' : ApiKey}
    (h : call.Leaves row row') : row'.tokenPrefix = row.tokenPrefix := by
  rw [h.same]

theorem ApiKeyCall.Leaves.revokedAt_eq_none {call : ApiKeyCall} {row row' : ApiKey}
    (h : call.Leaves row row') :
    row'.revokedAt = none ↔ row.revokedAt = none ∧ ¬ call.revokes row.id := by
  rw [← not_iff_not, ← ne_eq, ← Option.isSome_iff_ne_none, h.revoked, not_and_or, not_not,
    Option.isSome_iff_ne_none]

/-- Every row after a call was there before it, or is the row of the key the call issued. -/
theorem mem_run {call : ApiKeyCall} {db : ApiKeyStore} {row' : ApiKey}
    (h : row' ∈ (call.run sha256 db).apiKeys) :
    (∃ row ∈ db.apiKeys, call.Leaves row row') ∨
      ∃ input draw, call = .issue input draw ∧ row' = apiKeyRow sha256 input draw ∧
        (issueApiKey sha256 input draw db).1 = .ok (draw.issued input) := by
  cases call with
  | authenticate token now => exact .inl ⟨row', h, .refl False.elim⟩
  | issue input draw =>
      change row' ∈ (issueApiKey sha256 input draw db).2.apiKeys at h
      rcases issueApiKey_cases sha256 input draw db with ⟨e, he⟩ | ⟨-, hok⟩
      · rw [he] at h
        exact .inl ⟨row', h, .refl False.elim⟩
      · rw [hok] at h
        rcases Table.mem_put.mp h with rfl | ⟨hold, -⟩
        · exact .inr ⟨input, draw, rfl, rfl, by rw [hok]⟩
        · exact .inl ⟨row', hold, .refl False.elim⟩
  | revoke apiKeyId now =>
      change row' ∈ (revokeApiKey apiKeyId now db).2.apiKeys at h
      left
      rcases revokeApiKey_cases apiKeyId now db with ⟨heq, hall⟩ | ⟨row, hmem, hid, -, heq⟩
      · rw [heq] at h
        exact ⟨row', h, .refl (hall row' h)⟩
      · rw [heq] at h
        rcases Table.mem_put.mp h with rfl | ⟨hold, hkey⟩
        · exact ⟨row, hmem, rfl, fun _ => .inr hid, fun _ => rfl⟩
        · refine ⟨row', hold, .refl fun hrow => absurd ?_ hkey⟩
          exact Option.some.inj (hrow.symm.trans hid)

/-- Every row before a call is there after it. -/
theorem run_mem (call : ApiKeyCall) {db : ApiKeyStore} {row : ApiKey} (h : row ∈ db.apiKeys) :
    ∃ row' ∈ (call.run sha256 db).apiKeys, call.Leaves row row' := by
  cases call with
  | authenticate token now => exact ⟨row, h, .refl False.elim⟩
  | issue input draw =>
      change ∃ row' ∈ (issueApiKey sha256 input draw db).2.apiKeys, _
      rcases issueApiKey_cases sha256 input draw db with ⟨e, he⟩ | ⟨hnew, hok⟩
      · rw [he]
        exact ⟨row, h, .refl False.elim⟩
      · rw [hok]
        have hother := not_duplicates hnew h
        exact ⟨row, Table.mem_put.mpr (.inr ⟨h, hother.1⟩), .refl False.elim⟩
  | revoke apiKeyId now =>
      change ∃ row' ∈ (revokeApiKey apiKeyId now db).2.apiKeys, _
      rcases revokeApiKey_cases apiKeyId now db with ⟨heq, hall⟩ | ⟨target, hmem, hid, -, heq⟩
      · rw [heq]
        exact ⟨row, h, .refl (hall row h)⟩
      · rw [heq]
        by_cases hkey : row.id = target.id
        · have hrow : row = target := Table.eq_of_key_eq h hmem hkey
          refine ⟨_, Table.mem_put_self _ _, ?_⟩
          rw [hrow]
          exact ⟨rfl, fun _ => .inr hid, fun _ => rfl⟩
        · refine ⟨row, Table.mem_put.mpr (.inr ⟨h, hkey⟩), .refl fun hrow => absurd ?_ hkey⟩
          exact Option.some.inj (hrow.symm.trans hid)

/-! ## Runs -/

theorem runApiKeyCalls_append (calls : List ApiKeyCall) (call : ApiKeyCall) (db : ApiKeyStore) :
    runApiKeyCalls sha256 (calls ++ [call]) db =
      call.run sha256 (runApiKeyCalls sha256 calls db) := by
  rw [runApiKeyCalls, List.foldl_append]
  rfl

theorem Revoked.append {calls : List ApiKeyCall} {call : ApiKeyCall} {id : Uuid} :
    Revoked (calls ++ [call]) id ↔ Revoked calls id ∨ call.revokes id := by
  simp only [Revoked, List.mem_append, List.mem_singleton, or_and_right, exists_or, exists_eq_left]

/-- What a stored row keeps of the key it was issued as. -/
structure Records (input : IssueApiKeyInput) (issued : IssuedApiKey) (row : ApiKey) : Prop where
  id : row.id = issued.id
  tokenPrefix : matchToken issued.token = some row.tokenPrefix
  secretHash : row.secretHash = hashToken sha256 issued.token
  grant : toAccessGrant row = .ok input.toAccessGrant
  expiresAt : row.expiresAt = input.expiresAt

theorem records_apiKeyRow (input : IssueApiKeyInput) (draw : ApiKeyDraw) :
    Records sha256 input (draw.issued input) (apiKeyRow sha256 input draw) where
  id := rfl
  tokenPrefix := matchToken_token draw
  secretHash := rfl
  grant := toAccessGrant_apiKeyRow sha256 input draw
  expiresAt := rfl

variable {sha256}

theorem Records.leaves {input : IssueApiKeyInput} {issued : IssuedApiKey} {row row' : ApiKey}
    {call : ApiKeyCall} (h : Records sha256 input issued row) (hrow : call.Leaves row row') :
    Records sha256 input issued row' := by
  rw [hrow.same]
  exact ⟨h.id, h.tokenPrefix, h.secretHash, h.grant, h.expiresAt⟩

/-- A row, the key it was issued as, and whether it was revoked since. -/
structure KeyEntry (sha256 : Bytes → Bytes) (calls : List ApiKeyCall) (db : ApiKeyStore)
    (input : IssueApiKeyInput) (issued : IssuedApiKey) (after : List ApiKeyCall) (row : ApiKey) :
    Prop where
  issuance : Issued sha256 calls db input issued after
  records : Records sha256 input issued row
  revoked : row.revokedAt.isSome = true ↔ Revoked after issued.id

theorem KeyEntry.append {calls after : List ApiKeyCall} {db : ApiKeyStore} {input : IssueApiKeyInput}
    {issued : IssuedApiKey} {row row' : ApiKey} {call : ApiKeyCall}
    (h : KeyEntry sha256 calls db input issued after row) (hrow : call.Leaves row row') :
    KeyEntry sha256 (calls ++ [call]) db input issued (after ++ [call]) row' where
  issuance := by
    obtain ⟨before, draw, hcalls, hreturned⟩ := h.issuance
    exact ⟨before, draw, by rw [hcalls, List.append_assoc, List.cons_append], hreturned⟩
  records := h.records.leaves hrow
  revoked := by rw [hrow.revoked, h.revoked, Revoked.append, h.records.id]

theorem entry_issue {calls : List ApiKeyCall} {db : ApiKeyStore} {input : IssueApiKeyInput}
    {draw : ApiKeyDraw} (h : (issueApiKey sha256 input draw (runApiKeyCalls sha256 calls db)).1 =
      .ok (draw.issued input)) :
    KeyEntry sha256 (calls ++ [.issue input draw]) db input (draw.issued input) []
      (apiKeyRow sha256 input draw) where
  issuance := ⟨calls, draw, rfl, h⟩
  records := records_apiKeyRow sha256 input draw
  revoked := by simp [apiKeyRow, Revoked]

/-- Every stored row is that of a key some call issued. -/
theorem entry_of_mem {calls : List ApiKeyCall} {db : ApiKeyStore} (hempty : db.apiKeys = ∅)
    {row : ApiKey} (h : row ∈ (runApiKeyCalls sha256 calls db).apiKeys) :
    ∃ input issued after, KeyEntry sha256 calls db input issued after row := by
  induction calls using List.reverseRecOn generalizing row with
  | nil =>
      change row ∈ db.apiKeys at h
      rw [hempty] at h
      cases h
  | append_singleton calls call ih =>
      rw [runApiKeyCalls_append] at h
      rcases mem_run sha256 h with ⟨row', hmem, hrow⟩ | ⟨input, draw, rfl, rfl, hreturned⟩
      · obtain ⟨input, issued, after, hentry⟩ := ih hmem
        exact ⟨input, issued, after ++ [call], hentry.append hrow⟩
      · exact ⟨input, _, [], entry_issue hreturned⟩

/-- Every issued key has its row. -/
theorem mem_of_issued {calls after : List ApiKeyCall} {db : ApiKeyStore}
    {input : IssueApiKeyInput} {issued : IssuedApiKey}
    (h : Issued sha256 calls db input issued after) :
    ∃ row ∈ (runApiKeyCalls sha256 calls db).apiKeys,
      KeyEntry sha256 calls db input issued after row := by
  obtain ⟨before, draw, rfl, hreturned⟩ := h
  induction after using List.reverseRecOn with
  | nil =>
      rcases issueApiKey_cases sha256 input draw (runApiKeyCalls sha256 before db) with
        ⟨e, he⟩ | ⟨-, hok⟩
      · rw [he] at hreturned
        cases hreturned
      · have hissued : draw.issued input = issued := by
          rw [hok] at hreturned
          exact Except.ok.inj hreturned
        rw [← hissued] at hreturned ⊢
        refine ⟨apiKeyRow sha256 input draw, ?_, entry_issue hreturned⟩
        rw [runApiKeyCalls_append, ApiKeyCall.run, hok]
        exact Table.mem_put_self _ _
  | append_singleton after call ih =>
      obtain ⟨row, hmem, hentry⟩ := ih
      obtain ⟨row', hmem', hrow⟩ := run_mem sha256 call hmem
      rw [← List.cons_append, ← List.append_assoc, runApiKeyCalls_append]
      exact ⟨row', hmem', hentry.append hrow⟩

/-- A prefix finds one row. -/
theorem eq_of_tokenPrefix {calls : List ApiKeyCall} {db : ApiKeyStore} (hempty : db.apiKeys = ∅)
    {row other : ApiKey} (hrow : row ∈ (runApiKeyCalls sha256 calls db).apiKeys)
    (hother : other ∈ (runApiKeyCalls sha256 calls db).apiKeys)
    (h : row.tokenPrefix = other.tokenPrefix) : row = other := by
  induction calls using List.reverseRecOn generalizing row other with
  | nil =>
      change row ∈ db.apiKeys at hrow
      rw [hempty] at hrow
      cases hrow
  | append_singleton calls call ih =>
      have hid : row.id = other.id := by
        rw [runApiKeyCalls_append] at hrow hother
        rcases mem_run sha256 hrow with ⟨old, hold, hleaves⟩ | ⟨input, draw, hcall, hnew, hret⟩
        · rcases mem_run sha256 hother with ⟨old', hold', hleaves'⟩ | ⟨input, draw, hcall, hnew, hret⟩
          · rw [hleaves.tokenPrefix_eq, hleaves'.tokenPrefix_eq] at h
            rw [hleaves.id_eq, hleaves'.id_eq, ih hold hold' h]
          · rw [hleaves.tokenPrefix_eq, hnew] at h
            exact absurd h (fresh_tokenPrefix sha256 hret hold)
        · rcases mem_run sha256 hother with ⟨old', hold', hleaves'⟩ | ⟨input', draw', hcall', hnew', -⟩
          · rw [hleaves'.tokenPrefix_eq, hnew] at h
            exact absurd h.symm (fresh_tokenPrefix sha256 hret hold')
          · rw [hcall] at hcall'
            cases hcall'
            rw [hnew, hnew']
      exact Table.eq_of_key_eq hrow hother hid

theorem apiKeyOfPrefix_eq {calls : List ApiKeyCall} {db : ApiKeyStore} (hempty : db.apiKeys = ∅)
    {row : ApiKey} (h : row ∈ (runApiKeyCalls sha256 calls db).apiKeys) :
    (runApiKeyCalls sha256 calls db).apiKeyOfPrefix row.tokenPrefix = some row := by
  rcases hfind : (runApiKeyCalls sha256 calls db).apiKeyOfPrefix row.tokenPrefix with _ | found
  · have hnone := List.find?_eq_none.mp hfind row h
    simp at hnone
  · have hprefix : found.tokenPrefix = row.tokenPrefix := by simpa using List.find?_some hfind
    rw [eq_of_tokenPrefix hempty (List.mem_of_find?_eq_some hfind) h hprefix]

theorem authenticateApiKey_malformed {db : ApiKeyStore} {token : JsString} {now : Time}
    (hmatch : matchToken token = none) : authenticateApiKey sha256 token now db = .ok none := by
  unfold authenticateApiKey
  rw [hmatch]

theorem matchToken_ne_nil {token tokenPrefix : JsString} (h : matchToken token = some tokenPrefix) :
    tokenPrefix ≠ [] := by
  intro hnil
  have hlength := matchToken_length h
  rw [hnil] at hlength
  cases hlength

theorem authenticateApiKey_unknown {db : ApiKeyStore} {token tokenPrefix : JsString} {now : Time}
    (hmatch : matchToken token = some tokenPrefix) (hfind : db.apiKeyOfPrefix tokenPrefix = none) :
    authenticateApiKey sha256 token now db = .ok none := by
  unfold authenticateApiKey
  rw [hmatch]
  dsimp only
  rw [if_neg (matchToken_ne_nil hmatch), hfind]

/-- What `authenticateApiKey` answers on a row that keeps an issued key. -/
theorem authenticateApiKey_found {db : ApiKeyStore} {token tokenPrefix : JsString} {now : Time}
    {input : IssueApiKeyInput} {issued : IssuedApiKey} {row : ApiKey}
    (hmatch : matchToken token = some tokenPrefix)
    (hfind : db.apiKeyOfPrefix tokenPrefix = some row) (hrow : Records sha256 input issued row) :
    authenticateApiKey sha256 token now db =
      .ok (if row.secretHash = hashToken sha256 token ∧ row.revokedAt = none ∧ now < row.expiresAt then
        some input.toAccessGrant else none) := by
  unfold authenticateApiKey
  rw [hmatch]
  dsimp only
  rw [if_neg (matchToken_ne_nil hmatch), hfind]
  dsimp only
  by_cases hsize : row.secretHash.length = (hashToken sha256 token).length
  · have hbytes : (Encoding.utf8 row.secretHash).length =
        (Encoding.utf8 (hashToken sha256 token)).length := by
      rw [hrow.secretHash] at hsize ⊢
      rw [hashToken, hashToken, length_utf8_ascii (hexText_ascii _),
        length_utf8_ascii (hexText_ascii _)]
      exact hsize
    have hsame : Encoding.utf8 row.secretHash = Encoding.utf8 (hashToken sha256 token) ↔
        row.secretHash = hashToken sha256 token := by
      constructor
      · intro h
        rw [hrow.secretHash] at h ⊢
        exact utf8_injective_ascii (hexText_ascii _) (hexText_ascii _) h
      · intro h
        rw [h]
    rw [if_neg (not_not.mpr hsize), timingSafeEqual, if_neg (not_not.mpr hbytes)]
    change (if _ then _ else _) = _
    by_cases hlive : row.secretHash = hashToken sha256 token ∧ row.revokedAt = none ∧
        now < row.expiresAt
    · rw [if_pos hlive, if_neg, hrow.grant]
      · rfl
      · simp [hlive]
    · rw [if_neg hlive, if_pos]
      · rfl
      · simp only [hsame, Bool.or_eq_true, Bool.not_eq_true', decide_eq_false_iff_not,
          decide_eq_true_eq, Option.isSome_iff_ne_none]
        rw [not_and_or, not_and_or, Int.not_lt] at hlive
        rwa [or_assoc]
  · have hdiffer : row.secretHash ≠ hashToken sha256 token := fun h => hsize (by rw [h])
    rw [if_pos hsize, if_neg fun h => hdiffer h.1]

end

/-- Two strings with different bytes under one digest. -/
def Collide (sha256 : Bytes → Bytes) (s t : JsString) : Prop :=
  Encoding.utf8 s ≠ Encoding.utf8 t ∧ sha256 (Encoding.utf8 s) = sha256 (Encoding.utf8 t)

theorem Records.token_eq {sha256 : Bytes → Bytes} {input : IssueApiKeyInput}
    {issued : IssuedApiKey} {row : ApiKey} {token tokenPrefix : JsString}
    (h : Records sha256 input issued row) (hmatch : matchToken token = some tokenPrefix)
    (hcollide : ¬ Collide sha256 token issued.token)
    (hhash : row.secretHash = hashToken sha256 token) : issued.token = token := by
  rw [h.secretHash] at hhash
  have hdigest := hexText_injective hhash
  by_cases hbytes : Encoding.utf8 token = Encoding.utf8 issued.token
  · exact (utf8_injective_ascii (matchToken_ascii hmatch) (matchToken_ascii h.tokenPrefix) hbytes).symm
  · exact absurd ⟨hbytes, hdigest.symm⟩ hcollide

/-- After any calls, a token authenticates exactly if one of them issued it, no call since revoked
its key, and it has not expired; then it gives the access it was issued with.  No token makes
`authenticateApiKey` throw, and revoking an id that names no live key changes nothing. -/
theorem authentication_exact (sha256 : Bytes → Bytes) (users : List JsString)
    (organizations : Table Organization) (workspaces : Table Workspace) (calls : List ApiKeyCall)
    (token : JsString) (now : Time)
    (hsha256 : ∀ input issued after,
      Issued sha256 calls (.initial users organizations workspaces) input issued after →
        ¬ Collide sha256 token issued.token) :
    let initial := ApiKeyStore.initial users organizations workspaces
    let db := runApiKeyCalls sha256 calls initial
    (∃ answer, authenticateApiKey sha256 token now db = .ok answer) ∧
      (∀ grant, authenticateApiKey sha256 token now db = .ok (some grant) ↔
        ∃ input issued after, Issued sha256 calls initial input issued after ∧
          issued.token = token ∧ ¬ Revoked after issued.id ∧ now < input.expiresAt ∧
          grant = input.toAccessGrant) ∧
      ∀ apiKeyId at', (∀ input issued after, Issued sha256 calls initial input issued after →
          uuidIn apiKeyId = some issued.id → Revoked after issued.id) →
        (revokeApiKey apiKeyId at' db).2 = db := by
  intro initial db
  have hempty : initial.apiKeys = ∅ := rfl
  refine ⟨?_, fun grant => ⟨fun h => ?_, ?_⟩, fun apiKeyId at' hrevoked => ?_⟩
  · rcases hmatch : matchToken token with _ | tokenPrefix
    · exact ⟨none, authenticateApiKey_malformed hmatch⟩
    · rcases hfind : db.apiKeyOfPrefix tokenPrefix with _ | row
      · exact ⟨none, authenticateApiKey_unknown hmatch hfind⟩
      · obtain ⟨input, issued, after, hentry⟩ := entry_of_mem hempty (List.mem_of_find?_eq_some hfind)
        exact ⟨_, authenticateApiKey_found hmatch hfind hentry.records⟩
  · rcases hmatch : matchToken token with _ | tokenPrefix
    · rw [authenticateApiKey_malformed hmatch] at h
      cases h
    · rcases hfind : db.apiKeyOfPrefix tokenPrefix with _ | row
      · rw [authenticateApiKey_unknown hmatch hfind] at h
        cases h
      · obtain ⟨input, issued, after, hentry⟩ := entry_of_mem hempty (List.mem_of_find?_eq_some hfind)
        rw [authenticateApiKey_found hmatch hfind hentry.records] at h
        split at h
        · rename_i hlive
          -- equal hashes are equal tokens: no issued token collides with this one
          have htoken := hentry.records.token_eq hmatch
            (hsha256 input issued after hentry.issuance) hlive.1
          refine ⟨input, issued, after, hentry.issuance, htoken, ?_, ?_, ?_⟩
          · rw [← hentry.revoked, hlive.2.1]
            exact Bool.false_ne_true
          · rw [← hentry.records.expiresAt]
            exact hlive.2.2
          · exact (Option.some.inj (Except.ok.inj h)).symm
        · cases h
  · rintro ⟨input, issued, after, hissued, rfl, hlive, hnow, rfl⟩
    obtain ⟨row, hmem, hentry⟩ := mem_of_issued hissued
    have hfind := apiKeyOfPrefix_eq hempty hmem
    have hnull : row.revokedAt = none :=
      Option.not_isSome_iff_eq_none.mp fun hsome => hlive (hentry.revoked.mp hsome)
    rw [authenticateApiKey_found hentry.records.tokenPrefix hfind hentry.records, if_pos]
    exact ⟨hentry.records.secretHash, hnull, by rwa [hentry.records.expiresAt]⟩
  · rcases revokeApiKey_cases apiKeyId at' db with ⟨heq, -⟩ | ⟨row, hmem, hid, hnull, -⟩
    · exact heq
    · obtain ⟨input, issued, after, hentry⟩ := entry_of_mem hempty hmem
      rw [hentry.records.id] at hid
      have hsome := hentry.revoked.mpr (hrevoked input issued after hentry.issuance hid)
      rw [hnull] at hsome
      cases hsome

/-- A write key on one workspace. -/
def sampleIssue : IssueApiKeyInput where
  organizationId := 1
  permission := .write
  scope := .workspace 2
  creatorUserId := js "user"
  expiresAt := 1000

/-- Random bytes whose prefix and secret are nothing but underscores, but for the last character. -/
def sampleDraw : ApiKeyDraw where
  now := 10
  prefixBytes := List.replicate 24 0xFF
  secretBytes := List.replicate 32 0xFF
  id := 7
  createdAt := 11
  length_prefixBytes := rfl
  length_secretBytes := rfl

/-- SHA-256 of the sample token; it is injective everywhere. -/
def sampleSha256 (bytes : Bytes) : Bytes :=
  if bytes = Encoding.utf8 sampleDraw.token then
    Encoding.bigEndian 32 0xb4eb3e4448c080d11cd5820f009795e27e71637ea0224fbb6ec33ade35a15307
  else bytes ++ List.replicate 33 0

theorem sampleSha256_injective : Function.Injective sampleSha256 := by
  have hlength : ∀ bytes : Bytes,
      Encoding.bigEndian 32 0xb4eb3e4448c080d11cd5820f009795e27e71637ea0224fbb6ec33ade35a15307 ≠
        bytes ++ List.replicate 33 0 := by
    intro bytes heq
    have hlengths := congrArg List.length heq
    simp [Encoding.bigEndian] at hlengths
  intro a b hab
  unfold sampleSha256 at hab
  split at hab
  · rename_i ha
    split at hab
    · rename_i hb
      exact ha.trans hb.symm
    · exact absurd hab (hlength b)
  · split at hab
    · exact absurd hab.symm (hlength a)
    · exact List.append_cancel_right hab

/-- An issued key authenticates. -/
theorem authentication_exact_issued :
    authenticateApiKey sampleSha256 sampleDraw.token 999
      (runApiKeyCalls sampleSha256 [.issue sampleIssue sampleDraw] (.initial [js "user"]
        (Table.put ∅ ⟨1, []⟩) (Table.put ∅ ⟨2, 1⟩))) = .ok (some ⟨1, .write, .workspace 2⟩) := by
  have hissued : Issued sampleSha256 [.issue sampleIssue sampleDraw] (.initial [js "user"]
      (Table.put ∅ ⟨1, []⟩) (Table.put ∅ ⟨2, 1⟩)) sampleIssue (sampleDraw.issued sampleIssue) [] :=
    ⟨[], sampleDraw, rfl, by decide +kernel⟩
  have hexact := authentication_exact sampleSha256 [js "user"] (Table.put ∅ ⟨1, []⟩)
    (Table.put ∅ ⟨2, 1⟩) [.issue sampleIssue sampleDraw] sampleDraw.token 999
    (fun _ _ _ _ hcollide => hcollide.1 (sampleSha256_injective hcollide.2))
  refine (hexact.2.1 _).mpr ⟨_, _, [], hissued, rfl, ?_, by decide, rfl⟩
  rintro ⟨call, hcall, -⟩
  cases hcall

end InboxSaas.Product
