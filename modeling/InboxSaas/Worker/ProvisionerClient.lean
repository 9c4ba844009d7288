import InboxSaas.Worker.ProvisionerRequestAuth
import InboxSaas.Worker.ProvisionerTransport
import InboxSaas.Provisioner.TransportEncryption

/-!
# The client of the provisioner

`HttpTenantValidationProvisioner.validateTenant`: the request it sends, with the time, the nonce and
the initialization vector it draws, and what it makes of what `fetch` answers.
-/

namespace InboxSaas.Worker

open Reasoning Product
open Encoding (Json)
open Provisioner (Digests PyString onlyFields)

structure ClientRequest where
  timestamp : JsString
  nonce : JsString
  signature : JsString
  body : JsString

/-- A response with its body, if that could be read. -/
structure ClientResponse where
  status : Nat
  body : Option Bytes

/-- The options of the client. -/
structure ClientOptions where
  platform : Platform
  digests : Digests
  serviceSecret : Bytes
  transportEncryptionKey : Bytes

/-- What one call draws; a `Date` is its milliseconds. -/
structure ClientDraws where
  iv : Bytes
  time : Int
  nonce : JsString

/-! ## The request -/

/-- `integer.toString()` -/
def integerText (n : Int) : PyString :=
  if n < 0 then '-' :: Nat.toDigits 10 n.natAbs else Nat.toDigits 10 n.natAbs

/-- `JSON.stringify(encryptProvisionerRequest(key, request))` -/
def clientBody (options : ClientOptions) (request : TenantValidationRequest) (iv : Bytes) :
    Except JsError JsString := do
  let envelope ← encryptProvisionerRequest options.platform options.transportEncryptionKey request iv
  return fromPython (Encoding.stringify envelope.json)

/-- What is given to `fetch`. -/
def clientRequest (options : ClientOptions) (request : TenantValidationRequest)
    (draws : ClientDraws) : Except JsError ClientRequest := do
  let body ← clientBody options request draws.iv
  let timestamp := fromPython (integerText (draws.time / 1000))
  let signature ← signProvisionerRequest options.digests options.serviceSecret timestamp draws.nonce
    body
  return ⟨timestamp, draws.nonce, signature, body⟩

/-! ## The response -/

def failureCodeText : TenantValidationFailureCode → JsString
  | .invalidCredentials => js "invalid_credentials"
  | .authenticationChallenge => js "authentication_challenge"
  | .microsoftUnavailable => js "microsoft_unavailable"
  | .unexpectedFailure => js "unexpected_failure"

/-- `tenantValidationFailureCodeSchema` -/
def failureCode? (text : JsString) : Option TenantValidationFailureCode :=
  [.invalidCredentials, .authenticationChallenge, .microsoftUnavailable, .unexpectedFailure].find?
    (fun code => failureCodeText code = text)

def tenantValidationSuccessResult (value : Json) : Option TenantValidationResult :=
  if onlyFields [js "contractVersion", js "status", js "microsoftTenantId"] value then
    match value.field (js "contractVersion"), value.field (js "microsoftTenantId") with
    | some (.string contractVersion), some (.string microsoftTenantId) =>
        if contractVersion = provisionerContractVersion ∧ 1 ≤ microsoftTenantId.length then
          some (.success microsoftTenantId)
        else none
    | _, _ => none
  else none

def tenantValidationFailureResult (value : Json) : Option TenantValidationResult :=
  if onlyFields [js "contractVersion", js "status", js "code", js "retryable"] value then
    match value.field (js "contractVersion"), value.field (js "code"),
      value.field (js "retryable") with
    | some (.string contractVersion), some (.string code), some (.bool retryable) =>
        if contractVersion = provisionerContractVersion then
          (failureCode? code).map (fun code => .failure code retryable)
        else none
    | _, _, _ => none
  else none

/-- `tenantValidationResultSchema.safeParse` -/
def parseTenantValidationResult (value : Json) : Option TenantValidationResult :=
  match value.field (js "status") with
  | some (.string status) =>
      if status = js "success" then tenantValidationSuccessResult value
      else if status = js "failure" then tenantValidationFailureResult value
      else none
  | _ => none

/-- Without a byte order mark in front. -/
def withoutMark (text : List Char) : List Char :=
  if text.head? = some '\uFEFF' then text.tail else text

/-- `response.json()`.  It cuts a byte order mark off the body, and the decoder drops one more. -/
def responseJson (platform : Platform) (response : ClientResponse) : Option Json := do
  let body ← response.body
  Encoding.parse (withoutMark (withoutMark (platform.utf8Text body)))

/-- The end of `validateTenant`; `fetch` gives nothing where it rejects. -/
def clientResult (platform : Platform) (fetched : Option ClientResponse) :
    Except JsError TenantValidationResult :=
  match fetched with
  | none => .error (.new "Tenant validation provisioner request failed")
  | some response =>
      if response.status < 200 ∨ 299 < response.status then
        .error (.new ("Tenant validation provisioner returned HTTP " ++ toString response.status))
      else
        match responseJson platform response with
        | none => .error (.new "Tenant validation provisioner returned invalid JSON")
        | some responseBody =>
            match parseTenantValidationResult responseBody with
            | none => .error (.new "Tenant validation provisioner returned an invalid result")
            | some result => .ok result

/-! ## Texts -/

theorem fromPython_ne_nil {text : PyString} (h : text ≠ []) : fromPython text ≠ [] := by
  intro hnil
  have hchars := congrArg Encoding.chars hnil
  rw [fromPython, Encoding.chars_flatMap_encodeChar] at hchars
  exact h hchars

/-! ## Timestamps -/

theorem decimal_toDigits (n : Nat) : Provisioner.decimal (Nat.toDigits 10 n) = n := by
  have hstep : (fun (value : Nat) (c : Char) => value * 10 + (c.toNat - 48)) =
      fun value c => 10 * value + (c.toNat - '0'.toNat) := by
    funext value c
    rw [Nat.mul_comm]
    rfl
  unfold Provisioner.decimal
  rw [hstep, ← Nat.ofDigitChars_eq_foldl, Nat.ofDigitChars_ten_toDigits]

/-- The timestamp of every `Date` since 1970 is one that the provisioner reads. -/
theorem timestampMatches_integerText {time : Int} (hlow : 0 ≤ time)
    (hhigh : time ≤ 8640000000000000) :
    Provisioner.timestampMatches (integerText (time / 1000)) = true ∧
      (Provisioner.decimal (integerText (time / 1000)) : Int) = time / 1000 := by
  have hdiv : 0 ≤ time / 1000 := Int.ediv_nonneg hlow (by decide)
  obtain ⟨n, hn⟩ := Int.eq_ofNat_of_zero_le hdiv
  have htext : integerText (time / 1000) = Nat.toDigits 10 n := by
    rw [hn, integerText, if_neg (by omega)]
    rfl
  have hlength : (Nat.toDigits 10 n).length ≤ 16 :=
    (Nat.length_toDigits_le_iff (by decide) (by decide)).mpr (by omega)
  have hpos : 1 ≤ (Nat.toDigits 10 n).length := Nat.length_toDigits_pos
  have hdigits : (Nat.toDigits 10 n).all (fun c => '0' ≤ c && c ≤ '9') = true := by
    rw [List.all_eq_true]
    intro c hc
    have hdigit := Nat.isDigit_of_mem_toDigits (by decide) (by decide) hc
    unfold Char.isDigit at hdigit
    simpa [Char.le_def] using hdigit
  rw [htext, hn]
  refine ⟨?_, congrArg Int.ofNat (decimal_toDigits n)⟩
  unfold Provisioner.timestampMatches
  rw [hdigits, decide_eq_true hpos, decide_eq_true hlength]
  rfl

end InboxSaas.Worker
