import InboxSaas.Encoding.Trim
import InboxSaas.Provisioner.NoReplay
import InboxSaas.Provisioner.TenantSessions

/-!
# The private route

`POST /internal/v1/tenant-validations` of `create_app`.  A request is its headers and the chunks of
its body.  Between the end of the body and the call of the service the handler awaits nothing, so
the nonce store is read and written at one time.
-/

namespace InboxSaas.Provisioner

open Reasoning
open Encoding (Json)

/-! ## The length of the body -/

/-- The white space that `int` strips, as far as a header has it. -/
def isHeaderSpace (c : Char) : Bool :=
  (9 ≤ c.toNat && c.toNat ≤ 13) || c.toNat = 32 || c.toNat = 0x85 || c.toNat = 0xA0

/-- The value of digits with an underscore between some of them; there may be 4300. -/
def digitsValue (text : PyString) : Option Nat :=
  let groups := text.splitOn '_'
  if groups.all (fun group => group ≠ [] && group.all Encoding.isDigit) &&
      groups.flatten.length ≤ 4300 then
    some (decimal groups.flatten)
  else none

/-- `int(text)` of a header, or nothing where it raises `ValueError`. -/
def integer (text : PyString) : Option Int :=
  match Encoding.trimEnds isHeaderSpace text with
  | '-' :: digits => (digitsValue digits).map (fun value => -(value : Int))
  | '+' :: digits => (digitsValue digits).map Int.ofNat
  | digits => (digitsValue digits).map Int.ofNat

/-- The request says that its body is too long. -/
def announcesTooMuch (contentLength : Option PyString) : Bool :=
  match contentLength.bind integer with
  | some length => (tenantValidationMaxBodyBytes : Int) < length
  | none => false

/-- The loop of `_read_bounded_body`, after `size` bytes. -/
def readChunks (size : Nat) : List Bytes → Option Bytes
  | [] => some []
  | chunk :: chunks =>
      if tenantValidationMaxBodyBytes < size + chunk.length then none
      else (readChunks (size + chunk.length) chunks).map (chunk ++ ·)

def readBoundedBody (stream : List Bytes) : Option Bytes := readChunks 0 stream

/-! ## The handler -/

structure TenantValidationHttpRequest where
  contentLength : Option PyString
  timestamp : Option PyString
  nonce : Option PyString
  signature : Option PyString
  stream : List Bytes

structure HttpResponse where
  statusCode : Nat
  content : Bytes
  deriving DecidableEq

def failureCodeText : FailureCode → PyString
  | .invalidCredentials => "invalid_credentials".toList
  | .authenticationChallenge => "authentication_challenge".toList
  | .microsoftUnavailable => "microsoft_unavailable".toList
  | .unexpectedFailure => "unexpected_failure".toList

/-- A field with a text. -/
def textField (name : String) (text : PyString) : List UInt16 × Json :=
  (Encoding.units name, .string (text.flatMap Encoding.encodeChar))

/-- The fields of a result, in the order of its class. -/
def TenantValidationResult.json : TenantValidationResult → Json
  | .success microsoftTenantId =>
      .object [textField "contractVersion" "v1".toList, textField "status" "success".toList,
        textField "microsoftTenantId" microsoftTenantId]
  | .failure code retryable =>
      .object [textField "contractVersion" "v1".toList, textField "status" "failure".toList,
        textField "code" (failureCodeText code), (Encoding.units "retryable", .bool retryable)]

/-- `model_dump_json` -/
def modelDumpJson (result : TenantValidationResult) : PyString := Encoding.stringify result.json

/-- What the handler awaits but the body: `service.validate`. -/
abbrev ServiceProgram (α : Type) : Type :=
  Program TenantValidationRequest (fun _ => TenantValidationResult) PyError α

abbrev ServiceEvent : Type :=
  Event TenantValidationRequest (fun _ => TenantValidationResult) PyError

/-- The handler from the call of the service on; a result of the service passes the adapter as it
is. -/
def answerTenantValidation (tenantRequest : TenantValidationRequest) :
    ServiceProgram HttpResponse :=
  let answered : ServiceProgram HttpResponse := do
    let result ← Program.perform tenantRequest
    return ⟨200, encode (modelDumpJson result)⟩
  answered.handle (fun e => match e with
    | .exception _ => return ⟨500, []⟩
    | .cancelled => throw PyError.cancelled)

section

variable {R : Type} [Ring R] [LinearOrder R] (digests : Digests) (emailStr : EmailStr)
  (aesGcm : AesGcm) (signingSecret transportEncryptionKey : Bytes)

/-- `validate_tenant`, with the time that the clock shows once the body is there. -/
def validateTenant (store : InMemoryNonceStore R) (now : R) (request : TenantValidationHttpRequest) :
    InMemoryNonceStore R × ServiceProgram HttpResponse :=
  if announcesTooMuch request.contentLength then (store, return ⟨413, []⟩)
  else
    match readBoundedBody request.stream with
    | none => (store, return ⟨413, []⟩)
    | some rawBody =>
        let authorized := authorize digests signingSecret store
          ⟨rawBody, request.timestamp, request.nonce, request.signature, now⟩
        if !authorized.1 then (authorized.2, return ⟨401, []⟩)
        else
          match decryptTenantValidationRequest emailStr aesGcm rawBody transportEncryptionKey with
          | none => (authorized.2, return ⟨400, []⟩)
          | some tenantRequest => (authorized.2, answerTenantValidation tenantRequest)

end

/-! ## The body -/

/-- A body is read in full exactly if it is short enough, however it is cut into chunks. -/
theorem readChunks_eq {size : Nat} (hsize : size ≤ tenantValidationMaxBodyBytes)
    (stream : List Bytes) :
    readChunks size stream =
      if size + stream.flatten.length ≤ tenantValidationMaxBodyBytes then some stream.flatten
      else none := by
  induction stream generalizing size with
  | nil => exact (if_pos hsize).symm
  | cons chunk stream ih =>
      rw [readChunks, List.flatten_cons, List.length_append]
      by_cases hchunk : tenantValidationMaxBodyBytes < size + chunk.length
      · rw [if_pos hchunk, if_neg (by omega)]
      · rw [if_neg hchunk, ih (Nat.le_of_not_lt hchunk), Nat.add_assoc]
        split <;> rfl

theorem readBoundedBody_eq (stream : List Bytes) :
    readBoundedBody stream =
      if stream.flatten.length ≤ tenantValidationMaxBodyBytes then some stream.flatten else none := by
  rw [readBoundedBody, readChunks_eq (Nat.zero_le _), Nat.zero_add]

end InboxSaas.Provisioner
