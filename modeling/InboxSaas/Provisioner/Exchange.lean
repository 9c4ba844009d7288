import InboxSaas.Product.CredentialBinding
import InboxSaas.Provisioner.Transport
import InboxSaas.Provisioner.ValidateTenant
import InboxSaas.Worker.ProvisionerClient

/-!
# A request and its response

The worker's client and the provisioner's route, one after the other.  Whatever the service answers
to the request is what the client returns, and the same request is not served again
(`validation_exchange`).
-/

namespace InboxSaas.Provisioner

open Reasoning Program
open Product (JsString uuidOut js)
open Worker (ClientOptions ClientDraws ClientRequest clientRequest clientResult fromPython)

/-- The request as the provisioner gets it: its headers, and its body in some chunks. -/
def delivered (sent : ClientRequest) (contentLength : Option PyString) (stream : List Bytes) :
    TenantValidationHttpRequest where
  contentLength := contentLength
  timestamp := some (Encoding.chars sent.timestamp)
  nonce := some (Encoding.chars sent.nonce)
  signature := some (Encoding.chars sent.signature)
  stream := stream

/-- Nothing was lost on the way, and no other length is announced. -/
def Intact (sent : ClientRequest) (contentLength : Option PyString) (stream : List Bytes) : Prop :=
  announcesTooMuch contentLength = false ∧ stream.flatten = Encoding.utf8 sent.body

/-- A response as the client gets it. -/
def HttpResponse.returned (response : HttpResponse) : Worker.ClientResponse :=
  ⟨response.statusCode, some response.content⟩

structure SameRequest (request : Worker.TenantValidationRequest)
    (received : TenantValidationRequest) : Prop where
  jobId : SameText (uuidOut request.jobId) received.jobId
  tenantConnectionId : SameText (uuidOut request.tenantConnectionId) received.tenantConnectionId
  email : SameText request.credentials.email received.credentials.email
  password : SameText request.credentials.password received.credentials.password

/-- The request is within the limits of the transport. -/
structure Fits (emailStr : EmailStr) (request : Worker.TenantValidationRequest) : Prop where
  emailText : Encoding.isWellFormed request.credentials.email = true
  email : emailStr.validate (Encoding.chars request.credentials.email) =
    some (Encoding.chars request.credentials.email)
  passwordText : Encoding.isWellFormed request.credentials.password = true
  password : 1 ≤ (Encoding.chars request.credentials.password).length
  passwordShort : (Encoding.chars request.credentials.password).length ≤ 1024
  short : request.bytes.length ≤ 3012

def FailureCode.reported : FailureCode → Product.TenantValidationFailureCode
  | .invalidCredentials => .invalidCredentials
  | .authenticationChallenge => .authenticationChallenge
  | .microsoftUnavailable => .microsoftUnavailable
  | .unexpectedFailure => .unexpectedFailure

/-- The result as the worker has it. -/
def TenantValidationResult.reported : TenantValidationResult → Product.TenantValidationResult
  | .success microsoftTenantId => .success (fromPython microsoftTenantId)
  | .failure code retryable => .failure code.reported retryable

/-- What `TenantValidationSuccess` asks of its field. -/
def TenantValidationResult.Valid (result : TenantValidationResult) : Prop :=
  result ≠ .success []

/-! ## The response -/

section

variable {platform : Product.Platform}

theorem parseTenantValidationResult_json {result : TenantValidationResult} (h : result.Valid) :
    Worker.parseTenantValidationResult result.json = some result.reported := by
  cases result with
  | success microsoftTenantId =>
      have hne : microsoftTenantId ≠ [] := fun hnil => h (by rw [hnil])
      have hlength : 1 ≤ (fromPython microsoftTenantId).length :=
        List.length_pos_iff.mpr (Worker.fromPython_ne_nil hne)
      have hsuccess : Worker.parseTenantValidationResult
          (TenantValidationResult.json (.success microsoftTenantId)) =
          if js "v1" = Worker.provisionerContractVersion ∧
            1 ≤ (fromPython microsoftTenantId).length then
            some (.success (fromPython microsoftTenantId))
          else none := rfl
      rw [hsuccess, if_pos ⟨rfl, hlength⟩]
      rfl
  | failure code retryable => cases code <;> rfl

theorem responseJson_modelDumpJson (hutf8 : platform.DecodesUtf8)
    (result : TenantValidationResult) :
    Worker.responseJson platform ⟨200, some (encode (modelDumpJson result))⟩ =
      some result.json := by
  have htext : platform.utf8Text (encode (modelDumpJson result)) =
      Encoding.stringify result.json := hutf8 _
  have hmark : Worker.withoutMark (Encoding.stringify result.json) =
      Encoding.stringify result.json := by
    have hhead : (Encoding.stringify result.json).head? = some '\x7b' := by cases result <;> rfl
    rw [Worker.withoutMark, hhead, if_neg (by decide)]
  change Encoding.parse (Worker.withoutMark (Worker.withoutMark (platform.utf8Text _))) = _
  rw [htext, hmark, hmark, Encoding.parse_stringify]

/-- The client reads the result that the route wrote. -/
theorem clientResult_ok (hutf8 : platform.DecodesUtf8) {result : TenantValidationResult}
    (h : result.Valid) :
    clientResult platform (some (HttpResponse.returned ⟨200, encode (modelDumpJson result)⟩)) =
      .ok result.reported := by
  unfold clientResult HttpResponse.returned
  dsimp only
  rw [if_neg (by decide), responseJson_modelDumpJson hutf8]
  dsimp only
  rw [parseTenantValidationResult_json h]

end

/-! ## The request -/

section

variable {options : ClientOptions} {draws : ClientDraws} {request : Worker.TenantValidationRequest}

theorem clientBody_ok (hkey : options.transportEncryptionKey.length = 32) (iv : Bytes) :
    ∃ text : PyString, text ≠ [] ∧
      Worker.clientBody options request iv = .ok (fromPython text) ∧
      Worker.validateTenantBody options.platform options.transportEncryptionKey request iv =
        .ok (encode text) := by
  unfold Worker.clientBody Worker.validateTenantBody Worker.encryptProvisionerRequest
  rw [if_neg (not_not.mpr hkey)]
  have ⟨c, rest, htext, _⟩ := Encoding.stringify_cons (Worker.ProvisionerTransportEnvelope.json
    ⟨Worker.base64 iv,
      Worker.base64 (options.platform.aes256GcmEncrypt options.transportEncryptionKey iv []
        request.bytes).1,
      Worker.base64 (options.platform.aes256GcmEncrypt options.transportEncryptionKey iv []
        request.bytes).2⟩)
  exact ⟨_, htext ▸ List.cons_ne_nil c rest, rfl, rfl⟩

/-- The headers and the body of a request, as texts of the provisioner. -/
def sentRequest (options : ClientOptions) (timestamp nonce body : PyString) : ClientRequest where
  timestamp := fromPython timestamp
  nonce := fromPython nonce
  signature := fromPython (hexdigest (options.digests.hmacSha256 options.serviceSecret
    (canonicalInput options.digests timestamp nonce (encode body))))
  body := fromPython body

theorem clientRequest_ok (hsecret : options.serviceSecret.length = 32)
    (hkey : options.transportEncryptionKey.length = 32) {nonce : PyString} (hnonce : nonce ≠ [])
    {draws : ClientDraws} (hdraws : draws.nonce = fromPython nonce)
    (htimestamp : Worker.integerText (draws.time / 1000) ≠ []) :
    ∃ body : PyString,
      Worker.validateTenantBody options.platform options.transportEncryptionKey request draws.iv =
        .ok (encode body) ∧
      clientRequest options request draws =
        .ok (sentRequest options (Worker.integerText (draws.time / 1000)) nonce body) := by
  obtain ⟨body, hne, hbody, hbytes⟩ : ∃ body : PyString, body ≠ [] ∧
      Worker.clientBody options request draws.iv = .ok (fromPython body) ∧
      Worker.validateTenantBody options.platform options.transportEncryptionKey request draws.iv =
        .ok (encode body) := clientBody_ok hkey draws.iv
  refine ⟨body, hbytes, ?_⟩
  have hsign : Worker.signProvisionerRequest options.digests options.serviceSecret
      (fromPython (Worker.integerText (draws.time / 1000))) (fromPython nonce) (fromPython body) =
      .ok (sentRequest options (Worker.integerText (draws.time / 1000)) nonce body).signature := by
    unfold Worker.signProvisionerRequest sentRequest
    rw [if_neg (not_not.mpr hsecret), if_neg (Worker.fromPython_ne_nil htimestamp),
      if_neg (Worker.fromPython_ne_nil hnonce), if_neg (Worker.fromPython_ne_nil hne),
      Worker.utf8_canonicalRequest, Worker.utf8_fromPython, Worker.hexText_hexdigest]
  unfold clientRequest
  rw [hbody, hdraws]
  change (do
    let signature ← Worker.signProvisionerRequest options.digests options.serviceSecret
      (fromPython (Worker.integerText (draws.time / 1000))) (fromPython nonce) (fromPython body)
    return (⟨_, _, signature, _⟩ : ClientRequest)) = _
  rw [hsign]
  rfl

end

/-! ## The route -/

section

variable {R : Type} [Ring R] [LinearOrder R] {options : ClientOptions} {emailStr : EmailStr}
  {aesGcm : AesGcm} {store : InMemoryNonceStore R} {now : R} {timestamp nonce body : PyString}
  {contentLength : Option PyString} {stream : List Bytes}

theorem delivered_sentRequest (options : ClientOptions) (timestamp nonce : PyString)
    (contentLength : Option PyString) (hintact : stream.flatten = Encoding.utf8 (fromPython body)) :
    delivered (sentRequest options timestamp nonce body) contentLength stream =
        ⟨contentLength, some timestamp, some nonce,
          some (hexdigest (options.digests.hmacSha256 options.serviceSecret
            (canonicalInput options.digests timestamp nonce (encode body)))), stream⟩ ∧
      stream.flatten = encode body := by
  refine ⟨?_, hintact.trans (Worker.utf8_fromPython body)⟩
  unfold delivered sentRequest fromPython
  simp only [Encoding.chars_flatMap_encodeChar]

omit [Ring R] in
theorem checkAndStore_fresh {expiresAt : R} (hfresh : nonce ∉ (store.live now).map Prod.fst)
    (hroom : (store.live now).length < store.maxEntries) :
    (store.checkAndStore nonce expiresAt now).1 = true := by
  unfold InMemoryNonceStore.checkAndStore
  rw [dif_neg]
  rintro (hmem | hfull)
  · exact hfresh hmem
  · omega

/-- A request whose nonce is live is answered 401, whatever else is with it. -/
theorem validateTenant_live {expiry : R} (hlive : (nonce, expiry) ∈ store.nonces)
    (hnow : now < expiry) (hannounced : announcesTooMuch contentLength = false)
    {rawBody : Bytes} (hbody : readBoundedBody stream = some rawBody) {key : Bytes}
    {timestamp signature : Option PyString} :
    (validateTenant options.digests emailStr aesGcm options.serviceSecret key store now
      ⟨contentLength, timestamp, some nonce, signature, stream⟩).2 = .ret ⟨401, []⟩ := by
  have hrefused : (authorize options.digests options.serviceSecret store
      ⟨rawBody, timestamp, some nonce, signature, now⟩).1 = false := by
    unfold authorize
    split
    · rfl
    · rename_i v hv
      have ⟨_, nonce', _, hnonce', _, hv⟩ := verified hv
      rw [hv, ← Option.some.inj hnonce']
      exact InMemoryNonceStore.checkAndStore_live hlive hnow _
  unfold validateTenant
  rw [if_neg (by rw [hannounced]; exact Bool.false_ne_true), hbody]
  dsimp only
  rw [hrefused]
  rfl

/-- A request that passes every check is answered by the service. -/
theorem validateTenant_accepted {key rawBody : Bytes} {v : VerifiedRequest R}
    {received : TenantValidationRequest} {timestamp nonce signature : Option PyString}
    (hannounced : announcesTooMuch contentLength = false)
    (hbody : readBoundedBody stream = some rawBody)
    (hverified : verifySignedRequest options.digests options.serviceSecret
      ⟨rawBody, timestamp, nonce, signature, now⟩ = some v)
    (hstored : (store.checkAndStore v.nonce v.nonceExpiresAt v.verifiedAt).1 = true)
    (hdecrypted : decryptTenantValidationRequest emailStr aesGcm rawBody key = some received) :
    validateTenant options.digests emailStr aesGcm options.serviceSecret key store now
        ⟨contentLength, timestamp, nonce, signature, stream⟩ =
      ((store.checkAndStore v.nonce v.nonceExpiresAt v.verifiedAt).2,
        answerTenantValidation received) := by
  have hauthorized : authorize options.digests options.serviceSecret store
      ⟨rawBody, timestamp, nonce, signature, now⟩ =
      store.checkAndStore v.nonce v.nonceExpiresAt v.verifiedAt := by
    rw [authorize, hverified]
  unfold validateTenant
  rw [if_neg (by rw [hannounced]; exact Bool.false_ne_true), hbody]
  dsimp only
  rw [hauthorized, hstored, hdecrypted]
  rfl

/-- What the handler makes of what the service did. -/
def answerOf : Except PyError TenantValidationResult → Except PyError HttpResponse
  | .ok result => .ok ⟨200, encode (modelDumpJson result)⟩
  | .error (.exception _) => .ok ⟨500, []⟩
  | .error .cancelled => .error .cancelled

/-- The handler calls the service once and answers what it says. -/
theorem answerTenantValidation_ends {received : TenantValidationRequest} {l : List ServiceEvent}
    {o : Except PyError HttpResponse} (h : Ends (answerTenantValidation received) l o) :
    ∃ r, l = [⟨received, r⟩] ∧ o = answerOf r := by
  unfold answerTenantValidation at h
  have ⟨r, rest, hl, hrest⟩ := ends_call.mp h
  refine ⟨r, ?_⟩
  rcases r with (_ | error) | result
  · have ⟨hnil, ho⟩ := ends_raise.mp hrest
    exact ⟨hl.trans (by rw [hnil]), ho⟩
  · have ⟨hnil, ho⟩ := ends_ret.mp hrest
    exact ⟨hl.trans (by rw [hnil]), ho⟩
  · have ⟨hnil, ho⟩ := ends_ret.mp hrest
    exact ⟨hl.trans (by rw [hnil]), ho⟩

end

/-! ## The exchange -/

/-- What the client is told of what the service did. -/
inductive Told (platform : Product.Platform) :
    Except PyError TenantValidationResult → Except PyError HttpResponse → Prop where
  | result {result : TenantValidationResult} {response : HttpResponse} (valid : result.Valid)
      (told : clientResult platform (some response.returned) = .ok result.reported) :
      Told platform (.ok result) (.ok response)
  | failed {error : ExceptionClass} {response : HttpResponse}
      (told : clientResult platform (some response.returned) =
        .error (.new "Tenant validation provisioner returned HTTP 500")) :
      Told platform (.error (.exception error)) (.ok response)
  /-- A handler that is cancelled does not answer. -/
  | cancelled : Told platform (.error .cancelled) (.error .cancelled)

theorem told {platform : Product.Platform} (hutf8 : platform.DecodesUtf8)
    {r : Except PyError TenantValidationResult}
    (hvalid : ∀ result, r = .ok result → result.Valid) : Told platform r (answerOf r) := by
  rcases r with (_ | error) | result
  · exact .cancelled
  · exact .failed rfl
  · exact .result (hvalid result rfl) (clientResult_ok hutf8 (hvalid result rfl))

section

variable {R : Type} [Ring R] [LinearOrder R] {options : ClientOptions} {emailStr : EmailStr}
  {aesGcm : AesGcm}

/-- A request that fits arrives as it was sent, if its headers do and its body in any chunks; the
service is called with it once, and the client is told what the service answered.  Until it expires
the request is not served again. -/
theorem validation_exchange (hagree : Agree options.platform aesGcm)
    (hutf8 : options.platform.DecodesUtf8)
    (hdigest : ∀ key message, (options.digests.hmacSha256 key message).length = 32)
    (hsecret : options.serviceSecret.length = 32)
    (hkey : options.transportEncryptionKey.length = 32)
    {request : Worker.TenantValidationRequest} (hfits : Fits emailStr request)
    {draws : ClientDraws} (hiv : draws.iv.length = 12) (hlow : 0 ≤ draws.time)
    (hhigh : draws.time ≤ 8640000000000000) {nonce : PyString} (hnonce : nonce ≠ [])
    (hlength : nonce.length ≤ maxNonceLength) (hdraws : draws.nonce = fromPython nonce)
    {now : R} (hage : |now - ((draws.time / 1000 : Int) : R)| ≤ (maxRequestAgeSeconds : R))
    {store : InMemoryNonceStore R} (hfresh : nonce ∉ (store.live now).map Prod.fst)
    (hroom : (store.live now).length < store.maxEntries) :
    ∃ sent received, clientRequest options request draws = .ok sent ∧
      SameRequest request received ∧
      ∀ contentLength stream, Intact sent contentLength stream → ∃ stored,
        validateTenant options.digests emailStr aesGcm options.serviceSecret
          options.transportEncryptionKey store now (delivered sent contentLength stream) =
            (stored, answerTenantValidation received) ∧
        (∀ l o, Ends (answerTenantValidation received) l o →
          (∀ event ∈ l, ∀ result, event.reply = .ok result → result.Valid) →
          ∃ r, l = [⟨received, r⟩] ∧ Told options.platform r o) ∧
        ∀ now' contentLength' stream',
          now' < ((draws.time / 1000 : Int) : R) + (maxRequestAgeSeconds : R) →
          Intact sent contentLength' stream' →
          (validateTenant options.digests emailStr aesGcm options.serviceSecret
            options.transportEncryptionKey stored now'
            (delivered sent contentLength' stream')).2 = .ret ⟨401, []⟩ := by
  have ⟨hmatches, hdecimal⟩ := Worker.timestampMatches_integerText hlow hhigh
  generalize hts : Worker.integerText (draws.time / 1000) = timestamp at hmatches hdecimal
  have htimestamp : timestamp ≠ [] := by
    intro hnil
    rw [hnil] at hmatches
    cases hmatches
  obtain ⟨body, hbytes, hsent⟩ : ∃ body : PyString,
      Worker.validateTenantBody options.platform options.transportEncryptionKey request draws.iv =
        .ok (encode body) ∧
      clientRequest options request draws = .ok (sentRequest options timestamp nonce body) :=
    hts ▸ clientRequest_ok hsecret hkey hnonce hdraws (hts ▸ htimestamp)
  have hexpiry : ((decimal timestamp : Nat) : R) = ((draws.time / 1000 : Int) : R) := by
    rw [← hdecimal, Int.cast_natCast]
  rw [← hexpiry] at hage ⊢
  -- the body is short enough, and decrypts to the request
  have hread : ∀ stream : List Bytes, stream.flatten = encode body →
      readBoundedBody stream = some (encode body) := by
    intro stream hstream
    have hbody := length_body hagree hkey hiv hbytes
    have hshort := hfits.short
    rw [readBoundedBody_eq, hstream, if_pos (by unfold tenantValidationMaxBodyBytes; omega)]
  obtain ⟨received, hdecrypted, hsame⟩ : ∃ received,
      decryptTenantValidationRequest emailStr aesGcm (encode body)
        options.transportEncryptionKey = some received ∧ SameRequest request received := by
    rw [decrypt_body hagree hkey hiv hbytes hfits.short, isText_request, hfits.emailText,
      hfits.passwordText, tenantValidationRequest_json hfits.email hfits.password,
      if_pos hfits.passwordShort, Bool.and_self, if_pos rfl]
    exact ⟨_, rfl, sameText_chars (isWellFormed_uuidOut request.jobId),
      sameText_chars (isWellFormed_uuidOut request.tenantConnectionId),
      sameText_chars hfits.emailText, sameText_chars hfits.passwordText⟩
  -- it is verified, and its nonce is new
  have hne : options.serviceSecret ≠ [] := by
    intro hnil
    rw [hnil] at hsecret
    cases hsecret
  have hverified : verifySignedRequest options.digests options.serviceSecret
      ⟨encode body, some timestamp, some nonce, some (hexdigest (options.digests.hmacSha256
        options.serviceSecret (canonicalInput options.digests timestamp nonce (encode body)))), now⟩ =
      some ⟨nonce, (decimal timestamp : R) + (maxRequestAgeSeconds : R), now⟩ :=
    verifySignedRequest_signature hne hmatches hnonce hlength hage rfl
      (by rw [Worker.length_hexdigest, hdigest]) fun c hc => (Worker.forall_hexdigest hc).1
  have hstored : (store.checkAndStore nonce
      ((decimal timestamp : R) + (maxRequestAgeSeconds : R)) now).1 = true :=
    checkAndStore_fresh hfresh hroom
  refine ⟨_, received, hsent, hsame, ?_⟩
  rintro contentLength stream ⟨hannounced, hstream⟩
  have ⟨hdelivered, hflatten⟩ := delivered_sentRequest options timestamp nonce contentLength hstream
  refine ⟨(store.checkAndStore nonce ((decimal timestamp : R) + (maxRequestAgeSeconds : R)) now).2,
    ?_, ?_, ?_⟩
  · rw [hdelivered]
    exact validateTenant_accepted hannounced (hread stream hflatten) hverified hstored hdecrypted
  · intro l o hends hvalid
    have ⟨r, hl, ho⟩ := answerTenantValidation_ends hends
    refine ⟨r, hl, ho ▸ told hutf8 fun result hr => ?_⟩
    exact hvalid ⟨_, r⟩ (hl ▸ List.mem_cons_self) result hr
  · rintro now' contentLength' stream' hnow ⟨hannounced', hstream'⟩
    have ⟨hdelivered', hflatten'⟩ :=
      delivered_sentRequest options timestamp nonce contentLength' hstream'
    rw [hdelivered']
    exact validateTenant_live (InMemoryNonceStore.checkAndStore_stored hstored) hnow hannounced'
      (hread stream' hflatten')

end

/-! ## A sample exchange -/

namespace SampleExchange

def platform : Product.Platform where
  hmacSha256 := SampleTransport.platform.hmacSha256
  aes256GcmEncrypt := SampleTransport.platform.aes256GcmEncrypt
  aes256GcmDecrypt := SampleTransport.platform.aes256GcmDecrypt
  utf8Text bytes := (Encoding.utf8Decode? bytes).getD []

theorem agree : Agree platform SampleTransport.aesGcm :=
  ⟨SampleTransport.agree.ciphertext, SampleTransport.agree.authTag,
    SampleTransport.agree.decrypts⟩

theorem decodesUtf8 : platform.DecodesUtf8 := by
  intro text
  change (Encoding.utf8Decode? _).getD [] = text
  rw [Encoding.utf8Decode?_encode]
  rfl

def nonce : PyString := "3f0c9b52-7c1e-4d0a-9a2e-5b1f6c8d7e90".toList

def bodyDigest : Bytes :=
  Encoding.bigEndian 32 0xd3329896e62c25b934c7e761c8b5247d74a8f3046efcbe452f2e22645be75860

/-- SHA-256 and HMAC-SHA-256 of the sample request. -/
def digests : Digests where
  sha256 message :=
    if message = SampleTransport.body then bodyDigest else List.replicate 32 0
  hmacSha256 _ message :=
    if message = encode ("1767225600\n".toList ++ nonce ++ "\n".toList ++ hexdigest bodyDigest) then
      Encoding.bigEndian 32 0x08a3724ca5b535ee312ab734308f91d8238bcc679c3e4c037fb60afde0c88e7f
    else List.replicate 32 0

theorem length_hmacSha256 (key message : Bytes) :
    (digests.hmacSha256 key message).length = 32 := by
  simp only [digests]
  split
  · decide +kernel
  · decide +kernel

def options : ClientOptions := ⟨platform, digests, Worker.Sample.secret, SampleTransport.key⟩

def draws : ClientDraws := ⟨SampleTransport.iv, 1767225600250, fromPython nonce⟩

theorem fits : Fits SampleTransport.emailStr
    (SampleTransport.request SampleTransport.password) where
  emailText := by decide +kernel
  email := by decide +kernel
  passwordText := by decide +kernel
  password := by decide +kernel
  passwordShort := by decide +kernel
  short := by decide +kernel

end SampleExchange

open SampleExchange SampleTransport in
/-- The body of the sample request comes in two chunks, a second later. -/
theorem validation_exchange_sample :
    ∃ sent received stored,
      clientRequest options (request password) draws = .ok sent ∧
      SameRequest (request password) received ∧
      validateTenant digests emailStr aesGcm Worker.Sample.secret key
          (.empty 10000 (by decide)) (1767225601 : Int)
          (delivered sent none [(Encoding.utf8 sent.body).take 100,
            (Encoding.utf8 sent.body).drop 100]) =
        (stored, answerTenantValidation received) := by
  have hsecret : options.serviceSecret.length = 32 := rfl
  have hiv : draws.iv.length = 12 := rfl
  have hnonce : nonce ≠ [] := by decide
  have hage : |(1767225601 : Int) - ((draws.time / 1000 : Int) : Int)| ≤
      (maxRequestAgeSeconds : Int) := by decide
  have hroom : ((InMemoryNonceStore.empty 10000 (by decide)).live (1767225601 : Int)).length <
      10000 := by decide
  have ⟨sent, received, hsent, hsame, h⟩ := validation_exchange SampleExchange.agree decodesUtf8
    length_hmacSha256 hsecret rfl fits hiv (by decide) (by decide) hnonce (by decide) rfl hage
    (List.not_mem_nil) hroom
  have ⟨stored, hstored, _⟩ := h none [(Encoding.utf8 sent.body).take 100,
    (Encoding.utf8 sent.body).drop 100] ⟨rfl, by simp⟩
  exact ⟨sent, received, stored, hsent, hsame, hstored⟩

end InboxSaas.Provisioner
