import InboxSaas.Product.TenantCredentials
import InboxSaas.Provisioner.RequestAuth

/-!
# The signature of a request to the provisioner

`signProvisionerRequest` signs the timestamp, the nonce and the digest of the body, on a line each.
The provisioner computes the same text from what it receives.  The nonce may contain any characters,
line feeds as well: the timestamp has none and ends at the first one, and the digest has none and
starts after the last one, so the text stands for one request only.
-/

namespace InboxSaas.Worker

open InboxSaas.Product
open InboxSaas.Provisioner (Digests PyString canonicalInput hexdigest hexChar hexDigits
  timestampMatches maxNonceLength maxRequestAgeSeconds decimal verifySignedRequest)

def canonicalRequest (digests : Digests) (timestamp nonce rawBody : JsString) : JsString :=
  let bodyHash := hexText (digests.sha256 (Encoding.utf8 rawBody))
  timestamp ++ js "\n" ++ nonce ++ js "\n" ++ bodyHash

def signProvisionerRequest (digests : Digests) (secret : Bytes)
    (timestamp nonce rawBody : JsString) : Except JsError JsString :=
  if secret.length ≠ 32 then .error (.new "Provisioner service secret must be 32 bytes")
  else if timestamp = [] then .error (.new "Provisioner request timestamp is required")
  else if nonce = [] then .error (.new "Provisioner request nonce is required")
  else if rawBody = [] then .error (.new "Provisioner request body is required")
  else
    .ok (hexText (digests.hmacSha256 secret
      (Encoding.utf8 (canonicalRequest digests timestamp nonce rawBody))))

/-- The text of the provisioner as it is in the worker. -/
def fromPython (text : PyString) : JsString := text.flatMap Encoding.encodeChar

/-! ## One text on both sides -/

theorem hexDigit_hexChar :
    ∀ n < 16, Encoding.encodeChar (hexChar n) = [hexDigit n] ∧ hexChar n ∈ hexDigits ∧
      hexChar n ≠ '\n' := by decide

theorem hexdigest_injective : Function.Injective hexdigest := by
  have hdigits : ∀ m < 16, ∀ n < 16, hexChar m = hexChar n → m = n := by decide
  exact Encoding.hex_injective fun m n hm hn => hdigits m hm n hn

theorem hexText_hexdigest (digest : Bytes) : hexText digest = fromPython (hexdigest digest) := by
  induction digest with
  | nil => rfl
  | cons byte rest ih =>
      have hlt : byte.toNat < 256 := byte.toNat_lt
      have hhigh := (hexDigit_hexChar (byte.toNat / 16) (by omega)).1
      have hlow := (hexDigit_hexChar (byte.toNat % 16) (by omega)).1
      change hexDigit _ :: hexDigit _ :: hexText rest =
        Encoding.encodeChar _ ++ (Encoding.encodeChar _ ++ fromPython (hexdigest rest))
      rw [hhigh, hlow, ih]
      rfl

theorem length_hexdigest (digest : Bytes) : (hexdigest digest).length = 2 * digest.length := by
  induction digest with
  | nil => rfl
  | cons byte rest ih =>
      change (hexdigest rest).length + 1 + 1 = _
      rw [ih, List.length_cons]
      omega

/-- Every character of a digest is one of the sixteen digits. -/
theorem forall_hexdigest {digest : Bytes} {c : Char} (h : c ∈ hexdigest digest) :
    c ∈ hexDigits ∧ c ≠ '\n' := by
  obtain ⟨byte, -, hc⟩ := List.mem_flatMap.mp h
  have hlt : byte.toNat < 256 := byte.toNat_lt
  rcases List.mem_cons.mp hc with rfl | hc
  · exact (hexDigit_hexChar (byte.toNat / 16) (by omega)).2
  · rw [List.mem_singleton.mp hc]
    exact (hexDigit_hexChar (byte.toNat % 16) (by omega)).2

theorem fromPython_append (a b : PyString) : fromPython (a ++ b) = fromPython a ++ fromPython b :=
  List.flatMap_append

theorem utf8_fromPython (text : PyString) :
    Encoding.utf8 (fromPython text) = Provisioner.encode text := by
  rw [Encoding.utf8, fromPython, Encoding.chars_flatMap_encodeChar]
  rfl

/-- The worker signs the text that the provisioner checks. -/
theorem utf8_canonicalRequest (digests : Digests) (timestamp nonce : PyString)
    (rawBody : JsString) :
    Encoding.utf8 (canonicalRequest digests (fromPython timestamp) (fromPython nonce) rawBody) =
      canonicalInput digests timestamp nonce (Encoding.utf8 rawBody) := by
  have hline : js "\n" = fromPython ['\n'] := by decide
  have htext : canonicalRequest digests (fromPython timestamp) (fromPython nonce) rawBody =
      fromPython (timestamp ++ ['\n'] ++ nonce ++ ['\n'] ++
        hexdigest (digests.sha256 (Encoding.utf8 rawBody))) := by
    rw [canonicalRequest, hexText_hexdigest, hline]
    simp only [fromPython_append]
  rw [htext, utf8_fromPython]
  rfl

/-! ## One request for a text -/

theorem not_mem_of_timestampMatches {timestamp : PyString}
    (h : timestampMatches timestamp = true) : '\n' ∉ timestamp := by
  intro hmem
  rw [timestampMatches, Bool.and_eq_true, Bool.and_eq_true, List.all_eq_true] at h
  exact absurd (h.1.1 '\n' hmem) (by decide)

/-- The text determines the timestamp, the nonce and the digest of the body. -/
theorem canonicalInput_injective {digests : Digests} {timestamp timestamp' nonce nonce' : PyString}
    {rawBody rawBody' : Bytes} (htimestamp : timestampMatches timestamp = true)
    (htimestamp' : timestampMatches timestamp' = true)
    (h : canonicalInput digests timestamp nonce rawBody =
      canonicalInput digests timestamp' nonce' rawBody') :
    timestamp = timestamp' ∧ nonce = nonce' ∧
      digests.sha256 rawBody = digests.sha256 rawBody' := by
  have htext := Encoding.flatMap_utf8EncodeChar_injective h
  simp only [List.append_assoc, List.singleton_append] at htext
  have hfirst := Encoding.split_first (not_mem_of_timestampMatches htimestamp)
    (not_mem_of_timestampMatches htimestamp') htext
  have hlast := Encoding.split_last (fun hmem => (forall_hexdigest hmem).2 rfl)
    (fun hmem => (forall_hexdigest hmem).2 rfl) hfirst.2
  exact ⟨hfirst.1, hlast.1, hexdigest_injective hlast.2⟩

/-! ## Signatures -/

/-- The digests of these two messages do not collide. -/
def CollisionFree (digest : Bytes → Bytes) (message message' : Bytes) : Prop :=
  digest message = digest message' → message = message'

/-- What the provisioner makes of a signature of the worker. -/
structure Verifies (R : Type) [Ring R] [LinearOrder R] (digests : Digests) (secret : Bytes)
    (timestamp nonce : PyString) (rawBody : JsString) (signature : PyString) : Prop where
  text : Encoding.utf8 (canonicalRequest digests (fromPython timestamp) (fromPython nonce)
    rawBody) = canonicalInput digests timestamp nonce (Encoding.utf8 rawBody)
  accepted {now : R} (hage : |now - (decimal timestamp : R)| ≤ (maxRequestAgeSeconds : R)) :
    (verifySignedRequest digests secret
      ⟨Encoding.utf8 rawBody, some timestamp, some nonce, some signature, now⟩).isSome = true
  /-- It is accepted for no other request, if the digests do not collide. -/
  unambiguous {timestamp' nonce' : PyString} {rawBody' : Bytes} {now : R}
    (hbody : CollisionFree digests.sha256 rawBody' (Encoding.utf8 rawBody))
    (htext : CollisionFree (digests.hmacSha256 secret)
      (canonicalInput digests timestamp' nonce' rawBody')
      (canonicalInput digests timestamp nonce (Encoding.utf8 rawBody)))
    (haccepted : (verifySignedRequest digests secret
      ⟨rawBody', some timestamp', some nonce', some signature, now⟩).isSome = true) :
    timestamp' = timestamp ∧ nonce' = nonce ∧ rawBody' = Encoding.utf8 rawBody

/-- The worker's signature of a request is accepted for this request and for no other. -/
theorem signed_requests {R : Type} [Ring R] [LinearOrder R] {digests : Digests}
    (hdigest : ∀ key message, (digests.hmacSha256 key message).length = 32) {secret : Bytes}
    (hsecret : secret.length = 32) {timestamp nonce : PyString} {rawBody : JsString}
    (htimestamp : timestampMatches timestamp = true) (hnonce : nonce ≠ [])
    (hlength : nonce.length ≤ maxNonceLength) (hbody : rawBody ≠ []) :
    ∃ signature : PyString,
      signProvisionerRequest digests secret (fromPython timestamp) (fromPython nonce) rawBody =
        .ok (fromPython signature) ∧
      Verifies R digests secret timestamp nonce rawBody signature := by
  have hunits : ∀ {text : PyString}, text ≠ [] → fromPython text ≠ [] := by
    intro text hne he
    have hchars := congrArg Encoding.chars he
    rw [fromPython, Encoding.chars_flatMap_encodeChar] at hchars
    exact hne hchars
  have hpresent : timestamp ≠ [] := by
    rintro rfl
    cases htimestamp
  have hne : secret ≠ [] := by
    rintro rfl
    cases hsecret
  have htext := utf8_canonicalRequest digests timestamp nonce rawBody
  refine ⟨hexdigest (digests.hmacSha256 secret
    (canonicalInput digests timestamp nonce (Encoding.utf8 rawBody))), ?_, htext, ?_, ?_⟩
  · rw [signProvisionerRequest, if_neg (not_not.mpr hsecret), if_neg (hunits hpresent),
      if_neg (hunits hnonce), if_neg hbody, htext, hexText_hexdigest]
  · intro now hage
    rw [Provisioner.verifySignedRequest_signature hne htimestamp hnonce hlength hage rfl
      (by rw [length_hexdigest, hdigest]) fun c hc => (forall_hexdigest hc).1]
    rfl
  · intro timestamp' nonce' rawBody' now hbodies htexts haccepted
    obtain ⟨htimestamp', hsignature⟩ := Provisioner.verified_signature haccepted
    -- equal signatures are equal MACs, so the signed texts are equal; these can be taken apart
    have hmac := htexts (hexdigest_injective hsignature).symm
    obtain ⟨ht, hn, hb⟩ := canonicalInput_injective htimestamp' htimestamp hmac
    exact ⟨ht, hn, hbodies hb⟩

namespace Sample

def secret : Bytes := (List.range 32).map UInt8.ofNat

def timestamp : PyString := "1767225600".toList

/-- A nonce with a line feed. -/
def nonce : PyString := "a\nb".toList

def body : JsString := js "\x7b\"iv\":\"\"\x7d"

/-- SHA-256 and HMAC-SHA-256 of the sample request. -/
def digests : Digests where
  sha256 message :=
    if message = Encoding.utf8 body then
      Encoding.bigEndian 32 0xeb5877b0fd41b1308b8c336cb0f7e147a5c1d7b30f4d4c071110d617f99570a7
    else List.replicate 32 0
  hmacSha256 _ message :=
    if message = Provisioner.encode ("1767225600\na\nb\n".toList ++ hexdigest
        (Encoding.bigEndian 32 0xeb5877b0fd41b1308b8c336cb0f7e147a5c1d7b30f4d4c071110d617f99570a7)) then
      Encoding.bigEndian 32 0xa2f41c59b2e025ac52df263ff52febb0b7f644128d7df95e85b51982a644068c
    else List.replicate 32 0

theorem length_hmacSha256 (key message : Bytes) :
    (digests.hmacSha256 key message).length = 32 := by
  simp only [digests]
  split
  · decide +kernel
  · decide +kernel

end Sample

/-- The sample request is signed, and accepted five minutes later. -/
theorem signed_requests_sample :
    (∃ signature : PyString,
      signProvisionerRequest Sample.digests Sample.secret (fromPython Sample.timestamp)
        (fromPython Sample.nonce) Sample.body = .ok (fromPython signature) ∧
      Verifies Int Sample.digests Sample.secret Sample.timestamp Sample.nonce Sample.body
        signature) ∧
    signProvisionerRequest Sample.digests Sample.secret (fromPython Sample.timestamp)
        (fromPython Sample.nonce) Sample.body =
      .ok (js "a2f41c59b2e025ac52df263ff52febb0b7f644128d7df95e85b51982a644068c") :=
  ⟨signed_requests Sample.length_hmacSha256 (by decide) (by decide) (by decide) (by decide)
    (by decide), by decide +kernel⟩

end InboxSaas.Worker
