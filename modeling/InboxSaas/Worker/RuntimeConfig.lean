import InboxSaas.Product.Text
import InboxSaas.Product.TenantCredentials
import InboxSaas.Provisioner.RuntimeConfig

/-!
# Keys of the worker, and the same keys on the other side

`parseBase64Key` checks a key with a regular expression and decodes it leniently; the provisioner
decodes the same text strictly.  They agree on every text but 43 digits with no padding or with too
much of it (`shared_keys`).
-/

namespace InboxSaas.Worker

open Encoding (base64Value? base64Bytes digitValues isBase64Char)
open InboxSaas.Product

/-- The value of a unit in either alphabet. -/
def base64Unit? (unit : UInt16) : Option Nat :=
  if unit = 45 then some 62
  else if unit = 95 then some 63
  else base64Value? (Char.ofNat unit.toNat)

/-- `Buffer.from(text, "base64")`: whatever is no digit is skipped. -/
def bufferFromBase64 (text : JsString) : Bytes :=
  base64Bytes (text.filterMap base64Unit?)

/-- `[A-Za-z0-9+/]` -/
def isBase64Unit (unit : UInt16) : Bool :=
  (65 ≤ unit && unit ≤ 90) || (97 ≤ unit && unit ≤ 122) || (48 ≤ unit && unit ≤ 57) ||
    unit == 43 || unit == 47

/-- `/^[A-Za-z0-9+/]+={0,2}$/` -/
def isBase64 (text : JsString) : Bool :=
  text.takeWhile isBase64Unit ≠ [] &&
    [[], [61], [61, 61]].contains (text.dropWhile isBase64Unit)

def parseBase64Key (encodedValue : JsString) (errorMessage : String) : Except JsError Bytes :=
  if !isBase64 encodedValue then .error (.new errorMessage)
  else
    let key := bufferFromBase64 encodedValue
    if key.length ≠ 32 then .error (.new errorMessage) else .ok key

/-! ## Digits as units -/

theorem isBase64Unit_ofNat :
    ∀ n < 128, isBase64Unit (UInt16.ofNat n) = isBase64Char (Char.ofNat n) := by decide +kernel

theorem base64Unit_ofNat : ∀ n < 128, isBase64Char (Char.ofNat n) = true →
    base64Unit? (UInt16.ofNat n) = base64Value? (Char.ofNat n) := by decide +kernel

theorem lt_of_isBase64Unit {unit : UInt16} (h : isBase64Unit unit = true) :
    unit.toNat < 128 := by
  simp only [isBase64Unit, Bool.or_eq_true, Bool.and_eq_true, decide_eq_true_eq, beq_iff_eq,
    UInt16.le_iff_toNat_le, ← UInt16.toNat_inj] at h
  change ((((65 ≤ _ ∧ _ ≤ 90) ∨ 97 ≤ _ ∧ _ ≤ 122) ∨ 48 ≤ _ ∧ _ ≤ 57) ∨ _ = 43) ∨ _ = 47 at h
  omega

/-- A digit is one unit, of the same value. -/
theorem unit_of_isBase64Char {c : Char} (h : isBase64Char c = true) :
    Encoding.encodeChar c = [UInt16.ofNat c.toNat] ∧
      isBase64Unit (UInt16.ofNat c.toNat) = true ∧
      base64Unit? (UInt16.ofNat c.toNat) = base64Value? c := by
  have hascii : c.toNat < 128 := Encoding.ascii_of_isBase64Char h
  have hunit := isBase64Unit_ofNat c.toNat hascii
  have hvalue := base64Unit_ofNat c.toNat hascii
  rw [Char.ofNat_toNat] at hunit hvalue
  refine ⟨?_, hunit.trans h, hvalue h⟩
  rw [Encoding.encodeChar, if_pos (by omega)]

theorem char_of_isBase64Unit {unit : UInt16} (h : isBase64Unit unit = true) :
    isBase64Char (Char.ofNat unit.toNat) = true ∧
      Encoding.encodeChar (Char.ofNat unit.toNat) = [unit] := by
  have hlt := lt_of_isBase64Unit h
  have hunit := isBase64Unit_ofNat unit.toNat hlt
  rw [UInt16.ofNat_toNat] at hunit
  have hchar : isBase64Char (Char.ofNat unit.toNat) = true := hunit.symm.trans h
  have hnat : (Char.ofNat unit.toNat).toNat = unit.toNat :=
    Encoding.char_toNat_ofNat (.inl (by omega))
  refine ⟨hchar, ?_⟩
  rw [(unit_of_isBase64Char hchar).1, hnat, UInt16.ofNat_toNat]

/-- The units of digits are digits of the same values. -/
theorem units_of_digits {digits : List Char} (h : ∀ c ∈ digits, isBase64Char c = true) :
    (∀ unit ∈ digits.flatMap Encoding.encodeChar, isBase64Unit unit = true) ∧
      (digits.flatMap Encoding.encodeChar).filterMap base64Unit? = digitValues digits := by
  induction digits with
  | nil => exact ⟨fun _ hunit => absurd hunit List.not_mem_nil, rfl⟩
  | cons c rest ih =>
      obtain ⟨hencode, hunit, hvalue⟩ := unit_of_isBase64Char (h c List.mem_cons_self)
      have hrest := ih fun d hd => h d (List.mem_cons_of_mem c hd)
      rw [List.flatMap_cons, hencode, List.singleton_append]
      constructor
      · exact List.forall_mem_cons.mpr ⟨hunit, hrest.1⟩
      · rw [List.filterMap_cons, hvalue, hrest.2]
        rfl

theorem digits_of_units {text : JsString} (h : ∀ unit ∈ text, isBase64Unit unit = true) :
    ∃ digits : List Char, (∀ c ∈ digits, isBase64Char c = true) ∧
      digits.flatMap Encoding.encodeChar = text := by
  induction text with
  | nil => exact ⟨[], fun _ hc => absurd hc List.not_mem_nil, rfl⟩
  | cons unit rest ih =>
      obtain ⟨digits, hdigits, hrest⟩ := ih fun u hu => h u (List.mem_cons_of_mem unit hu)
      obtain ⟨hchar, hencode⟩ := char_of_isBase64Unit (h unit List.mem_cons_self)
      refine ⟨Char.ofNat unit.toNat :: digits, List.forall_mem_cons.mpr ⟨hchar, hdigits⟩, ?_⟩
      rw [List.flatMap_cons, hencode, hrest, List.singleton_append]

/-! ## What is accepted -/

/-- The padding that the regular expression lets through. -/
def paddings : List (List Char) := [[], ['='], ['=', '=']]

theorem isBase64_iff {text : JsString} :
    isBase64 text = true ↔ ∃ digits padding : List Char, (∀ c ∈ digits, isBase64Char c = true) ∧
      digits ≠ [] ∧ padding ∈ paddings ∧
        text = (digits ++ padding).flatMap Encoding.encodeChar := by
  have hpaddings : [[], [61], [61, 61]] = paddings.map (·.flatMap Encoding.encodeChar) := by decide
  unfold isBase64
  rw [Bool.and_eq_true, List.contains_iff_mem, hpaddings, List.mem_map, decide_eq_true_iff]
  constructor
  · rintro ⟨hne, padding, hpadding, hrest⟩
    have hunits : ∀ unit ∈ text.takeWhile isBase64Unit, isBase64Unit unit = true :=
      fun unit hunit => List.mem_takeWhile_imp hunit
    obtain ⟨digits, hdigits, htake⟩ := digits_of_units hunits
    refine ⟨digits, padding, hdigits, ?_, hpadding, ?_⟩
    · rintro rfl
      exact hne htake.symm
    · rw [List.flatMap_append, htake, hrest, List.takeWhile_append_dropWhile]
  · rintro ⟨digits, padding, hdigits, hne, hpadding, rfl⟩
    have hunits := (units_of_digits hdigits).1
    have hstop : (padding.flatMap Encoding.encodeChar).takeWhile isBase64Unit = [] ∧
        (padding.flatMap Encoding.encodeChar).dropWhile isBase64Unit =
          padding.flatMap Encoding.encodeChar := by
      simp only [paddings, List.mem_cons, List.not_mem_nil, or_false] at hpadding
      rcases hpadding with rfl | rfl | rfl
      · exact ⟨rfl, rfl⟩
      · decide
      · decide
    rw [List.flatMap_append, List.takeWhile_append_of_pos hunits, hstop.1,
      List.dropWhile_append_of_pos hunits, hstop.2, List.append_nil]
    refine ⟨?_, padding, hpadding, rfl⟩
    cases digits with
    | nil => exact absurd rfl hne
    | cons c rest =>
        rw [List.flatMap_cons, (unit_of_isBase64Char (hdigits c List.mem_cons_self)).1]
        exact List.cons_ne_nil _ _

/-- A key is decoded from 43 digits with at most two characters of padding. -/
theorem parseBase64Key_eq_ok {encodedValue : JsString} {errorMessage : String} {key : Bytes} :
    parseBase64Key encodedValue errorMessage = .ok key ↔
      ∃ digits padding : List Char, (∀ c ∈ digits, isBase64Char c = true) ∧ digits.length = 43 ∧
        padding ∈ paddings ∧ encodedValue = (digits ++ padding).flatMap Encoding.encodeChar ∧
        key = base64Bytes (digitValues digits) := by
  -- the padding has no digits
  have hbuffer : ∀ {digits padding : List Char}, (∀ c ∈ digits, isBase64Char c = true) →
      padding ∈ paddings → bufferFromBase64 ((digits ++ padding).flatMap Encoding.encodeChar) =
        base64Bytes (digitValues digits) := by
    intro digits padding hdigits hpadding
    have hnone : (padding.flatMap Encoding.encodeChar).filterMap base64Unit? = [] := by
      simp only [paddings, List.mem_cons, List.not_mem_nil, or_false] at hpadding
      rcases hpadding with rfl | rfl | rfl <;> decide
    rw [bufferFromBase64, List.flatMap_append, List.filterMap_append,
      (units_of_digits hdigits).2, hnone, List.append_nil]
  have hlength : ∀ {digits : List Char}, (∀ c ∈ digits, isBase64Char c = true) →
      ((base64Bytes (digitValues digits)).length = 32 ↔ digits.length = 43) := by
    intro digits hdigits
    rw [Encoding.length_base64Bytes, Encoding.length_digitValues hdigits]
    omega
  constructor
  · intro h
    unfold parseBase64Key at h
    split at h
    · cases h
    · rename_i hbase64
      rw [Bool.not_eq_true', Bool.not_eq_false, isBase64_iff] at hbase64
      obtain ⟨digits, padding, hdigits, -, hpadding, rfl⟩ := hbase64
      rw [hbuffer hdigits hpadding] at h
      dsimp only at h
      split at h
      · cases h
      · rename_i hcount
        exact ⟨digits, padding, hdigits, (hlength hdigits).mp (not_not.mp hcount), hpadding, rfl,
          (Except.ok.inj h).symm⟩
  · rintro ⟨digits, padding, hdigits, hcount, hpadding, rfl, rfl⟩
    have hne : digits ≠ [] := by
      rintro rfl
      cases hcount
    have hbase64 : isBase64 ((digits ++ padding).flatMap Encoding.encodeChar) = true :=
      isBase64_iff.mpr ⟨digits, padding, hdigits, hne, hpadding, rfl⟩
    rw [parseBase64Key, hbase64, hbuffer hdigits hpadding]
    dsimp only
    rw [if_neg (by decide), if_neg (not_not.mpr ((hlength hdigits).mpr hcount))]

/-! ## Agreement -/

/-- Both sides accept the text or both refuse it, and they read the same key. -/
structure ReadAlike (text : List Char) (errorMessage : String)
    (environmentName : Provisioner.PyString) : Prop where
  accepted : (∃ key, parseBase64Key (text.flatMap Encoding.encodeChar) errorMessage = .ok key) ↔
    ∃ key, Provisioner.decode32ByteKey text environmentName = .ok key
  same {key key' : Bytes}
    (h : parseBase64Key (text.flatMap Encoding.encodeChar) errorMessage = .ok key)
    (h' : Provisioner.decode32ByteKey text environmentName = .ok key') : key = key'

/-- The digits of 32 bytes with no padding, or with twice the padding. -/
def MisPadded (text : List Char) : Prop :=
  ∃ digits : List Char, (∀ c ∈ digits, isBase64Char c = true) ∧ digits.length = 43 ∧
    (text = digits ∨ text = digits ++ ['=', '='])

/-- A text is read alike exactly when it is not 43 digits with the wrong padding. -/
theorem shared_keys (text : List Char) (errorMessage : String)
    (environmentName : Provisioner.PyString) :
    ReadAlike text errorMessage environmentName ↔ ¬ MisPadded text := by
  have hunits : ∀ {t t' : List Char}, t.flatMap Encoding.encodeChar =
      t'.flatMap Encoding.encodeChar → t = t' := by
    intro t t' h
    have hchars := congrArg Encoding.chars h
    rwa [Encoding.chars_flatMap_encodeChar, Encoding.chars_flatMap_encodeChar] at hchars
  constructor
  · rintro h ⟨digits, hdigits, hcount, hpadding⟩
    have hworker : ∃ key,
        parseBase64Key (text.flatMap Encoding.encodeChar) errorMessage = .ok key := by
      rcases hpadding with rfl | rfl
      · refine ⟨_, parseBase64Key_eq_ok.mpr ⟨text, [], hdigits, hcount, by decide, ?_, rfl⟩⟩
        rw [List.append_nil]
      · exact ⟨_, parseBase64Key_eq_ok.mpr
          ⟨digits, ['=', '='], hdigits, hcount, by decide, rfl, rfl⟩⟩
    -- the provisioner asks for exactly one padding character, 44 characters in all
    obtain ⟨key, hkey⟩ := h.accepted.mp hworker
    obtain ⟨digits', -, hcount', htext, -⟩ := Provisioner.decode32ByteKey_eq_ok.mp hkey
    rcases hpadding with rfl | rfl
    · have hlength := congrArg List.length htext
      rw [List.length_append, List.length_singleton] at hlength
      omega
    · have hlength := congrArg List.length htext
      rw [List.length_append, List.length_append, List.length_cons,
        List.length_singleton] at hlength
      omega
  · intro h
    -- of the paddings that the worker accepts, the text has the one that both accept
    have hpadded : ∀ {digits padding : List Char}, (∀ c ∈ digits, isBase64Char c = true) →
        digits.length = 43 → padding ∈ paddings → text = digits ++ padding → padding = ['='] := by
      intro digits padding hdigits hcount hpadding htext
      simp only [paddings, List.mem_cons, List.not_mem_nil, or_false] at hpadding
      rcases hpadding with rfl | rfl | rfl
      · exact absurd ⟨digits, hdigits, hcount, .inl (htext.trans (List.append_nil _))⟩ h
      · rfl
      · exact absurd ⟨digits, hdigits, hcount, .inr htext⟩ h
    constructor
    · constructor
      · rintro ⟨key, hkey⟩
        obtain ⟨digits, padding, hdigits, hcount, hpadding, htext, hbytes⟩ :=
          parseBase64Key_eq_ok.mp hkey
        have hone := hpadded hdigits hcount hpadding (hunits htext)
        rw [hone] at htext
        exact ⟨key, Provisioner.decode32ByteKey_eq_ok.mpr
          ⟨digits, hdigits, hcount, hunits htext, hbytes⟩⟩
      · rintro ⟨key, hkey⟩
        obtain ⟨digits, hdigits, hcount, htext, hbytes⟩ :=
          Provisioner.decode32ByteKey_eq_ok.mp hkey
        exact ⟨key, parseBase64Key_eq_ok.mpr
          ⟨digits, ['='], hdigits, hcount, by decide, by rw [htext], hbytes⟩⟩
    · intro key key' hkey hkey'
      obtain ⟨digits, padding, hdigits, hcount, -, htext, rfl⟩ := parseBase64Key_eq_ok.mp hkey
      obtain ⟨digits', -, hcount', htext', rfl⟩ := Provisioner.decode32ByteKey_eq_ok.mp hkey'
      have hparts := (hunits htext).symm.trans htext'
      rw [(List.append_inj hparts (hcount.trans hcount'.symm)).1]

namespace Sample

/-- The bytes from 0 to 31 without the padding. -/
def unpaddedKey : List Char := "AAECAwQFBgcICQoLDA0ODxAREhMUFRYXGBkaGxwdHh8".toList

/-- The message of the worker for this key. -/
def signingSecretError : String :=
  "INBOX_PROVISIONER_SIGNING_SECRET must be a base64-encoded 32-byte key"

end Sample

/-- The worker starts with a key that the provisioner refuses. -/
theorem unpadded_key_disagrees :
    ¬ ReadAlike Sample.unpaddedKey Sample.signingSecretError
      "INBOX_PROVISIONER_SIGNING_SECRET".toList := by
  intro h
  have hworker : parseBase64Key (Sample.unpaddedKey.flatMap Encoding.encodeChar)
      Sample.signingSecretError = .ok ((List.range 32).map UInt8.ofNat) := by decide +kernel
  have hprovisioner : Provisioner.decodeSigningSecret Sample.unpaddedKey =
      .error (Provisioner.keyError "INBOX_PROVISIONER_SIGNING_SECRET".toList) := by decide +kernel
  obtain ⟨key, hkey⟩ := h.accepted.mp ⟨_, hworker⟩
  cases hkey.symm.trans hprovisioner

end InboxSaas.Worker
