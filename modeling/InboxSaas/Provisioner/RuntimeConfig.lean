import Mathlib.Data.List.TakeWhile
import InboxSaas.Encoding.Base64
import InboxSaas.Provisioner.RequestAuth

/-!
# Keys of the provisioner

`decode_32_byte_key` over `base64.b64decode(..., validate=True)`, whose work is done by
`binascii.a2b_base64` in strict mode.  A 32-byte key is 43 digits and one padding character
(`decode32ByteKey_eq_ok`).
-/

namespace InboxSaas.Provisioner

open Encoding (base64Value? base64Bytes digitValues isBase64Char)

/-! ## Decoding -/

/-- The local variables of `a2b_base64`, and the bytes it has written. -/
structure A2bState where
  quadPos : Nat
  leftchar : Nat
  pads : Nat
  paddingStarted : Bool
  written : Bytes

def A2bState.initial : A2bState := ⟨0, 0, 0, false, []⟩

/-- One digit: a byte is written as soon as its bits are there. -/
def A2bState.digit (state : A2bState) (value : Nat) : A2bState :=
  match state.quadPos with
  | 0 => { state with pads := 0, quadPos := 1, leftchar := value }
  | 1 => { state with
      pads := 0
      quadPos := 2
      leftchar := value % 16
      written := state.written ++ [UInt8.ofNat (state.leftchar * 4 + value / 16)] }
  | 2 => { state with
      pads := 0
      quadPos := 3
      leftchar := value % 4
      written := state.written ++ [UInt8.ofNat (state.leftchar * 16 + value / 4)] }
  | _ => { state with
      pads := 0
      quadPos := 0
      leftchar := 0
      written := state.written ++ [UInt8.ofNat (state.leftchar * 64 + value)] }

/-- The loop over the characters. -/
def a2bLoop (state : A2bState) : List Char → Option Bytes
  | [] => if state.quadPos ≠ 0 then none else some state.written
  | c :: rest =>
      if c = '=' then
        if 2 ≤ state.quadPos then
          if 4 ≤ state.quadPos + (state.pads + 1) then
            -- excess data after the padding
            if rest ≠ [] then none else some state.written
          else a2bLoop { state with paddingStarted := true, pads := state.pads + 1 } rest
        else a2bLoop { state with paddingStarted := true } rest
      else
        match base64Value? c with
        | none => none
        | some value =>
            -- discontinuous padding
            if state.paddingStarted then none else a2bLoop (state.digit value) rest

/-- `a2b_base64(ascii, strict_mode=True)` -/
def a2bBase64 (ascii : List Char) : Option Bytes :=
  if ascii.head? = some '=' then none else a2bLoop .initial ascii

/-- `base64.b64decode(s, validate=True)`; text that is not ASCII is refused. -/
def b64decode (s : PyString) : Option Bytes :=
  if s.all (fun c => c.toNat < 128) then a2bBase64 s else none

/-- The text of the `ValueError`. -/
def keyError (environmentName : PyString) : PyString :=
  environmentName ++ " must be a base64-encoded 32-byte key".toList

def decode32ByteKey (encodedKey environmentName : PyString) : Except PyString Bytes :=
  match b64decode encodedKey with
  | none => .error (keyError environmentName)
  | some key => if key.length ≠ 32 then .error (keyError environmentName) else .ok key

def decodeSigningSecret (encodedSecret : PyString) : Except PyString Bytes :=
  decode32ByteKey encodedSecret "INBOX_PROVISIONER_SIGNING_SECRET".toList

def decodeTransportEncryptionKey (encodedKey : PyString) : Except PyString Bytes :=
  decode32ByteKey encodedKey "INBOX_PROVISIONER_TRANSPORT_ENCRYPTION_KEY".toList

/-! ## What is decoded -/

theorem ne_pad_of_isBase64Char {c : Char} (h : isBase64Char c = true) : c ≠ '=' := by
  rintro rfl
  rw [Encoding.isBase64Char_pad] at h
  cases h

/-- The digits in front of a text are read one after the other. -/
theorem a2bLoop_digits {digits : List Char} (h : ∀ c ∈ digits, isBase64Char c = true)
    (rest : List Char) {state : A2bState} (hstate : state.paddingStarted = false) :
    a2bLoop state (digits ++ rest) =
      a2bLoop ((digitValues digits).foldl A2bState.digit state) rest ∧
      ((digitValues digits).foldl A2bState.digit state).paddingStarted = false := by
  induction digits generalizing state with
  | nil => exact ⟨rfl, hstate⟩
  | cons c tail ih =>
      have hc := h c List.mem_cons_self
      obtain ⟨value, hvalue⟩ := Option.isSome_iff_exists.mp hc
      have hnext : (state.digit value).paddingStarted = false := by
        unfold A2bState.digit
        split <;> exact hstate
      have hvalues : digitValues (c :: tail) = value :: digitValues tail :=
        List.filterMap_cons_some hvalue
      rw [hvalues, List.foldl_cons, List.cons_append, a2bLoop, if_neg (ne_pad_of_isBase64Char hc),
        hvalue]
      dsimp only
      rw [hstate, if_neg Bool.false_ne_true]
      exact ih (fun d hd => h d (List.mem_cons_of_mem c hd)) hnext

/-- Between two groups of four the written bytes are those of the digits. -/
theorem foldl_digit (digits : List Nat) {state : A2bState} (h : state.quadPos = 0) :
    (digits.foldl A2bState.digit state).quadPos = digits.length % 4 ∧
      (digits.foldl A2bState.digit state).written = state.written ++ base64Bytes digits := by
  induction digits using Encoding.base64Bytes.induct generalizing state with
  | case1 a b c d rest ih =>
      simp only [List.foldl_cons, A2bState.digit, h]
      have hrest := @ih { state with
        pads := 0
        quadPos := 0
        leftchar := 0
        written := state.written ++ [UInt8.ofNat (a * 4 + b / 16)] ++
          [UInt8.ofNat (b % 16 * 16 + c / 4)] ++ [UInt8.ofNat (c % 4 * 64 + d)] } rfl
      refine ⟨?_, ?_⟩
      · rw [hrest.1]
        simp only [List.length_cons]
        omega
      · rw [hrest.2, base64Bytes]
        simp
  | case2 a b c =>
      simp only [List.foldl_cons, List.foldl_nil, A2bState.digit, h, base64Bytes]
      exact ⟨rfl, by simp⟩
  | case3 a b =>
      simp only [List.foldl_cons, List.foldl_nil, A2bState.digit, h, base64Bytes]
      exact ⟨rfl, trivial⟩
  | case4 digits h₁ h₂ h₃ =>
      -- no digit, or one that is not a byte yet
      rcases digits with _ | ⟨a, _ | ⟨b, _ | ⟨c, _ | ⟨d, rest⟩⟩⟩⟩
      · exact ⟨h, (List.append_nil _).symm⟩
      · simp only [List.foldl_cons, List.foldl_nil, A2bState.digit, h]
        exact ⟨rfl, (List.append_nil _).symm⟩
      · exact absurd rfl (h₃ a b)
      · exact absurd rfl (h₂ a b c)
      · exact absurd rfl (h₁ a b c d rest)

/-- After padding nothing more is written. -/
theorem a2bLoop_padded {text : List Char} {state : A2bState} (h : state.paddingStarted = true)
    {bytes : Bytes} (hloop : a2bLoop state text = some bytes) : bytes = state.written := by
  induction text generalizing state with
  | nil =>
      rw [a2bLoop] at hloop
      split at hloop
      · cases hloop
      · exact (Option.some.inj hloop).symm
  | cons c rest ih =>
      rw [a2bLoop] at hloop
      split at hloop
      · split at hloop
        · split at hloop
          · split at hloop
            · cases hloop
            · exact (Option.some.inj hloop).symm
          · have hbytes := ih rfl hloop
            exact hbytes
        · have hbytes := ih rfl hloop
          exact hbytes
      · split at hloop
        · cases hloop
        · cases hloop

/-- The digits of a text are read, and what follows them is read from there. -/
theorem a2bLoop_initial {digits : List Char} (h : ∀ c ∈ digits, isBase64Char c = true) :
    ∃ state : A2bState, state.quadPos = digits.length % 4 ∧
      state.written = base64Bytes (digitValues digits) ∧ state.paddingStarted = false ∧
      ∀ rest, a2bLoop .initial (digits ++ rest) = a2bLoop state rest := by
  have hfold := @foldl_digit (digitValues digits) .initial rfl
  rw [Encoding.length_digitValues h] at hfold
  exact ⟨_, hfold.1, hfold.2, (a2bLoop_digits h [] rfl).2,
    fun rest => (a2bLoop_digits h rest rfl).1⟩

/-- Whatever is decoded are the bytes of the digits that come first. -/
theorem a2bLoop_written {state : A2bState} {text : List Char} {bytes : Bytes}
    (hfirst : ∀ c ∈ text.head?, isBase64Char c = false) (h : a2bLoop state text = some bytes) :
    bytes = state.written := by
  cases text with
  | nil =>
      rw [a2bLoop] at h
      split at h
      · cases h
      · exact (Option.some.inj h).symm
  | cons c rest =>
      rw [a2bLoop] at h
      split at h
      · split at h
        · split at h
          · split at h
            · cases h
            · exact (Option.some.inj h).symm
          · have hbytes := a2bLoop_padded rfl h
            exact hbytes
        · have hbytes := a2bLoop_padded rfl h
          exact hbytes
      · have hnone : base64Value? c = none := Encoding.base64Value_eq_none (hfirst c rfl)
        rw [hnone] at h
        cases h

/-- A key is decoded from 43 digits with their padding, and from nothing else. -/
theorem decode32ByteKey_eq_ok {encodedKey environmentName : PyString} {key : Bytes} :
    decode32ByteKey encodedKey environmentName = .ok key ↔
      ∃ digits : List Char, (∀ c ∈ digits, isBase64Char c = true) ∧ digits.length = 43 ∧
        encodedKey = digits ++ ['='] ∧ key = base64Bytes (digitValues digits) := by
  constructor
  · intro h
    have hdecode : b64decode encodedKey = some key ∧ key.length = 32 := by
      unfold decode32ByteKey at h
      split at h
      · cases h
      · split at h
        · cases h
        · rename_i hlength
          rw [← Except.ok.inj h]
          exact ⟨‹_›, not_not.mp hlength⟩
    obtain ⟨hdecode, hlength⟩ := hdecode
    unfold b64decode a2bBase64 at hdecode
    split at hdecode
    · split at hdecode
      · cases hdecode
      · -- the longest run of digits, and what comes after it
        have hdigits : ∀ c ∈ encodedKey.takeWhile isBase64Char, isBase64Char c = true :=
          fun c hc => List.mem_takeWhile_imp hc
        have hsplit : encodedKey.takeWhile isBase64Char ++ encodedKey.dropWhile isBase64Char =
            encodedKey := List.takeWhile_append_dropWhile
        have hfirst : ∀ c ∈ (encodedKey.dropWhile isBase64Char).head?, isBase64Char c = false := by
          intro c hc
          have hnot := List.head?_dropWhile_not isBase64Char encodedKey
          rw [Option.mem_def.mp hc] at hnot
          simpa using hnot
        generalize encodedKey.takeWhile isBase64Char = digits at hdigits hsplit
        generalize encodedKey.dropWhile isBase64Char = rest at hfirst hsplit
        obtain ⟨state, hquad, hwritten, -, hloop⟩ := a2bLoop_initial hdigits
        rw [← hsplit, hloop] at hdecode
        have hkey : key = base64Bytes (digitValues digits) :=
          (a2bLoop_written hfirst hdecode).trans hwritten
        have hcount : digits.length = 43 := by
          rw [hkey, Encoding.length_base64Bytes, Encoding.length_digitValues hdigits] at hlength
          -- 32 bytes are 43 digits or none: a whole group more or less is three bytes
          omega
        have hthree : state.quadPos = 3 := by rw [hquad, hcount]
        refine ⟨digits, hdigits, hcount, ?_, hkey⟩
        rw [← hsplit]
        cases rest with
        | nil =>
            rw [a2bLoop, hthree, if_pos (by decide)] at hdecode
            cases hdecode
        | cons c tail =>
            rw [a2bLoop, hthree] at hdecode
            by_cases hc : c = '='
            · rw [if_pos hc, if_pos (by decide), if_pos (by omega)] at hdecode
              by_cases htail : tail = []
              · rw [hc, htail]
              · rw [if_pos htail] at hdecode
                cases hdecode
            · have hnone : base64Value? c = none := Encoding.base64Value_eq_none (hfirst c rfl)
              rw [if_neg hc, hnone] at hdecode
              cases hdecode
    · cases hdecode
  · rintro ⟨digits, hdigits, hcount, rfl, rfl⟩
    obtain ⟨state, hquad, hwritten, -, hloop⟩ := a2bLoop_initial hdigits
    have hthree : state.quadPos = 3 := by rw [hquad, hcount]
    have hascii : (digits ++ ['=']).all (fun c => c.toNat < 128) = true := by
      rw [List.all_eq_true]
      intro c hc
      rcases List.mem_append.mp hc with hc | hc
      · exact decide_eq_true (Encoding.ascii_of_isBase64Char (hdigits c hc))
      · rw [List.mem_singleton.mp hc]
        decide
    have hhead : (digits ++ ['=']).head? ≠ some '=' := by
      cases digits with
      | nil => cases hcount
      | cons c tail =>
          intro he
          exact ne_pad_of_isBase64Char (hdigits c List.mem_cons_self) (Option.some.inj he)
    have hbytes : a2bLoop state ['='] = some (base64Bytes (digitValues digits)) := by
      rw [a2bLoop, if_pos rfl, hthree, if_pos (by decide), if_pos (by omega),
        if_neg (not_not.mpr rfl), hwritten]
    have hlength : (base64Bytes (digitValues digits)).length = 32 := by
      rw [Encoding.length_base64Bytes, Encoding.length_digitValues hdigits, hcount]
    unfold decode32ByteKey b64decode a2bBase64
    rw [if_pos hascii, if_neg hhead, hloop, hbytes]
    dsimp only
    rw [if_neg (not_not.mpr hlength)]

end InboxSaas.Provisioner
