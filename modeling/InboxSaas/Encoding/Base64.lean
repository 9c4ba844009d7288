import Mathlib.Data.List.Basic

/-!
# Base64 text

The standard alphabet with padding.  Four characters spell three bytes; a last group spells one or
two and is padded.
-/

namespace Encoding

def base64Char (n : Nat) : Char :=
  if n < 26 then Char.ofNat (65 + n)
  else if n < 52 then Char.ofNat (71 + n)
  else if n < 62 then Char.ofNat (n - 4)
  else if n = 62 then '+' else '/'

def base64Value? (c : Char) : Option Nat :=
  if 'A' ≤ c ∧ c ≤ 'Z' then some (c.toNat - 65)
  else if 'a' ≤ c ∧ c ≤ 'z' then some (c.toNat - 71)
  else if '0' ≤ c ∧ c ≤ '9' then some (c.toNat + 4)
  else if c = '+' then some 62
  else if c = '/' then some 63
  else none

def base64Encode : List UInt8 → List Char
  | [] => []
  | [a] => [base64Char (a.toNat / 4), base64Char (a.toNat % 4 * 16), '=', '=']
  | [a, b] => [base64Char (a.toNat / 4), base64Char (a.toNat % 4 * 16 + b.toNat / 16),
      base64Char (b.toNat % 16 * 4), '=']
  | a :: b :: c :: rest =>
      base64Char (a.toNat / 4) :: base64Char (a.toNat % 4 * 16 + b.toNat / 16) ::
        base64Char (b.toNat % 16 * 4 + c.toNat / 64) :: base64Char (c.toNat % 64) ::
        base64Encode rest

/-- A padded last group; the bits that the padding cuts off are ignored. -/
def base64Last (a b c : Char) : Option (List UInt8) := do
  let a ← base64Value? a
  let b ← base64Value? b
  if c = '=' then
    return [UInt8.ofNat (a * 4 + b / 16)]
  else
    let c ← base64Value? c
    return [UInt8.ofNat (a * 4 + b / 16), UInt8.ofNat (b % 16 * 16 + c / 4)]

def base64Group (a b c d : Char) : Option (List UInt8) := do
  let a ← base64Value? a
  let b ← base64Value? b
  let c ← base64Value? c
  let d ← base64Value? d
  return [UInt8.ofNat (a * 4 + b / 16), UInt8.ofNat (b % 16 * 16 + c / 4),
    UInt8.ofNat (c % 4 * 64 + d)]

def base64Decode : List Char → Option (List UInt8)
  | [] => some []
  | a :: b :: c :: d :: rest =>
      if d = '=' then
        if rest = [] then base64Last a b c else none
      else
        match base64Group a b c d, base64Decode rest with
        | some group, some bytes => some (group ++ bytes)
        | _, _ => none
  | _ => none

theorem base64Value_base64Char : ∀ n < 64, base64Value? (base64Char n) = some n := by decide

theorem base64Char_ne : ∀ n < 64, base64Char n ≠ '=' := by decide

theorem byte_eq {n : Nat} {b : UInt8} (h : n = b.toNat) : UInt8.ofNat n = b := by
  rw [h, UInt8.ofNat_toNat]

/-- Decoding inverts encoding. -/
theorem base64Decode_base64Encode (bytes : List UInt8) :
    base64Decode (base64Encode bytes) = some bytes := by
  induction bytes using base64Encode.induct with
  | case1 => rfl
  | case2 a =>
      have ha : a.toNat < 256 := a.toNat_lt
      have hfirst := byte_eq (n := a.toNat / 4 * 4 + a.toNat % 4 * 16 / 16) (b := a) (by omega)
      rw [base64Encode, base64Decode, if_pos rfl, if_pos rfl]
      unfold base64Last
      rw [base64Value_base64Char _ (by omega), base64Value_base64Char _ (by omega)]
      change some [UInt8.ofNat _] = some [a]
      rw [hfirst]
  | case3 a b =>
      have ha : a.toNat < 256 := a.toNat_lt
      have hb : b.toNat < 256 := b.toNat_lt
      have hfirst := byte_eq
        (n := a.toNat / 4 * 4 + (a.toNat % 4 * 16 + b.toNat / 16) / 16) (b := a) (by omega)
      have hsecond := byte_eq
        (n := (a.toNat % 4 * 16 + b.toNat / 16) % 16 * 16 + b.toNat % 16 * 4 / 4) (b := b)
        (by omega)
      have hpad : base64Char (b.toNat % 16 * 4) ≠ '=' := base64Char_ne _ (by omega)
      rw [base64Encode, base64Decode, if_pos rfl, if_pos rfl]
      unfold base64Last
      simp only [if_neg hpad]
      rw [base64Value_base64Char _ (by omega), base64Value_base64Char _ (by omega),
        base64Value_base64Char _ (by omega)]
      change some [UInt8.ofNat _, UInt8.ofNat _] = some [a, b]
      rw [hfirst, hsecond]
  | case4 a b c rest ih =>
      have ha : a.toNat < 256 := a.toNat_lt
      have hb : b.toNat < 256 := b.toNat_lt
      have hc : c.toNat < 256 := c.toNat_lt
      have hfirst := byte_eq
        (n := a.toNat / 4 * 4 + (a.toNat % 4 * 16 + b.toNat / 16) / 16) (b := a) (by omega)
      have hsecond := byte_eq
        (n := (a.toNat % 4 * 16 + b.toNat / 16) % 16 * 16 +
          (b.toNat % 16 * 4 + c.toNat / 64) / 4) (b := b) (by omega)
      have hthird := byte_eq
        (n := (b.toNat % 16 * 4 + c.toNat / 64) % 4 * 64 + c.toNat % 64) (b := c) (by omega)
      have hgroup : base64Group (base64Char (a.toNat / 4))
          (base64Char (a.toNat % 4 * 16 + b.toNat / 16))
          (base64Char (b.toNat % 16 * 4 + c.toNat / 64)) (base64Char (c.toNat % 64)) =
          some [a, b, c] := by
        unfold base64Group
        rw [base64Value_base64Char _ (by omega), base64Value_base64Char _ (by omega),
          base64Value_base64Char _ (by omega), base64Value_base64Char _ (by omega)]
        change some [UInt8.ofNat _, UInt8.ofNat _, UInt8.ofNat _] = some [a, b, c]
        rw [hfirst, hsecond, hthird]
      rw [base64Encode, base64Decode, if_neg (base64Char_ne _ (by omega)), hgroup, ih]
      rfl

/-- Four characters for every three bytes begun. -/
theorem length_base64Encode (bytes : List UInt8) :
    (base64Encode bytes).length = (bytes.length + 2) / 3 * 4 := by
  induction bytes using base64Encode.induct with
  | case1 => rfl
  | case2 a => simp [base64Encode]
  | case3 a b => simp [base64Encode]
  | case4 a b c rest ih =>
      simp only [base64Encode, List.length_cons, ih]
      omega

/-- What holds of the alphabet and the padding holds of every character of an encoding. -/
theorem forall_base64Encode {P : Char → Prop} (hchar : ∀ n < 64, P (base64Char n)) (hpad : P '=')
    (bytes : List UInt8) : ∀ c ∈ base64Encode bytes, P c := by
  induction bytes using base64Encode.induct with
  | case1 => exact fun c hc => by cases hc
  | case2 a =>
      have ha : a.toNat < 256 := a.toNat_lt
      simp only [base64Encode, List.forall_mem_cons]
      exact ⟨hchar _ (by omega), hchar _ (by omega), hpad, hpad, fun c hc => by cases hc⟩
  | case3 a b =>
      have ha : a.toNat < 256 := a.toNat_lt
      have hb : b.toNat < 256 := b.toNat_lt
      simp only [base64Encode, List.forall_mem_cons]
      exact ⟨hchar _ (by omega), hchar _ (by omega), hchar _ (by omega), hpad,
        fun c hc => by cases hc⟩
  | case4 a b c rest ih =>
      have ha : a.toNat < 256 := a.toNat_lt
      have hb : b.toNat < 256 := b.toNat_lt
      have hc : c.toNat < 256 := c.toNat_lt
      simp only [base64Encode, List.forall_mem_cons]
      exact ⟨hchar _ (by omega), hchar _ (by omega), hchar _ (by omega), hchar _ (by omega), ih⟩

/-! ## The alphabet for URLs, without padding -/

def base64UrlChar (c : Char) : Char :=
  if c = '+' then '-' else if c = '/' then '_' else c

def base64UrlEncode (bytes : List UInt8) : List Char :=
  ((base64Encode bytes).filter (· ≠ '=')).map base64UrlChar

theorem filter_base64Char {n : Nat} (hn : n < 64) (rest : List Char) :
    (base64Char n :: rest).filter (· ≠ '=') = base64Char n :: rest.filter (· ≠ '=') :=
  List.filter_cons_of_pos (by simpa using base64Char_ne n hn)

/-- Eight bits spell two characters, sixteen three, twenty-four four. -/
theorem length_base64UrlEncode (bytes : List UInt8) :
    (base64UrlEncode bytes).length = (bytes.length * 4 + 2) / 3 := by
  rw [base64UrlEncode, List.length_map]
  induction bytes using base64Encode.induct with
  | case1 => rfl
  | case2 a =>
      have ha : a.toNat < 256 := a.toNat_lt
      rw [base64Encode, filter_base64Char (by omega), filter_base64Char (by omega)]
      simp
  | case3 a b =>
      have ha : a.toNat < 256 := a.toNat_lt
      have hb : b.toNat < 256 := b.toNat_lt
      rw [base64Encode, filter_base64Char (by omega), filter_base64Char (by omega),
        filter_base64Char (by omega)]
      simp
  | case4 a b c rest ih =>
      have ha : a.toNat < 256 := a.toNat_lt
      have hb : b.toNat < 256 := b.toNat_lt
      have hc : c.toNat < 256 := c.toNat_lt
      rw [base64Encode, filter_base64Char (by omega), filter_base64Char (by omega),
        filter_base64Char (by omega), filter_base64Char (by omega)]
      simp only [List.length_cons, ih]
      omega

theorem forall_base64UrlEncode {P : Char → Prop} (hchar : ∀ n < 64, P (base64UrlChar (base64Char n)))
    (bytes : List UInt8) : ∀ c ∈ base64UrlEncode bytes, P c := by
  have hbytes : ∀ c ∈ base64Encode bytes, c = '=' ∨ P (base64UrlChar c) :=
    forall_base64Encode (fun n hn => .inr (hchar n hn)) (.inl rfl) bytes
  intro c hc
  obtain ⟨d, hd, hdc⟩ := List.mem_map.mp hc
  have hmem := List.mem_filter.mp hd
  have hne : d ≠ '=' := by simpa using hmem.2
  rw [← hdc]
  exact (hbytes d hmem.1).resolve_left hne

/-! ## Digits without padding -/

/-- The bytes that digits spell; bits that do not fill a byte are ignored. -/
def base64Bytes : List Nat → List UInt8
  | a :: b :: c :: d :: rest =>
      UInt8.ofNat (a * 4 + b / 16) :: UInt8.ofNat (b % 16 * 16 + c / 4) ::
        UInt8.ofNat (c % 4 * 64 + d) :: base64Bytes rest
  | [a, b, c] => [UInt8.ofNat (a * 4 + b / 16), UInt8.ofNat (b % 16 * 16 + c / 4)]
  | [a, b] => [UInt8.ofNat (a * 4 + b / 16)]
  | _ => []

/-- Six bits a digit, eight bits a byte. -/
theorem length_base64Bytes (digits : List Nat) :
    (base64Bytes digits).length = digits.length * 3 / 4 := by
  induction digits using base64Bytes.induct with
  | case1 a b c d rest ih =>
      simp only [base64Bytes, List.length_cons, ih]
      omega
  | case2 a b c => simp [base64Bytes]
  | case3 a b => simp [base64Bytes]
  | case4 digits h₁ h₂ h₃ =>
      match digits with
      | [] => rfl
      | [a] => simp [base64Bytes]
      | [a, b] => exact absurd rfl (h₃ a b)
      | [a, b, c] => exact absurd rfl (h₂ a b c)
      | a :: b :: c :: d :: rest => exact absurd rfl (h₁ a b c d rest)

/-- A character of the alphabet; the padding is none. -/
def isBase64Char (c : Char) : Bool := (base64Value? c).isSome

theorem base64Value_eq_none {c : Char} (h : isBase64Char c = false) : base64Value? c = none :=
  Option.isNone_iff_eq_none.mp (Option.isSome_eq_false_iff.mp h)

theorem isBase64Char_pad : isBase64Char '=' = false := by decide

theorem ascii_of_isBase64Char {c : Char} (h : isBase64Char c = true) : c.toNat < 0x80 := by
  have hle : ∀ {d : Char}, c ≤ d → c.toNat ≤ d.toNat := fun hd => hd
  unfold isBase64Char base64Value? at h
  split at h
  · rename_i hupper
    exact Nat.lt_of_le_of_lt (hle hupper.2) (by decide)
  split at h
  · rename_i hlower
    exact Nat.lt_of_le_of_lt (hle hlower.2) (by decide)
  split at h
  · rename_i hdigit
    exact Nat.lt_of_le_of_lt (hle hdigit.2) (by decide)
  split at h
  · rename_i hplus
    rw [hplus]
    decide
  split at h
  · rename_i hslash
    rw [hslash]
    decide
  · cases h

/-- The values of the digits of a text. -/
def digitValues (text : List Char) : List Nat := text.filterMap base64Value?

theorem length_digitValues {digits : List Char} (h : ∀ c ∈ digits, isBase64Char c = true) :
    (digitValues digits).length = digits.length := by
  induction digits with
  | nil => rfl
  | cons c rest ih =>
      obtain ⟨value, hvalue⟩ := Option.isSome_iff_exists.mp (h c List.mem_cons_self)
      have hrest := ih fun d hd => h d (List.mem_cons_of_mem c hd)
      rw [digitValues, List.filterMap_cons_some hvalue, List.length_cons, List.length_cons]
      rw [digitValues] at hrest
      rw [hrest]

end Encoding
