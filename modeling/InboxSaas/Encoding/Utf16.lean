import Mathlib.Data.List.Basic

/-!
# UTF-16 code units and their UTF-8 bytes

A sequence of 16-bit code units spells scalar values, and possibly surrogates that have no partner.
`utf8` encodes it the way that replaces every unpaired surrogate by U+FFFD, so two sequences have
the same bytes exactly when they are the same after that replacement (`utf8_eq_iff`).
-/

namespace Encoding

/-- What the units spell: a scalar value, or a surrogate without a partner. -/
inductive Point where
  | scalar (c : Char)
  | unpaired (unit : UInt16)
  deriving DecidableEq

def isHigh (unit : UInt16) : Bool := 0xD800 ≤ unit.toNat && unit.toNat ≤ 0xDBFF

def isLow (unit : UInt16) : Bool := 0xDC00 ≤ unit.toNat && unit.toNat ≤ 0xDFFF

/-- A unit that is not half of a pair. -/
def single (unit : UInt16) : Point :=
  if isHigh unit || isLow unit then .unpaired unit else .scalar (Char.ofNat unit.toNat)

def pair (high low : UInt16) : Char :=
  Char.ofNat (0x10000 + (high.toNat - 0xD800) * 0x400 + (low.toNat - 0xDC00))

def decode : List UInt16 → List Point
  | [] => []
  | [unit] => [single unit]
  | unit :: next :: rest =>
      if isHigh unit && isLow next then .scalar (pair unit next) :: decode rest
      else single unit :: decode (next :: rest)

def encodeChar (c : Char) : List UInt16 :=
  if c.toNat < 0x10000 then [UInt16.ofNat c.toNat]
  else [UInt16.ofNat (0xD800 + (c.toNat - 0x10000) / 0x400),
    UInt16.ofNat (0xDC00 + (c.toNat - 0x10000) % 0x400)]

/-- The units of a string literal. -/
def units (text : String) : List UInt16 := text.toList.flatMap encodeChar

def Point.units : Point → List UInt16
  | .scalar c => encodeChar c
  | .unpaired unit => [unit]

def Point.isScalar : Point → Bool
  | .scalar _ => true
  | .unpaired _ => false

/-- The replacement character stands for an unpaired surrogate. -/
def Point.char : Point → Char
  | .scalar c => c
  | .unpaired _ => '\uFFFD'

def chars (s : List UInt16) : List Char :=
  (decode s).map Point.char

def isWellFormed (s : List UInt16) : Bool :=
  (decode s).all Point.isScalar

/-- Every unpaired surrogate replaced. -/
def toWellFormed (s : List UInt16) : List UInt16 :=
  (chars s).flatMap encodeChar

def utf8 (s : List UInt16) : List UInt8 :=
  (chars s).flatMap String.utf8EncodeChar

/-! ## One character -/

theorem char_toNat_ofNat {n : Nat} (h : n < 0xD800 ∨ 0xDFFF < n ∧ n < 0x110000) :
    (Char.ofNat n).toNat = n := by
  have hv : n.isValidChar := h
  rw [Char.ofNat, dif_pos hv]
  rfl

theorem char_toNat_range (c : Char) : c.toNat < 0xD800 ∨ 0xDFFF < c.toNat ∧ c.toNat < 0x110000 :=
  c.valid

theorem unit_toNat_lt (unit : UInt16) : unit.toNat < 0x10000 := unit.toNat_lt

theorem units_single (unit : UInt16) : (single unit).units = [unit] := by
  unfold single
  split
  · rfl
  · rename_i h
    have hlt := unit_toNat_lt unit
    have hn : (Char.ofNat unit.toNat).toNat = unit.toNat := by
      apply char_toNat_ofNat
      simp only [isHigh, isLow, Bool.or_eq_true, Bool.and_eq_true, decide_eq_true_eq] at h
      omega
    change encodeChar _ = _
    rw [encodeChar, hn, if_pos hlt, UInt16.ofNat_toNat]

theorem encodeChar_pair {high low : UInt16} (hh : isHigh high = true) (hl : isLow low = true) :
    encodeChar (pair high low) = [high, low] := by
  simp only [isHigh, isLow, Bool.and_eq_true, decide_eq_true_eq] at hh hl
  have hn : (pair high low).toNat =
      0x10000 + (high.toNat - 0xD800) * 0x400 + (low.toNat - 0xDC00) := by
    apply char_toNat_ofNat
    omega
  have hhigh : 0xD800 + ((pair high low).toNat - 0x10000) / 0x400 = high.toNat := by
    rw [hn]
    omega
  have hlow : 0xDC00 + ((pair high low).toNat - 0x10000) % 0x400 = low.toNat := by
    rw [hn]
    omega
  rw [encodeChar, if_neg (by rw [hn]; omega), hhigh, hlow, UInt16.ofNat_toNat, UInt16.ofNat_toNat]

/-! ## Sequences -/

/-- Decoding loses nothing. -/
theorem units_decode (s : List UInt16) : (decode s).flatMap Point.units = s := by
  induction s using decode.induct with
  | case1 => rfl
  | case2 unit =>
      rw [decode, List.flatMap_cons, units_single]
      rfl
  | case3 unit next rest h ih =>
      rw [decode, if_pos h, List.flatMap_cons, ih]
      rw [Bool.and_eq_true] at h
      change encodeChar _ ++ _ = _
      rw [encodeChar_pair h.1 h.2]
      rfl
  | case4 unit next rest h ih =>
      rw [decode, if_neg h, List.flatMap_cons, ih, units_single]
      rfl

theorem chars_ne_nil {s : List UInt16} (h : s ≠ []) : chars s ≠ [] := by
  intro hchars
  have hdecode : decode s = [] := List.map_eq_nil_iff.mp hchars
  have hs := units_decode s
  rw [hdecode] at hs
  exact h hs.symm

/-- What follows a unit that is not a high surrogate is decoded by itself. -/
theorem decode_cons {unit : UInt16} (h : isHigh unit = false) (rest : List UInt16) :
    decode (unit :: rest) = single unit :: decode rest := by
  cases rest with
  | nil => rfl
  | cons next rest => rw [decode, h, Bool.false_and, if_neg Bool.false_ne_true]

theorem decode_encodeChar (c : Char) (rest : List UInt16) :
    decode (encodeChar c ++ rest) = .scalar c :: decode rest := by
  have hrange := char_toNat_range c
  unfold encodeChar
  split
  · rename_i hlt
    have hn : (UInt16.ofNat c.toNat).toNat = c.toNat := UInt16.toNat_ofNat_of_lt' hlt
    have hhigh : isHigh (UInt16.ofNat c.toNat) = false := by
      simp only [isHigh, hn, Bool.and_eq_false_iff, decide_eq_false_iff_not]
      omega
    have hlow : isLow (UInt16.ofNat c.toNat) = false := by
      simp only [isLow, hn, Bool.and_eq_false_iff, decide_eq_false_iff_not]
      omega
    rw [List.singleton_append, decode_cons hhigh, single, hhigh, hlow, Bool.or_false,
      if_neg Bool.false_ne_true, hn, Char.ofNat_toNat]
  · rename_i hge
    have hh : (UInt16.ofNat (0xD800 + (c.toNat - 0x10000) / 0x400)).toNat =
        0xD800 + (c.toNat - 0x10000) / 0x400 :=
      UInt16.toNat_ofNat_of_lt' (by change _ < 0x10000; omega)
    have hl : (UInt16.ofNat (0xDC00 + (c.toNat - 0x10000) % 0x400)).toNat =
        0xDC00 + (c.toNat - 0x10000) % 0x400 :=
      UInt16.toNat_ofNat_of_lt' (by change _ < 0x10000; omega)
    have hpair : (isHigh (UInt16.ofNat (0xD800 + (c.toNat - 0x10000) / 0x400)) &&
        isLow (UInt16.ofNat (0xDC00 + (c.toNat - 0x10000) % 0x400))) = true := by
      simp only [isHigh, isLow, hh, hl, Bool.and_eq_true, decide_eq_true_eq]
      omega
    have hc : pair (UInt16.ofNat (0xD800 + (c.toNat - 0x10000) / 0x400))
        (UInt16.ofNat (0xDC00 + (c.toNat - 0x10000) % 0x400)) = c := by
      have hsum : 0x10000 + (0xD800 + (c.toNat - 0x10000) / 0x400 - 0xD800) * 0x400 +
          (0xDC00 + (c.toNat - 0x10000) % 0x400 - 0xDC00) = c.toNat := by omega
      rw [pair, hh, hl, hsum, Char.ofNat_toNat]
    rw [List.cons_append, List.cons_append, List.nil_append, decode, if_pos hpair, hc]

theorem decode_flatMap_encodeChar (cs : List Char) :
    decode (cs.flatMap encodeChar) = cs.map .scalar := by
  induction cs with
  | nil => rfl
  | cons c rest ih => rw [List.flatMap_cons, decode_encodeChar, ih, List.map_cons]

@[simp] theorem chars_flatMap_encodeChar (cs : List Char) : chars (cs.flatMap encodeChar) = cs := by
  rw [chars, decode_flatMap_encodeChar, List.map_map]
  exact List.map_id cs

theorem toWellFormed_of_isWellFormed {s : List UInt16} (h : isWellFormed s = true) :
    toWellFormed s = s := by
  have hall : ∀ p ∈ decode s, encodeChar p.char = p.units := by
    intro p hp
    have hscalar := List.all_eq_true.mp h p hp
    cases p with
    | scalar c => rfl
    | unpaired unit => cases hscalar
  rw [toWellFormed, chars, List.flatMap_map]
  exact (List.flatMap_congr hall).trans (units_decode s)

/-- Units below the surrogates are characters, one each. -/
theorem decode_of_lt {s : List UInt16} (h : ∀ unit ∈ s, unit.toNat < 0xD800) :
    decode s = s.map (fun unit => .scalar (Char.ofNat unit.toNat)) := by
  induction s with
  | nil => rfl
  | cons unit rest ih =>
      have hunit := h unit List.mem_cons_self
      have hhigh : isHigh unit = false := by
        simp only [isHigh, Bool.and_eq_false_iff, decide_eq_false_iff_not]
        omega
      have hlow : isLow unit = false := by
        simp only [isLow, Bool.and_eq_false_iff, decide_eq_false_iff_not]
        omega
      have hrest := ih fun u hu => h u (List.mem_cons_of_mem _ hu)
      rw [decode_cons hhigh, hrest, single, hhigh, hlow]
      rfl

theorem isWellFormed_of_lt {s : List UInt16} (h : ∀ unit ∈ s, unit.toNat < 0xD800) :
    isWellFormed s = true := by
  rw [isWellFormed, decode_of_lt h, List.all_map, List.all_eq_true]
  exact fun _ _ => rfl

theorem length_chars_of_lt {s : List UInt16} (h : ∀ unit ∈ s, unit.toNat < 0xD800) :
    (chars s).length = s.length := by
  rw [chars, decode_of_lt h, List.length_map, List.length_map]

/-- The units of characters are well formed. -/
@[simp] theorem isWellFormed_flatMap (cs : List Char) :
    isWellFormed (cs.flatMap encodeChar) = true := by
  rw [isWellFormed, decode_flatMap_encodeChar, List.all_map, List.all_eq_true]
  exact fun _ _ => rfl

@[simp] theorem isWellFormed_toWellFormed (s : List UInt16) :
    isWellFormed (toWellFormed s) = true :=
  isWellFormed_flatMap (chars s)

theorem chars_eq_iff {s t : List UInt16} : chars s = chars t ↔ toWellFormed s = toWellFormed t := by
  constructor
  · intro h
    rw [toWellFormed, toWellFormed, h]
  · intro h
    have hchars := congrArg chars h
    rwa [toWellFormed, toWellFormed, chars_flatMap_encodeChar, chars_flatMap_encodeChar] at hchars

/-! ## The ends of a text -/

/-- A character below the surrogates is spelled by its own unit, and only by that. -/
theorem Point.units_of_char {p : Point} {c : Char} (hc : c.toNat < 0xD800) (h : p.char = c) :
    p.units = [UInt16.ofNat c.toNat] := by
  cases p with
  | scalar d =>
      change d = c at h
      change encodeChar d = _
      rw [h, encodeChar, if_pos (by omega)]
  | unpaired unit =>
      change '\uFFFD' = c at h
      rw [← h] at hc
      exact absurd hc (by decide)

theorem head?_of_chars {s : List UInt16} {c : Char} (hc : c.toNat < 0xD800)
    (h : (chars s).head? = some c) : s.head? = some (UInt16.ofNat c.toNat) := by
  rw [chars, List.head?_map, Option.map_eq_some_iff] at h
  have ⟨p, hp, hchar⟩ := h
  have hs := units_decode s
  have ⟨rest, hdecode⟩ := List.head?_eq_some_iff.mp hp
  rw [hdecode, List.flatMap_cons, Point.units_of_char hc hchar] at hs
  rw [← hs]
  rfl

theorem getLast?_of_chars {s : List UInt16} {c : Char} (hc : c.toNat < 0xD800)
    (h : (chars s).getLast? = some c) : s.getLast? = some (UInt16.ofNat c.toNat) := by
  rw [chars, List.getLast?_map, Option.map_eq_some_iff] at h
  have ⟨p, hp, hchar⟩ := h
  have hs := units_decode s
  have ⟨front, hdecode⟩ := List.getLast?_eq_some_iff.mp hp
  rw [hdecode, List.flatMap_append, List.flatMap_singleton, Point.units_of_char hc hchar] at hs
  rw [← hs, List.getLast?_concat]

/-! ## UTF-8 -/

theorem flatMap_utf8EncodeChar_injective :
    Function.Injective (fun cs : List Char => cs.flatMap String.utf8EncodeChar) := by
  intro cs ds h
  have hbytes : cs.utf8Encode = ds.utf8Encode := congrArg List.toByteArray h
  have hdecode := congrArg ByteArray.utf8Decode? hbytes
  rw [List.utf8Decode?_utf8Encode, List.utf8Decode?_utf8Encode, Option.some.injEq] at hdecode
  exact Array.toList_inj.mpr hdecode

theorem length_utf8_of_ascii {cs : List Char} (h : ∀ c ∈ cs, c.toNat < 0x80) :
    (cs.flatMap String.utf8EncodeChar).length = cs.length := by
  induction cs with
  | nil => rfl
  | cons c rest ih =>
      have hc := h c List.mem_cons_self
      have hone : (String.utf8EncodeChar c).length = 1 := by
        rw [String.length_utf8EncodeChar, Char.utf8Size, if_pos (by
          change c.toNat ≤ 127
          omega)]
      rw [List.flatMap_cons, List.length_append, hone, List.length_cons,
        ih fun d hd => h d (List.mem_cons_of_mem _ hd)]
      omega

theorem length_utf8EncodeChar_le (p : Point) :
    (String.utf8EncodeChar p.char).length ≤ 3 * p.units.length := by
  cases p with
  | unpaired unit => exact Nat.le_refl 3
  | scalar c =>
      change (String.utf8EncodeChar c).length ≤ 3 * (encodeChar c).length
      rw [String.length_utf8EncodeChar, encodeChar]
      by_cases hc : c.toNat < 0x10000
      · rw [if_pos hc]
        -- four bytes are for the characters that have two units
        have hval : c.val ≤ 0xFFFF := by
          change c.toNat ≤ 0xFFFF
          omega
        change (if c.val ≤ 0x7F then 1 else if c.val ≤ 0x7FF then 2
          else if c.val ≤ 0xFFFF then 3 else 4) ≤ 3
        rw [if_pos hval]
        split
        · exact by decide
        · split
          · exact by decide
          · exact Nat.le_refl 3
      · rw [if_neg hc]
        have hsize := c.utf8Size_le_four
        rw [List.length_cons, List.length_cons, List.length_nil]
        omega

/-- A unit takes three bytes at most. -/
theorem length_utf8_le (s : List UInt16) : (utf8 s).length ≤ 3 * s.length := by
  have hpoints : ∀ ps : List Point, ((ps.map Point.char).flatMap String.utf8EncodeChar).length ≤
      3 * (ps.flatMap Point.units).length := by
    intro ps
    induction ps with
    | nil => exact Nat.le_refl 0
    | cons p rest ih =>
        have hp := length_utf8EncodeChar_le p
        rw [List.map_cons, List.flatMap_cons, List.flatMap_cons, List.length_append,
          List.length_append]
        omega
  have hs := hpoints (decode s)
  rwa [units_decode] at hs

/-- The characters that bytes encode, if they encode any. -/
def utf8Decode? (bytes : List UInt8) : Option (List Char) :=
  bytes.toByteArray.utf8Decode?.map Array.toList

theorem utf8Decode?_encode (cs : List Char) :
    utf8Decode? (cs.flatMap String.utf8EncodeChar) = some cs := by
  change (cs.utf8Encode.utf8Decode?).map Array.toList = some cs
  rw [List.utf8Decode?_utf8Encode, Option.map_some]

/-- Two sequences have the same bytes when they differ in unpaired surrogates at most. -/
theorem utf8_eq_iff {s t : List UInt16} : utf8 s = utf8 t ↔ toWellFormed s = toWellFormed t := by
  rw [← chars_eq_iff]
  exact flatMap_utf8EncodeChar_injective.eq_iff

end Encoding
