import Mathlib.Tactic.IntervalCases
import Mathlib.Tactic.Ring
import InboxSaas.Api.V1

/-!
# Ids in paths

A path names a workspace or a job by the text of its id.  `isUuid` accepts exactly the texts that
spell a value in groups of 8-4-4-4-12 digits (`isUuid_iff`), the database reads each of them as that
value, and it writes the value back as the same text in lower case.
-/

namespace InboxSaas.Api

open InboxSaas.Product

/-- What follows the digits of a byte, with that many bytes to come. -/
def hyphen (bytes : Nat) : JsString :=
  if bytes = 12 ∨ bytes = 10 ∨ bytes = 8 ∨ bytes = 6 then [45] else []

/-- The text spells the value of that many bytes, in groups. -/
inductive Spells : Nat → Nat → JsString → Prop where
  | nil : Spells 0 0 []
  | byte {bytes value h l : Nat} {high low : UInt16} {rest : JsString}
      (hhigh : hexDigit? high = some h) (hlow : hexDigit? low = some l)
      (hrest : Spells bytes value rest) :
      Spells (bytes + 1) ((h * 16 + l) * 256 ^ bytes + value) (high :: low :: (hyphen bytes ++ rest))

/-! ## Digits -/

theorem hexDigit?_lt_sixteen {unit : UInt16} {d : Nat} (h : hexDigit? unit = some d) : d < 16 := by
  simp only [hexDigit?, UInt16.le_iff_toNat_le, UInt16.reduceToNat] at h
  split at h
  · cases h
    omega
  split at h
  · cases h
    omega
  split at h
  · cases h
    omega
  · cases h

theorem hexDigit?_hexDigit {d : Nat} (h : d < 16) : hexDigit? (hexDigit d) = some d := by
  have hall : ∀ d < 16, hexDigit? (hexDigit d) = some d := by decide
  exact hall d h

/-- A digit is written back in lower case. -/
theorem hexDigit_hexDigit? {unit : UInt16} {d : Nat} (h : hexDigit? unit = some d) :
    hexDigit d = asciiLower unit := by
  have hall : ∀ n < 103, (hexDigit? (UInt16.ofNat n)).map hexDigit =
      (hexDigit? (UInt16.ofNat n)).map fun _ => asciiLower (UInt16.ofNat n) := by decide
  have hlt : unit.toNat < 103 := by
    simp only [hexDigit?, UInt16.le_iff_toNat_le, UInt16.reduceToNat] at h
    split at h
    · omega
    split at h
    · omega
    split at h
    · omega
    · cases h
  have hunit := hall _ hlt
  rw [UInt16.ofNat_toNat, h] at hunit
  exact Option.some.inj hunit

theorem hexDigit?_hyphen : hexDigit? 45 = none := by decide

/-! ## Spelling -/

namespace Spells

variable {bytes value : Nat} {text : JsString}

theorem lt (h : Spells bytes value text) : value < 256 ^ bytes := by
  induction h with
  | nil => exact Nat.one_pos
  | @byte bytes value h l _ _ _ hhigh hlow _ ih =>
      have hh := hexDigit?_lt_sixteen hhigh
      have hl := hexDigit?_lt_sixteen hlow
      have hle : (h * 16 + l + 1) * 256 ^ bytes ≤ 256 * 256 ^ bytes :=
        Nat.mul_le_mul_right _ (by omega)
      calc (h * 16 + l) * 256 ^ bytes + value
          < (h * 16 + l) * 256 ^ bytes + 256 ^ bytes := Nat.add_lt_add_left ih _
        _ = (h * 16 + l + 1) * 256 ^ bytes := (Nat.succ_mul _ _).symm
        _ ≤ 256 * 256 ^ bytes := hle
        _ = 256 ^ (bytes + 1) := (Nat.pow_succ'.symm)

/-- A spelling does not begin with a hyphen. -/
theorem head?_ne (h : Spells bytes value text) : text.head? ≠ some 45 := by
  cases h with
  | nil => exact nofun
  | byte hhigh =>
      intro he
      rw [List.head?_cons, Option.some.injEq] at he
      rw [he, hexDigit?_hyphen] at hhigh
      cases hhigh

/-- The database reads what is spelled; every hyphen is where it skips one. -/
theorem uuidBytes (h : Spells bytes value text) (above : Nat) :
    uuidBytes bytes above text = some (above * 256 ^ bytes + value, []) := by
  induction h generalizing above with
  | nil => rw [Product.uuidBytes, Nat.pow_zero, Nat.mul_one, Nat.add_zero]
  | @byte bytes value h l high low rest hhigh hlow hrest ih =>
      rw [Product.uuidBytes, hhigh, hlow]
      have hrest' : (if ((hyphen bytes ++ rest).head? = some 45 && bytes % 2 = 0 && 0 < bytes) = true
          then (hyphen bytes ++ rest).tail else hyphen bytes ++ rest) = rest := by
        by_cases hgroup : bytes = 12 ∨ bytes = 10 ∨ bytes = 8 ∨ bytes = 6
        · have heven : bytes % 2 = 0 ∧ 0 < bytes := by omega
          simp [hyphen, hgroup, heven]
        · have hhead := hrest.head?_ne
          simp [hyphen, hgroup, hhead]
      dsimp only
      rw [hrest', ih]
      congr 2
      ring

/-- Bytes above the ones that are written do not matter. -/
theorem uuidText_add (above value bytes : Nat) :
    uuidText bytes (above * 256 ^ bytes + value) = uuidText bytes value := by
  induction bytes generalizing above with
  | zero => rfl
  | succ bytes ih =>
      have hbase : above * 256 ^ (bytes + 1) + value = above * 256 * 256 ^ bytes + value := by ring
      have hdiv : (above * 256 ^ (bytes + 1) + value) / 256 ^ bytes % 256 =
          value / 256 ^ bytes % 256 := by
        rw [hbase, Nat.add_comm, Nat.add_mul_div_right _ _ (Nat.pow_pos (by decide)),
          Nat.add_mul_mod_self_right]
      have hshift : ∀ n : Nat, n >>> (8 * bytes) = n / 256 ^ bytes := by
        intro n
        rw [Nat.shiftRight_eq_div_pow, Nat.pow_mul]
      rw [uuidText, uuidText, hshift, hshift, hdiv, hbase, ih]

/-- It writes the value back in lower case. -/
theorem uuidText (h : Spells bytes value text) :
    uuidText bytes value = text.map asciiLower := by
  induction h with
  | nil => rfl
  | @byte bytes value h l high low rest hhigh hlow hrest ih =>
      have hh := hexDigit?_lt_sixteen hhigh
      have hl := hexDigit?_lt_sixteen hlow
      have hbyte : ((h * 16 + l) * 256 ^ bytes + value) >>> (8 * bytes) % 256 = h * 16 + l := by
        rw [Nat.shiftRight_eq_div_pow, Nat.pow_mul, Nat.add_comm,
          Nat.add_mul_div_right _ _ (Nat.pow_pos (by decide)), Nat.div_eq_of_lt hrest.lt,
          Nat.zero_add, Nat.mod_eq_of_lt (by omega)]
      have hhyphen : (hyphen bytes).map asciiLower = hyphen bytes := by
        unfold hyphen
        split <;> rfl
      rw [Product.uuidText, hbyte, uuidText_add, ih, List.map_cons, List.map_cons, List.map_append,
        hhyphen, ← hexDigit_hexDigit? hhigh, ← hexDigit_hexDigit? hlow,
        show (h * 16 + l) / 16 = h by omega, show (h * 16 + l) % 16 = l by omega]
      rfl

end Spells

/-- What the database writes is a spelling of the value. -/
theorem spells_uuidText (bytes value : Nat) :
    Spells bytes (value % 256 ^ bytes) (uuidText bytes value) := by
  induction bytes with
  | zero =>
      rw [Nat.pow_zero, Nat.mod_one]
      exact .nil
  | succ bytes ih =>
      have hbyte : value >>> (8 * bytes) % 256 = value / 256 ^ bytes % 256 := by
        rw [Nat.shiftRight_eq_div_pow, Nat.pow_mul]
      have hlt : value / 256 ^ bytes % 256 < 256 := Nat.mod_lt _ (by decide)
      have hvalue : value % 256 ^ (bytes + 1) =
          (value / 256 ^ bytes % 256 / 16 * 16 + value / 256 ^ bytes % 256 % 16) * 256 ^ bytes +
            value % 256 ^ bytes := by
        rw [Nat.div_add_mod', Nat.mod_pow_succ, Nat.add_comm, Nat.mul_comm]
      rw [hvalue, uuidText, hbyte]
      exact .byte (hexDigit?_hexDigit (by omega)) (hexDigit?_hexDigit (Nat.mod_lt _ (by decide))) ih

/-! ## The check of the path parameter -/

/-- The length of the spelling of that many bytes. -/
def spelledLength (bytes : Nat) : Nat :=
  2 * bytes + ([12, 10, 8, 6].filter (· < bytes)).length

def isUuidUnit (unit : UInt16) (i : Nat) : Bool :=
  if i = 8 ∨ i = 13 ∨ i = 18 ∨ i = 23 then unit = 45 else (hexDigit? unit).isSome

theorem isUuid_eq (value : JsString) : isUuid value =
    (value.length = 36 && value.zipIdx.all fun (unit, i) => isUuidUnit unit i) := rfl

/-- Where the digits and the hyphen of the next byte stand, with that many bytes after it. -/
theorem places : ∀ bytes < 16,
    (∀ unit, isUuidUnit unit (36 - spelledLength (bytes + 1)) = (hexDigit? unit).isSome) ∧
    (∀ unit, isUuidUnit unit (36 - spelledLength (bytes + 1) + 1) = (hexDigit? unit).isSome) ∧
    (hyphen bytes = [45] → ∀ unit,
      isUuidUnit unit (36 - spelledLength (bytes + 1) + 2) = decide (unit = 45)) := by
  intro bytes hbytes
  interval_cases bytes <;> exact ⟨fun _ => rfl, fun _ => rfl, fun h _ => by cases h <;> rfl⟩

theorem spelledLength_succ : ∀ bytes < 16,
    spelledLength (bytes + 1) = 2 + (hyphen bytes).length + spelledLength bytes ∧
      spelledLength (bytes + 1) ≤ 36 := by
  decide

theorem Spells.checked {bytes value : Nat} {text : JsString} (h : Spells bytes value text)
    (hbytes : bytes ≤ 16) : text.length = spelledLength bytes ∧
      (text.zipIdx (36 - spelledLength bytes)).all (fun (unit, i) => isUuidUnit unit i) = true := by
  induction h with
  | nil => exact ⟨rfl, rfl⟩
  | @byte bytes value h l high low rest hhigh hlow hrest ih =>
      obtain ⟨hlength, hall⟩ := ih (by omega)
      obtain ⟨hsucc, hle⟩ := spelledLength_succ bytes (by omega)
      obtain ⟨h₀, h₁, h₂⟩ := places bytes (by omega)
      have hfrom : 36 - spelledLength (bytes + 1) + 2 + (hyphen bytes).length =
          36 - spelledLength bytes := by omega
      refine ⟨by simp [hlength, hsucc]; omega, ?_⟩
      rw [List.zipIdx_cons, List.zipIdx_cons, List.all_cons, List.all_cons]
      dsimp only
      rw [h₀, h₁, hhigh, hlow, Option.isSome_some, Option.isSome_some, Bool.true_and,
        Bool.true_and, List.zipIdx_append, List.all_append, Nat.add_assoc, hfrom, hall,
        Bool.and_true]
      by_cases hgroup : bytes = 12 ∨ bytes = 10 ∨ bytes = 8 ∨ bytes = 6
      · have hhyphen : hyphen bytes = [45] := if_pos hgroup
        simp [hhyphen, h₂ hhyphen]
      · have hhyphen : hyphen bytes = [] := if_neg hgroup
        simp [hhyphen]

theorem spells_of_checked {bytes : Nat} {text : JsString} (hbytes : bytes ≤ 16)
    (hlength : text.length = spelledLength bytes)
    (hall : (text.zipIdx (36 - spelledLength bytes)).all (fun (unit, i) => isUuidUnit unit i) =
      true) : ∃ value, Spells bytes value text := by
  induction bytes generalizing text with
  | zero =>
      rw [List.eq_nil_of_length_eq_zero hlength]
      exact ⟨0, .nil⟩
  | succ bytes ih =>
      obtain ⟨hsucc, hle⟩ := spelledLength_succ bytes (by omega)
      obtain ⟨h₀, h₁, h₂⟩ := places bytes (by omega)
      have hfrom : 36 - spelledLength (bytes + 1) + 2 + (hyphen bytes).length =
          36 - spelledLength bytes := by omega
      rcases text with _ | ⟨high, _ | ⟨low, tail⟩⟩
      · simp at hlength
        omega
      · simp at hlength
        omega
      rw [List.zipIdx_cons, List.zipIdx_cons, List.all_cons, List.all_cons, Bool.and_eq_true,
        Bool.and_eq_true] at hall
      dsimp only at hall
      rw [h₀, h₁, Nat.add_assoc] at hall
      obtain ⟨hhigh, hlow, htail⟩ := hall
      obtain ⟨h, hhigh⟩ := Option.isSome_iff_exists.mp hhigh
      obtain ⟨l, hlow⟩ := Option.isSome_iff_exists.mp hlow
      -- the hyphen, where one is due
      have hrest : ∃ rest, tail = hyphen bytes ++ rest := by
        by_cases hgroup : bytes = 12 ∨ bytes = 10 ∨ bytes = 8 ∨ bytes = 6
        · have hhyphen : hyphen bytes = [45] := if_pos hgroup
          rcases tail with _ | ⟨unit, rest⟩
          · simp [hhyphen] at hlength hsucc
            omega
          · rw [List.zipIdx_cons, List.all_cons, Bool.and_eq_true] at htail
            have hunit := htail.1
            dsimp only at hunit
            rw [← Nat.add_assoc, h₂ hhyphen, decide_eq_true_iff] at hunit
            exact ⟨rest, by rw [hhyphen, hunit]; rfl⟩
        · exact ⟨tail, by rw [hyphen, if_neg hgroup]; rfl⟩
      obtain ⟨rest, rfl⟩ := hrest
      rw [List.zipIdx_append, List.all_append, Bool.and_eq_true, ← Nat.add_assoc, hfrom] at htail
      obtain ⟨value, hspells⟩ := ih (by omega) (by simp [hsucc] at hlength; omega) htail.2
      exact ⟨_, .byte hhigh hlow hspells⟩

/-- The check accepts exactly the spellings of 16 bytes. -/
theorem isUuid_iff {text : JsString} : isUuid text = true ↔ ∃ value, Spells 16 value text := by
  rw [isUuid_eq, Bool.and_eq_true, decide_eq_true_iff]
  constructor
  · rintro ⟨hlength, hall⟩
    exact spells_of_checked (by omega) hlength hall
  · rintro ⟨value, h⟩
    exact h.checked (by omega)

/-! ## Round trips -/

theorem Spells.uuidIn {value : Nat} {text : JsString} (h : Spells 16 value text) :
    uuidIn text = some (BitVec.ofNat 128 value) := by
  have hbrace : text.head? ≠ some 123 := by
    cases h with
    | byte hhigh =>
        intro he
        rw [List.head?_cons, Option.some.injEq] at he
        rw [he, show hexDigit? 123 = none by decide] at hhigh
        cases hhigh
  unfold Product.uuidIn
  simp only [hbrace, if_false, h.uuidBytes, Nat.zero_mul, Nat.zero_add, if_true]

theorem Spells.uuidOut {value : Nat} {text : JsString} (h : Spells 16 value text) :
    uuidOut (BitVec.ofNat 128 value) = text.map asciiLower := by
  have hlt : value < 2 ^ 128 := h.lt
  rw [Product.uuidOut, BitVec.toNat_ofNat, Nat.mod_eq_of_lt hlt, h.uuidText]

theorem spells_uuidOut (id : Uuid) : Spells 16 id.toNat (uuidOut id) := by
  have hlt : id.toNat < 256 ^ 16 := id.isLt
  have h := spells_uuidText 16 id.toNat
  rwa [Nat.mod_eq_of_lt hlt] at h

theorem isUuid_uuidOut (id : Uuid) : isUuid (uuidOut id) = true :=
  isUuid_iff.mpr ⟨_, spells_uuidOut id⟩

theorem uuidIn_uuidOut (id : Uuid) : uuidIn (uuidOut id) = some id := by
  rw [(spells_uuidOut id).uuidIn, BitVec.ofNat_toNat, BitVec.setWidth_eq]

/-- What the check accepts, the database reads, and writes back in lower case. -/
theorem uuidIn_of_isUuid {text : JsString} (h : isUuid text = true) :
    ∃ id, uuidIn text = some id ∧ uuidOut id = text.map asciiLower := by
  obtain ⟨value, hspells⟩ := isUuid_iff.mp h
  exact ⟨_, hspells.uuidIn, hspells.uuidOut⟩

/-- Every id that an answer shows is accepted in a path and names the same row; every id that a path
may hold names a row, and two of them name the same one exactly if they are the same but for the
case of letters. -/
theorem path_ids :
    (∀ id, isUuid (uuidOut id) = true ∧ uuidIn (uuidOut id) = some id) ∧
      (∀ text, isUuid text = true → ∃ id, uuidIn text = some id ∧
        uuidOut id = text.map asciiLower) ∧
      ∀ a b, isUuid a = true → isUuid b = true →
        (uuidIn a = uuidIn b ↔ a.map asciiLower = b.map asciiLower) := by
  refine ⟨fun id => ⟨isUuid_uuidOut id, uuidIn_uuidOut id⟩, fun _ => uuidIn_of_isUuid, ?_⟩
  intro a b ha hb
  obtain ⟨id, hid, hout⟩ := uuidIn_of_isUuid ha
  obtain ⟨id', hid', hout'⟩ := uuidIn_of_isUuid hb
  rw [hid, hid', Option.some.injEq, ← hout, ← hout']
  constructor
  · exact congrArg _
  · intro h
    rw [← Option.some.injEq, ← uuidIn_uuidOut id, h, uuidIn_uuidOut]

end InboxSaas.Api
