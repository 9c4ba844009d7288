import InboxSaas.Product.Schema

/-!
# Uuids as text

`uuidIn` is the input function of the `uuid` type: two digits a byte, in either letter case, with
optional braces around the whole and an optional hyphen after every second byte.  `uuidOut` is the
text the driver returns for a `uuid` column: lower case, in groups of 8-4-4-4-12 digits.
-/

namespace InboxSaas.Product

def hexDigit? (unit : UInt16) : Option Nat :=
  if 48 ≤ unit ∧ unit ≤ 57 then some (unit.toNat - 48)
  else if 97 ≤ unit ∧ unit ≤ 102 then some (unit.toNat - 87)
  else if 65 ≤ unit ∧ unit ≤ 70 then some (unit.toNat - 55)
  else none

/-- Reads that many bytes, the most significant first, and returns what follows them. -/
def uuidBytes : Nat → Nat → JsString → Option (Nat × JsString)
  | 0, value, rest => some (value, rest)
  | bytes + 1, value, high :: low :: rest =>
      match hexDigit? high, hexDigit? low with
      | some h, some l =>
          let skip := rest.head? = some 45 && bytes % 2 = 0 && 0 < bytes
          uuidBytes bytes (value * 256 + (h * 16 + l)) (if skip then rest.tail else rest)
      | _, _ => none
  | _ + 1, _, _ => none

def uuidIn (text : JsString) : Option Uuid :=
  let braces := text.head? = some 123
  match uuidBytes 16 0 (if braces then text.tail else text) with
  | some (value, rest) =>
      if rest = (if braces then [125] else []) then some (BitVec.ofNat 128 value) else none
  | none => none

def hexDigit (digit : Nat) : UInt16 :=
  if digit < 10 then UInt16.ofNat (48 + digit) else UInt16.ofNat (87 + digit)

/-- The digits of the low `bytes` bytes of `value`, with the hyphens between the groups. -/
def uuidText : Nat → Nat → JsString
  | 0, _ => []
  | bytes + 1, value =>
      let byte := (value >>> (8 * bytes)) % 256
      let digits := [hexDigit (byte / 16), hexDigit (byte % 16)]
      let hyphen := if bytes = 12 ∨ bytes = 10 ∨ bytes = 8 ∨ bytes = 6 then [45] else []
      digits ++ hyphen ++ uuidText bytes value

def uuidOut (id : Uuid) : JsString :=
  uuidText 16 id.toNat

example : uuidIn (uuidOut 0x0123456789abcdef0123456789ABCDEF#128) =
    some 0x0123456789abcdef0123456789ABCDEF#128 := by decide +kernel

end InboxSaas.Product
