import Mathlib.Data.List.Basic

/-!
# Bytes: lengths, fields and hexadecimal text

`fields` writes each field after its length in four bytes, so no two different lists of fields have
the same bytes (`fields_injective`).
-/

namespace Encoding

/-! ## Length-prefixed fields -/

def uint32BE (n : Nat) : List UInt8 :=
  [UInt8.ofNat (n / 0x1000000), UInt8.ofNat (n / 0x10000), UInt8.ofNat (n / 0x100), UInt8.ofNat n]

def lengthPrefixed (field : List UInt8) : List UInt8 :=
  uint32BE field.length ++ field

def fields (fs : List (List UInt8)) : List UInt8 :=
  fs.flatMap lengthPrefixed

@[simp] theorem length_uint32BE (n : Nat) : (uint32BE n).length = 4 := rfl

theorem byte_toNat_ofNat (n : Nat) : (UInt8.ofNat n).toNat = n % 256 := UInt8.toNat_ofNat'

theorem uint32BE_injective {m n : Nat} (hm : m < 0x100000000) (hn : n < 0x100000000)
    (h : uint32BE m = uint32BE n) : m = n := by
  simp only [uint32BE, List.cons.injEq, ← UInt8.toNat_inj, byte_toNat_ofNat] at h
  omega

/-- A prefixed field says where it ends. -/
theorem lengthPrefixed_append {f g rest rest' : List UInt8} (hf : f.length < 0x100000000)
    (hg : g.length < 0x100000000)
    (h : lengthPrefixed f ++ rest = lengthPrefixed g ++ rest') : f = g ∧ rest = rest' := by
  rw [lengthPrefixed, lengthPrefixed, List.append_assoc, List.append_assoc] at h
  have hparts := List.append_inj h rfl
  have hlength := uint32BE_injective hf hg hparts.1
  exact List.append_inj hparts.2 hlength

theorem fields_injective {fs gs : List (List UInt8)}
    (hf : ∀ f ∈ fs, f.length < 0x100000000) (hg : ∀ g ∈ gs, g.length < 0x100000000)
    (h : fields fs = fields gs) : fs = gs := by
  induction fs generalizing gs with
  | nil =>
      cases gs with
      | nil => rfl
      | cons g rest => cases h
  | cons f rest ih =>
      cases gs with
      | nil => cases h
      | cons g rest' =>
          have hparts := lengthPrefixed_append (hf f List.mem_cons_self) (hg g List.mem_cons_self) h
          have hrest := ih (fun a ha => hf a (List.mem_cons_of_mem _ ha))
            (fun a ha => hg a (List.mem_cons_of_mem _ ha)) hparts.2
          rw [hparts.1, hrest]

/-- The bytes of a number, the most significant first. -/
def bigEndian (length value : Nat) : List UInt8 :=
  (List.range length).map fun i => UInt8.ofNat (value >>> (8 * (length - 1 - i)))

/-! ## Separated texts -/

/-- A part that does not contain the separator ends where the first separator is. -/
theorem split_first {α : Type} {sep : α} {a b x y : List α} (ha : sep ∉ a) (hb : sep ∉ b)
    (h : a ++ sep :: x = b ++ sep :: y) : a = b ∧ x = y := by
  induction a generalizing b with
  | nil =>
      cases b with
      | nil => exact ⟨rfl, (List.cons.inj h).2⟩
      | cons c rest => exact absurd ((List.cons.inj h).1 ▸ List.mem_cons_self) hb
  | cons c rest ih =>
      cases b with
      | nil => exact absurd ((List.cons.inj h).1 ▸ List.mem_cons_self) ha
      | cons d rest' =>
          rw [List.mem_cons, not_or] at ha hb
          obtain ⟨hhead, htail⟩ := List.cons.inj h
          obtain ⟨hrest, hxy⟩ := ih ha.2 hb.2 htail
          exact ⟨by rw [hhead, hrest], hxy⟩

/-- And one at the end starts where the last separator is. -/
theorem split_last {α : Type} {sep : α} {a b x y : List α} (ha : sep ∉ a) (hb : sep ∉ b)
    (h : x ++ sep :: a = y ++ sep :: b) : x = y ∧ a = b := by
  have hreverse := congrArg List.reverse h
  rw [List.reverse_append, List.reverse_append, List.reverse_cons, List.reverse_cons,
    List.append_assoc, List.append_assoc, List.singleton_append, List.singleton_append] at hreverse
  have hparts := split_first (fun hmem => ha (List.mem_reverse.mp hmem))
    (fun hmem => hb (List.mem_reverse.mp hmem)) hreverse
  exact ⟨List.reverse_injective hparts.2, List.reverse_injective hparts.1⟩

/-! ## Hexadecimal text -/

/-- Two digits a byte, over whatever alphabet the digits are written in. -/
def hex {α : Type} (digit : Nat → α) (bytes : List UInt8) : List α :=
  bytes.flatMap fun byte => [digit (byte.toNat / 16), digit (byte.toNat % 16)]

theorem hex_injective {α : Type} {digit : Nat → α}
    (hdigit : ∀ m n, m < 16 → n < 16 → digit m = digit n → m = n) :
    Function.Injective (hex digit) := by
  intro bytes bytes' h
  induction bytes generalizing bytes' with
  | nil =>
      cases bytes' with
      | nil => rfl
      | cons byte rest => cases h
  | cons byte rest ih =>
      cases bytes' with
      | nil => cases h
      | cons byte' rest' =>
          simp only [hex, List.flatMap_cons, List.cons_append, List.nil_append,
            List.cons.injEq] at h
          have hlt : byte.toNat < 256 := byte.toNat_lt
          have hlt' : byte'.toNat < 256 := byte'.toNat_lt
          have hhigh := hdigit _ _ (by omega) (by omega) h.1
          have hlow := hdigit _ _ (by omega) (by omega) h.2.1
          have hbyte : byte = byte' := UInt8.toNat_inj.mp (by omega)
          rw [hbyte, ih h.2.2]

end Encoding
