import Mathlib.Data.Vector.Basic
import Mathlib.Tactic

/-!
# Byte strings

Byte strings and what the wire formats make of them: text in UTF-8 (`fromUtf8_eq_some`), 16-bit numbers in network order
(`be16_eq_iff`) and length bytes (`ofNat_length`).
-/

namespace RustProxy.Lib

abbrev Bytes := List UInt8

/-- A byte string of length `n`. -/
abbrev Octets (n : Nat) := List.Vector UInt8 n

/-- The byte with this index, 0 beyond the length. -/
def Octets.byte {n : Nat} (o : Octets n) (i : Nat) : UInt8 := o.toList.getD i 0

/-- A property of all bytes, from the numbers below 256. -/
theorem forall_byte {P : UInt8 → Prop} (h : ∀ n < 256, P (UInt8.ofNat n)) (b : UInt8) : P b := by
  have hb := h b.toNat b.toNat_lt
  rwa [UInt8.ofNat_toNat] at hb

/-- The bytes of a text. -/
def asBytes (s : String) : Bytes := s.toUTF8.data.toList

/-- The text of the bytes, if they are one. -/
def fromUtf8 (bs : Bytes) : Option String := String.fromUTF8? ⟨bs.toArray⟩

theorem fromUtf8_eq_some {bs : Bytes} {s : String} : fromUtf8 bs = some s ↔ bs = asBytes s := by
  unfold fromUtf8 String.fromUTF8? asBytes String.toUTF8
  constructor
  · intro h
    split at h
    · cases h; rfl
    · cases h
  · rintro rfl
    exact dif_pos s.isValidUTF8

theorem asBytes_injective {s t : String} (h : asBytes s = asBytes t) : s = t :=
  Option.some.inj ((fromUtf8_eq_some.mpr rfl).symm.trans (fromUtf8_eq_some.mpr h))

/-- The length byte of a short string determines its length. -/
theorem ofNat_length {n : UInt8} {bs : Bytes} (h : bs.length = n.toNat) : UInt8.ofNat bs.length = n := by
  rw [h, UInt8.ofNat_toNat]

theorem toNat_ofNat_length {bs : Bytes} (h : bs.length ≤ 255) : (UInt8.ofNat bs.length).toNat = bs.length := by
  rw [UInt8.toNat_ofNat']
  omega

/-! ## Numbers in network order -/

def be16 (hi lo : UInt8) : UInt16 := (hi.toUInt16 <<< 8) ||| lo.toUInt16

def hiByte (p : UInt16) : UInt8 := (p >>> 8).toUInt8

def loByte (p : UInt16) : UInt8 := (p &&& 0xff).toUInt8

theorem toNat_be16 (hi lo : UInt8) : (be16 hi lo).toNat = hi.toNat * 256 + lo.toNat := by
  have hhi : hi.toNat * 256 % 65536 = hi.toNat * 256 := by have := hi.toNat_lt; omega
  have hor := Nat.shiftLeft_add_eq_or_of_lt (i := 8) lo.toNat_lt hi.toNat
  rw [Nat.shiftLeft_eq] at hor
  simpa [be16, Nat.shiftLeft_eq, hhi] using hor.symm

theorem toNat_hiByte (p : UInt16) : (hiByte p).toNat = p.toNat / 256 := by
  have hp : p.toNat / 256 % 256 = p.toNat / 256 := by have := p.toNat_lt; omega
  simpa [hiByte, Nat.shiftRight_eq_div_pow] using hp

theorem toNat_loByte (p : UInt16) : (loByte p).toNat = p.toNat % 256 := by
  have h := Nat.and_two_pow_sub_one_eq_mod (p.toNat % 256) 8
  simpa [loByte] using h

/-- Two bytes and the number they make determine one another. -/
theorem be16_eq_iff {hi lo : UInt8} {p : UInt16} : be16 hi lo = p ↔ hi = hiByte p ∧ lo = loByte p := by
  have hlo := lo.toNat_lt
  simp only [← UInt16.toNat_inj, ← UInt8.toNat_inj, toNat_be16, toNat_hiByte, toNat_loByte]
  omega

/-! ## Numbers as text -/

/-- Two hexadecimal digits, as `{:#04x}` prints them. -/
def hexByte (b : UInt8) : String := String.ofList ['0', 'x', Nat.digitChar (b.toNat / 16), Nat.digitChar (b.toNat % 16)]

end RustProxy.Lib
