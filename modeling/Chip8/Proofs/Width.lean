import Mathlib.Data.Int.Bitwise

/-! Bytes and words of sixteen bits as whole numbers, and whole numbers cut to them. -/
namespace Chip8

theorem toNat_byte (n : Int) : ((UInt8.ofInt n).toNat : Int) = n % 256 := by
  simp [UInt8.ofInt]
  omega

theorem toNat_address (n : Int) : ((UInt16.ofInt n).toNat : Int) = n % 65536 := by
  simp [UInt16.ofInt]
  omega

theorem byte_toNat (b : UInt8) : UInt8.ofInt b.toNat = b := by
  have h := toNat_byte b.toNat
  have := b.toNat_lt
  exact UInt8.toNat_inj.mp (by omega)

theorem byte_eq {n : Int} {b : UInt8} (h : n = b.toNat) : UInt8.ofInt n = b := by
  rw [h, byte_toNat]

theorem address_toNat (a : UInt16) : UInt16.ofInt a.toNat = a := by
  have h := toNat_address a.toNat
  have := a.toNat_lt
  exact UInt16.toNat_inj.mp (by omega)

theorem byte_add (a b : UInt8) : UInt8.ofInt (a.toNat + b.toNat) = a + b := by
  rw [UInt8.ofInt_add, byte_toNat, byte_toNat]

theorem byte_sub (a b : UInt8) : UInt8.ofInt (a.toNat - b.toNat) = a - b := by
  have h := toNat_byte (a.toNat - b.toNat)
  have := a.toNat_lt
  have := b.toNat_lt
  apply UInt8.toNat_inj.mp
  rw [UInt8.toNat_sub]
  omega

theorem byte_double (a : UInt8) : UInt8.ofInt (2 * a.toNat) = a <<< 1 := by
  have h := toNat_byte (2 * a.toNat)
  have hs : (a <<< 1).toNat = a.toNat * 2 % 256 := by
    rw [UInt8.toNat_shiftLeft, Nat.shiftLeft_eq]
    rfl
  apply UInt8.toNat_inj.mp
  omega

theorem toNat_half (a : UInt8) : (a.toNat / 2 : Int) = ((a >>> 1).toNat : Int) := by
  have hs : (a >>> 1).toNat = a.toNat / 2 := by
    rw [UInt8.toNat_shiftRight, Nat.shiftRight_eq_div_pow]
    rfl
  omega

theorem toNat_or (a b : UInt8) : (a.toNat : Int).lor b.toNat = ((a ||| b).toNat : Int) := by
  rw [UInt8.toNat_or]
  rfl

theorem toNat_and (a b : UInt8) : (a.toNat : Int).land b.toNat = ((a &&& b).toNat : Int) := by
  rw [UInt8.toNat_and]
  rfl

theorem toNat_xor (a b : UInt8) : (a.toNat : Int).xor b.toNat = ((a ^^^ b).toNat : Int) := by
  rw [UInt8.toNat_xor]
  rfl

theorem toNat_le (a b : UInt8) : (a.toNat : Int) ≤ b.toNat ↔ a ≤ b := by
  rw [UInt8.le_iff_toNat_le]
  exact Int.ofNat_le

theorem toNat_beq (a b : UInt8) : ((a.toNat : Int) == b.toNat) = (a == b) := by
  rw [Bool.eq_iff_iff, beq_iff_eq, beq_iff_eq, Int.ofNat_inj, UInt8.toNat_inj]

theorem toNat_bne (a b : UInt8) : ((a.toNat : Int) != b.toNat) = (a != b) := by
  rw [bne, bne, toNat_beq]

theorem address_add (a : UInt16) (n : Int) : UInt16.ofInt (a.toNat + n) = a + UInt16.ofInt n := by
  rw [UInt16.ofInt_add, address_toNat]

theorem address_byte (b : UInt8) : UInt16.ofInt b.toNat = b.toUInt16 :=
  address_toNat b.toUInt16

theorem toNat_glyph (b : UInt8) : (5 * (b.toUInt16 % 16)).toNat = 5 * (b.toNat % 16) := by
  simp
  omega

theorem address_glyph (b : UInt8) : UInt16.ofInt (b.toNat % 16 * 5) = 5 * (b.toUInt16 % 16) := by
  have h := toNat_address (b.toNat % 16 * 5)
  have hg := toNat_glyph b
  apply UInt16.toNat_inj.mp
  omega

theorem toNat_offset (a : UInt16) (k : Nat) :
    (a.toNat + k : Int) % 65536 = ((a + UInt16.ofNat k).toNat : Int) := by
  rw [UInt16.toNat_add, UInt16.toNat_ofNat']
  omega

theorem ofNat_succ (k : Nat) : UInt16.ofNat (k + 1) = 1 + UInt16.ofNat k := by
  rw [Nat.add_comm, UInt16.ofNat_add]
  rfl

end Chip8
