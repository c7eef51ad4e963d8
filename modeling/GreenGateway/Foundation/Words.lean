import Mathlib.Data.List.Basic
import Mathlib.Tactic.Ring

/-! Unsigned machine words: saturating arithmetic on 64 bits and big-endian bytes of any
width. -/

namespace Foundation

open List

section Saturating

def u64Max : Nat := 2 ^ 64 - 1

/-- A number as the nearest word. -/
def saturated (value : Nat) : UInt64 := UInt64.ofNat (min value u64Max)

@[simp] theorem saturated_toNat (value : Nat) : (saturated value).toNat = min value u64Max := by
  have small : min value u64Max < 2 ^ 64 := by
    rw [u64Max]
    omega
  rw [saturated, UInt64.toNat_ofNat', Nat.mod_eq_of_lt small]

theorem toNat_le_u64Max (word : UInt64) : word.toNat ≤ u64Max := by
  have := word.toNat_lt
  rw [u64Max]
  omega

/-- `u64::saturating_add`. -/
def saturatingAdd (left right : UInt64) : UInt64 := saturated (left.toNat + right.toNat)

/-- `u64::saturating_sub`. -/
def saturatingSub (left right : UInt64) : UInt64 := saturated (left.toNat - right.toNat)

/-- `u64::saturating_mul`. -/
def saturatingMul (left right : UInt64) : UInt64 := saturated (left.toNat * right.toNat)

@[simp] theorem saturatingAdd_toNat (left right : UInt64) :
    (saturatingAdd left right).toNat = min (left.toNat + right.toNat) u64Max :=
  saturated_toNat _

@[simp] theorem saturatingSub_toNat (left right : UInt64) :
    (saturatingSub left right).toNat = left.toNat - right.toNat := by
  have := toNat_le_u64Max left
  rw [saturatingSub, saturated_toNat]
  omega

@[simp] theorem saturatingMul_toNat (left right : UInt64) :
    (saturatingMul left right).toNat = min (left.toNat * right.toNat) u64Max :=
  saturated_toNat _

end Saturating

section BigEndian

/-- The low `width` bytes of a number, most significant first. -/
def bigEndian : Nat → Nat → List UInt8
  | 0, _ => []
  | width + 1, value => UInt8.ofNat (value / 256 ^ width) :: bigEndian width value

/-- The number that bytes spell, most significant first. -/
def fromBigEndian (bytes : List UInt8) : Nat :=
  bytes.foldl (fun value byte => value * 256 + byte.toNat) 0

@[simp] theorem bigEndian_length (width value : Nat) : (bigEndian width value).length = width := by
  induction width with
  | zero => rfl
  | succ width ih => rw [bigEndian, length_cons, ih]

theorem fromBigEndian_cons (byte : UInt8) (bytes : List UInt8) :
    fromBigEndian (byte :: bytes) = byte.toNat * 256 ^ bytes.length + fromBigEndian bytes := by
  have from_start : ∀ (bytes : List UInt8) (start : Nat),
      bytes.foldl (fun value byte => value * 256 + byte.toNat) start =
        start * 256 ^ bytes.length + fromBigEndian bytes := by
    intro bytes
    induction bytes with
    | nil => simp [fromBigEndian]
    | cons byte bytes ih =>
      intro start
      rw [fromBigEndian, foldl_cons, foldl_cons, ih, ih, length_cons, pow_succ]
      ring
  rw [fromBigEndian, foldl_cons, from_start]
  simp

theorem fromBigEndian_lt (bytes : List UInt8) : fromBigEndian bytes < 256 ^ bytes.length := by
  induction bytes with
  | nil => simp [fromBigEndian]
  | cons byte bytes ih =>
    have small := byte.toNat_lt
    rw [fromBigEndian_cons, length_cons, pow_succ]
    calc byte.toNat * 256 ^ bytes.length + fromBigEndian bytes
        < byte.toNat * 256 ^ bytes.length + 256 ^ bytes.length := by omega
      _ = (byte.toNat + 1) * 256 ^ bytes.length := by ring
      _ ≤ 256 * 256 ^ bytes.length := Nat.mul_le_mul_right _ (by omega)
      _ = 256 ^ bytes.length * 256 := Nat.mul_comm _ _

/-- The bytes spell the number, cut to their width. -/
theorem fromBigEndian_bigEndian (width value : Nat) :
    fromBigEndian (bigEndian width value) = value % 256 ^ width := by
  induction width with
  | zero => simp [bigEndian, fromBigEndian, Nat.mod_one]
  | succ width ih =>
    rw [bigEndian, fromBigEndian_cons, ih, bigEndian_length, UInt8.toNat_ofNat']
    change value / 256 ^ width % 256 * 256 ^ width + value % 256 ^ width = _
    rw [pow_succ, Nat.mod_mul]
    ring

/-- A number spells back the bytes it was read from. -/
theorem bigEndian_fromBigEndian (bytes : List UInt8) :
    bigEndian bytes.length (fromBigEndian bytes) = bytes := by
  have shifted : ∀ (bytes : List UInt8) (high : Nat),
      bigEndian bytes.length (high * 256 ^ bytes.length + fromBigEndian bytes) = bytes := by
    intro bytes
    induction bytes with
    | nil => intro high; rfl
    | cons byte bytes ih =>
      intro high
      have small := fromBigEndian_lt bytes
      have split : high * 256 ^ (bytes.length + 1) + fromBigEndian (byte :: bytes) =
          (high * 256 + byte.toNat) * 256 ^ bytes.length + fromBigEndian bytes := by
        rw [fromBigEndian_cons, pow_succ]
        ring
      rw [length_cons, bigEndian, split, ih]
      congr 1
      rw [Nat.mul_comm, Nat.mul_add_div (by omega), Nat.div_eq_of_lt small, Nat.add_zero]
      apply UInt8.toNat_inj.mp
      have := byte.toNat_lt
      rw [UInt8.toNat_ofNat']
      omega
  simpa using shifted bytes 0

end BigEndian

end Foundation
