import Mathlib.Data.UInt
import Mathlib.Tactic.Ring

/-! Fixed-width little-endian integers as byte lists, the layout `memcpy` of an
unsigned integer leaves in memory on a little-endian host. -/
namespace Basis

abbrev Bytes := List UInt8

/-- The `width` low bytes of `n`, least significant first. -/
def leBytes : Nat → Nat → Bytes
  | 0, _ => []
  | width + 1, n => UInt8.ofNat n :: leBytes width (n / 256)

/-- The number a little-endian byte list spells. -/
def leValue : Bytes → Nat
  | [] => 0
  | b :: rest => b.toNat + 256 * leValue rest

@[simp] theorem leBytes_length (width n : Nat) : (leBytes width n).length = width := by
  induction width generalizing n with
  | zero => rfl
  | succ width ih => simp [leBytes, ih]

theorem leValue_lt (bytes : Bytes) : leValue bytes < 256 ^ bytes.length := by
  induction bytes with
  | nil => simp [leValue]
  | cons b rest ih =>
      have hb := b.toNat_lt
      simp only [leValue, List.length_cons, Nat.pow_succ]
      omega

@[simp] theorem leValue_leBytes {width n : Nat} (h : n < 256 ^ width) :
    leValue (leBytes width n) = n := by
  induction width generalizing n with
  | zero =>
      simp only [Nat.pow_zero, Nat.lt_one_iff] at h
      simp [leBytes, leValue, h]
  | succ width ih =>
      have hDiv : n / 256 < 256 ^ width :=
        Nat.div_lt_of_lt_mul (by rwa [Nat.pow_succ, Nat.mul_comm] at h)
      simp only [leBytes, leValue, ih hDiv, UInt8.toNat_ofNat']
      omega

@[simp] theorem leBytes_leValue (bytes : Bytes) : leBytes bytes.length (leValue bytes) = bytes := by
  induction bytes with
  | nil => rfl
  | cons b rest ih =>
      have hb := b.toNat_lt
      have hHead : UInt8.ofNat (b.toNat + 256 * leValue rest) = b := by
        apply UInt8.toNat_inj.mp
        rw [UInt8.toNat_ofNat']
        omega
      have hTail : (b.toNat + 256 * leValue rest) / 256 = leValue rest := by omega
      simp only [List.length_cons, leBytes, leValue, hHead, hTail, ih]

end Basis
