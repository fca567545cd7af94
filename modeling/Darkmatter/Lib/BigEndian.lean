/-
**Numbers in big-endian bytes.**

* `toBigEndian width value` — the low bytes of a number, the first one the most significant;
* `ofBigEndian` — the number of a list of bytes;
* `ofBigEndian_toBigEndian`, `toBigEndian_ofBigEndian` — **a number that fits is read back, and so
  are the bytes**.
-/

import Mathlib

namespace Darkmatter.Lib

open List

/-- The low bytes of a number, the most significant one first. -/
def toBigEndian : Nat → Nat → List UInt8
  | 0, _ => []
  | width + 1, value => toBigEndian width (value / 256) ++ [UInt8.ofNat value]

variable (bytes : List UInt8)

def ofBigEndian : Nat :=
  bytes.foldl (fun value byte => value * 256 + byte.toNat) 0

@[simp] theorem length_toBigEndian (width value : Nat) :
    (toBigEndian width value).length = width := by
  induction width generalizing value with
  | zero => rfl
  | succ width ih => rw [toBigEndian, length_append, ih, length_singleton]

theorem ofBigEndian_concat (byte : UInt8) :
    ofBigEndian (bytes ++ [byte]) = ofBigEndian bytes * 256 + byte.toNat := by
  rw [ofBigEndian, foldl_append]
  rfl

/-- **A number that fits is read back.** -/
theorem ofBigEndian_toBigEndian {width value : Nat} (fits : value < 256 ^ width) :
    ofBigEndian (toBigEndian width value) = value := by
  induction width generalizing value with
  | zero =>
    have zero : value = 0 := by simpa using fits
    rw [zero]
    rfl
  | succ width ih =>
    have high : value / 256 < 256 ^ width := by
      rw [pow_succ] at fits
      omega
    rw [toBigEndian, ofBigEndian_concat, ih high]
    simp
    omega

/-- **Bytes are read back.** -/
theorem toBigEndian_ofBigEndian : toBigEndian bytes.length (ofBigEndian bytes) = bytes := by
  induction bytes using reverseRecOn with
  | nil => rfl
  | append_singleton bytes byte ih =>
    have small := byte.toNat_lt
    have high : (ofBigEndian bytes * 256 + byte.toNat) / 256 = ofBigEndian bytes := by omega
    have low : UInt8.ofNat (ofBigEndian bytes * 256 + byte.toNat) = byte := by
      apply UInt8.toNat_inj.mp
      rw [UInt8.toNat_ofNat']
      omega
    rw [length_append, length_singleton, toBigEndian, ofBigEndian_concat, high, ih, low]

theorem ofBigEndian_lt : ofBigEndian bytes < 256 ^ bytes.length := by
  induction bytes using reverseRecOn with
  | nil => exact Nat.one_pos
  | append_singleton bytes byte =>
    have small := byte.toNat_lt
    rw [ofBigEndian_concat, length_append, length_singleton, pow_succ]
    omega

theorem eq_of_mul_add_eq {unit high low high' low' : Nat} (small : low < unit)
    (small' : low' < unit) (same : high * unit + low = high' * unit + low') :
    high = high' ∧ low = low' := by
  have highs := congrArg (· / unit) same
  have lows := congrArg (· % unit) same
  have positive : 0 < unit := by omega
  simp only [Nat.mul_add_mod', Nat.mod_eq_of_lt small, Nat.mod_eq_of_lt small'] at lows
  simp only [Nat.add_comm (_ * unit), Nat.add_mul_div_right _ _ positive, Nat.div_eq_of_lt small,
    Nat.div_eq_of_lt small', Nat.zero_add] at highs
  exact ⟨highs, lows⟩

theorem foldl_bigEndian (start : Nat) (bytes : List UInt8) :
    bytes.foldl (fun value byte => value * 256 + byte.toNat) start =
      start * 256 ^ bytes.length + ofBigEndian bytes := by
  induction bytes using reverseRecOn with
  | nil => simp [ofBigEndian]
  | append_singleton bytes byte ih =>
    rw [foldl_append, ih, ofBigEndian_concat, length_append, length_singleton, pow_succ]
    simp only [foldl_cons, foldl_nil]
    ring

end Darkmatter.Lib
