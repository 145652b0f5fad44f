import Mathlib.Algebra.Group.Int.Defs
import Mathlib.Algebra.Group.Nat.Defs

namespace WebFort.Library

abbrev Bytes := List UInt8

-- Narrowing to int32_t, two's complement.
def int32 (n : Int) : Int := Int.bmod n (2 ^ 32)

def int8 (b : UInt8) : Int := Int.bmod b.toNat (2 ^ 8)

-- Byte k of a little-endian two's complement integer.
def leByte (n : Int) (k : Nat) : UInt8 := UInt8.ofNat (n / 256 ^ k % 256).toNat

def le16 (n : Int) : Bytes := [leByte n 0, leByte n 1]

def le32 (n : Int) : Bytes := [leByte n 0, leByte n 1, leByte n 2, leByte n 3]

@[simp] theorem length_le16 (n : Int) : (le16 n).length = 2 := rfl

@[simp] theorem length_le32 (n : Int) : (le32 n).length = 4 := rfl

theorem leByte_toNat (n : Int) (k : Nat) : ((leByte n k).toNat : Int) = n / 256 ^ k % 256 := by
  unfold leByte
  rw [UInt8.toNat_ofNat']
  have hlo : 0 ≤ n / 256 ^ k % 256 := Int.emod_nonneg _ (by decide)
  have hhi : n / 256 ^ k % 256 < 256 := Int.emod_lt_of_pos _ (by decide)
  omega

theorem int32_bounds (n : Int) : -2 ^ 31 ≤ int32 n ∧ int32 n < 2 ^ 31 := by
  have hlo := Int.le_bmod (x := n) (m := 2 ^ 32) (by decide)
  have hhi := Int.bmod_lt (x := n) (m := 2 ^ 32) (by decide)
  unfold int32
  omega

theorem int32_of_bounds {n : Int} (hlo : -2 ^ 31 ≤ n) (hhi : n < 2 ^ 31) : int32 n = n :=
  Int.bmod_eq_of_le (by omega) (by omega)

-- Differences of narrowed numbers are right modulo 2^32.
theorem int32_sub (a b : Int) : int32 (int32 a - int32 b) = int32 (a - b) :=
  (Int.sub_bmod a b (2 ^ 32)).symm

-- Narrowing from above: never larger, and the same below 2^31.
theorem int32_le {n : Int} (h : 0 ≤ n) : int32 n ≤ n := by
  have hlt := (int32_bounds n).2
  by_cases hn : n < 2 ^ 31
  · exact Int.le_of_eq (int32_of_bounds (by omega) hn)
  · omega

theorem int32_eq_self_iff {n : Int} (h : 0 ≤ n) : int32 n = n ↔ n < 2 ^ 31 :=
  ⟨fun he => he ▸ (int32_bounds n).2, fun hn => int32_of_bounds (by omega) hn⟩

theorem int32_inj {a b : Int} (ha : -2 ^ 31 ≤ a ∧ a < 2 ^ 31) (hb : -2 ^ 31 ≤ b ∧ b < 2 ^ 31)
    (k : Int) (h : int32 (k - a) = int32 (k - b)) : a = b := by
  have hmod := (Int.bmod_sub_cancel_left k).mp h
  rwa [Int.bmod_eq_of_le (by omega) (by omega), Int.bmod_eq_of_le (by omega) (by omega)] at hmod

end WebFort.Library
