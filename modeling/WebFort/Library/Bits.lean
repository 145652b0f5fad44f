import Mathlib.Data.Nat.Digits.Lemmas

namespace WebFort.Library

-- The number that n bytes of memory make, the lowest byte first.
def littleEndian (n : Nat) (mem : Nat → UInt8) : Nat :=
  Nat.ofDigits 256 ((List.range n).map fun i => (mem i).toNat)

theorem littleEndian_succ (n : Nat) (mem : Nat → UInt8) :
    littleEndian (n + 1) mem = littleEndian n mem + 256 ^ n * (mem n).toNat := by
  unfold littleEndian
  rw [List.range_succ, List.map_append, Nat.ofDigits_append, List.length_map, List.length_range]
  simp

theorem littleEndian_lt (n : Nat) (mem : Nat → UInt8) : littleEndian n mem < 256 ^ n := by
  have hlen : ((List.range n).map fun i => (mem i).toNat).length = n := by simp
  have hlt := Nat.ofDigits_lt_base_pow_length (b := 256) (l := (List.range n).map fun i => (mem i).toNat)
    (by decide) fun d hd => by
      obtain ⟨i, -, rfl⟩ := List.mem_map.mp hd
      exact (mem i).toNat_lt
  rwa [hlen] at hlt

-- A word takes one more byte above the ones it has.
theorem littleEndian_or {n : Nat} {mem : Nat → UInt8} {word : UInt32} (hn : n < 4)
    (h : word.toNat = littleEndian n mem) :
    (word ||| (mem n).toUInt32 <<< UInt32.ofNat (8 * n)).toNat = littleEndian (n + 1) mem := by
  have hlt := littleEndian_lt n mem
  have hbyte := (mem n).toNat_lt
  have hpow : (256 : Nat) ^ n = 2 ^ (8 * n) := by rw [Nat.pow_mul]
  have hshift : (UInt32.ofNat (8 * n)).toNat % 32 = 8 * n := by
    rw [UInt32.toNat_ofNat_of_lt' (by rw [UInt32.size]; omega), Nat.mod_eq_of_lt (by omega)]
  have hfits : (mem n).toNat <<< (8 * n) < 2 ^ 32 := by
    rw [Nat.shiftLeft_eq]
    calc (mem n).toNat * 2 ^ (8 * n) < 2 ^ 8 * 2 ^ (8 * n) :=
          Nat.mul_lt_mul_of_pos_right hbyte (Nat.two_pow_pos _)
      _ = 2 ^ (8 + 8 * n) := (Nat.pow_add _ _ _).symm
      _ ≤ 2 ^ 32 := Nat.pow_le_pow_right (by decide) (by omega)
  rw [UInt32.toNat_or, UInt32.toNat_shiftLeft, UInt8.toNat_toUInt32, hshift, Nat.mod_eq_of_lt hfits,
    h, Nat.or_comm, ← Nat.shiftLeft_add_eq_or_of_lt (hpow ▸ hlt), Nat.shiftLeft_eq,
    littleEndian_succ, hpow]
  ring

-- The bits of a masked word behind a shift, cut to a byte.
theorem testBit_field (word mask shift : UInt32) {k : Nat} (hk : k < 8) :
    ((word &&& mask) >>> shift).toUInt8.toNat.testBit k =
      (word.toNat.testBit (shift.toNat % 32 + k) && mask.toNat.testBit (shift.toNat % 32 + k)) := by
  rw [UInt32.toNat_toUInt8, Nat.testBit_mod_two_pow, decide_eq_true hk, Bool.true_and,
    UInt32.toNat_shiftRight, Nat.testBit_shiftRight, UInt32.toNat_and, Nat.testBit_and]

theorem byte_ext {a b : UInt8} (h : ∀ k < 8, a.toNat.testBit k = b.toNat.testBit k) : a = b := by
  apply UInt8.toNat_inj.mp
  apply Nat.eq_of_testBit_eq
  intro k
  by_cases hk : k < 8
  · exact h k hk
  · have hpow : (2 : Nat) ^ 8 ≤ 2 ^ k := Nat.pow_le_pow_right (by decide) (by omega)
    have hbyte : ∀ c : UInt8, c.toNat.testBit k = false := fun c =>
      Nat.testBit_lt_two_pow (lt_of_lt_of_le c.toNat_lt hpow)
    rw [hbyte a, hbyte b]

end WebFort.Library
