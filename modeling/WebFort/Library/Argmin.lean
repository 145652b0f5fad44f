import Mathlib.Data.List.Basic
import Mathlib.Order.Lattice

namespace WebFort.Library

-- The lowest index of a smallest value among the first `n`.
structure IsArgmin {α : Type*} [LinearOrder α] (d : Nat → α) (n i : Nat) : Prop where
  lt : i < n
  le : ∀ j < n, d i ≤ d j
  first : ∀ j < i, d i < d j

namespace IsArgmin

variable {α : Type*} [LinearOrder α] {d : Nat → α} {n i j : Nat}

theorem unique (hi : IsArgmin d n i) (hj : IsArgmin d n j) : i = j := by
  rcases Nat.lt_trichotomy i j with h | h | h
  · exact absurd (hj.first i h) (not_lt.mpr (hi.le j hj.lt))
  · exact h
  · exact absurd (hi.first j h) (not_lt.mpr (hj.le i hi.lt))

-- One more candidate, which wins only when it is smaller than all before it.
theorem succ (hi : IsArgmin d n i) : IsArgmin d (n + 1) (if d n < d i then n else i) := by
  by_cases h : d n < d i
  · rw [if_pos h]
    refine ⟨Nat.lt_succ_self n, fun j hj => ?_, fun j hj => h.trans_le (hi.le j hj)⟩
    rcases Nat.lt_succ_iff_lt_or_eq.mp hj with hj | rfl
    · exact (h.trans_le (hi.le j hj)).le
    · exact le_rfl
  · rw [if_neg h]
    refine ⟨Nat.lt_succ_of_lt hi.lt, fun j hj => ?_, hi.first⟩
    rcases Nat.lt_succ_iff_lt_or_eq.mp hj with hj | rfl
    · exact hi.le j hj
    · exact not_lt.mp h

-- A loop that keeps the best index so far and its value, begun with a value
-- above all others.
theorem of_scan (d : Nat → α) (top : α) (htop : d 0 < top) (n : Nat) :
    let best := (List.range (n + 1)).foldl
      (fun best i => if d i < best.2 then (i, d i) else best) (0, top)
    IsArgmin d (n + 1) best.1 ∧ best.2 = d best.1 := by
  induction n with
  | zero =>
      have hfirst : (List.range 1).foldl
          (fun best i => if d i < best.2 then (i, d i) else best) (0, top) = (0, d 0) := by
        simp [htop]
      simp only [hfirst]
      refine ⟨⟨Nat.one_pos, fun j hj => ?_, fun j hj => absurd hj (Nat.not_lt_zero j)⟩, trivial⟩
      rw [Nat.lt_one_iff.mp hj]
  | succ n ih =>
      obtain ⟨hbest, hval⟩ := ih
      have hnext := hbest.succ
      rw [List.range_succ, List.foldl_append]
      simp only [List.foldl_cons, List.foldl_nil, hval] at hnext ⊢
      by_cases h : d (n + 1) < d ((List.range (n + 1)).foldl
          (fun best i => if d i < best.2 then (i, d i) else best) (0, top)).1
      · rw [if_pos h] at hnext ⊢
        exact ⟨hnext, rfl⟩
      · rw [if_neg h] at hnext ⊢
        exact ⟨hnext, hval⟩

end IsArgmin

end WebFort.Library
