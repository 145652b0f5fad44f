import WebFort.Library.Words

namespace WebFort.Library.Clock

-- Two readings of a clock that starts again after each y units.

variable {y now since : Int}

theorem reading_diff (y now since : Int) :
    now % y - since % y = (now - since) - y * (now / y - since / y) := by
  have hnow := Int.mul_ediv_add_emod now y
  have hsince := Int.mul_ediv_add_emod since y
  rw [Int.mul_sub]
  omega

theorem reading_diff_bounds (hy : 0 < y) : -y < now % y - since % y ∧ now % y - since % y < y := by
  have hnow := Int.emod_nonneg now (Int.ne_of_gt hy)
  have hnow' := Int.emod_lt_of_pos now hy
  have hsince := Int.emod_nonneg since (Int.ne_of_gt hy)
  have hsince' := Int.emod_lt_of_pos since hy
  omega

-- The difference is the time that has passed when no new round began.
theorem reading_diff_eq_iff (hy : 0 < y) :
    now % y - since % y = now - since ↔ now / y = since / y := by
  rw [reading_diff]
  constructor
  · intro h
    have hzero : y * (now / y - since / y) = 0 := by omega
    rcases Int.mul_eq_zero.mp hzero with h | h
    · omega
    · omega
  · intro h
    rw [h, Int.sub_self, Int.mul_zero, Int.sub_zero]

theorem reading_diff_le (hy : 0 < y) (h : since ≤ now) : now % y - since % y ≤ now - since := by
  have hrounds : since / y ≤ now / y := Int.ediv_le_ediv hy h
  have hmul : 0 ≤ y * (now / y - since / y) := Int.mul_nonneg (Int.le_of_lt hy) (by omega)
  rw [reading_diff]
  omega

-- A countdown that trusts a reading no larger than the time that has passed.
-- It is right when the reading is, or when the limit has been reached by both.
theorem countdown_iff {limit played elapsed : Int} (hpos : 0 < limit) (hfits : limit < 2 ^ 31)
    (hlo : -2 ^ 31 ≤ played) (hle : played ≤ elapsed) (hpast : 0 ≤ elapsed) :
    ((elapsed < limit → int32 (limit - played) = limit - elapsed) ∧
        (limit ≤ elapsed → limit ≤ played)) ↔ played = elapsed ∨ limit ≤ played := by
  constructor
  · rintro ⟨hbefore, hafter⟩
    by_cases he : elapsed < limit
    · left
      have hright : int32 (limit - elapsed) = limit - elapsed :=
        int32_of_bounds (by omega) (by omega)
      exact int32_inj ⟨hlo, by omega⟩ ⟨by omega, by omega⟩ limit ((hbefore he).trans hright.symm)
    · exact Or.inr (hafter (by omega))
  · rintro (rfl | h)
    · exact ⟨fun he => int32_of_bounds (by omega) (by omega), id⟩
    · exact ⟨fun he => absurd h (by omega), fun _ => h⟩

end WebFort.Library.Clock
