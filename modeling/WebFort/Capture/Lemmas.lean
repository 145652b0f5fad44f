import WebFort.Capture

namespace WebFort

open Library

-- What the capture shows at a tile of a column-major screen.
def frame (g : Game) (screen : Nat → Glyph) (tile : Nat) : Cell :=
  tileCell g screen (tile / g.gps.dimy.toNat) (tile % g.gps.dimy.toNat) tile

theorem sizeOk_iff (gps : Gps) :
    sizeOk gps = true ↔ 0 < gps.dimx ∧ 0 < gps.dimy ∧ gps.dimx ≤ 256 ∧ gps.dimy ≤ 256 := by
  simp [sizeOk, and_assoc]

theorem sizeOk_congr {gps gps' : Gps} (hx : gps'.dimx = gps.dimx) (hy : gps'.dimy = gps.dimy) :
    sizeOk gps' = sizeOk gps := by
  unfold sizeOk
  rw [hx, hy]

theorem total_eq (gps : Gps) (hk : sizeOk gps = true) :
    total gps = gps.dimx.toNat * gps.dimy.toNat := by
  obtain ⟨hx, hy, -, -⟩ := (sizeOk_iff gps).mp hk
  have hm : ((gps.dimx.toNat * gps.dimy.toNat : Nat) : Int) = gps.dimx * gps.dimy := by
    rw [Int.natCast_mul, Int.toNat_of_nonneg (by omega), Int.toNat_of_nonneg (by omega)]
  unfold total
  omega

theorem total_bounds {gps : Gps} (hk : sizeOk gps = true) : 0 < total gps ∧ total gps ≤ 256 * 256 := by
  obtain ⟨hx, hy, hx', hy'⟩ := (sizeOk_iff gps).mp hk
  rw [total_eq gps hk]
  exact ⟨Nat.mul_pos (by omega) (by omega), Nat.mul_le_mul (by omega) (by omega)⟩

theorem fillScreenBuffer_ready (g : Game) (dst : Buffer) (screen : Nat → Glyph)
    (hs : g.gps.screen = some screen) (hk : sizeOk g.gps = true) :
    fillScreenBuffer g dst = (true, Buffer.copy dst (frame g screen) (total g.gps)) := by
  simp only [fillScreenBuffer, hs]
  rw [if_pos hk]
  refine congrArg (Prod.mk true) (funext fun t => ?_)
  rw [Grid.foldl_columns_apply fun x y =>
    tileCell g screen x y (Grid.index g.gps.dimy.toNat x y)]
  simp only [Grid.index_div_mod, Buffer.copy, total_eq g.gps hk]
  rfl

theorem fillScreenBuffer_not_ready (g : Game) (dst : Buffer)
    (h : g.gps.screen = none ∨ sizeOk g.gps = false) :
    fillScreenBuffer g dst = (false, dst) := by
  rcases h with hs | hk
  · simp [fillScreenBuffer, hs]
  · cases hs : g.gps.screen <;> simp [fillScreenBuffer, hs, hk]

end WebFort
