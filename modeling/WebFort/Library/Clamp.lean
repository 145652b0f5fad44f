import Mathlib.Algebra.Ring.Int.Defs
import Mathlib.Algebra.BigOperators.Group.List.Basic
import Mathlib.Algebra.Order.Group.Int
import Mathlib.Algebra.Order.Group.MinMax

namespace WebFort.Library

-- The bounds of a coordinate; there may be no upper one.
structure Span where
  least : Int
  most : Option Int
  deriving DecidableEq

namespace Span

variable (b : Span)

-- The upper bound is put on last, so it wins where they cross.
def clamp (x : Int) : Int :=
  let x := if x < b.least then b.least else x
  match b.most with
  | none => x
  | some most => if x > most then most else x

-- A place that is pushed back after each of its moves.
def walk (x : Int) (ds : List Int) : Int := ds.foldl (fun x d => b.clamp (x + d)) x

-- The place of the lower bound, which is never above the upper one.
def floor : Int := b.clamp b.least

-- Between where the moves take the two ends of the span.
def Reaches (ds : List Int) (y : Int) : Prop :=
  b.walk b.floor ds ≤ y ∧ ∀ most ∈ b.most, y ≤ b.walk most ds

@[simp] theorem walk_nil (x : Int) : b.walk x [] = x := rfl

@[simp] theorem walk_cons (x d : Int) (ds : List Int) :
    b.walk x (d :: ds) = b.walk (b.clamp (x + d)) ds := rfl

theorem clamp_of_none (h : b.most = none) (x : Int) : b.clamp x = max x b.least := by
  simp only [clamp, h]
  split <;> omega

theorem clamp_of_some {most : Int} (h : b.most = some most) (x : Int) :
    b.clamp x = min (max x b.least) most := by
  simp only [clamp, h]
  split <;> split <;> omega

theorem clamp_mono {x y : Int} (h : x ≤ y) : b.clamp x ≤ b.clamp y := by
  cases hm : b.most with
  | none =>
      rw [clamp_of_none b hm, clamp_of_none b hm]
      omega
  | some most =>
      rw [clamp_of_some b hm, clamp_of_some b hm]
      omega

theorem walk_mono {x y : Int} (ds : List Int) (h : x ≤ y) : b.walk x ds ≤ b.walk y ds := by
  induction ds generalizing x y with
  | nil => exact h
  | cons d ds ih => exact ih (b.clamp_mono (Int.add_le_add_right h d))

theorem floor_le_clamp (x : Int) : b.floor ≤ b.clamp x := by
  unfold floor
  cases hm : b.most with
  | none =>
      rw [clamp_of_none b hm, clamp_of_none b hm]
      omega
  | some most =>
      rw [clamp_of_some b hm, clamp_of_some b hm]
      omega

theorem clamp_le_most {most : Int} (h : b.most = some most) (x : Int) : b.clamp x ≤ most := by
  rw [clamp_of_some b h]
  omega

theorem clamp_clamp (x : Int) : b.clamp (b.clamp x) = b.clamp x := by
  cases hm : b.most with
  | none => simp only [clamp_of_none b hm, max_assoc, max_self]
  | some most =>
      simp only [clamp_of_some b hm]
      omega

theorem clamp_walk {x : Int} (h : b.clamp x = x) (ds : List Int) :
    b.clamp (b.walk x ds) = b.walk x ds := by
  induction ds generalizing x with
  | nil => exact h
  | cons d ds ih => exact ih (b.clamp_clamp _)

-- One move is enough to be inside.
theorem clamp_walk_cons (x d : Int) (ds : List Int) :
    b.clamp (b.walk x (d :: ds)) = b.walk x (d :: ds) :=
  b.clamp_walk (b.clamp_clamp _) ds

theorem floor_le_walk {x : Int} (h : b.floor ≤ x) (ds : List Int) : b.floor ≤ b.walk x ds := by
  induction ds generalizing x with
  | nil => exact h
  | cons d ds ih => exact ih (b.floor_le_clamp _)

theorem walk_le_most {most x : Int} (hm : b.most = some most) (h : x ≤ most) (ds : List Int) :
    b.walk x ds ≤ most := by
  induction ds generalizing x with
  | nil => exact h
  | cons d ds ih => exact ih (b.clamp_le_most hm _)

-- Cutting twice is cutting at what the second cut makes of the bounds of the
-- first one.
theorem cut_cut (y lo hi A B : Int) :
    min (max (min (max y lo) hi) A) B =
      min (max y (min (max lo A) B)) (min (max hi A) B) := by
  have hinside : min (max hi A) B ≤ max y B := (min_le_right _ _).trans (le_max_right _ _)
  calc min (max (min (max y lo) hi) A) B
      = min (max y (max lo A)) (min (max hi A) B) := by
        rw [max_min_distrib_right, max_assoc, min_assoc]
    _ = min (max y (max lo A)) (min (max y B) (min (max hi A) B)) := by
        rw [min_eq_right hinside]
    _ = min (max y (min (max lo A) B)) (min (max hi A) B) := by
        rw [max_min_distrib_left, min_assoc]

theorem cut_shift (x shift lo hi : Int) :
    min (max (x + shift) (min lo hi + shift)) (hi + shift) = min (max x lo) hi + shift := by
  rw [max_add_add_right, min_add_add_right]
  omega

-- A walk from inside the span is the unbounded one, cut to what the moves make
-- of the two ends.
theorem walk_clamp_of_none (hm : b.most = none) (x : Int) (ds : List Int) :
    b.walk (b.clamp x) ds = max (x + ds.sum) (b.walk b.floor ds) := by
  have hclamp := b.clamp_of_none hm
  have hfloor : b.floor = b.least := by
    rw [floor, hclamp]
    omega
  induction ds generalizing x with
  | nil =>
      rw [walk_nil, walk_nil, hclamp, hfloor, List.sum_nil]
      omega
  | cons d ds ih =>
      have hlow := ih (b.floor + d)
      rw [walk_cons, walk_cons, ih, hlow, hclamp, hfloor, List.sum_cons]
      omega

theorem walk_clamp_of_some {most : Int} (hm : b.most = some most) (x : Int) (ds : List Int) :
    b.walk (b.clamp x) ds =
      min (max (x + ds.sum) (b.walk b.floor ds)) (b.walk most ds) := by
  have hclamp := b.clamp_of_some hm
  have hfloor : b.floor = min b.least most := by
    rw [floor, hclamp]
    omega
  induction ds generalizing x with
  | nil =>
      simp only [walk_nil, hclamp, hfloor, List.sum_nil]
      omega
  | cons d ds ih =>
      have hcut := cut_cut (x + (d + ds.sum)) (b.floor + (d + ds.sum)) (most + (d + ds.sum))
        (b.walk b.floor ds) (b.walk most ds)
      rw [hfloor, cut_shift, ← hclamp, ← hfloor] at hcut
      rw [walk_cons, walk_cons, walk_cons, ih, ih (b.floor + d), ih (most + d), List.sum_cons,
        Int.add_assoc, Int.add_assoc, Int.add_assoc]
      exact hcut

-- One clamp of the sum instead of one after each move.
theorem walk_eq_clamp_iff (x d : Int) (ds : List Int) :
    b.walk x (d :: ds) = b.clamp (x + (d :: ds).sum) ↔
      b.Reaches ds (b.clamp (x + (d :: ds).sum)) := by
  have hlow : b.floor ≤ b.walk b.floor ds := b.floor_le_walk (Int.le_refl _) ds
  have hclamp := b.floor_le_clamp (x + (d :: ds).sum)
  rw [walk_cons]
  unfold Reaches
  cases hm : b.most with
  | none =>
      have hfloor : b.floor = b.least := by
        rw [floor, b.clamp_of_none hm]
        omega
      rw [b.walk_clamp_of_none hm, b.clamp_of_none hm, List.sum_cons]
      simp only [Option.mem_def, reduceCtorEq, false_implies, implies_true, and_true]
      omega
  | some most =>
      have hfloor : b.floor = min b.least most := by
        rw [floor, b.clamp_of_some hm]
        omega
      have hends : b.walk b.floor ds ≤ b.walk most ds := b.walk_mono ds (by omega)
      have hhigh : b.walk most ds ≤ most := b.walk_le_most hm (Int.le_refl _) ds
      rw [b.walk_clamp_of_some hm, b.clamp_of_some hm, List.sum_cons]
      simp only [Option.mem_def, Option.some.injEq, forall_eq']
      omega

-- Moves that stay inside are never pushed back.
theorem walk_of_inside {x : Int} {ds : List Int}
    (h : ∀ before, before <+: ds → b.clamp (x + before.sum) = x + before.sum) :
    b.walk x ds = x + ds.sum := by
  induction ds generalizing x with
  | nil => simp
  | cons d ds ih =>
      have hd : b.clamp (x + d) = x + d := by simpa using h [d] ⟨ds, rfl⟩
      rw [walk_cons, hd, List.sum_cons, ← Int.add_assoc]
      apply ih
      rintro before ⟨rest, rfl⟩
      have hbefore := h (d :: before) ⟨rest, rfl⟩
      rwa [List.sum_cons, ← Int.add_assoc] at hbefore

end Span

end WebFort.Library
