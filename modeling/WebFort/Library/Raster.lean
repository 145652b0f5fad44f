import Mathlib.Data.List.Basic
import Mathlib.Data.Nat.Basic

namespace WebFort.Library

-- A plane of pixels, column and row.
abbrev Raster (π : Type*) := Nat → Nat → π

structure Rect where
  x : Nat
  y : Nat
  w : Nat
  h : Nat
  deriving DecidableEq

def Rect.Mem (r : Rect) (x y : Nat) : Prop := (r.x ≤ x ∧ x < r.x + r.w) ∧ r.y ≤ y ∧ y < r.y + r.h

instance (r : Rect) (x y : Nat) : Decidable (r.Mem x y) := instDecidableAnd

namespace Raster

variable {π : Type*}

-- Inside the rectangle a pixel becomes what f makes of its place there and of
-- what it was.
def paint (r : Rect) (f : Nat → Nat → π → π) (c : Raster π) : Raster π :=
  fun x y => if r.Mem x y then f (x - r.x) (y - r.y) (c x y) else c x y

section Paint

variable {r : Rect} {f : Nat → Nat → π → π} {c : Raster π} {x y : Nat}

theorem paint_outside (h : ¬r.Mem x y) : paint r f c x y = c x y := if_neg h

-- What is painted inside a rectangle is painted on it.
theorem paint_part {r : Rect} {dx dy w h : Nat} (hw : dx + w ≤ r.w) (hh : dy + h ≤ r.h)
    (f : Nat → Nat → π → π) (c : Raster π) :
    paint ⟨r.x + dx, r.y + dy, w, h⟩ f c =
      paint r (fun px py v =>
        if (Rect.mk dx dy w h).Mem px py then f (px - dx) (py - dy) v else v) c := by
  funext x y
  simp only [paint]
  by_cases hin : (Rect.mk (r.x + dx) (r.y + dy) w h).Mem x y
  · have hr : r.Mem x y := by
      simp only [Rect.Mem] at hin ⊢
      omega
    have hpart : (Rect.mk dx dy w h).Mem (x - r.x) (y - r.y) := by
      simp only [Rect.Mem] at hin ⊢
      omega
    rw [if_pos hin, if_pos hr, if_pos hpart, Nat.sub_sub, Nat.sub_sub]
  · rw [if_neg hin]
    by_cases hr : r.Mem x y
    · have hpart : ¬(Rect.mk dx dy w h).Mem (x - r.x) (y - r.y) := by
        simp only [Rect.Mem] at hin hr ⊢
        omega
      rw [if_pos hr, if_neg hpart]
    · rw [if_neg hr]

end Paint

-- The plane in cells of one size.
def cell (w h : Nat) (k : Nat × Nat) : Rect := ⟨k.1 * w, k.2 * h, w, h⟩

theorem paint_cell_part {w h w' h' dx dy : Nat} (hw : dx + w' ≤ w) (hh : dy + h' ≤ h)
    (k : Nat × Nat) (f : Nat → Nat → π → π) (c : Raster π) :
    paint ⟨k.1 * w + dx, k.2 * h + dy, w', h'⟩ f c =
      paint (cell w h k) (fun px py v =>
        if (Rect.mk dx dy w' h').Mem px py then f (px - dx) (py - dy) v else v) c :=
  paint_part (r := cell w h k) hw hh f c

theorem block_div_mod {w px : Nat} (i : Nat) (hx : px < w) :
    (i * w + px) / w = i ∧ (i * w + px) % w = px := by
  refine ⟨?_, ?_⟩
  · rw [Nat.mul_comm, Nat.mul_add_div (Nat.zero_lt_of_lt hx), Nat.div_eq_of_lt hx, Nat.add_zero]
  · rw [Nat.mul_comm, Nat.mul_add_mod, Nat.mod_eq_of_lt hx]

theorem mem_cell_iff {w h x y : Nat} {k : Nat × Nat} (hw : 0 < w) (hh : 0 < h) :
    (cell w h k).Mem x y ↔ (x / w, y / h) = k := by
  obtain ⟨i, j⟩ := k
  have hx : x / w = i ↔ i * w ≤ x ∧ x < i * w + w := by
    rw [Nat.div_eq_iff hw]
    omega
  have hy : y / h = j ↔ j * h ≤ y ∧ y < j * h + h := by
    rw [Nat.div_eq_iff hh]
    omega
  rw [Prod.mk.injEq, hx, hy]
  rfl

-- Something painted on one cell.
structure Brush (π : Type*) where
  place : Nat × Nat
  mark : Nat → Nat → π → π

def paintCells (w h : Nat) (bs : List (Brush π)) (c : Raster π) : Raster π :=
  bs.foldl (fun c b => paint (cell w h b.place) b.mark c) c

-- What a cell looks like after some brushes have been over it.
def touch (bs : List (Brush π)) (px py : Nat) (v : π) : π :=
  bs.foldl (fun v b => b.mark px py v) v

section Cells

variable {w h : Nat}

theorem paintCells_append (as bs : List (Brush π)) (c : Raster π) :
    paintCells w h (as ++ bs) c = paintCells w h bs (paintCells w h as c) :=
  List.foldl_append

-- A pixel only sees the brushes of its own cell.
theorem paintCells_apply (hw : 0 < w) (hh : 0 < h) (bs : List (Brush π)) (c : Raster π)
    (x y : Nat) :
    paintCells w h bs c x y =
      touch (bs.filter fun b => b.place = (x / w, y / h)) (x % w) (y % h) (c x y) := by
  induction bs generalizing c with
  | nil => rfl
  | cons b bs ih =>
      have hrest := ih (paint (cell w h b.place) b.mark c)
      have hstep : paintCells w h (b :: bs) c =
          paintCells w h bs (paint (cell w h b.place) b.mark c) := rfl
      rw [hstep, hrest]
      by_cases hb : b.place = (x / w, y / h)
      · have hx : x - x / w * w = x % w := by rw [Nat.mul_comm, Nat.mod_eq_sub]
        have hy : y - y / h * h = y % h := by rw [Nat.mul_comm, Nat.mod_eq_sub]
        have hpaint : paint (cell w h b.place) b.mark c x y = b.mark (x % w) (y % h) (c x y) := by
          unfold paint
          rw [if_pos ((mem_cell_iff hw hh).mpr hb.symm), hb]
          simp only [cell, hx, hy]
        rw [List.filter_cons_of_pos (by simpa using hb), hpaint]
        rfl
      · have hpaint : paint (cell w h b.place) b.mark c x y = c x y :=
          paint_outside fun hm => hb ((mem_cell_iff hw hh).mp hm).symm
        rw [List.filter_cons_of_neg (by simpa using hb), hpaint]

-- The same at a place given by its cell.
theorem paintCells_cell {px py : Nat} (hx : px < w) (hy : py < h) (bs : List (Brush π))
    (c : Raster π) (k : Nat × Nat) :
    paintCells w h bs c (k.1 * w + px) (k.2 * h + py) =
      touch (bs.filter fun b => b.place = k) px py (c (k.1 * w + px) (k.2 * h + py)) := by
  obtain ⟨hdx, hmx⟩ := block_div_mod k.1 hx
  obtain ⟨hdy, hmy⟩ := block_div_mod k.2 hy
  rw [paintCells_apply (Nat.zero_lt_of_lt hx) (Nat.zero_lt_of_lt hy), hdx, hdy, hmx, hmy]

-- The order of the brushes matters within each cell and nowhere else.
theorem paintCells_congr (hw : 0 < w) (hh : 0 < h) {as bs : List (Brush π)} (c : Raster π)
    (hsame : ∀ k, as.filter (fun b => b.place = k) = bs.filter fun b => b.place = k) :
    paintCells w h as c = paintCells w h bs c := by
  funext x y
  rw [paintCells_apply hw hh, paintCells_apply hw hh, hsame]

section Keyed

variable {ι : Type*} {key : ι → Nat × Nat} {g : ι → List (Brush π)} {l : List ι}

-- Brushes given item by item, each item with a cell of its own.
theorem filter_flatMap_place (hg : ∀ i ∈ l, ∀ b ∈ g i, b.place = key i) (k : Nat × Nat) :
    (l.flatMap g).filter (fun b => b.place = k) = (l.filter fun i => key i = k).flatMap g := by
  induction l with
  | nil => rfl
  | cons i l ih =>
      have hi := hg i List.mem_cons_self
      rw [List.flatMap_cons, List.filter_append, ih fun j hj => hg j (List.mem_cons_of_mem _ hj)]
      by_cases hk : key i = k
      · have hall : (g i).filter (fun b => b.place = k) = g i :=
          List.filter_eq_self.mpr fun b hb => by simp [hi b hb, hk]
        rw [hall, List.filter_cons_of_pos (by simpa using hk), List.flatMap_cons]
      · have hnone : (g i).filter (fun b => b.place = k) = [] :=
          List.filter_eq_nil_iff.mpr fun b hb => by simp [hi b hb, hk]
        rw [hnone, List.filter_cons_of_neg (by simpa using hk), List.nil_append]

theorem filter_key_of_nodup (hnd : (l.map key).Nodup) {i : ι} (hi : i ∈ l) :
    l.filter (fun j => key j = key i) = [i] := by
  induction l with
  | nil => exact absurd hi List.not_mem_nil
  | cons j l ih =>
      rw [List.map_cons, List.nodup_cons] at hnd
      rcases List.mem_cons.mp hi with rfl | hi
      · have hrest : l.filter (fun j => key j = key i) = [] :=
          List.filter_eq_nil_iff.mpr fun j hj he =>
            hnd.1 (List.mem_map.mpr ⟨j, hj, of_decide_eq_true he⟩)
        rw [List.filter_cons_of_pos (by simp), hrest]
      · have hne : key j ≠ key i := fun he => hnd.1 (List.mem_map.mpr ⟨i, hi, he.symm⟩)
        rw [List.filter_cons_of_neg (by simpa using hne), ih hnd.2 hi]

end Keyed

end Cells

end Raster

-- What a canvas makes of pixels: one drawn over another, one that is put there
-- and read again, and a rectangle of an image drawn in another size, for which
-- a filter may also read what is around it. It is exact for solid and for
-- clear pixels and where the size stays.
structure Compositing {π : Type*} (solid clear : π → Prop) where
  blend : π → π → π
  store : π → π
  scale : Raster π → Rect → Nat × Nat → Raster π
  blend_of_solid : ∀ s b, solid s → blend s b = s
  blend_of_clear : ∀ s b, clear s → blend s b = b
  store_of_solid : ∀ p, solid p → store p = p
  clear_store : ∀ p, clear p → clear (store p)
  scale_self : ∀ img src, ∀ px < src.w, ∀ py < src.h,
    scale img src (src.w, src.h) px py = img (src.x + px) (src.y + py)

namespace Compositing

variable {π : Type*} {solid clear : π → Prop} (C : Compositing solid clear)

-- The pixels of a rectangle, in the size of another one.
def block (img : Raster π) (src : Rect) (w h : Nat) : Raster π := C.scale img src (w, h)

def drawImage (img : Raster π) (src dst : Rect) (c : Raster π) : Raster π :=
  c.paint dst fun px py v => C.blend (C.block img src dst.w dst.h px py) v

def fillRect (color : π) (dst : Rect) (c : Raster π) : Raster π :=
  c.paint dst fun _ _ v => C.blend color v

-- getImageData, a function of each pixel, and putImageData.
def mapPixels (f : π → π) (dst : Rect) (c : Raster π) : Raster π :=
  c.paint dst fun _ _ v => C.store (f v)

theorem block_self (img : Raster π) (src : Rect) {px py : Nat} (hx : px < src.w)
    (hy : py < src.h) : C.block img src src.w src.h px py = img (src.x + px) (src.y + py) :=
  C.scale_self img src px hx py hy

end Compositing

end WebFort.Library
