import WebFort.Atlas
import WebFort.Network
import WebFort.Library.Buffer
import WebFort.Library.Json
import Mathlib.Data.List.Destutter
import Mathlib.Data.List.Sort

namespace WebFort

open Library

-- The two loops that copy a texture, over py < h and px < w: the pixel they
-- copy, or nothing where they continue.
structure Copying where
  w : Nat
  h : Nat
  pixel : Nat → Nat → Option RGBA

-- oi
def pixelOffset (atlasW x y : Nat) : Nat := (y * atlasW + x) * 4

def pixelWrites (oi : Nat) (c : RGBA) : List (Nat × UInt8) :=
  [(oi + 0, c.r), (oi + 1, c.g), (oi + 2, c.b), (oi + 3, c.a)]

namespace Copying

-- The bytes of pixels that are written, in order.
def writes (k : Copying) (atlasW destX destY : Nat) : List (Nat × UInt8) :=
  (List.range k.h).flatMap fun py =>
    (List.range k.w).flatMap fun px =>
      (k.pixel px py).elim [] (pixelWrites (pixelOffset atlasW (destX + px) (destY + py)))

-- What is copied, clear where nothing is.
def tile (k : Copying) : Tile := fun px py =>
  if px < k.w ∧ py < k.h then (k.pixel px py).getD .clear else .clear

end Copying

-- blit_surface_tile
def surfaceCopying (surf : Surface) (fmt : PixelFormat) (mem : Nat → UInt8) (tw th : Nat) :
    Copying where
  w := min surf.w tw
  h := min surf.h th
  pixel px py :=
    some (sdlGetRgba (readPixel fmt.bytesPerPixel
      fun i => mem (py * surf.pitch + px * fmt.bytesPerPixel + i)) fmt)

-- The loops of the disk fallback, on a sheet with at least 256 tiles.
def sheetCopying (sheet : Sheet) (ch tw th : Nat) : Option Copying :=
  let tpr := sheet.w / tw
  let tpc := sheet.h / th
  let count := tpr * tpc % 2 ^ 32
  if tpr = 0 ∨ tpc = 0 ∨ count < 256 ∨ count ≤ ch then none
  else
    some
      { w := tw
        h := th
        pixel := fun px py =>
          let sx := ch % tpr * tw + px
          let sy := ch / tpr * th + py
          if sx ≥ sheet.w ∨ sy ≥ sheet.h then none else some (sheet.px (sy * sheet.w + sx)) }

def fontCopying (t : Textures) (ch : Nat) : Option Copying :=
  t.art.findSome? fun file =>
    if file.isPng then file.decoded.bind fun sheet => sheetCopying sheet ch t.tw t.th else none

-- The first loop: surfaces with pixels and a format; the second one: null
-- slots of font characters.
def collected (t : Textures) : List Nat :=
  ((List.range t.raws.length).filter fun i =>
      ((t.raws[i]?).join.bind Surface.exported).isSome) ++
    (List.range t.raws.length).filter fun i =>
      (t.raws[i]?).join.isNone && (t.texposToChar i).isSome

-- std::sort, then std::unique.
def allTexpos (t : Textures) : List Nat :=
  ((collected t).insertionSort (· ≤ ·)).destutter (· ≠ ·)

-- Path 1, then path 2; nothing where copied stays false.
def copying (t : Textures) (tp : Nat) : Option Copying :=
  let disk := (t.texposToChar tp).bind (fontCopying t)
  match (t.raws[tp]?).join with
  | some surf =>
      match surf.pixels, surf.format with
      | some mem, some fmt => some (surfaceCopying surf fmt mem t.tw t.th)
      | _, _ => disk
  | none => disk

-- snprintf's "%s\"%ld\":[%d,%d]".
def entryText (firstEntry : Bool) (tp destX destY : Nat) : Bytes :=
  (if firstEntry then [] else ascii ",") ++ ascii "\"" ++ Decimal.digits tp ++ ascii "\":[" ++
    Decimal.digits destX ++ ascii "," ++ Decimal.digits destY ++ ascii "]"

def headText (tw th : Nat) : Bytes :=
  ascii "\x7b\"tw\":" ++ Decimal.digits tw ++ ascii ",\"th\":" ++ Decimal.digits th ++
    ascii ",\"map\":\x7b"

-- The variables of the copy loop.
structure Build where
  pixels : Bytes
  json : Bytes
  firstEntry : Bool

def destX (t : Textures) (idx : Nat) : Nat := idx % 64 * t.tw

def destY (t : Textures) (idx : Nat) : Nat := idx / 64 * t.th

def atlasW (t : Textures) : Nat := atlasCols (allTexpos t).length * t.tw

def atlasH (t : Textures) : Nat := atlasRows (allTexpos t).length * t.th

-- The writes of one turn of the loop.
def turnWrites (t : Textures) (e : Nat × Nat) : List (Nat × UInt8) :=
  (copying t e.1).elim [] fun k => k.writes (atlasW t) (destX t e.2) (destY t e.2)

def copyTurn (t : Textures) (b : Build) (e : Nat × Nat) : Build :=
  match copying t e.1 with
  | none => b
  | some k =>
      { pixels := store (k.writes (atlasW t) (destX t e.2) (destY t e.2)) b.pixels
        json := b.json ++ entryText b.firstEntry e.1 (destX t e.2) (destY t e.2)
        firstEntry := false }

def startBuild (t : Textures) : Build where
  pixels := List.replicate (atlasW t * atlasH t * 4) 0
  json := headText t.tw t.th
  firstEntry := true

-- Each texpos with its index in the sorted list.
def build (t : Textures) : Build :=
  let b := (allTexpos t).zipIdx.foldl (copyTurn t) (startBuild t)
  { b with json := b.json ++ ascii "\x7d\x7d" }

section Collect

variable {t : Textures}

theorem mem_collected {tp : Nat} :
    tp ∈ collected t ↔ tp < t.raws.length ∧ (slotCell t tp).isSome := by
  unfold collected slotCell
  simp only [List.mem_append, List.mem_filter, List.mem_range]
  cases (t.raws[tp]?).join with
  | none => simp
  | some surf => simp

-- A slot is collected by one of the loops only.
theorem nodup_collected (t : Textures) : (collected t).Nodup := by
  refine List.Nodup.append (List.nodup_range.filter _) (List.nodup_range.filter _) ?_
  intro tp hsurface hnull
  have hsome := (List.mem_filter.mp hsurface).2
  have hnone := (Bool.and_eq_true _ _ ▸ (List.mem_filter.mp hnull).2).1
  rw [Option.isNone_iff_eq_none.mp hnone] at hsome
  cases hsome

theorem allTexpos_eq (t : Textures) :
    allTexpos t = (List.range t.raws.length).filter fun i => (slotCell t i).isSome := by
  have hnodup : ((collected t).insertionSort (· ≤ ·)).Nodup :=
    (List.perm_insertionSort _ _).nodup_iff.mpr (nodup_collected t)
  have hsorted : ((collected t).insertionSort (· ≤ ·)).SortedLT :=
    List.sortedLE_insertionSort.sortedLT_of_nodup hnodup
  have hunique : allTexpos t = (collected t).insertionSort (· ≤ ·) :=
    List.destutter_of_isChain _ _ (hsorted.isChain.imp fun _ _ h => ne_of_lt h)
  rw [hunique]
  refine hsorted.eq_of_mem_iff ((List.sortedLT_range _).pairwise.filter _).sortedLT fun tp => ?_
  rw [List.mem_insertionSort, mem_collected, List.mem_filter, List.mem_range]

theorem mem_allTexpos {tp : Nat} :
    tp ∈ allTexpos t ↔ tp < t.raws.length ∧ (slotCell t tp).isSome := by
  rw [allTexpos_eq, List.mem_filter, List.mem_range]

theorem nodup_allTexpos (t : Textures) : (allTexpos t).Nodup := by
  rw [allTexpos_eq]
  exact List.nodup_range.filter _

theorem surfaceCopying_tile (surf : Surface) (fmt : PixelFormat) (mem : Nat → UInt8) (tw th : Nat) :
    (surfaceCopying surf fmt mem tw th).tile = blitSurfaceTile surf fmt mem tw th := rfl

theorem sheetCopying_tile (sheet : Sheet) (ch tw th : Nat) :
    (sheetCopying sheet ch tw th).map Copying.tile = sheetTile sheet ch tw th := by
  unfold sheetCopying sheetTile
  simp only
  split
  · rfl
  · refine congrArg some (funext fun px => funext fun py => ?_)
    simp only [Copying.tile]
    by_cases hin : px < tw ∧ py < th
    · by_cases hout : ch % (sheet.w / tw) * tw + px ≥ sheet.w ∨
          ch / (sheet.w / tw) * th + py ≥ sheet.h
      · rw [if_pos hin, if_pos hout, if_neg (by omega)]
        rfl
      · rw [if_pos hin, if_neg hout, if_pos (by omega)]
        rfl
    · rw [if_neg hin, if_neg (by omega)]

theorem fontCopying_tile (t : Textures) (ch : Nat) :
    (fontCopying t ch).map Copying.tile = fontTile t ch := by
  unfold fontCopying fontTile
  rw [List.map_findSome?]
  congr 1
  funext file
  show Option.map Copying.tile (if file.isPng then _ else none) = _
  split
  · cases file.decoded with
    | none => rfl
    | some sheet => exact sheetCopying_tile sheet ch t.tw t.th
  · rfl

-- What is copied for a slot that was collected.
theorem slotCell_copying {tp : Nat} (h : (slotCell t tp).isSome) :
    slotCell t tp = some ((copying t tp).map fun k => (tp, k.tile)) := by
  unfold slotCell copying at *
  cases hraw : (t.raws[tp]?).join with
  | some surf =>
      rw [hraw] at h
      simp only [Surface.exported] at h ⊢
      cases hmem : surf.pixels with
      | none => simp [hmem] at h
      | some mem =>
          cases hfmt : surf.format with
          | none => simp [hmem, hfmt] at h
          | some fmt =>
              have hbytes : fmt.bytesPerPixel ≥ 1 := by
                by_contra hzero
                simp [hmem, hfmt, hzero] at h
              simp [hbytes, surfaceCopying_tile]
  | none =>
      rw [hraw] at h
      cases hch : t.texposToChar tp with
      | none => simp [hch] at h
      | some ch =>
          simp only [Option.map_some, Option.bind_some, ← fontCopying_tile, Option.map_map]
          rfl

theorem cells_eq (t : Textures) :
    cells t = (allTexpos t).map fun tp => (copying t tp).map fun k => (tp, k.tile) := by
  have hcell : ∀ l : List Nat, l.filterMap (slotCell t) =
      (l.filter fun i => (slotCell t i).isSome).map fun tp =>
        (copying t tp).map fun k => (tp, k.tile) := by
    intro l
    induction l with
    | nil => rfl
    | cons tp l ih =>
        by_cases h : (slotCell t tp).isSome
        · rw [List.filterMap_cons_some (slotCell_copying h),
            List.filter_cons_of_pos (p := fun i => (slotCell t i).isSome) h, List.map_cons, ih]
        · have hnone : slotCell t tp = none := Option.not_isSome_iff_eq_none.mp h
          rw [List.filterMap_cons_none hnone,
            List.filter_cons_of_neg (p := fun i => (slotCell t i).isSome) h, ih]
  rw [allTexpos_eq]
  exact hcell _

theorem length_allTexpos (t : Textures) : (allTexpos t).length = (cells t).length := by
  rw [cells_eq, List.length_map]

theorem cellAt_of_zipIdx {tp idx : Nat} (h : (tp, idx) ∈ (allTexpos t).zipIdx) :
    cellAt t idx = (copying t tp).map fun k => (tp, k.tile) := by
  have hidx : (allTexpos t)[idx]? = some tp := by simpa using List.mk_mem_zipIdx_iff_getElem?.mp h
  rw [cellAt, cells_eq, List.getElem?_map, hidx]
  rfl

end Collect

end WebFort
