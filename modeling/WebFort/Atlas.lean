import WebFort.Library.Machine
import WebFort.Library.Words
import Mathlib.Data.List.Range

namespace WebFort

open Library

structure RGBA where
  r : UInt8
  g : UInt8
  b : UInt8
  a : UInt8
  deriving DecidableEq

def RGBA.clear : RGBA := ⟨0, 0, 0, 0⟩

-- The pixels of one tile, clear outside of it.
abbrev Tile := Nat → Nat → RGBA

structure Channel where
  mask : UInt32
  shift : UInt32

structure PixelFormat where
  bytesPerPixel : Nat
  rmask : Channel
  gmask : Channel
  bmask : Channel
  amask : Channel

structure Surface where
  w : Nat
  h : Nat
  pitch : Nat
  pixels : Option (Nat → UInt8)
  format : Option PixelFormat

-- What lodepng::decode makes of a file of the art directory.
structure Sheet where
  w : Nat
  h : Nat
  px : Nat → RGBA

-- An entry of the art directory: its extension is .png, and it can be decoded.
structure ArtFile where
  isPng : Bool
  decoded : Option Sheet

-- What a call of wf_build_atlas reads.
structure Textures where
  -- enabler->textures.raws
  raws : List (Option Surface)
  largeFontTexpos : Nat → Int
  tilePixelX : Int
  tilePixelY : Int
  art : List ArtFile

namespace Textures

variable (t : Textures)

def tw : Nat := if t.tilePixelX > 0 then t.tilePixelX.toNat else 16

def th : Nat := if t.tilePixelY > 0 then t.tilePixelY.toNat else 16

theorem tw_pos : 0 < t.tw := by
  unfold tw
  split <;> omega

theorem th_pos : 0 < t.th := by
  unfold th
  split <;> omega

end Textures

-- Bytes of a pixel in memory order.
def readPixel (bytesPerPixel : Nat) (p : Nat → UInt8) : UInt32 :=
  let byte (i : Nat) : UInt32 := (p i).toUInt32
  match bytesPerPixel with
  | 4 => byte 0 ||| byte 1 <<< 8 ||| byte 2 <<< 16 ||| byte 3 <<< 24
  | 3 => byte 0 ||| byte 1 <<< 8 ||| byte 2 <<< 16
  | 2 => byte 0 ||| byte 1 <<< 8
  | 1 => byte 0
  | _ => 0

def Channel.get (c : Channel) (absent : UInt8) (pixel : UInt32) : UInt8 :=
  if c.mask ≠ 0 then ((pixel &&& c.mask) >>> c.shift).toUInt8 else absent

def sdlGetRgba (pixel : UInt32) (fmt : PixelFormat) : RGBA :=
  ⟨fmt.rmask.get 0 pixel, fmt.gmask.get 0 pixel, fmt.bmask.get 0 pixel, fmt.amask.get 255 pixel⟩

-- The tile blit_surface_tile leaves in an area that was clear.
def blitSurfaceTile (surf : Surface) (fmt : PixelFormat) (mem : Nat → UInt8) (tw th : Nat) : Tile :=
  fun px py =>
    if px < min surf.w tw ∧ py < min surf.h th then
      sdlGetRgba (readPixel fmt.bytesPerPixel
        fun i => mem (py * surf.pitch + px * fmt.bytesPerPixel + i)) fmt
    else .clear

-- A surface that is exported: s->pixels, s->format and BytesPerPixel >= 1.
def Surface.exported (surf : Surface) : Option (PixelFormat × (Nat → UInt8)) :=
  match surf.pixels, surf.format with
  | some mem, some fmt => if fmt.bytesPerPixel ≥ 1 then some (fmt, mem) else none
  | _, _ => none

-- texpos_to_char: emplace keeps the first character of a texpos.
def Textures.texposToChar (t : Textures) (tp : Nat) : Option Nat :=
  (List.range' 1 255).find? fun ch => t.largeFontTexpos ch = tp && t.largeFontTexpos ch > 0

-- The glyph on a sheet that has at least 256 tiles of this size; the
-- numbers are unsigned int.
def sheetTile (sheet : Sheet) (ch tw th : Nat) : Option Tile :=
  let tpr := sheet.w / tw
  let tpc := sheet.h / th
  let count := tpr * tpc % 2 ^ 32
  if tpr = 0 ∨ tpc = 0 ∨ count < 256 ∨ count ≤ ch then none
  else
    some fun px py =>
      let sx := ch % tpr * tw + px
      let sy := ch / tpr * th + py
      if px < tw ∧ py < th ∧ sx < sheet.w ∧ sy < sheet.h then sheet.px (sy * sheet.w + sx) else .clear

-- The first file that will do, in the order of the directory.
def fontTile (t : Textures) (ch : Nat) : Option Tile :=
  t.art.findSome? fun file =>
    if file.isPng then file.decoded.bind fun sheet => sheetTile sheet ch t.tw t.th else none

-- What becomes of one slot of raws: nothing when it is not in all_texpos, else
-- the tile in its cell of the atlas, if any is found.
def slotCell (t : Textures) (tp : Nat) : Option (Option (Nat × Tile)) :=
  match (t.raws[tp]?).join with
  | some surf => surf.exported.map fun e => some (tp, blitSurfaceTile surf e.1 e.2 t.tw t.th)
  | none => (t.texposToChar tp).map fun ch => (fontTile t ch).map fun tile => (tp, tile)

-- The cells of the atlas, in the order of the sorted all_texpos.
def cells (t : Textures) : List (Option (Nat × Tile)) :=
  (List.range t.raws.length).filterMap (slotCell t)

def atlasCols (num : Nat) : Nat := min num 64

def atlasRows (num : Nat) : Nat := (num + atlasCols num - 1) / atlasCols num

-- atlas.json, as the object it stands for.
structure AtlasInfo where
  tw : Nat
  th : Nat
  map : List (Nat × Nat × Nat)
  deriving DecidableEq

-- atlas.png, as the pixels it stands for.
structure AtlasImage where
  w : Nat
  h : Nat
  pixel : Nat → Nat → RGBA

def cellAt (t : Textures) (idx : Nat) : Option (Nat × Tile) := ((cells t)[idx]?).join

def atlasInfo (t : Textures) : AtlasInfo where
  tw := t.tw
  th := t.th
  map := (List.range (cells t).length).filterMap fun idx =>
    (cellAt t idx).map fun cell => (cell.1, idx % 64 * t.tw, idx / 64 * t.th)

def atlasImage (t : Textures) : AtlasImage :=
  let num := (cells t).length
  { w := atlasCols num * t.tw
    h := atlasRows num * t.th
    pixel := fun x y =>
      if x < atlasCols num * t.tw ∧ y < atlasRows num * t.th then
        match cellAt t (y / t.th * 64 + x / t.tw) with
        | some (_, tile) => tile (x % t.tw) (y % t.th)
        | none => .clear
      else .clear }

-- The number that stands for the contents of the slots.
def validCount (t : Textures) : Nat :=
  (t.raws.filter fun raw => (raw.bind Surface.pixels).isSome).length

-- The globals of the atlas and the tick counter of plugin_onupdate.
structure Atlas where
  png : Option AtlasImage
  json : Option AtlasInfo
  version : Nat
  lastValidCount : Nat
  lastRawsSize : Nat
  lastGfxMode : Bool
  graphicsMode : Bool
  tick : Nat

def Atlas.init : Atlas := ⟨none, none, 0, 0, 0, false, false, 0⟩

inductive BuildResult
  | cleared
  | skipped
  | failed
  | built
  deriving DecidableEq

def Atlas.unchanged (a : Atlas) (t : Textures) : Prop :=
  validCount t = a.lastValidCount ∧ t.raws.length = a.lastRawsSize ∧ a.graphicsMode = a.lastGfxMode

instance (a : Atlas) (t : Textures) : Decidable (a.unchanged t) := instDecidableAnd

-- Whether lodepng::encode succeeds is given.
def wfBuildAtlas (t : Textures) (encodes : Bool) (a : Atlas) : Atlas × BuildResult :=
  if a.graphicsMode = false then
    ({ a with
      png := none
      json := none
      lastValidCount := 0
      lastRawsSize := 0
      lastGfxMode := false }, .cleared)
  else if t.raws.length = 0 then (a, .failed)
  else if a.unchanged t then (a, .skipped)
  else if cells t = [] then (a, .failed)
  else if encodes then
    ({ a with
      png := some (atlasImage t)
      json := some (atlasInfo t)
      version := (a.version + 1) % 16
      lastValidCount := validCount t
      lastRawsSize := t.raws.length
      lastGfxMode := a.graphicsMode }, .built)
  else (a, .failed)

theorem wfBuildAtlas_built {t : Textures} {encodes : Bool} {a : Atlas}
    (h : (wfBuildAtlas t encodes a).2 = .built) :
    cells t ≠ [] ∧ (wfBuildAtlas t encodes a).1.json = some (atlasInfo t) ∧
      (wfBuildAtlas t encodes a).1.png = some (atlasImage t) := by
  unfold wfBuildAtlas at h ⊢
  split
  case isTrue hmode => simp [hmode] at h
  case isFalse hmode =>
      split
      case isTrue hraws => simp [hmode, hraws] at h
      case isFalse hraws =>
          split
          case isTrue hsame => simp [hmode, hraws, hsame] at h
          case isFalse hsame =>
              split
              case isTrue hempty => simp [hmode, hraws, hsame, hempty] at h
              case isFalse hempty =>
                  split
                  case isTrue hencodes => exact ⟨hempty, rfl, rfl⟩
                  case isFalse hencodes => simp [hmode, hraws, hsame, hempty, hencodes] at h

-- The same tile size, the same shape, and in each cell the same texpos with
-- the same tile.
structure SameExports (t t' : Textures) : Prop where
  tw : t.tw = t'.tw
  th : t.th = t'.th
  cols : atlasCols (cells t).length = atlasCols (cells t').length
  rows : atlasRows (cells t).length = atlasRows (cells t').length
  cell : ∀ idx, cellAt t idx = cellAt t' idx

section Layout

variable {t t' : Textures} {idx tp : Nat} {tile : Tile}

-- Nothing is drawn outside of a tile.
theorem slotCell_clear {slot : Nat} (h : slotCell t slot = some (some (tp, tile))) {px py : Nat}
    (hout : ¬(px < t.tw ∧ py < t.th)) : tile px py = .clear := by
  unfold slotCell at h
  split at h
  · obtain ⟨e, -, he⟩ := Option.map_eq_some_iff.mp h
    obtain ⟨-, rfl⟩ := Prod.mk.inj (Option.some.inj he)
    unfold blitSurfaceTile
    rw [if_neg]
    omega
  · obtain ⟨ch, -, hch⟩ := Option.map_eq_some_iff.mp h
    obtain ⟨glyph, hglyph, heq⟩ := Option.map_eq_some_iff.mp hch
    obtain ⟨-, rfl⟩ := Prod.mk.inj heq
    obtain ⟨file, -, hfile⟩ := List.exists_of_findSome?_eq_some hglyph
    split at hfile
    · obtain ⟨sheet, -, hsheet⟩ := Option.bind_eq_some_iff.mp hfile
      unfold sheetTile at hsheet
      simp only at hsheet
      split at hsheet
      · cases hsheet
      · obtain rfl := Option.some.inj hsheet
        simp only
        rw [if_neg]
        exact fun h => hout ⟨h.1, h.2.1⟩
    · cases hfile

-- A slot is exported under its own number.
theorem slotCell_slot {slot : Nat} (h : slotCell t slot = some (some (tp, tile))) : tp = slot := by
  unfold slotCell at h
  split at h
  · obtain ⟨e, -, he⟩ := Option.map_eq_some_iff.mp h
    exact (Prod.mk.inj (Option.some.inj he)).1.symm
  · obtain ⟨ch, -, hch⟩ := Option.map_eq_some_iff.mp h
    obtain ⟨glyph, -, heq⟩ := Option.map_eq_some_iff.mp hch
    exact (Prod.mk.inj heq).1.symm

theorem mem_cells : some (tp, tile) ∈ cells t ↔
    tp < t.raws.length ∧ slotCell t tp = some (some (tp, tile)) := by
  unfold cells
  simp only [List.mem_filterMap, List.mem_range]
  constructor
  · rintro ⟨slot, hslot, h⟩
    obtain rfl := slotCell_slot h
    exact ⟨hslot, h⟩
  · rintro ⟨hslot, h⟩
    exact ⟨tp, hslot, h⟩

theorem cellAt_clear (h : cellAt t idx = some (tp, tile)) {px py : Nat}
    (hout : ¬(px < t.tw ∧ py < t.th)) : tile px py = .clear := by
  have hmem : some (tp, tile) ∈ cells t := List.mem_of_getElem? (Option.join_eq_some_iff.mp h)
  obtain ⟨slot, -, hslot⟩ := List.mem_filterMap.mp hmem
  exact slotCell_clear hslot hout

theorem cellAt_lt (h : cellAt t idx = some (tp, tile)) : idx < (cells t).length :=
  (List.getElem?_eq_some_iff.mp (Option.join_eq_some_iff.mp h)).1

theorem atlasRows_gt {num idx : Nat} (h : idx < num) : idx / 64 < atlasRows num := by
  unfold atlasRows atlasCols
  by_cases hnum : num ≤ 64
  · have hone : 0 < (num + num - 1) / num := Nat.div_pos (by omega) (by omega)
    rw [Nat.min_eq_left hnum]
    omega
  · rw [Nat.min_eq_right (by omega)]
    omega

theorem atlasCols_gt {num idx : Nat} (h : idx < num) : idx % 64 < atlasCols num := by
  unfold atlasCols
  omega

theorem cell_in_image {num : Nat} (h : idx < num) {px py : Nat} (hx : px < t.tw) (hy : py < t.th) :
    idx % 64 * t.tw + px < atlasCols num * t.tw ∧
      idx / 64 * t.th + py < atlasRows num * t.th := by
  constructor
  · calc idx % 64 * t.tw + px < idx % 64 * t.tw + t.tw := by omega
      _ = (idx % 64 + 1) * t.tw := (Nat.succ_mul _ _).symm
      _ ≤ _ := Nat.mul_le_mul_right _ (atlasCols_gt h)
  · calc idx / 64 * t.th + py < idx / 64 * t.th + t.th := by omega
      _ = (idx / 64 + 1) * t.th := (Nat.succ_mul _ _).symm
      _ ≤ _ := Nat.mul_le_mul_right _ (atlasRows_gt h)

theorem atlasImage_pixel {x y : Nat} (hx : x < (atlasImage t).w) (hy : y < (atlasImage t).h) :
    (atlasImage t).pixel x y =
      (cellAt t (y / t.th * 64 + x / t.tw)).elim .clear
        fun cell => cell.2 (x % t.tw) (y % t.th) := by
  have hin : x < atlasCols (cells t).length * t.tw ∧ y < atlasRows (cells t).length * t.th :=
    ⟨hx, hy⟩
  unfold atlasImage
  simp only
  rw [if_pos hin]
  cases cellAt t (y / t.th * 64 + x / t.tw) <;> rfl

-- The pixels of a cell are those of its tile, if it has one.
theorem atlasImage_at (hlt : idx < (cells t).length) {px py : Nat} (hx : px < t.tw)
    (hy : py < t.th) :
    (atlasImage t).pixel (idx % 64 * t.tw + px) (idx / 64 * t.th + py) =
      (cellAt t idx).elim .clear fun cell => cell.2 px py := by
  have hcol : (idx % 64 * t.tw + px) / t.tw = idx % 64 := by
    rw [Nat.mul_comm, Nat.mul_add_div t.tw_pos, Nat.div_eq_of_lt hx, Nat.add_zero]
  have hrow : (idx / 64 * t.th + py) / t.th = idx / 64 := by
    rw [Nat.mul_comm, Nat.mul_add_div t.th_pos, Nat.div_eq_of_lt hy, Nat.add_zero]
  have hpx : (idx % 64 * t.tw + px) % t.tw = px := by
    rw [Nat.mul_comm, Nat.mul_add_mod, Nat.mod_eq_of_lt hx]
  have hpy : (idx / 64 * t.th + py) % t.th = py := by
    rw [Nat.mul_comm, Nat.mul_add_mod, Nat.mod_eq_of_lt hy]
  have hidx : idx / 64 * 64 + idx % 64 = idx := Nat.div_add_mod' idx 64
  obtain ⟨hwidth, hheight⟩ := cell_in_image hlt hx hy
  rw [atlasImage_pixel hwidth hheight, hcol, hrow, hidx, hpx, hpy]

theorem atlasImage_cell (h : cellAt t idx = some (tp, tile)) {px py : Nat} (hx : px < t.tw)
    (hy : py < t.th) :
    (atlasImage t).pixel (idx % 64 * t.tw + px) (idx / 64 * t.th + py) = tile px py := by
  rw [atlasImage_at (cellAt_lt h) hx hy, h]
  rfl

theorem mem_atlasInfo {x y : Nat} :
    (tp, x, y) ∈ (atlasInfo t).map ↔
      ∃ idx tile, cellAt t idx = some (tp, tile) ∧ x = idx % 64 * t.tw ∧ y = idx / 64 * t.th := by
  unfold atlasInfo
  simp only [List.mem_filterMap, List.mem_range, Option.map_eq_some_iff, Prod.mk.injEq]
  constructor
  · rintro ⟨idx, -, ⟨tp', tile⟩, hcell, rfl, rfl, rfl⟩
    exact ⟨idx, tile, hcell, rfl, rfl⟩
  · rintro ⟨idx, tile, hcell, rfl, rfl⟩
    exact ⟨idx, cellAt_lt hcell, _, hcell, rfl, rfl, rfl⟩

theorem listed_iff : (∃ x y, (tp, x, y) ∈ (atlasInfo t).map) ↔
    tp < t.raws.length ∧ ∃ tile, slotCell t tp = some (some (tp, tile)) := by
  constructor
  · rintro ⟨x, y, h⟩
    obtain ⟨idx, tile, hcell, -, -⟩ := mem_atlasInfo.mp h
    obtain ⟨hslot, htile⟩ := mem_cells.mp (List.mem_of_getElem? (Option.join_eq_some_iff.mp hcell))
    exact ⟨hslot, tile, htile⟩
  · rintro ⟨hslot, tile, htile⟩
    obtain ⟨idx, hidx⟩ := List.mem_iff_getElem?.mp (mem_cells.mpr ⟨hslot, htile⟩)
    exact ⟨_, _, mem_atlasInfo.mpr ⟨idx, tile, Option.join_eq_some_iff.mpr hidx, rfl, rfl⟩⟩

-- Places tell cells apart.
theorem idx_of_place {idx idx' : Nat} (hx : idx % 64 * t.tw = idx' % 64 * t.tw)
    (hy : idx / 64 * t.th = idx' / 64 * t.th) : idx = idx' := by
  have hcol := Nat.eq_of_mul_eq_mul_right t.tw_pos hx
  have hrow := Nat.eq_of_mul_eq_mul_right t.th_pos hy
  omega

theorem cellAt_of_atlas_eq (hinfo : atlasInfo t = atlasInfo t') (himage : atlasImage t = atlasImage t')
    (h : cellAt t idx = some (tp, tile)) : cellAt t' idx = some (tp, tile) := by
  have htw : t.tw = t'.tw := congrArg AtlasInfo.tw hinfo
  have hth : t.th = t'.th := congrArg AtlasInfo.th hinfo
  have hmem : (tp, idx % 64 * t.tw, idx / 64 * t.th) ∈ (atlasInfo t').map :=
    hinfo ▸ mem_atlasInfo.mpr ⟨idx, tile, h, rfl, rfl⟩
  obtain ⟨idx', tile', h', hx, hy⟩ := mem_atlasInfo.mp hmem
  obtain rfl : idx = idx' := idx_of_place (htw ▸ hx) (hth ▸ hy)
  rw [h']
  have htile : tile' = tile := by
    funext px py
    by_cases hin : px < t.tw ∧ py < t.th
    · rw [← atlasImage_cell h hin.1 hin.2, ← atlasImage_cell h' (htw ▸ hin.1) (hth ▸ hin.2), himage,
        htw, hth]
    · rw [cellAt_clear h hin, cellAt_clear h' (by rwa [← htw, ← hth])]
  rw [htile]

-- More places than cells add nothing to the map.
theorem atlasInfo_map {num : Nat} (h : (cells t).length ≤ num) :
    (atlasInfo t).map = (List.range num).filterMap fun idx =>
      (cellAt t idx).map fun cell => (cell.1, idx % 64 * t.tw, idx / 64 * t.th) := by
  obtain ⟨k, rfl⟩ := Nat.exists_eq_add_of_le h
  have hrest : ((List.range k).map ((cells t).length + ·)).filterMap (fun idx =>
      (cellAt t idx).map fun cell => (cell.1, idx % 64 * t.tw, idx / 64 * t.th)) = [] := by
    rw [List.filterMap_eq_nil_iff]
    intro idx hidx
    obtain ⟨i, -, rfl⟩ := List.mem_map.mp hidx
    unfold cellAt
    rw [List.getElem?_eq_none (Nat.le_add_right _ _)]
    rfl
  rw [List.range_add, List.filterMap_append, hrest, List.append_nil]
  rfl

-- Two tables have the same atlas when they export the same.
theorem atlas_eq_iff :
    atlasInfo t = atlasInfo t' ∧ atlasImage t = atlasImage t' ↔ SameExports t t' := by
  constructor
  · rintro ⟨hinfo, himage⟩
    have htw : t.tw = t'.tw := congrArg AtlasInfo.tw hinfo
    have hth : t.th = t'.th := congrArg AtlasInfo.th hinfo
    have hw : atlasCols (cells t).length * t.tw = atlasCols (cells t').length * t'.tw :=
      congrArg AtlasImage.w himage
    have hh : atlasRows (cells t).length * t.th = atlasRows (cells t').length * t'.th :=
      congrArg AtlasImage.h himage
    refine ⟨htw, hth, ?_, ?_, fun idx => Option.ext fun cell => ?_⟩
    · exact Nat.eq_of_mul_eq_mul_right t.tw_pos (htw ▸ hw)
    · exact Nat.eq_of_mul_eq_mul_right t.th_pos (hth ▸ hh)
    · exact ⟨cellAt_of_atlas_eq hinfo himage, cellAt_of_atlas_eq hinfo.symm himage.symm⟩
  · rintro ⟨htw, hth, hcols, hrows, hcell⟩
    constructor
    · have hmap : (atlasInfo t).map = (atlasInfo t').map := by
        rw [atlasInfo_map (Nat.le_max_left _ (cells t').length),
          atlasInfo_map (Nat.le_max_right (cells t).length _), htw, hth]
        simp only [hcell]
      show (⟨t.tw, t.th, (atlasInfo t).map⟩ : AtlasInfo) = ⟨t'.tw, t'.th, (atlasInfo t').map⟩
      rw [htw, hth, hmap]
    · unfold atlasImage
      simp only [htw, hth, hcols, hrows, hcell]

end Layout

end WebFort
