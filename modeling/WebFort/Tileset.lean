import WebFort.Atlas
import WebFort.Game
import WebFort.Library.Raster

namespace WebFort

open Library

-- The coloured tilesets of the page.

def RGBA.Solid (p : RGBA) : Prop := p.a = 255

def RGBA.Clear (p : RGBA) : Prop := p.a = 0

-- A 2d context of the browser.
abbrev Context := Compositing RGBA.Solid RGBA.Clear

def RGB.solid (c : RGB) : RGBA := ⟨c.r, c.g, c.b, 255⟩

theorem RGBA.clear_clear : RGBA.clear.Clear := rfl

theorem RGB.solid_solid (c : RGB) : c.solid.Solid := rfl

-- An image the page has loaded.
structure Picture where
  w : Nat
  h : Nat
  pixel : Raster RGBA

-- A Uint8ClampedArray rounds to the nearest integer. A product of two bytes
-- divided by 255 is never half way between two.
def tint (p c : UInt8) : UInt8 := UInt8.ofNat ((2 * (p.toNat * c.toNat) + 255) / 510)

-- Magenta stands for no colour.
def RGBA.Keyed (p : RGBA) : Prop := p.r = 255 ∧ p.g = 0 ∧ p.b = 255

instance (p : RGBA) : Decidable p.Keyed := instDecidableAnd

-- What the loop over the pixels makes of one of them.
def recolor (color : RGB) (p : RGBA) : RGBA :=
  if p.Keyed then { p with a := 0 }
  else { p with r := tint p.r color.r, g := tint p.g color.g, b := tint p.b color.b }

def zoneBody (C : Context) (colors : Nat → RGB) (img : Picture) (cnv : Raster RGBA) (c : Nat) :
    Raster RGBA :=
  let i := c % 4
  let j := c / 4
  let drawn := C.drawImage img.pixel ⟨0, 0, img.w, img.h⟩ ⟨i * 256, j * 256, img.w, img.h⟩ cnv
  let tinted := C.mapPixels (recolor (colors c)) ⟨i * 256, j * 256, 256, 256⟩ drawn
  C.fillRect (colors c).solid ⟨i * 256 + 16 * 15, j * 256 + 16 * 15, 16, 16⟩ tinted

-- c is j * 4 + i.
def colorize (C : Context) (colors : Nat → RGB) (img : Picture) : Raster RGBA :=
  (List.range 16).foldl (zoneBody C colors img) fun _ _ => .clear

section Zones

variable (C : Context) (colors : Nat → RGB) (img : Picture)

def zone (c : Nat) : Nat × Nat := (c % 4, c / 4)

-- The three steps of a zone, each on the whole of it.
def zoneBrushes (c : Nat) : List (Raster.Brush RGBA) :=
  [⟨zone c, fun px py v =>
      if (Rect.mk 0 0 img.w img.h).Mem px py then C.blend (img.pixel px py) v else v⟩,
    ⟨zone c, fun _ _ v => C.store (recolor (colors c) v)⟩,
    ⟨zone c, fun px py v =>
      if (Rect.mk 240 240 16 16).Mem px py then C.blend (colors c).solid v else v⟩]

theorem block_whole {px py : Nat} (hx : px < img.w) (hy : py < img.h) :
    C.block img.pixel ⟨0, 0, img.w, img.h⟩ img.w img.h px py = img.pixel px py := by
  have hself := C.block_self img.pixel ⟨0, 0, img.w, img.h⟩ hx hy
  simpa using hself

theorem zoneBody_eq (hw : img.w ≤ 256) (hh : img.h ≤ 256) (cnv : Raster RGBA) (c : Nat) :
    zoneBody C colors img cnv c = Raster.paintCells 256 256 (zoneBrushes C colors img c) cnv := by
  have hdraw : C.drawImage img.pixel ⟨0, 0, img.w, img.h⟩
      ⟨c % 4 * 256, c / 4 * 256, img.w, img.h⟩ cnv =
      cnv.paint (Raster.cell 256 256 (zone c)) fun px py v =>
        if (Rect.mk 0 0 img.w img.h).Mem px py then C.blend (img.pixel px py) v else v := by
    have hpart := Raster.paint_cell_part (le_of_eq_of_le (Nat.zero_add img.w) hw)
      (le_of_eq_of_le (Nat.zero_add img.h) hh) (zone c)
      (fun px py v => C.blend (C.block img.pixel ⟨0, 0, img.w, img.h⟩ img.w img.h px py) v) cnv
    rw [Nat.add_zero, Nat.add_zero] at hpart
    refine hpart.trans ?_
    congr 1
    funext px py v
    split
    · rename_i hin
      simp only [Rect.Mem, Nat.zero_add] at hin
      rw [Nat.sub_zero, Nat.sub_zero, block_whole C img hin.1.2 hin.2.2]
    · rfl
  have hfill := Raster.paint_cell_part (by decide : 240 + 16 ≤ 256) (by decide : 240 + 16 ≤ 256)
    (zone c) (fun _ _ v => C.blend (colors c).solid v)
  unfold zoneBody
  simp only [hdraw]
  exact hfill _

theorem colorize_eq (hw : img.w ≤ 256) (hh : img.h ≤ 256) :
    colorize C colors img =
      Raster.paintCells 256 256 ((List.range 16).flatMap (zoneBrushes C colors img))
        fun _ _ => .clear := by
  have hbody : zoneBody C colors img =
      fun cnv c => Raster.paintCells 256 256 (zoneBrushes C colors img c) cnv :=
    funext fun cnv => funext fun c => zoneBody_eq C colors img hw hh cnv c
  unfold colorize Raster.paintCells
  rw [hbody, List.foldl_flatMap]
  rfl

theorem zones_nodup : ((List.range 16).map zone).Nodup := by decide

-- A pixel of a zone, from the pixel of the image at the same place.
def zonePixel (c px py : Nat) : RGBA :=
  let drawn := if px < img.w ∧ py < img.h then C.blend (img.pixel px py) .clear else .clear
  let tinted := C.store (recolor (colors c) drawn)
  if 240 ≤ px ∧ 240 ≤ py then C.blend (colors c).solid tinted else tinted

theorem colorize_zone (hw : img.w ≤ 256) (hh : img.h ≤ 256) {c px py : Nat} (hc : c < 16)
    (hx : px < 256) (hy : py < 256) :
    colorize C colors img (c % 4 * 256 + px) (c / 4 * 256 + py) = zonePixel C colors img c px py := by
  have hkeyed : ∀ c ∈ List.range 16, ∀ b ∈ zoneBrushes C colors img c, b.place = zone c := by
    intro c _ b hb
    simp only [zoneBrushes, List.mem_cons, List.not_mem_nil, or_false] at hb
    rcases hb with rfl | rfl | rfl <;> rfl
  have hcell := Raster.paintCells_cell hx hy ((List.range 16).flatMap (zoneBrushes C colors img))
    (fun _ _ => .clear) (zone c)
  rw [Raster.filter_flatMap_place hkeyed (zone c),
    Raster.filter_key_of_nodup zones_nodup (List.mem_range.mpr hc), List.flatMap_singleton] at hcell
  rw [colorize_eq C colors img hw hh]
  refine hcell.trans ?_
  have himg : (Rect.mk 0 0 img.w img.h).Mem px py ↔ px < img.w ∧ py < img.h := by
    simp [Rect.Mem]
  have hfill : (Rect.mk 240 240 16 16).Mem px py ↔ 240 ≤ px ∧ 240 ≤ py := by
    simp only [Rect.Mem]
    omega
  simp only [zoneBrushes, Raster.touch, List.foldl_cons, List.foldl_nil, himg, hfill, zonePixel]

end Zones

-- The nearest integer to p * c / 255.
theorem tint_nearest (p c : UInt8) :
    (2 * (p.toNat * c.toNat) : Int) - 255 ≤ 2 * (255 * (tint p c).toNat) ∧
      (2 * (255 * (tint p c).toNat) : Int) ≤ 2 * (p.toNat * c.toNat) + 255 := by
  have hp := p.toNat_lt
  have hc := c.toNat_lt
  have hle : p.toNat * c.toNat ≤ 255 * 255 := Nat.mul_le_mul (by omega) (by omega)
  have htint : (tint p c).toNat = (2 * (p.toNat * c.toNat) + 255) / 510 := by
    unfold tint
    rw [UInt8.toNat_ofNat']
    omega
  rw [htint, ← Int.natCast_mul]
  omega

section Glyphs

-- The place of a glyph in its sheet.
def glyphX (ch : Nat) : Nat := ch % 16 * 16

def glyphY (ch : Nat) : Nat := ch / 16 * 16

-- A pixel of a glyph, clear where the sheet has none.
def Picture.ink (img : Picture) (ch px py : Nat) : RGBA :=
  if glyphX ch + px < img.w ∧ glyphY ch + py < img.h then
    img.pixel (glyphX ch + px) (glyphY ch + py)
  else .clear

variable {C : Context} {colors : Nat → RGB} {img : Picture} {ch c px py : Nat}

theorem recolor_of_clear {p : RGBA} (h : p.Clear) (color : RGB) : (recolor color p).Clear := by
  unfold recolor
  split
  · rfl
  · exact h

-- The last glyph is where the solid block goes.
theorem colorize_glyph (hw : img.w ≤ 256) (hh : img.h ≤ 256) (hch : ch < 256) (hc : c < 16)
    (hx : px < 16) (hy : py < 16) :
    colorize C colors img (glyphX ch + c % 4 * 256 + px) (glyphY ch + c / 4 * 256 + py) =
      if ch = 255 then (colors c).solid
      else C.store (recolor (colors c) (C.blend (img.ink ch px py) .clear)) := by
  have hzone := colorize_zone C colors img hw hh hc
    (show glyphX ch + px < 256 by unfold glyphX; omega)
    (show glyphY ch + py < 256 by unfold glyphY; omega)
  have hplace : glyphX ch + c % 4 * 256 + px = c % 4 * 256 + (glyphX ch + px) ∧
      glyphY ch + c / 4 * 256 + py = c / 4 * 256 + (glyphY ch + py) := by omega
  have hink : (if glyphX ch + px < img.w ∧ glyphY ch + py < img.h then
      C.blend (img.pixel (glyphX ch + px) (glyphY ch + py)) .clear else .clear) =
        C.blend (img.ink ch px py) .clear := by
    unfold Picture.ink
    split
    · rfl
    · exact (C.blend_of_clear _ _ RGBA.clear_clear).symm
  rw [hplace.1, hplace.2, hzone]
  unfold zonePixel
  rw [hink]
  by_cases hlast : ch = 255
  · have hblock : 240 ≤ glyphX ch + px ∧ 240 ≤ glyphY ch + py := by
      unfold glyphX glyphY
      omega
    rw [if_pos hlast]
    simp only [if_pos hblock]
    exact C.blend_of_solid _ _ (RGB.solid_solid _)
  · have hblock : ¬(240 ≤ glyphX ch + px ∧ 240 ≤ glyphY ch + py) := by
      unfold glyphX glyphY
      omega
    rw [if_neg hlast]
    simp only [if_neg hblock]

theorem colorize_clear (hw : img.w ≤ 256) (hh : img.h ≤ 256) (hch : ch < 256) (hc : c < 16)
    (hx : px < 16) (hy : py < 16) (hlast : ch ≠ 255)
    (hink : (img.ink ch px py).Clear ∨ (img.ink ch px py).Solid ∧ (img.ink ch px py).Keyed) :
    (colorize C colors img (glyphX ch + c % 4 * 256 + px) (glyphY ch + c / 4 * 256 + py)).Clear := by
  rw [colorize_glyph hw hh hch hc hx hy, if_neg hlast]
  refine C.clear_store _ ?_
  rcases hink with hclear | ⟨hsolid, hkey⟩
  · rw [C.blend_of_clear _ _ hclear]
    exact recolor_of_clear RGBA.clear_clear _
  · rw [C.blend_of_solid _ _ hsolid]
    unfold recolor
    rw [if_pos hkey]
    rfl

theorem colorize_tinted (hw : img.w ≤ 256) (hh : img.h ≤ 256) (hch : ch < 256) (hc : c < 16)
    (hx : px < 16) (hy : py < 16) (hlast : ch ≠ 255) (hsolid : (img.ink ch px py).Solid)
    (hkey : ¬(img.ink ch px py).Keyed) :
    colorize C colors img (glyphX ch + c % 4 * 256 + px) (glyphY ch + c / 4 * 256 + py) =
      ⟨tint (img.ink ch px py).r (colors c).r, tint (img.ink ch px py).g (colors c).g,
        tint (img.ink ch px py).b (colors c).b, 255⟩ := by
  have hrecolor : recolor (colors c) (img.ink ch px py) =
      ⟨tint (img.ink ch px py).r (colors c).r, tint (img.ink ch px py).g (colors c).g,
        tint (img.ink ch px py).b (colors c).b, (img.ink ch px py).a⟩ := if_neg hkey
  have ha : (img.ink ch px py).a = 255 := hsolid
  rw [colorize_glyph hw hh hch hc hx hy, if_neg hlast, C.blend_of_solid _ _ hsolid, hrecolor, ha]
  exact C.store_of_solid _ rfl

end Glyphs

namespace Sample

-- One channel of a pixel over that of another.
def blend (s b a : UInt8) : UInt8 :=
  UInt8.ofNat ((s.toNat * a.toNat + b.toNat * (255 - a.toNat)) / 255)

-- Blocks are scaled by taking the nearest pixel.
def context : Context where
  blend s b :=
    if s.a = 255 then s
    else if s.a = 0 then b
    else ⟨blend s.r b.r s.a, blend s.g b.g s.a, blend s.b b.b s.a, blend 255 b.a s.a⟩
  store p := p
  scale img src size := fun px py =>
    img (src.x + px * src.w / size.1) (src.y + py * src.h / size.2)
  blend_of_solid _ _ h := if_pos h
  blend_of_clear s b h := by
    have hs : s.a = 0 := h
    simp [hs]
  store_of_solid _ _ := rfl
  clear_store _ h := h
  scale_self img src px hx py hy := by
    rw [Nat.mul_div_cancel _ (Nat.zero_lt_of_lt hx), Nat.mul_div_cancel _ (Nat.zero_lt_of_lt hy)]

-- A sheet of one grey.
def greySheet : Picture := ⟨256, 256, fun _ _ => ⟨128, 128, 128, 255⟩⟩

def palette (c : Nat) : RGB := ⟨UInt8.ofNat (16 * c), 255, 0⟩

end Sample

end WebFort
