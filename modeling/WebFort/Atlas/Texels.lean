import WebFort.Atlas.Fallback
import WebFort.Atlas.Build
import WebFort.Library.Bits

namespace WebFort

open Library

-- What the pixels of a texture are, from the bytes of its surface, or from the
-- sheet that has its glyph.

-- The value of a channel has the bits of the pixel that the mask selects, the
-- lowest one at the shift. Shifts count modulo the width of the word.
def Channel.Shows (c : Channel) (absent : UInt8) (pixel : Nat) (v : UInt8) : Prop :=
  if c.mask = 0 then v = absent
  else ∀ k < 8, v.toNat.testBit k =
    (pixel.testBit (c.shift.toNat % 32 + k) && c.mask.toNat.testBit (c.shift.toNat % 32 + k))

-- A format without alpha is solid.
structure PixelFormat.Shows (fmt : PixelFormat) (pixel : Nat) (c : RGBA) : Prop where
  r : fmt.rmask.Shows 0 pixel c.r
  g : fmt.gmask.Shows 0 pixel c.g
  b : fmt.bmask.Shows 0 pixel c.b
  a : fmt.amask.Shows 255 pixel c.a

-- The number that the bytes of a pixel make. They are at most four.
def Surface.number (surf : Surface) (fmt : PixelFormat) (mem : Nat → UInt8) (px py : Nat) : Nat :=
  if fmt.bytesPerPixel ≤ 4 then
    littleEndian fmt.bytesPerPixel fun i => mem (py * surf.pitch + px * fmt.bytesPerPixel + i)
  else 0

def Surface.Texel (surf : Surface) (fmt : PixelFormat) (mem : Nat → UInt8) (px py : Nat)
    (c : RGBA) : Prop :=
  if px < surf.w ∧ py < surf.h then fmt.Shows (surf.number fmt mem px py) c else c = .clear

-- A sheet with the glyph of a character, and at least 256 of them, by the
-- unsigned product.
def Sheet.HasGlyph (sheet : Sheet) (t : Textures) (ch : Nat) : Prop :=
  256 ≤ sheet.w / t.tw * (sheet.h / t.th) % 2 ^ 32 ∧
    ch < sheet.w / t.tw * (sheet.h / t.th) % 2 ^ 32

-- The glyphs are in rows, from the upper left corner.
def Sheet.glyphPixel (sheet : Sheet) (t : Textures) (ch px py : Nat) : RGBA :=
  sheet.px ((ch / (sheet.w / t.tw) * t.th + py) * sheet.w + (ch % (sheet.w / t.tw) * t.tw + px))

-- The first sheet of the art directory that has the glyph.
def FirstSheet (t : Textures) (ch : Nat) (sheet : Sheet) : Prop :=
  ∃ before file after, t.art = before ++ file :: after ∧
    (file.isPng = true ∧ file.decoded = some sheet ∧ sheet.HasGlyph t ch) ∧
    ∀ f ∈ before, ∀ s, f.isPng = true → f.decoded = some s → ¬s.HasGlyph t ch

-- The first character of the large font that has the texpos.
structure FirstChar (t : Textures) (tp ch : Nat) : Prop where
  pos : 1 ≤ ch
  lt : ch < 256
  used : t.largeFontTexpos ch = tp ∧ 0 < tp
  first : ∀ ch', 1 ≤ ch' → ch' < ch → t.largeFontTexpos ch' ≠ tp

-- The pixel of the texture of a texpos. A null slot has its glyph, if any.
structure Texel (t : Textures) (tp px py : Nat) (c : RGBA) : Prop where
  surface : ∀ surf fmt mem, t.raws[tp]? = some (some surf) → surf.format = some fmt →
    surf.pixels = some mem → surf.Texel fmt mem px py c
  glyph : t.raws[tp]? = some none → ∀ ch sheet, FirstChar t tp ch → FirstSheet t ch sheet →
    c = sheet.glyphPixel t ch px py
  missing : t.raws[tp]? = some none → ∀ ch, FirstChar t tp ch → (∀ sheet, ¬FirstSheet t ch sheet) →
    c = .clear

-- A texture that can be copied: a surface with pixels in a format, or a null
-- slot that has its glyph.
def Exported (t : Textures) (tp : Nat) : Prop :=
  (∃ surf fmt mem, t.raws[tp]? = some (some surf) ∧ surf.format = some fmt ∧
    surf.pixels = some mem ∧ 1 ≤ fmt.bytesPerPixel) ∨
  (t.raws[tp]? = some none ∧ ∃ ch sheet, FirstChar t tp ch ∧ FirstSheet t ch sheet)

-- The pixels of the texture in a slot, clipped to a tile.
def texture (t : Textures) (tp : Nat) : Tile :=
  (slotCell t tp).join.elim (fun _ _ => .clear) Prod.snd

section Words

theorem readPixel_toNat (n : Nat) (mem : Nat → UInt8) :
    (readPixel n mem).toNat = if n ≤ 4 then littleEndian n mem else 0 := by
  have hone : (mem 0).toUInt32.toNat = littleEndian 1 mem := by simp [littleEndian]
  have htwo := littleEndian_or (by decide) hone
  have hthree := littleEndian_or (by decide) htwo
  have hfour := littleEndian_or (by decide) hthree
  match n with
  | 0 => rfl
  | 1 => exact hone
  | 2 => exact htwo
  | 3 => exact hthree
  | 4 => exact hfour
  | n + 5 => rw [if_neg (by omega)]; rfl

theorem channel_shows (c : Channel) (absent : UInt8) (word : UInt32) :
    c.Shows absent word.toNat (c.get absent word) := by
  unfold Channel.Shows Channel.get
  by_cases hmask : c.mask = 0
  · rw [if_pos hmask, if_neg (not_not.mpr hmask)]
  · rw [if_neg hmask, if_pos hmask]
    exact fun k hk => testBit_field word c.mask c.shift hk

theorem channel_unique {c : Channel} {absent v v' : UInt8} {pixel : Nat}
    (h : c.Shows absent pixel v) (h' : c.Shows absent pixel v') : v = v' := by
  unfold Channel.Shows at h h'
  split at h
  · rename_i hmask
    rw [if_pos hmask] at h'
    rw [h, h']
  · rename_i hmask
    rw [if_neg hmask] at h'
    exact byte_ext fun k hk => (h k hk).trans (h' k hk).symm

theorem format_shows (fmt : PixelFormat) (word : UInt32) :
    fmt.Shows word.toNat (sdlGetRgba word fmt) :=
  ⟨channel_shows _ _ _, channel_shows _ _ _, channel_shows _ _ _, channel_shows _ _ _⟩

theorem format_unique {fmt : PixelFormat} {pixel : Nat} {c c' : RGBA} (h : fmt.Shows pixel c)
    (h' : fmt.Shows pixel c') : c = c' := by
  obtain ⟨r, g, b, a⟩ := c
  obtain ⟨r', g', b', a'⟩ := c'
  have hr : r = r' := channel_unique h.r h'.r
  have hg : g = g' := channel_unique h.g h'.g
  have hb : b = b' := channel_unique h.b h'.b
  have ha : a = a' := channel_unique h.a h'.a
  rw [hr, hg, hb, ha]

end Words

section Texels

variable {t : Textures} {tp px py : Nat}

theorem blitSurfaceTile_texel {surf : Surface} {fmt : PixelFormat} {mem : Nat → UInt8}
    (hx : px < t.tw) (hy : py < t.th) :
    surf.Texel fmt mem px py (blitSurfaceTile surf fmt mem t.tw t.th px py) := by
  unfold Surface.Texel blitSurfaceTile
  by_cases hin : px < surf.w ∧ py < surf.h
  · rw [if_pos hin, if_pos (by omega), Surface.number, ← readPixel_toNat]
    exact format_shows _ _
  · rw [if_neg hin, if_neg (by omega)]

theorem firstChar_iff {ch : Nat} : t.texposToChar tp = some ch ↔ FirstChar t tp ch := by
  unfold Textures.texposToChar
  rw [List.find?_range'_eq_some]
  simp only [Bool.and_eq_true, decide_eq_true_eq, List.mem_range'_1, Bool.not_eq_true',
    Bool.and_eq_false_iff, decide_eq_false_iff_not]
  constructor
  · rintro ⟨⟨htp, hpos⟩, ⟨hlo, hhi⟩, hfirst⟩
    refine ⟨hlo, by omega, ⟨htp, by omega⟩, fun ch' hlo' hlt heq => ?_⟩
    rcases hfirst ch' hlo' hlt with hne | hneg
    · exact hne heq
    · omega
  · rintro ⟨hlo, hhi, ⟨htp, hpos⟩, hfirst⟩
    exact ⟨⟨htp, by omega⟩, ⟨hlo, by omega⟩, fun ch' hlo' hlt => Or.inl (hfirst ch' hlo' hlt)⟩

-- What a sheet with the glyph gives is the glyph, all of it.
theorem sheetTile_glyph {sheet : Sheet} {ch : Nat} (h : sheet.HasGlyph t ch) (hx : px < t.tw)
    (hy : py < t.th) :
    ∃ tile, sheetTile sheet ch t.tw t.th = some tile ∧ tile px py = sheet.glyphPixel t ch px py := by
  obtain ⟨hmany, hlt⟩ := h
  have hle := Nat.mod_le (sheet.w / t.tw * (sheet.h / t.th)) (2 ^ 32)
  have hcols : 0 < sheet.w / t.tw := Nat.pos_of_mul_pos_right (b := sheet.h / t.th) (by omega)
  have hrows : 0 < sheet.h / t.th := Nat.pos_of_mul_pos_left (a := sheet.w / t.tw) (by omega)
  have hcol : ch % (sheet.w / t.tw) < sheet.w / t.tw := Nat.mod_lt _ hcols
  have hrow : ch / (sheet.w / t.tw) < sheet.h / t.th := Nat.div_lt_of_lt_mul (by omega)
  have hsx : ch % (sheet.w / t.tw) * t.tw + px < sheet.w := by
    calc ch % (sheet.w / t.tw) * t.tw + px < ch % (sheet.w / t.tw) * t.tw + t.tw := by omega
      _ = (ch % (sheet.w / t.tw) + 1) * t.tw := (Nat.succ_mul _ _).symm
      _ ≤ sheet.w / t.tw * t.tw := Nat.mul_le_mul_right _ hcol
      _ ≤ sheet.w := Nat.div_mul_le_self _ _
  have hsy : ch / (sheet.w / t.tw) * t.th + py < sheet.h := by
    calc ch / (sheet.w / t.tw) * t.th + py < ch / (sheet.w / t.tw) * t.th + t.th := by omega
      _ = (ch / (sheet.w / t.tw) + 1) * t.th := (Nat.succ_mul _ _).symm
      _ ≤ sheet.h / t.th * t.th := Nat.mul_le_mul_right _ hrow
      _ ≤ sheet.h := Nat.div_mul_le_self _ _
  unfold sheetTile
  simp only
  rw [if_neg (by omega)]
  exact ⟨_, rfl, if_pos ⟨hx, hy, hsx, hsy⟩⟩

theorem sheetTile_none {sheet : Sheet} {ch : Nat} (h : ¬sheet.HasGlyph t ch) :
    sheetTile sheet ch t.tw t.th = none := by
  unfold sheetTile
  simp only
  rw [if_pos]
  unfold Sheet.HasGlyph at h
  omega

theorem fontTile_texel {ch : Nat} (hx : px < t.tw) (hy : py < t.th) :
    (∀ sheet, FirstSheet t ch sheet →
      ∃ tile, fontTile t ch = some tile ∧ tile px py = sheet.glyphPixel t ch px py) ∧
    ((∀ sheet, ¬FirstSheet t ch sheet) → fontTile t ch = none) := by
  have hfile : ∀ f : ArtFile, (∀ s, f.isPng = true → f.decoded = some s → ¬s.HasGlyph t ch) →
      (if f.isPng then f.decoded.bind fun s => sheetTile s ch t.tw t.th else none) = none := by
    intro f h
    split
    · rename_i hpng
      cases hs : f.decoded with
      | none => rfl
      | some s => exact sheetTile_none (h s hpng hs)
    · rfl
  constructor
  · rintro sheet ⟨before, file, after, hart, ⟨hpng, hsheet, hglyph⟩, hbefore⟩
    obtain ⟨tile, htile, hpixel⟩ := sheetTile_glyph hglyph hx hy
    refine ⟨tile, ?_, hpixel⟩
    refine List.findSome?_eq_some_iff.mpr ⟨before, file, after, hart, ?_, fun f hf => ?_⟩
    · rw [if_pos hpng, hsheet]
      exact htile
    · exact hfile f (hbefore f hf)
  · intro hnone
    cases hfont : fontTile t ch with
    | none => rfl
    | some tile =>
        obtain ⟨before, file, after, hart, hfound, hbefore⟩ := List.findSome?_eq_some_iff.mp hfont
        split at hfound
        · rename_i hpng
          obtain ⟨sheet, hsheet, hgiven⟩ := Option.bind_eq_some_iff.mp hfound
          have hglyph : sheet.HasGlyph t ch := by
            by_contra hnot
            rw [sheetTile_none hnot] at hgiven
            cases hgiven
          refine absurd ⟨before, file, after, hart, ⟨hpng, hsheet, hglyph⟩, ?_⟩ (hnone sheet)
          intro f hf s hs hdecoded hhas
          obtain ⟨tile', htile', -⟩ := sheetTile_glyph hhas t.tw_pos t.th_pos
          have hskip := hbefore f hf
          rw [if_pos hs, hdecoded, Option.bind_some, htile'] at hskip
          cases hskip
        · cases hfound

theorem texture_eq (h : tp ∈ allTexpos t) :
    texture t tp = ((copying t tp).map Copying.tile).getD fun _ _ => .clear := by
  unfold texture
  rw [slotCell_copying (mem_allTexpos.mp h).2]
  cases copying t tp <;> rfl

-- A slot that is exported shows the pixels of its surface or of its glyph.
theorem texture_texel (h : tp ∈ allTexpos t) (hx : px < t.tw) (hy : py < t.th) :
    Texel t tp px py (texture t tp px py) := by
  obtain ⟨hslot, hsome⟩ := mem_allTexpos.mp h
  unfold texture
  constructor
  case surface =>
    intro surf fmt mem hraw hfmt hmem
    unfold slotCell at hsome ⊢
    rw [hraw] at hsome ⊢
    simp only [Option.join_some, Surface.exported, hmem, hfmt] at hsome ⊢
    split at hsome
    · rename_i hbytes
      rw [if_pos hbytes]
      exact blitSurfaceTile_texel hx hy
    · cases hsome
  case glyph =>
    intro hraw ch sheet hch hsheet
    obtain ⟨tile, htile, hpixel⟩ := (fontTile_texel hx hy).1 sheet hsheet
    unfold slotCell
    rw [hraw, firstChar_iff.mpr hch]
    simp only [Option.join_some, Option.map_some, htile, Option.elim_some]
    exact hpixel
  case missing =>
    intro hraw ch hch hnone
    unfold slotCell
    rw [hraw, firstChar_iff.mpr hch]
    simp only [Option.join_some, Option.map_some, (fontTile_texel hx hy).2 hnone]
    rfl

theorem exported_iff : Exported t tp ↔ tp ∈ allTexpos t ∧ (copying t tp).isSome := by
  have hcell : tp ∈ allTexpos t ∧ (copying t tp).isSome ↔
      tp < t.raws.length ∧ ((slotCell t tp).join).isSome := by
    rw [mem_allTexpos, and_assoc]
    refine and_congr_right fun _ => ?_
    cases hslot : slotCell t tp with
    | none => simp
    | some cell =>
        have hcopy : slotCell t tp = _ := slotCell_copying (by rw [hslot]; rfl)
        rw [hslot] at hcopy
        obtain rfl := Option.some.inj hcopy
        simp
  rw [hcell]
  unfold slotCell
  constructor
  · rintro (⟨surf, fmt, mem, hraw, hfmt, hmem, hbytes⟩ | ⟨hraw, ch, sheet, hch, hsheet⟩)
    · refine ⟨(List.getElem?_eq_some_iff.mp hraw).1, ?_⟩
      rw [hraw]
      simp [Surface.exported, hmem, hfmt, hbytes]
    · obtain ⟨tile, htile, -⟩ := (fontTile_texel t.tw_pos t.th_pos).1 sheet hsheet
      refine ⟨(List.getElem?_eq_some_iff.mp hraw).1, ?_⟩
      rw [hraw]
      simp [firstChar_iff.mpr hch, htile]
  · rintro ⟨hslot, hsome⟩
    obtain ⟨raw, hraw⟩ : ∃ raw, t.raws[tp]? = some raw := ⟨_, List.getElem?_eq_getElem hslot⟩
    rw [hraw] at hsome
    cases raw with
    | some surf =>
        refine Or.inl ?_
        cases he : surf.exported with
        | none => simp [he] at hsome
        | some e =>
            obtain ⟨hmem, fmt, hfmt, hbytes⟩ := exported_isSome.mp (by rw [he]; rfl)
            obtain ⟨mem, hmem⟩ := Option.isSome_iff_exists.mp hmem
            exact ⟨surf, fmt, mem, hraw, hfmt, hmem, hbytes⟩
    | none =>
        refine Or.inr ⟨hraw, ?_⟩
        cases hch : t.texposToChar tp with
        | none => simp [hch] at hsome
        | some ch =>
            by_cases hsheet : ∃ sheet, FirstSheet t ch sheet
            · obtain ⟨sheet, hsheet⟩ := hsheet
              exact ⟨ch, sheet, firstChar_iff.mp hch, hsheet⟩
            · have hnone : fontTile t ch = none :=
                (fontTile_texel t.tw_pos t.th_pos).2 (not_exists.mp hsheet)
              simp [hch, hnone] at hsome

-- A slot that is exported has one pixel at a place.
theorem texel_unique (h : tp ∈ allTexpos t) {c c' : RGBA} (hc : Texel t tp px py c)
    (hc' : Texel t tp px py c') : c = c' := by
  obtain ⟨hslot, hsome⟩ := mem_allTexpos.mp h
  obtain ⟨raw, hraw⟩ : ∃ raw, t.raws[tp]? = some raw := ⟨_, List.getElem?_eq_getElem hslot⟩
  unfold slotCell at hsome
  rw [hraw] at hsome
  cases raw with
  | some surf =>
      simp only [Option.join_some, Option.isSome_map] at hsome
      obtain ⟨hmem, fmt, hfmt, -⟩ := exported_isSome.mp hsome
      obtain ⟨mem, hmem⟩ := Option.isSome_iff_exists.mp hmem
      have htexel := hc.surface surf fmt mem hraw hfmt hmem
      have htexel' := hc'.surface surf fmt mem hraw hfmt hmem
      unfold Surface.Texel at htexel htexel'
      split at htexel
      · rename_i hin
        rw [if_pos hin] at htexel'
        exact format_unique htexel htexel'
      · rename_i hout
        rw [if_neg hout] at htexel'
        rw [htexel, htexel']
  | none =>
      simp only [Option.join_some, Option.isSome_map] at hsome
      obtain ⟨ch, hch⟩ := Option.isSome_iff_exists.mp hsome
      have hfirst := firstChar_iff.mp hch
      by_cases hsheet : ∃ sheet, FirstSheet t ch sheet
      · obtain ⟨sheet, hsheet⟩ := hsheet
        rw [hc.glyph hraw ch sheet hfirst hsheet, hc'.glyph hraw ch sheet hfirst hsheet]
      · have hnone := not_exists.mp hsheet
        rw [hc.missing hraw ch hfirst hnone, hc'.missing hraw ch hfirst hnone]

end Texels

end WebFort
