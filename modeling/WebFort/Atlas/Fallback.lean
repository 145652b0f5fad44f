import WebFort.Atlas

namespace WebFort

open Library

-- A PNG file of the art directory with a glyph of the tile size for each of
-- the 256 characters.
def HasSheet (t : Textures) : Prop :=
  ∃ file ∈ t.art, file.isPng = true ∧ ∃ sheet, file.decoded = some sheet ∧
    256 ≤ sheet.w / t.tw * (sheet.h / t.th) ∧ sheet.w / t.tw * (sheet.h / t.th) < 2 ^ 32

-- The texpos of a character of the large font.
def FontSlot (t : Textures) (tp : Nat) : Prop :=
  ∃ ch, 1 ≤ ch ∧ ch < 256 ∧ t.largeFontTexpos ch = tp ∧ 0 < tp

def InMemory (t : Textures) (tp : Nat) : Prop :=
  ∃ surf, t.raws[tp]? = some (some surf) ∧ surf.pixels.isSome

-- The slots that wf_build_atlas should export.
def Wanted (t : Textures) (tp : Nat) : Prop :=
  tp < t.raws.length ∧ (InMemory t tp ∨ FontSlot t tp)

-- No surface of a font character has lost its pixels, and the pixels that are
-- in memory can be read.
structure Recoverable (t : Textures) : Prop where
  freed : ∀ (tp : Nat) (surf : Surface),
    t.raws[tp]? = some (some surf) → surf.pixels = none → ¬FontSlot t tp
  readable : ∀ (tp : Nat) (surf : Surface), t.raws[tp]? = some (some surf) →
    surf.pixels.isSome → ∃ fmt, surf.format = some fmt ∧ 1 ≤ fmt.bytesPerPixel

section Fallback

variable {t : Textures} {tp : Nat}

theorem texposToChar_isSome : (t.texposToChar tp).isSome ↔ FontSlot t tp := by
  unfold Textures.texposToChar FontSlot
  rw [List.find?_isSome]
  constructor
  · rintro ⟨ch, hmem, hp⟩
    obtain ⟨hlo, hhi⟩ := List.mem_range'_1.mp hmem
    simp only [Bool.and_eq_true, decide_eq_true_eq] at hp
    exact ⟨ch, hlo, by omega, hp.1, by omega⟩
  · rintro ⟨ch, hlo, hhi, htp, hpos⟩
    refine ⟨ch, List.mem_range'_1.mpr ⟨hlo, by omega⟩, ?_⟩
    simp only [Bool.and_eq_true, decide_eq_true_eq]
    exact ⟨htp, by omega⟩

theorem char_lt {ch : Nat} (h : t.texposToChar tp = some ch) : ch < 256 := by
  have hmem := List.mem_of_find?_eq_some h
  have := (List.mem_range'_1.mp hmem).2
  omega

theorem sheetTile_isSome {sheet : Sheet} {ch tw th : Nat} (hch : ch < 256)
    (hlo : 256 ≤ sheet.w / tw * (sheet.h / th)) (hhi : sheet.w / tw * (sheet.h / th) < 2 ^ 32) :
    (sheetTile sheet ch tw th).isSome := by
  unfold sheetTile
  simp only
  rw [Nat.mod_eq_of_lt hhi, if_neg]
  · rfl
  · rintro (hcol | hrow | hfew | hpast)
    · rw [hcol, Nat.zero_mul] at hlo
      omega
    · rw [hrow, Nat.mul_zero] at hlo
      omega
    · omega
    · omega

theorem fontTile_isSome (hsheet : HasSheet t) {ch : Nat} (hch : ch < 256) :
    (fontTile t ch).isSome := by
  obtain ⟨file, hmem, hpng, sheet, hdecoded, hlo, hhi⟩ := hsheet
  unfold fontTile
  rw [List.findSome?_isSome_iff]
  refine ⟨file, hmem, ?_⟩
  rw [if_pos hpng, hdecoded, Option.bind_some]
  exact sheetTile_isSome hch hlo hhi

theorem exported_isSome {surf : Surface} : surf.exported.isSome ↔
    surf.pixels.isSome ∧ ∃ fmt, surf.format = some fmt ∧ 1 ≤ fmt.bytesPerPixel := by
  unfold Surface.exported
  cases surf.pixels with
  | none => simp
  | some mem =>
      cases surf.format with
      | none => simp
      | some fmt => by_cases h : 1 ≤ fmt.bytesPerPixel <;> simp [h]

-- A null slot goes to the fallback, a surface has to be readable.
theorem listed_cases (hsheet : HasSheet t) (hslot : tp < t.raws.length) :
    (∃ x y, (tp, x, y) ∈ (atlasInfo t).map) ↔
      (t.raws[tp]? = some none ∧ FontSlot t tp) ∨
        ∃ surf, t.raws[tp]? = some (some surf) ∧ surf.exported.isSome := by
  obtain ⟨raw, hraw⟩ : ∃ raw, t.raws[tp]? = some raw := ⟨_, List.getElem?_eq_getElem hslot⟩
  rw [listed_iff, slotCell, hraw]
  cases raw with
  | none =>
      cases hch : t.texposToChar tp with
      | none =>
          have hfont : ¬FontSlot t tp := by
            rw [← texposToChar_isSome, hch]
            decide
          simp [hfont]
      | some ch =>
          have hfont : FontSlot t tp := texposToChar_isSome.mp (hch ▸ rfl)
          obtain ⟨tile, htile⟩ := Option.isSome_iff_exists.mp (fontTile_isSome hsheet (char_lt hch))
          simp [hfont, htile, hslot]
  | some surf =>
      cases he : surf.exported with
      | none => simp [he]
      | some e => simp [he, hslot]

theorem covered_iff (hsheet : HasSheet t) :
    (∀ tp, Wanted t tp → ∃ x y, (tp, x, y) ∈ (atlasInfo t).map) ↔ Recoverable t := by
  constructor
  · intro hcovered
    have hexported : ∀ (tp : Nat) (surf : Surface), t.raws[tp]? = some (some surf) →
        surf.pixels.isSome ∨ FontSlot t tp → surf.exported.isSome := by
      intro tp surf hraw hwanted
      have hslot : tp < t.raws.length := (List.getElem?_eq_some_iff.mp hraw).1
      have hmemory : InMemory t tp ∨ FontSlot t tp := hwanted.imp_left fun h => ⟨surf, hraw, h⟩
      rcases (listed_cases hsheet hslot).mp (hcovered tp ⟨hslot, hmemory⟩) with h | h
      · exact absurd (hraw.symm.trans h.1) nofun
      · obtain ⟨surf', hraw', he⟩ := h
        obtain rfl : surf = surf' := Option.some.inj (Option.some.inj (hraw.symm.trans hraw'))
        exact he
    constructor
    · intro tp surf hraw hfreed hfont
      have hpixels := (exported_isSome.mp (hexported tp surf hraw (Or.inr hfont))).1
      rw [hfreed] at hpixels
      cases hpixels
    · intro tp surf hraw hpixels
      exact (exported_isSome.mp (hexported tp surf hraw (Or.inl hpixels))).2
  · rintro ⟨hfreed, hreadable⟩ tp ⟨hslot, hwanted⟩
    refine (listed_cases hsheet hslot).mpr ?_
    obtain ⟨raw, hraw⟩ : ∃ raw, t.raws[tp]? = some raw := ⟨_, List.getElem?_eq_getElem hslot⟩
    cases raw with
    | none =>
        refine Or.inl ⟨hraw, hwanted.resolve_left ?_⟩
        rintro ⟨surf, hsurf, -⟩
        exact absurd (hraw.symm.trans hsurf) nofun
    | some surf =>
        refine Or.inr ⟨surf, hraw, exported_isSome.mpr ?_⟩
        have hpixels : surf.pixels.isSome := by
          rcases hwanted with ⟨surf', hraw', hpixels⟩ | hfont
          · obtain rfl : surf = surf' := Option.some.inj (Option.some.inj (hraw.symm.trans hraw'))
            exact hpixels
          · by_contra hnone
            exact hfreed tp surf hraw (Option.not_isSome_iff_eq_none.mp hnone) hfont
        exact ⟨hpixels, hreadable tp surf hraw hpixels⟩

end Fallback

-- The map of an atlas that is published, when the art directory has a sheet
-- with every glyph.
theorem fallback_covers_iff {t : Textures} {encodes : Bool} {a : Atlas} (hsheet : HasSheet t)
    (hbuilt : (wfBuildAtlas t encodes a).2 = .built) :
    ∃ info, (wfBuildAtlas t encodes a).1.json = some info ∧
      ((∀ tp, Wanted t tp → ∃ x y, (tp, x, y) ∈ info.map) ↔ Recoverable t) :=
  ⟨atlasInfo t, (wfBuildAtlas_built hbuilt).2.1, covered_iff hsheet⟩

namespace Sample

-- A font of one pixel a character, with the letter A at texpos 1, and a sheet
-- of all its characters.
def fontTable (raws : List (Option Surface)) : Textures where
  raws := raws
  largeFontTexpos ch := if ch = 65 then 1 else 0
  tilePixelX := 1
  tilePixelY := 1
  art := [⟨true, some ⟨16, 16, fun _ => ⟨255, 255, 255, 255⟩⟩⟩]

def rgba : PixelFormat := ⟨4, ⟨0xFF, 0⟩, ⟨0xFF00, 8⟩, ⟨0xFF0000, 16⟩, ⟨0xFF000000, 24⟩⟩

-- A sprite in memory, and a glyph that is not.
def spriteAndNull : Textures := fontTable [some ⟨1, 1, 4, some fun _ => 7, some rgba⟩, none]

-- The same with the surface of the glyph still there.
def spriteAndFreed : Textures :=
  fontTable [some ⟨1, 1, 4, some fun _ => 7, some rgba⟩, some ⟨1, 1, 4, none, some rgba⟩]

def graphical : Atlas := { Atlas.init with graphicsMode := true }

theorem hasSheet_fontTable (raws : List (Option Surface)) : HasSheet (fontTable raws) := by
  refine ⟨_, List.mem_singleton_self _, rfl, _, rfl, ?_, ?_⟩
  · show 256 ≤ 16 / 1 * (16 / 1)
    decide
  · show 16 / 1 * (16 / 1) < 2 ^ 32
    decide

theorem built_spriteAndNull : (wfBuildAtlas spriteAndNull true graphical).2 = .built := by decide

theorem built_spriteAndFreed : (wfBuildAtlas spriteAndFreed true graphical).2 = .built := by decide

theorem recoverable_spriteAndNull : Recoverable spriteAndNull := by
  have hsurf : ∀ (tp : Nat) (surf : Surface), spriteAndNull.raws[tp]? = some (some surf) →
      surf = ⟨1, 1, 4, some fun _ => 7, some rgba⟩ := by
    intro tp surf h
    have hmem : some surf ∈ spriteAndNull.raws := List.mem_of_getElem? h
    simpa [spriteAndNull, fontTable] using hmem
  constructor
  · intro tp surf h hfreed
    rw [hsurf tp surf h] at hfreed
    cases hfreed
  · intro tp surf h _
    rw [hsurf tp surf h]
    exact ⟨rgba, rfl, by decide⟩

end Sample

theorem fallback_covers_iff_sample :
    ∃ info, (wfBuildAtlas Sample.spriteAndNull true Sample.graphical).1.json = some info ∧
      ∀ tp, Wanted Sample.spriteAndNull tp → ∃ x y, (tp, x, y) ∈ info.map := by
  obtain ⟨info, hjson, hiff⟩ := fallback_covers_iff (Sample.hasSheet_fontTable _)
    Sample.built_spriteAndNull
  exact ⟨info, hjson, hiff.mpr Sample.recoverable_spriteAndNull⟩

-- The letter A has a surface without pixels: the sheet has its glyph, and
-- the atlas that is published does not list it.
theorem freed_glyph_left_out :
    HasSheet Sample.spriteAndFreed ∧ Wanted Sample.spriteAndFreed 1 ∧
      (wfBuildAtlas Sample.spriteAndFreed true Sample.graphical).2 = .built ∧
      (wfBuildAtlas Sample.spriteAndFreed true Sample.graphical).1.json =
        some ⟨1, 1, [(0, 0, 0)]⟩ :=
  ⟨Sample.hasSheet_fontTable _, ⟨by decide, Or.inr ⟨65, by decide, by decide, rfl, by decide⟩⟩,
    Sample.built_spriteAndFreed, by decide⟩

end WebFort
