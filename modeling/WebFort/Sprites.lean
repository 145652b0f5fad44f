import WebFort.Pixels
import WebFort.Atlas.Layout
import WebFort.AtlasPage

namespace WebFort

open Library

-- A tile in graphics mode, from the textures of DF to the canvas.

-- A member of a parsed object. The last one of a name counts.
def jsonMember (j : Json) (key : Bytes) : Option Json :=
  match j with
  | .obj ms => (ms.reverse.find? fun m => m.1.1 = key).map Prod.snd
  | _ => none

def jsonNum : Json → Nat
  | .num n => n
  | _ => 0

-- atlasMap[String(texpos)]
def mapPlace (map : Json) (tp : Nat) : Option (Nat × Nat) :=
  match jsonMember map (texposKey tp).1 with
  | some (.arr (x :: y :: _)) => some (jsonNum x, jsonNum y)
  | _ => none

-- atlas.json and atlas.png once both are loaded.
def spritesOf (info : Json) (image : AtlasImage) : Option Sprites :=
  (jsonMember info (ascii "map")).map fun map =>
    { img := image.pixel
      map := mapPlace map
      tw := tileOr16 (((jsonMember info (ascii "tw")).map jsonNum).getD 0)
      th := tileOr16 (((jsonMember info (ascii "th")).map jsonNum).getD 0) }

-- What a page has that loaded the atlas built from some textures.
def loadedSprites (t : Textures) : Option Sprites :=
  (Json.parse (build t).json).bind fun info => spritesOf info (atlasImage t)

-- A rectangle of an image that holds a texture.
structure HoldsTexture (t : Textures) (img : Raster RGBA) (src : Rect) (tp : Nat) : Prop where
  w : src.w = t.tw
  h : src.h = t.th
  texel : ∀ px < t.tw, ∀ py < t.th, Texel t tp px py (img (src.x + px) (src.y + py))

-- A pixel of such a rectangle in the size of a tile.
def ScaledTexel (C : Context) (t : Textures) (img : Raster RGBA) (px py tp : Nat) (c : RGBA) :
    Prop :=
  ∃ src, HoldsTexture t img src tp ∧ c = C.scale img src (tilew, tileh) px py

-- A pixel with a sprite over it, if there is one.
structure Layer (C : Context) (present : Prop) (P : RGBA → Prop) (below above : RGBA) : Prop where
  sprite : present → ∃ c, P c ∧ above = C.blend c below
  bare : ¬present → above = below

-- The background, the lower texture and the upper one.
def SpritePixel (C : Context) (colors : Nat → RGB) (t : Textures) (P : Nat → RGBA → Prop)
    (d : Drawn) (v : RGBA) : Prop :=
  ∃ mid, Layer C (0 < d.texposLower ∧ Exported t d.texposLower) (P d.texposLower)
      (colors d.bg).solid mid ∧
    Layer C (Exported t d.texpos) (P d.texpos) mid v

-- The tiles that are drawn with a sprite.
def HasSprite (t : Textures) (d : Drawn) : Prop :=
  0 < d.texpos ∧ (0 < d.texposLower ∧ Exported t d.texposLower ∨ Exported t d.texpos)

section Layers

variable {C : Context} {present : Prop} {P Q : RGBA → Prop} {below above : RGBA}

theorem Layer.mono (h : Layer C present P below above) (hPQ : ∀ c, P c → Q c) :
    Layer C present Q below above where
  sprite hpresent := by
    obtain ⟨c, hc, habove⟩ := h.sprite hpresent
    exact ⟨c, hPQ c hc, habove⟩
  bare := h.bare

theorem SpritePixel.mono {colors : Nat → RGB} {t : Textures} {P Q : Nat → RGBA → Prop} {d : Drawn}
    {v : RGBA} (h : SpritePixel C colors t P d v) (hPQ : ∀ tp c, P tp c → Q tp c) :
    SpritePixel C colors t Q d v := by
  obtain ⟨mid, hlower, hupper⟩ := h
  exact ⟨mid, hlower.mono (hPQ _), hupper.mono (hPQ _)⟩

-- In tiles of the page's size nothing is scaled.
theorem ScaledTexel.texel {t : Textures} {img : Raster RGBA} {px py tp : Nat} {c : RGBA}
    (h : ScaledTexel C t img px py tp c) (htw : t.tw = tilew) (hth : t.th = tileh)
    (hx : px < tilew) (hy : py < tileh) : Texel t tp px py c := by
  obtain ⟨src, hsrc, rfl⟩ := h
  have hw : src.w = tilew := hsrc.w.trans htw
  have hh : src.h = tileh := hsrc.h.trans hth
  rw [← hw, ← hh, C.scale_self img src px (hw ▸ hx) py (hh ▸ hy)]
  exact hsrc.texel px (htw ▸ hx) py (hth ▸ hy)

end Layers

section Loaded

variable {t : Textures}

theorem jsonMember_of_mem {ms : List (JsonKey × Json)} (hnd : (ms.map Prod.fst).Nodup)
    {key : JsonKey} {v : Json} (h : (key, v) ∈ ms) : jsonMember (.obj ms) key.1 = some v := by
  have hmem : (key, v) ∈ ms.reverse := List.mem_reverse.mpr h
  cases hfind : ms.reverse.find? (fun m => m.1.1 = key.1) with
  | none => exact absurd (decide_eq_true rfl) (List.find?_eq_none.mp hfind (key, v) hmem)
  | some m =>
      have hkey : m.1 = key := Subtype.ext (by simpa using List.find?_some hfind)
      have hin : m ∈ ms := List.mem_reverse.mp (List.mem_of_find?_eq_some hfind)
      have hone : m = (key, v) := List.inj_on_of_nodup_map hnd hin h hkey
      simp only [jsonMember, hfind, hone, Option.map_some]

theorem jsonMember_of_not_mem {ms : List (JsonKey × Json)} {key : JsonKey}
    (h : key ∉ ms.map Prod.fst) : jsonMember (.obj ms) key.1 = none := by
  have hfind : ms.reverse.find? (fun m => m.1.1 = key.1) = none := by
    refine List.find?_eq_none.mpr fun m hm hkey => h ?_
    exact List.mem_map.mpr ⟨m, List.mem_reverse.mp hm, Subtype.ext (by simpa using hkey)⟩
  simp only [jsonMember, hfind, Option.map_none]

theorem mapPlace_iff {tp : Nat} {p : Nat × Nat} :
    mapPlace (.obj ((atlasInfo t).map.map mapEntry)) tp = some p ↔ (tp, p) ∈ (atlasInfo t).map := by
  have hnd := nodup_keys t
  have hplace : ∀ q, (tp, q) ∈ (atlasInfo t).map →
      mapPlace (.obj ((atlasInfo t).map.map mapEntry)) tp = some q := by
    intro q hq
    have hmember := jsonMember_of_mem hnd (List.mem_map_of_mem (f := mapEntry) hq)
    simp only [mapPlace, hmember, jsonNum]
  refine ⟨fun h => ?_, hplace p⟩
  by_cases hlisted : ∃ q, (tp, q) ∈ (atlasInfo t).map
  · obtain ⟨q, hq⟩ := hlisted
    obtain rfl := Option.some.inj ((hplace q hq).symm.trans h)
    exact hq
  · have hnone : texposKey tp ∉ ((atlasInfo t).map.map mapEntry).map Prod.fst := by
      intro hkey
      obtain ⟨e, he, hkey⟩ := List.mem_map.mp hkey
      obtain ⟨⟨tp', q⟩, hq, rfl⟩ := List.mem_map.mp he
      obtain rfl := texposKey_injective hkey
      exact hlisted ⟨q, hq⟩
    simp only [mapPlace, jsonMember_of_not_mem hnone] at h
    cases h

theorem loadedSprites_eq :
    loadedSprites t = some
      { img := (atlasImage t).pixel
        map := mapPlace (.obj ((atlasInfo t).map.map mapEntry))
        tw := t.tw
        th := t.th } := by
  have htw : tileOr16 t.tw = t.tw := if_neg (Nat.pos_iff_ne_zero.mp t.tw_pos)
  have hth : tileOr16 t.th = t.th := if_neg (Nat.pos_iff_ne_zero.mp t.th_pos)
  unfold loadedSprites
  rw [build_json, Json.parse_print, Option.bind_some]
  have hmap : jsonMember (atlasJson (atlasInfo t)) (ascii "map") =
      some (.obj ((atlasInfo t).map.map mapEntry)) := rfl
  have hw : jsonMember (atlasJson (atlasInfo t)) (ascii "tw") = some (.num t.tw) := rfl
  have hh : jsonMember (atlasJson (atlasInfo t)) (ascii "th") = some (.num t.th) := rfl
  unfold spritesOf
  rw [hmap, hw, hh]
  simp only [Option.map_some, Option.getD_some, jsonNum, htw, hth]

theorem listed_exported {tp : Nat} {p : Nat × Nat} (h : (tp, p) ∈ (atlasInfo t).map) :
    Exported t tp := by
  obtain ⟨idx, he, hcopy, -, -⟩ := mem_atlasInfo_iff.mp h
  exact exported_iff.mpr ⟨List.mem_of_getElem? (mem_zipIdx_iff.mp he), hcopy⟩

theorem exported_listed {tp : Nat} (h : Exported t tp) : ∃ p, (tp, p) ∈ (atlasInfo t).map := by
  obtain ⟨hmem, hcopy⟩ := exported_iff.mp h
  obtain ⟨idx, hidx⟩ := List.getElem?_of_mem hmem
  exact ⟨(destX t idx, destY t idx),
    mem_atlasInfo_iff.mpr ⟨idx, mem_zipIdx_iff.mpr hidx, hcopy, rfl, rfl⟩⟩

-- The area the map gives for a texpos holds its texture.
theorem holds_texture {tp : Nat} {p : Nat × Nat} (h : (tp, p) ∈ (atlasInfo t).map) :
    HoldsTexture t (atlasImage t).pixel ⟨p.1, p.2, t.tw, t.th⟩ tp := by
  obtain ⟨idx, he, -, hpx, hpy⟩ := mem_atlasInfo_iff.mp h
  refine ⟨rfl, rfl, fun px hx py hy => ?_⟩
  obtain ⟨hin, hin'⟩ := inCell_image he hx hy
  have hown := build_own he hx hy
  rw [build_pixelAt hin hin'] at hown
  simp only [hpx, hpy, hown]
  exact texture_texel (List.mem_of_getElem? (mem_zipIdx_iff.mp he)) hx hy

end Loaded

-- A sprite of the page as a layer of its texture.
theorem place_layer {t : Textures} {a : Sprites} (ha : loadedSprites t = some a) (C : Context)
    (tp px py : Nat) (v : RGBA) :
    Layer C (Exported t tp) (ScaledTexel C t (atlasImage t).pixel px py tp) v
        (spriteOver C a (a.map tp) px py v) ∧
      ((a.map tp).isSome = true ↔ Exported t tp) := by
  rw [loadedSprites_eq] at ha
  obtain rfl := Option.some.inj ha
  simp only
  cases hplace : mapPlace (.obj ((atlasInfo t).map.map mapEntry)) tp with
  | some p =>
      have hlisted := mapPlace_iff.mp hplace
      have hexported := listed_exported hlisted
      refine ⟨⟨fun _ => ⟨_, ⟨_, holds_texture hlisted, rfl⟩, rfl⟩, absurd hexported⟩, ?_⟩
      exact iff_of_true rfl hexported
  | none =>
      have hnot : ¬Exported t tp := by
        intro hexported
        obtain ⟨p, hp⟩ := exported_listed hexported
        exact Option.some_ne_none p ((mapPlace_iff.mpr hp).symm.trans hplace)
      exact ⟨⟨fun h => absurd h hnot, fun _ => rfl⟩, iff_of_false Bool.false_ne_true hnot⟩

section Picture

variable {C : Context} {colors : Nat → RGB} {ts tt : Picture} {t : Textures} {a : Sprites}
  {c : WireCell} {px py : Nat}

theorem spritePath_eq (ha : loadedSprites t = some a) :
    (HasSprite t c.drawn → spritePath (some a) c =
      some (a, if 0 < c.texposLower then a.map c.texposLower else none, a.map c.texpos)) ∧
    (¬HasSprite t c.drawn → spritePath (some a) c = none) := by
  have hsome : ∀ tp, (a.map tp).isSome = true ↔ Exported t tp := fun tp =>
    (place_layer ha Sample.context tp 0 0 .clear).2
  have hlower : (if 0 < c.texposLower then a.map c.texposLower else none).isSome = true ↔
      0 < c.texposLower ∧ Exported t c.texposLower := by
    by_cases hpos : 0 < c.texposLower
    · rw [if_pos hpos, hsome, and_iff_right hpos]
    · rw [if_neg hpos]
      exact iff_of_false Bool.false_ne_true fun h => hpos h.1
  have hcond : (0 < c.texpos ∧ ((if 0 < c.texposLower then a.map c.texposLower else none).isSome ||
      (a.map c.texpos).isSome) = true) ↔ HasSprite t c.drawn := by
    rw [Bool.or_eq_true, hlower, hsome]
    rfl
  unfold spritePath
  simp only [Option.bind_some]
  exact ⟨fun h => if_pos (hcond.mpr h), fun h => if_neg fun hc => h (hcond.mp hc)⟩

theorem tilePicture_sprite (ha : loadedSprites t = some a) (hw : ts.w ≤ 256) (hh : ts.h ≤ 256)
    (hsprite : HasSprite t c.drawn) (hx : px < tilew) (hy : py < tileh) :
    SpritePixel C colors t (ScaledTexel C t (atlasImage t).pixel px py) c.drawn
      (tilePicture C (initSheets C colors ts tt hw hh) (some a) c px py) := by
  have hback : C.block (colorize C colors ts) (bgRect (c.bgFlags.toNat % tilew)) tilew tileh px py =
      _ := sheet_back hw hh (Nat.mod_lt _ (by decide : 0 < 16)) hx hy
  unfold tilePicture initSheets
  rw [(spritePath_eq ha).1 hsprite]
  simp only [hback]
  refine ⟨_, ?_, (place_layer ha C c.drawn.texpos px py _).1⟩
  have hlayer := (place_layer ha C c.texposLower px py (colors c.drawn.bg).solid).1
  by_cases hpos : 0 < c.texposLower
  · rw [if_pos hpos]
    exact ⟨fun h => hlayer.sprite h.2, fun h => hlayer.bare fun he => h ⟨hpos, he⟩⟩
  · rw [if_neg hpos]
    exact ⟨fun h => absurd h.1 hpos, fun _ => rfl⟩

end Picture

-- In graphics mode, on a page that has loaded the atlas built from some
-- textures, a captured tile reaches the canvas as the textures of its two
-- texpos over its background. Without an exported texture it shows its glyph.
theorem sprite_fidelity (C : Context) (colors : Nat → RGB) (ts tt : Picture) (hw : ts.w ≤ 256)
    (hh : ts.h ≤ 256) (hw' : tt.w ≤ 256) (hh' : tt.h ≤ 256) {s : Endpoint} {hdl : Handle}
    {st : State} {g : Game} {screen : Nat → Glyph} {p : Nat × Nat}
    (hwait : Waiting s hdl st g screen p) (hwide : width st ≤ 255) (htall : height st ≤ 255)
    (hread : Readable st.getActive.nick) (hmode : st.graphicsMode = true) (d : Display)
    (t : Textures) (hatlas : d.atlas = loadedSprites t) :
    let d' := (sends hdl (tock s hdl st).out).foldl
      (Display.receive C (initSheets C colors ts tt hw hh)) d
    (d'.width = width st * tilew ∧ d'.height = height st * tileh) ∧
    ∃ drawn, Shows g screen p drawn ∧ ∀ px < tilew, ∀ py < tileh,
      let v := d'.pixel (p.1 * tilew + px) (p.2 * tileh + py)
      (HasSprite t drawn →
        SpritePixel C colors t (ScaledTexel C t (atlasImage t).pixel px py) drawn v) ∧
      (HasSprite t drawn → t.tw = tilew → t.th = tileh →
        SpritePixel C colors t (fun tp => Texel t tp px py) drawn v) ∧
      (¬HasSprite t drawn → GlyphPixel C colors ts tt drawn px py v) := by
  intro d'
  obtain ⟨a, ha⟩ : ∃ a, loadedSprites t = some a := ⟨_, loadedSprites_eq⟩
  obtain ⟨hsize, c, hshows, hpixel⟩ := waiting_pixels (C := C) hwait hwide htall hread d
  refine ⟨hsize, c.drawn, hshows, fun px hx py hy => ?_⟩
  have hlook : lookOf st.graphicsMode d.atlas = some a := by
    rw [hmode, hatlas, ha]
    rfl
  have hdrawn := hpixel px hx py hy
  rw [hlook] at hdrawn
  have hlayers : HasSprite t c.drawn → SpritePixel C colors t
      (ScaledTexel C t (atlasImage t).pixel px py) c.drawn
      (d'.pixel (p.1 * tilew + px) (p.2 * tileh + py)) := fun hsprite =>
    Eq.subst hdrawn.symm (tilePicture_sprite ha hw hh hsprite hx hy)
  refine ⟨hlayers, fun hsprite htw hth => ?_, fun hno => ?_⟩
  · exact (hlayers hsprite).mono fun tp v hv => hv.texel htw hth hx hy
  · exact Eq.subst hdrawn.symm (tilePicture_glyph hw hh hw' hh' ((spritePath_eq ha).2 hno)
      (fg_lt hshows) hx hy)

namespace Sample

def spriteView : State := { glyphView 65 with graphicsMode := true }

theorem spriteView_waiting :
    Waiting endpoint 0 spriteView (glyphGame 65)
      (fun _ => ⟨32, ⟨255, 255, 255⟩, ⟨0, 0, 0⟩⟩) (1, 1) :=
  ⟨rfl, rfl, ⟨rfl, rfl⟩, ⟨Nat.lt_succ_self 1, Nat.lt_succ_self 1⟩,
    ⟨fun _ => Cell.zero, rfl⟩, rfl, rfl⟩

-- A solid green block in slot 5.
def greenBlock : Textures where
  raws := List.replicate 5 none ++
    [some ⟨16, 16, 64, some fun i => if i % 4 = 1 ∨ i % 4 = 3 then 255 else 0, some rgba⟩]
  largeFontTexpos _ := 0
  tilePixelX := 16
  tilePixelY := 16
  art := []

-- A page that has loaded its atlas.
def spriteCanvas : Display := { firstCanvas with atlas := loadedSprites greenBlock }

theorem greenBlock_exported : Exported greenBlock 5 :=
  Or.inl ⟨_, _, _, rfl, rfl, rfl, by decide⟩

theorem greenBlock_texel {c : RGBA} (h : Texel greenBlock 5 3 5 c) : c = ⟨0, 255, 0, 255⟩ := by
  have hmem : 5 ∈ allTexpos greenBlock := (exported_iff.mp greenBlock_exported).1
  have htexture : texture greenBlock 5 3 5 = ⟨0, 255, 0, 255⟩ := by decide
  rw [← htexture]
  exact texel_unique hmem h (texture_texel hmem (by decide) (by decide))

end Sample

-- The tile has texpos 5, and only that.
theorem sprite_fidelity_sample :
    ((sends 0 (tock Sample.endpoint 0 Sample.spriteView).out).foldl
      (Display.receive Sample.context Sample.sheets) Sample.spriteCanvas).pixel (16 + 3) (16 + 5) =
        ⟨0, 255, 0, 255⟩ := by
  obtain ⟨-, drawn, hshows, hpixel⟩ := sprite_fidelity Sample.context Sample.palette Sample.greySheet
    Sample.greySheet (by decide) (by decide) (by decide) (by decide) Sample.spriteView_waiting
    (by decide) (by decide) (readable_of_no_percent (by decide)) rfl Sample.spriteCanvas
    Sample.greenBlock (by simp only [Sample.spriteCanvas])
  have htexpos : drawn.texpos = 5 := by
    have hcarries : (drawn.texpos : Int) = 5 := hshows.texpos
    omega
  have hexported : Exported Sample.greenBlock drawn.texpos :=
    htexpos ▸ Sample.greenBlock_exported
  obtain ⟨mid, -, hupper⟩ := (hpixel 3 (by decide) 5 (by decide)).2.1
    ⟨by omega, Or.inr hexported⟩ rfl rfl
  obtain ⟨c, hc, hpixel⟩ := hupper.sprite hexported
  rw [htexpos] at hc
  rw [Sample.greenBlock_texel hc] at hpixel
  exact hpixel

end WebFort
