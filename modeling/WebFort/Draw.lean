import WebFort.Resize
import WebFort.Tileset

namespace WebFort

open Library

-- The drawing of renderUpdate.

-- The atlas a page has loaded: atlasImg, atlasMap, atlasTW and atlasTH.
structure Sprites where
  img : Raster RGBA
  map : Nat → Option (Nat × Nat)
  tw : Nat
  th : Nat

def zoneW : Nat := tilew * tilew

def zoneH : Nat := tileh * tileh

def bgRect (bg : Nat) : Rect :=
  ⟨bg % 4 * zoneW + 15 * tilew, bg / 4 * zoneH + 15 * tileh, tilew, tileh⟩

def glyphRect (ch fg : Nat) : Rect :=
  ⟨ch % 16 * tilew + fg % 4 * zoneW, ch / 16 * tileh + fg / 4 * zoneH, tilew, tileh⟩

def tileRect (x y : Nat) : Rect := ⟨x * tilew, y * tileh, tilew, tileh⟩

-- The coloured sheets cd and ct. The last glyph of each colour is solid.
structure Sheets where
  cd : Raster RGBA
  ct : Raster RGBA
  solid : ∀ bg < 16, ∀ px < tilew, ∀ py < tileh,
    (cd ((bgRect bg).x + px) ((bgRect bg).y + py)).Solid

-- graphicsMode && atlasImg && atlasMap
def lookOf (graphicsMode : Bool) (atlas : Option Sprites) : Option Sprites :=
  if graphicsMode then atlas else none

-- The places of the lower and the upper sprite of a tile, if it is drawn with
-- any.
def spritePath (look : Option Sprites) (c : WireCell) :
    Option (Sprites × Option (Nat × Nat) × Option (Nat × Nat)) :=
  look.bind fun a =>
    let lower := if 0 < c.texposLower then a.map c.texposLower else none
    let upper := a.map c.texpos
    if 0 < c.texpos ∧ (lower.isSome || upper.isSome) then some (a, lower, upper) else none

section Draw

variable (C : Context) (sheets : Sheets) (look : Option Sprites)

def drawSprite (a : Sprites) (place : Option (Nat × Nat)) (dst : Rect) (ctx : Raster RGBA) :
    Raster RGBA :=
  match place with
  | none => ctx
  | some p => C.drawImage a.img ⟨p.1, p.2, a.tw, a.th⟩ dst ctx

-- The body of the first loop, with the list t of the tiles it leaves to the
-- second.
def firstLoop (acc : Raster RGBA × List TileRec) (r : TileRec) : Raster RGBA × List TileRec :=
  let dst := tileRect r.x r.y
  let ctx := C.drawImage sheets.cd (bgRect (r.cell.bgFlags.toNat % tilew)) dst acc.1
  match spritePath look r.cell with
  | some (a, lower, upper) => (drawSprite C a upper dst (drawSprite C a lower dst ctx), acc.2)
  | none =>
      if r.cell.bgFlags &&& 64 ≠ 0 then (ctx, acc.2 ++ [r])
      else (C.drawImage sheets.cd (glyphRect r.cell.ch.toNat r.cell.fg.toNat) dst ctx, acc.2)

def secondLoop (ctx : Raster RGBA) (r : TileRec) : Raster RGBA :=
  C.drawImage sheets.ct (glyphRect r.cell.ch.toNat r.cell.fg.toNat) (tileRect r.x r.y) ctx

def drawRecords (recs : List TileRec) (ctx : Raster RGBA) : Raster RGBA :=
  let acc := recs.foldl (firstLoop C sheets look) (ctx, [])
  acc.2.foldl (secondLoop C sheets) acc.1

-- A tile the first loop leaves to the second.
def Deferred (c : WireCell) : Prop := spritePath look c = none ∧ c.bgFlags &&& 64 ≠ 0

instance (c : WireCell) : Decidable (Deferred look c) :=
  decidable_of_iff ((spritePath look c).isNone = true ∧ c.bgFlags &&& 64 ≠ 0)
    (and_congr_left' Option.isNone_iff_eq_none)

-- A record drawn at once.
def drawRecord (ctx : Raster RGBA) (r : TileRec) : Raster RGBA :=
  let acc := firstLoop C sheets look (ctx, []) r
  acc.2.foldl (secondLoop C sheets) acc.1

def spriteOver (a : Sprites) (place : Option (Nat × Nat)) (px py : Nat) (v : RGBA) : RGBA :=
  match place with
  | none => v
  | some p => C.blend (C.block a.img ⟨p.1, p.2, a.tw, a.th⟩ tilew tileh px py) v

-- What a tile looks like, whatever was there.
def tilePicture (c : WireCell) (px py : Nat) : RGBA :=
  let back := C.block sheets.cd (bgRect (c.bgFlags.toNat % tilew)) tilew tileh px py
  match spritePath look c with
  | some (a, lower, upper) => spriteOver C a upper px py (spriteOver C a lower px py back)
  | none =>
      let sheet := if c.bgFlags &&& 64 ≠ 0 then sheets.ct else sheets.cd
      C.blend (C.block sheet (glyphRect c.ch.toNat c.fg.toNat) tilew tileh px py) back

end Draw

section Brushes

variable (C : Context) (sheets : Sheets) (look : Option Sprites)

def TileRec.tile (r : TileRec) : Nat × Nat := (r.x, r.y)

def imageBrush (img : Raster RGBA) (src : Rect) (r : TileRec) : Raster.Brush RGBA :=
  ⟨r.tile, fun px py v => C.blend (C.block img src tilew tileh px py) v⟩

def spriteBrushes (a : Sprites) (place : Option (Nat × Nat)) (r : TileRec) :
    List (Raster.Brush RGBA) :=
  match place with
  | none => []
  | some p => [imageBrush C a.img ⟨p.1, p.2, a.tw, a.th⟩ r]

def firstBrushes (r : TileRec) : List (Raster.Brush RGBA) :=
  imageBrush C sheets.cd (bgRect (r.cell.bgFlags.toNat % tilew)) r ::
    match spritePath look r.cell with
    | some (a, lower, upper) => spriteBrushes C a lower r ++ spriteBrushes C a upper r
    | none =>
        if r.cell.bgFlags &&& 64 ≠ 0 then []
        else [imageBrush C sheets.cd (glyphRect r.cell.ch.toNat r.cell.fg.toNat) r]

def secondBrushes (r : TileRec) : List (Raster.Brush RGBA) :=
  if Deferred look r.cell then
    [imageBrush C sheets.ct (glyphRect r.cell.ch.toNat r.cell.fg.toNat) r]
  else []

theorem drawSprite_tile (a : Sprites) (place : Option (Nat × Nat)) (r : TileRec)
    (ctx : Raster RGBA) :
    drawSprite C a place (tileRect r.x r.y) ctx =
      Raster.paintCells tilew tileh (spriteBrushes C a place r) ctx := by
  cases place with
  | none => rfl
  | some p => rfl

theorem firstLoop_eq (acc : Raster RGBA × List TileRec) (r : TileRec) :
    firstLoop C sheets look acc r =
      (Raster.paintCells tilew tileh (firstBrushes C sheets look r) acc.1,
        acc.2 ++ if Deferred look r.cell then [r] else []) := by
  have hcons : ∀ bs : List (Raster.Brush RGBA), ∀ img src, Raster.paintCells tilew tileh
      (imageBrush C img src r :: bs) acc.1 =
        Raster.paintCells tilew tileh bs (C.drawImage img src (tileRect r.x r.y) acc.1) :=
    fun _ _ _ => rfl
  unfold firstLoop firstBrushes
  simp only [hcons]
  cases hpath : spritePath look r.cell with
  | some path =>
      obtain ⟨a, lower, upper⟩ := path
      rw [if_neg fun hd : Deferred look r.cell => Option.some_ne_none _ (hpath.symm.trans hd.1)]
      simp only [drawSprite_tile, Raster.paintCells_append, List.append_nil]
  | none =>
      by_cases hflag : r.cell.bgFlags &&& 64 ≠ 0
      · simp only [if_pos hflag, if_pos (show Deferred look r.cell from ⟨hpath, hflag⟩)]
        rfl
      · rw [if_neg fun hd : Deferred look r.cell => hflag hd.2]
        simp only [if_neg hflag, List.append_nil]
        rfl

theorem foldl_firstLoop (recs : List TileRec) (acc : Raster RGBA × List TileRec) :
    recs.foldl (firstLoop C sheets look) acc =
      (Raster.paintCells tilew tileh (recs.flatMap (firstBrushes C sheets look)) acc.1,
        acc.2 ++ recs.filter fun r => Deferred look r.cell) := by
  induction recs generalizing acc with
  | nil => simp [Raster.paintCells]
  | cons r recs ih =>
      rw [List.foldl_cons, ih, firstLoop_eq, List.flatMap_cons, Raster.paintCells_append]
      by_cases hd : Deferred look r.cell
      · simp [hd]
      · simp [hd]

theorem foldl_secondLoop (recs : List TileRec) (ctx : Raster RGBA) :
    (recs.filter fun r => Deferred look r.cell).foldl (secondLoop C sheets) ctx =
      Raster.paintCells tilew tileh (recs.flatMap (secondBrushes C sheets look)) ctx := by
  induction recs generalizing ctx with
  | nil => rfl
  | cons r recs ih =>
      rw [List.flatMap_cons, Raster.paintCells_append]
      by_cases hd : Deferred look r.cell
      · rw [List.filter_cons_of_pos (by simpa using hd), List.foldl_cons, ih, secondBrushes, if_pos hd]
        rfl
      · rw [List.filter_cons_of_neg (by simpa using hd), ih, secondBrushes, if_neg hd]
        rfl

theorem drawRecords_eq (recs : List TileRec) (ctx : Raster RGBA) :
    drawRecords C sheets look recs ctx =
      Raster.paintCells tilew tileh (recs.flatMap (firstBrushes C sheets look) ++
        recs.flatMap (secondBrushes C sheets look)) ctx := by
  unfold drawRecords
  simp only [foldl_firstLoop, List.nil_append, foldl_secondLoop, Raster.paintCells_append]

theorem drawRecord_eq (ctx : Raster RGBA) (r : TileRec) :
    drawRecord C sheets look ctx r = Raster.paintCells tilew tileh
      (firstBrushes C sheets look r ++ secondBrushes C sheets look r) ctx := by
  have hone := drawRecords_eq C sheets look [r] ctx
  rw [List.flatMap_singleton, List.flatMap_singleton] at hone
  exact hone

theorem firstBrushes_place (r : TileRec) : ∀ b ∈ firstBrushes C sheets look r, b.place = r.tile := by
  have hsprite : ∀ a place, ∀ b ∈ spriteBrushes C a place r, b.place = r.tile := by
    intro a place b hb
    cases place with
    | none => exact absurd hb List.not_mem_nil
    | some p =>
        rw [List.mem_singleton.mp hb]
        rfl
  intro b hb
  unfold firstBrushes at hb
  rcases List.mem_cons.mp hb with rfl | hb
  · rfl
  · split at hb
    · rcases List.mem_append.mp hb with hb | hb
      · exact hsprite _ _ b hb
      · exact hsprite _ _ b hb
    · split at hb
      · exact absurd hb List.not_mem_nil
      · rw [List.mem_singleton.mp hb]
        rfl

theorem secondBrushes_place (r : TileRec) :
    ∀ b ∈ secondBrushes C sheets look r, b.place = r.tile := by
  intro b hb
  unfold secondBrushes at hb
  split at hb
  · rw [List.mem_singleton.mp hb]
    rfl
  · exact absurd hb List.not_mem_nil

-- The background leaves nothing of what was there.
theorem touch_brushes (r : TileRec) {px py : Nat} (hx : px < tilew) (hy : py < tileh) (v : RGBA) :
    Raster.touch (firstBrushes C sheets look r ++ secondBrushes C sheets look r) px py v =
      tilePicture C sheets look r.cell px py := by
  let back := C.block sheets.cd (bgRect (r.cell.bgFlags.toNat % tilew)) tilew tileh px py
  have hsolid : back.Solid := by
    have hself : back = _ :=
      C.block_self sheets.cd (bgRect (r.cell.bgFlags.toNat % tilew)) hx hy
    rw [hself]
    exact sheets.solid _ (Nat.mod_lt _ (by decide)) px hx py hy
  have hback : C.blend back v = back := C.blend_of_solid _ _ hsolid
  have hcons : ∀ bs : List (Raster.Brush RGBA), Raster.touch
      (imageBrush C sheets.cd (bgRect (r.cell.bgFlags.toNat % tilew)) r :: bs) px py v =
        Raster.touch bs px py back := by
    intro bs
    show Raster.touch bs px py (C.blend back v) = _
    rw [hback]
  unfold firstBrushes secondBrushes tilePicture
  rw [List.cons_append, hcons]
  cases hpath : spritePath look r.cell with
  | some path =>
      obtain ⟨a, lower, upper⟩ := path
      rw [if_neg fun hd : Deferred look r.cell => Option.some_ne_none _ (hpath.symm.trans hd.1)]
      cases lower with
      | none =>
          cases upper with
          | none => rfl
          | some p => rfl
      | some p =>
          cases upper with
          | none => rfl
          | some q => rfl
  | none =>
      by_cases hflag : r.cell.bgFlags &&& 64 ≠ 0
      · simp only [if_pos hflag, if_pos (show Deferred look r.cell from ⟨hpath, hflag⟩)]
        rfl
      · rw [if_neg fun hd : Deferred look r.cell => hflag hd.2]
        simp only [if_neg hflag]
        rfl

end Brushes

-- No tile left to the second loop comes up again in the first.
def Unrepeated (look : Option Sprites) (recs : List TileRec) : Prop :=
  recs.Pairwise fun r r' => Deferred look r.cell → r.tile ≠ r'.tile

section Passes

variable {C : Context} {sheets : Sheets} {look : Option Sprites} {recs : List TileRec}

theorem unrepeated_of_nodup (h : (recs.map TileRec.tile).Nodup) : Unrepeated look recs := by
  have hpair : recs.Pairwise fun r r' => r.tile ≠ r'.tile := List.pairwise_map.mp h
  refine hpair.imp ?_
  intro r r' hne _
  exact hne

-- Of the records of one tile only the last can be left to the second loop.
theorem flatMap_passes {k : Nat × Nat} {rs : List TileRec} (hk : ∀ r ∈ rs, r.tile = k)
    (hu : Unrepeated look rs) :
    rs.flatMap (firstBrushes C sheets look) ++ rs.flatMap (secondBrushes C sheets look) =
      rs.flatMap fun r => firstBrushes C sheets look r ++ secondBrushes C sheets look r := by
  induction rs with
  | nil => rfl
  | cons r rs ih =>
      have hrest := ih (fun r' hr' => hk r' (List.mem_cons_of_mem _ hr')) (List.pairwise_cons.mp hu).2
      simp only [List.flatMap_cons]
      by_cases hd : Deferred look r.cell
      · have hnil : rs = [] := by
          refine List.eq_nil_iff_forall_not_mem.mpr fun r' hr' => ?_
          refine (List.pairwise_cons.mp hu).1 r' hr' hd ?_
          rw [hk r List.mem_cons_self, hk r' (List.mem_cons_of_mem _ hr')]
        subst hnil
        simp
      · have hsecond : secondBrushes C sheets look r = [] := if_neg hd
        rw [hsecond, ← hrest]
        simp only [List.append_assoc, List.nil_append, List.append_nil]

theorem filter_passes (hu : Unrepeated look recs) (k : Nat × Nat) :
    (recs.flatMap (firstBrushes C sheets look) ++
        recs.flatMap (secondBrushes C sheets look)).filter (fun b => b.place = k) =
      (recs.filter fun r => r.tile = k).flatMap fun r =>
        firstBrushes C sheets look r ++ secondBrushes C sheets look r := by
  rw [List.filter_append,
    Raster.filter_flatMap_place (fun r _ => firstBrushes_place C sheets look r) k,
    Raster.filter_flatMap_place (fun r _ => secondBrushes_place C sheets look r) k]
  refine flatMap_passes (k := k) (fun r hr => ?_) (hu.filter _)
  exact of_decide_eq_true (List.mem_filter.mp hr).2

theorem foldl_drawRecord (ctx : Raster RGBA) :
    recs.foldl (drawRecord C sheets look) ctx = Raster.paintCells tilew tileh
      (recs.flatMap fun r => firstBrushes C sheets look r ++ secondBrushes C sheets look r) ctx := by
  induction recs generalizing ctx with
  | nil => rfl
  | cons r recs ih =>
      rw [List.foldl_cons, ih, drawRecord_eq, List.flatMap_cons, ← Raster.paintCells_append]

theorem filter_one_pass (k : Nat × Nat) :
    (recs.flatMap fun r => firstBrushes C sheets look r ++ secondBrushes C sheets look r).filter
        (fun b => b.place = k) =
      (recs.filter fun r => r.tile = k).flatMap fun r =>
        firstBrushes C sheets look r ++ secondBrushes C sheets look r := by
  refine Raster.filter_flatMap_place (fun r _ b hb => ?_) k
  rcases List.mem_append.mp hb with hb | hb
  · exact firstBrushes_place C sheets look r b hb
  · exact secondBrushes_place C sheets look r b hb

-- The tile of the last record for it.
theorem touch_last {rs : List TileRec} {r : TileRec} {px py : Nat} (hx : px < tilew)
    (hy : py < tileh) (v : RGBA) :
    Raster.touch ((rs ++ [r]).flatMap fun r =>
        firstBrushes C sheets look r ++ secondBrushes C sheets look r) px py v =
      tilePicture C sheets look r.cell px py := by
  rw [List.flatMap_append, List.flatMap_singleton]
  unfold Raster.touch
  rw [List.foldl_append]
  exact touch_brushes C sheets look r hx hy _

theorem drawRecords_tile (hu : Unrepeated look recs) (ctx : Raster RGBA) {seen rest : List TileRec}
    {r : TileRec} (hrecs : recs = seen ++ r :: rest) (hlast : ∀ r' ∈ rest, r'.tile ≠ r.tile)
    {px py : Nat} (hx : px < tilew) (hy : py < tileh) :
    drawRecords C sheets look recs ctx (r.x * tilew + px) (r.y * tileh + py) =
      tilePicture C sheets look r.cell px py := by
  have hfilter : recs.filter (fun r' => r'.tile = r.tile) =
      seen.filter (fun r' => r'.tile = r.tile) ++ [r] := by
    have hnone : rest.filter (fun r' => r'.tile = r.tile) = [] :=
      List.filter_eq_nil_iff.mpr fun r' hr' => by simpa using hlast r' hr'
    rw [hrecs, List.filter_append, List.filter_cons_of_pos (by simp), hnone]
  have hcell := Raster.paintCells_cell hx hy (recs.flatMap (firstBrushes C sheets look) ++
    recs.flatMap (secondBrushes C sheets look)) ctx r.tile
  rw [filter_passes hu, hfilter] at hcell
  rw [drawRecords_eq]
  exact hcell.trans (touch_last hx hy _)

theorem drawRecords_other (ctx : Raster RGBA) {k : Nat × Nat} (hk : ∀ r ∈ recs, r.tile ≠ k)
    {px py : Nat} (hx : px < tilew) (hy : py < tileh) :
    drawRecords C sheets look recs ctx (k.1 * tilew + px) (k.2 * tileh + py) =
      ctx (k.1 * tilew + px) (k.2 * tileh + py) := by
  have hnone : (recs.flatMap (firstBrushes C sheets look) ++
      recs.flatMap (secondBrushes C sheets look)).filter (fun b => b.place = k) = [] := by
    have hrecs : recs.filter (fun r => r.tile = k) = [] :=
      List.filter_eq_nil_iff.mpr fun r hr => by simpa using hk r hr
    rw [List.filter_append,
      Raster.filter_flatMap_place (fun r _ => firstBrushes_place C sheets look r) k,
      Raster.filter_flatMap_place (fun r _ => secondBrushes_place C sheets look r) k, hrecs]
    rfl
  rw [drawRecords_eq, Raster.paintCells_cell hx hy, hnone]
  rfl

end Passes

-- Where no tile left to the second loop comes up again, the two loops draw
-- what one would draw record by record: each tile shows its last record and
-- nothing of what was there, and the other tiles stay.
theorem drawn_as_one_pass (C : Context) (sheets : Sheets) (look : Option Sprites)
    (recs : List TileRec) (ctx : Raster RGBA) (hu : Unrepeated look recs) :
    drawRecords C sheets look recs ctx = recs.foldl (drawRecord C sheets look) ctx ∧
    (∀ seen r rest, recs = seen ++ r :: rest → (∀ r' ∈ rest, r'.tile ≠ r.tile) →
      ∀ px < tilew, ∀ py < tileh,
        drawRecords C sheets look recs ctx (r.x * tilew + px) (r.y * tileh + py) =
          tilePicture C sheets look r.cell px py) ∧
    (∀ k : Nat × Nat, (∀ r ∈ recs, r.tile ≠ k) → ∀ px < tilew, ∀ py < tileh,
      drawRecords C sheets look recs ctx (k.1 * tilew + px) (k.2 * tileh + py) =
        ctx (k.1 * tilew + px) (k.2 * tileh + py)) := by
  refine ⟨?_, fun seen r rest hrecs hlast px hx py hy => drawRecords_tile hu ctx hrecs hlast hx hy,
    fun k hk px hx py hy => drawRecords_other ctx hk hx hy⟩
  rw [drawRecords_eq, foldl_drawRecord]
  refine Raster.paintCells_congr (by decide) (by decide) ctx fun k => ?_
  rw [filter_passes hu, filter_one_pass]

-- The sheets of the page, coloured from images no larger than a zone.
def initSheets (C : Context) (colors : Nat → RGB) (ts tt : Picture) (hw : ts.w ≤ 256)
    (hh : ts.h ≤ 256) : Sheets where
  cd := colorize C colors ts
  ct := colorize C colors tt
  solid bg hbg px hx py hy := by
    have hglyph : colorize C colors ts (glyphX 255 + bg % 4 * 256 + px)
        (glyphY 255 + bg / 4 * 256 + py) = _ :=
      colorize_glyph hw hh (by decide) hbg hx hy
    rw [if_pos rfl] at hglyph
    have hplace : (bgRect bg).x + px = glyphX 255 + bg % 4 * 256 + px ∧
        (bgRect bg).y + py = glyphY 255 + bg / 4 * 256 + py := by
      simp only [bgRect, glyphX, glyphY, zoneW, zoneH, tilew, tileh]
      omega
    rw [hplace.1, hplace.2, hglyph]
    rfl

namespace Sample

def sheets : Sheets :=
  initSheets context palette greySheet greySheet (by decide) (by decide)

-- A tile left to the second loop, and one that is not.
def textAndTile : List TileRec := [⟨0, 0, ⟨65, 64, 1, 0, 0⟩⟩, ⟨1, 0, ⟨66, 2, 3, 0, 0⟩⟩]

end Sample

theorem drawn_as_one_pass_sample :
    drawRecords Sample.context Sample.sheets none Sample.textAndTile (fun _ _ => .clear) =
      Sample.textAndTile.foldl (drawRecord Sample.context Sample.sheets none) fun _ _ => .clear :=
  (drawn_as_one_pass Sample.context Sample.sheets none Sample.textAndTile _
    (unrepeated_of_nodup (by decide))).1

end WebFort
