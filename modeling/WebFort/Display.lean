import WebFort.Draw
import WebFort.Coherence

namespace WebFort

open Library

-- The canvas of the page in pixels, against what the packets told of each
-- tile.

-- data[2] & 8
def graphicsBit (data : Bytes) : Bool := (data.getD 2 0).toNat &&& 8 ≠ 0

-- Tiles cut short by the end of the packet are not drawn.
def packetTiles (data : Bytes) : List TileRec := (tileRecords data).filterMap id

-- The canvas and what onMessage reads of the atlas.
structure Display where
  width : Nat
  height : Nat
  pixel : Raster RGBA
  atlas : Option Sprites

def Display.resize (d : Display) (newDimx newDimy : UInt8) : Display :=
  let neww := newDimx.toNat * tilew
  let newh := newDimy.toNat * tileh
  if 0 < neww ∧ 0 < newh ∧ (d.width ≠ neww ∨ d.height ≠ newh) then
    { d with width := neww, height := newh, pixel := fun _ _ => .clear }
  else d

-- A nick that cannot be decoded leaves onMessage before the drawing.
def Display.receive (C : Context) (sheets : Sheets) (d : Display) (data : Bytes) : Display :=
  if data.head? = some 110 then
    let d := { d with atlas := lookOf (graphicsBit data) d.atlas }
    let d := d.resize (data.getD 8 0) (data.getD 9 0)
    if (Percent.decode (activeNick data)).isSome then
      { d with pixel := drawRecords C sheets d.atlas (packetTiles data) d.pixel }
    else d
  else d

-- What the page gets: packets, and atlases that have been loaded.
inductive PageInput
  | packet (data : Bytes)
  | atlas (a : Sprites)

def Display.next (C : Context) (sheets : Sheets) (d : Display) : PageInput → Display
  | .packet data => d.receive C sheets data
  | .atlas a => { d with atlas := some a }

-- The same in tiles: what the last record for a tile said, and what the page
-- had loaded when it drew it.
structure Scene where
  width : Nat
  height : Nat
  tile : Nat × Nat → Option (WireCell × Option Sprites)
  atlas : Option Sprites

def Scene.resize (v : Scene) (newDimx newDimy : UInt8) : Scene :=
  let neww := newDimx.toNat * tilew
  let newh := newDimy.toNat * tileh
  if 0 < neww ∧ 0 < newh ∧ (v.width ≠ neww ∨ v.height ≠ newh) then
    { v with width := neww, height := newh, tile := fun _ => none }
  else v

def Scene.draw (v : Scene) (recs : List TileRec) : Scene :=
  { v with
    tile := recs.foldl (fun tile r => Function.update tile r.tile (some (r.cell, v.atlas))) v.tile }

def Scene.receive (v : Scene) (data : Bytes) : Scene :=
  if data.head? = some 110 then
    let v := { v with atlas := lookOf (graphicsBit data) v.atlas }
    let v := v.resize (data.getD 8 0) (data.getD 9 0)
    if (Percent.decode (activeNick data)).isSome then v.draw (packetTiles data) else v
  else v

def Scene.next (v : Scene) : PageInput → Scene
  | .packet data => v.receive data
  | .atlas a => { v with atlas := some a }

def canvas (C : Context) (sheets : Sheets) : Machine Display PageInput :=
  ⟨fun _ _ => True, Display.next C sheets⟩

def scenery : Machine Scene PageInput := ⟨fun _ _ => True, Scene.next⟩

-- The pixels of the tiles are those of the scene.
structure Display.Shows (C : Context) (sheets : Sheets) (d : Display) (v : Scene) : Prop where
  width : d.width = v.width
  height : d.height = v.height
  atlas : d.atlas = v.atlas
  tile : ∀ k c look, v.tile k = some (c, look) → ∀ px < tilew, ∀ py < tileh,
    d.pixel (k.1 * tilew + px) (k.2 * tileh + py) = tilePicture C sheets look c px py

-- The packet repeats no tile that the second loop draws.
def Scene.Orderly (v : Scene) : PageInput → Prop
  | .packet data => Unrepeated (lookOf (graphicsBit data) v.atlas) (packetTiles data)
  | .atlas _ => True

section Refinement

variable {C : Context} {sheets : Sheets} {d : Display} {v : Scene}

theorem Display.Shows.resize (h : d.Shows C sheets v) (newDimx newDimy : UInt8) :
    (d.resize newDimx newDimy).Shows C sheets (v.resize newDimx newDimy) := by
  unfold Display.resize Scene.resize
  simp only [h.width, h.height]
  split
  · exact ⟨rfl, rfl, h.atlas, fun k c look hk => (Option.some_ne_none _ hk.symm).elim⟩
  · exact h

theorem Display.Shows.draw (h : d.Shows C sheets v) {recs : List TileRec}
    (hu : Unrepeated v.atlas recs) :
    Display.Shows C sheets { d with pixel := drawRecords C sheets d.atlas recs d.pixel }
      (v.draw recs) where
  width := h.width
  height := h.height
  atlas := h.atlas
  tile := by
    intro k c look hk px hx py hy
    simp only [h.atlas]
    rcases Grid.foldl_update_last TileRec.tile (fun r => some (r.cell, v.atlas)) recs v.tile k with
      ⟨hno, hsame⟩ | ⟨seen, r, rest, hrecs, rfl, hlast, hval⟩
    · rw [drawRecords_other d.pixel hno hx hy]
      exact h.tile k c look (hsame.symm.trans hk) px hx py hy
    · obtain ⟨rfl, rfl⟩ := Prod.mk.inj (Option.some.inj (hval.symm.trans hk))
      exact drawRecords_tile hu d.pixel hrecs hlast hx hy

theorem Display.Shows.next (h : d.Shows C sheets v) {i : PageInput} (ho : v.Orderly i) :
    (d.next C sheets i).Shows C sheets (v.next i) := by
  cases i with
  | atlas a => exact ⟨h.width, h.height, rfl, h.tile⟩
  | packet data =>
      have hload : Display.Shows C sheets { d with atlas := lookOf (graphicsBit data) d.atlas }
          { v with atlas := lookOf (graphicsBit data) v.atlas } :=
        ⟨h.width, h.height, congrArg (lookOf _) h.atlas, h.tile⟩
      have hsized := hload.resize (data.getD 8 0) (data.getD 9 0)
      simp only [Display.next, Scene.next, Display.receive, Scene.receive]
      split
      · split
        · refine hsized.draw ?_
          have hkept : (Scene.resize { v with atlas := lookOf (graphicsBit data) v.atlas }
              (data.getD 8 0) (data.getD 9 0)).atlas = lookOf (graphicsBit data) v.atlas := by
            unfold Scene.resize
            simp only
            split <;> rfl
          rw [hkept]
          exact ho
        · exact hsized
      · exact h

end Refinement

-- Whatever packets and atlases come in, the canvas shows for each tile the
-- last record since its size was set, drawn with what was loaded then.
theorem canvas_shows_scene (C : Context) (sheets : Sheets) (d : Display) (v : Scene)
    (is : List PageInput) (h : d.Shows C sheets v) (ho : scenery.Each Scene.Orderly v is) :
    ((canvas C sheets).exec d is).Shows C sheets (scenery.exec v is) := by
  induction is generalizing d v with
  | nil => exact h
  | cons i is ih => exact ih _ _ (h.next ho.1) ho.2

namespace Sample

-- The canvas of webfort.html.
def firstCanvas : Display := ⟨1280, 800, fun _ _ => .clear, none⟩

-- An update packet of 2 by 1 tiles in graphics mode, for an empty nick.
def twoTiles : Bytes :=
  [110, 1, 8, 0, 0, 0, 0, 0, 2, 1, 0, 0, 0, 0, 0, 0, 1, 0] ++
    [0, 0, 65, 64, 1, 5, 0, 0, 0] ++ [1, 0, 66, 2, 3, 0, 0, 0, 0]

def noSprites : Sprites := ⟨fun _ _ => .clear, fun _ => none, 16, 16⟩

end Sample

theorem canvas_shows_scene_sample :
    ((canvas Sample.context Sample.sheets).exec Sample.firstCanvas
      [.packet Sample.twoTiles, .atlas Sample.noSprites, .packet Sample.twoTiles]).Shows
        Sample.context Sample.sheets (scenery.exec ⟨1280, 800, fun _ => none, none⟩
          [.packet Sample.twoTiles, .atlas Sample.noSprites, .packet Sample.twoTiles]) := by
  have hnodup : ((packetTiles Sample.twoTiles).map TileRec.tile).Nodup := by decide
  exact canvas_shows_scene Sample.context Sample.sheets Sample.firstCanvas _ _
    ⟨rfl, rfl, rfl, fun k c look hk => (Option.some_ne_none _ hk.symm).elim⟩
    ⟨unrepeated_of_nodup hnodup, trivial, unrepeated_of_nodup hnodup, trivial⟩

end WebFort
