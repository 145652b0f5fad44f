import WebFort.Game
import WebFort.Library.Grid

namespace WebFort

open Library

-- The eight bytes a tile has in sc, sc_prev and the buffers of the clients.
structure Cell where
  -- [0] character
  ch : UInt8
  -- [1] low three bits of the foreground index
  fg : UInt8
  -- [2] background index in bits 0-2, bit 6 for a text tile
  bg : UInt8
  -- [3] bit 3 of the foreground index
  bold : UInt8
  -- [4..5] screentexpos, [6..7] screentexpos_lower
  tpLo : UInt8
  tpHi : UInt8
  tplLo : UInt8
  tplHi : UInt8
  deriving DecidableEq

def Cell.zero : Cell := ⟨0, 0, 0, 0, 0, 0, 0, 0⟩

abbrev Buffer := Nat → Cell

-- memcpy of the first `total` tiles
def Buffer.copy (dst src : Buffer) (total : Nat) : Buffer :=
  fun t => if t < total then src t else dst t

-- The second component is the is_map output.
def isTextTile (g : Game) (x y : Int) : Bool × Bool :=
  let w := g.gps.dimx
  let h := g.gps.dimy
  if x = 0 ∨ y = 0 ∨ x = w - 1 ∨ y = h - 1 then (true, false)
  else
    match g.viewscreen with
    | .dwarfmode =>
        let menuWidth := g.menuWidth.1
        let areaMapWidth := g.menuWidth.2
        let menuforced : Bool :=
          g.mode ≠ .default || (match g.cursorX with | none => false | some cx => cx ≠ -30000)
        let menu : Int × Int :=
          if (menuforced || menuWidth = 1) && areaMapWidth = 2 then (w - 56, w - 25)
          else if menuWidth = 2 && areaMapWidth = 2 then (w - 25, w - 25)
          else if menuWidth = 1 then (w - 56, w - 1)
          else if menuforced || (menuWidth = 2 && areaMapWidth = 3) then (w - 32, w - 1)
          else (w - 1, w - 1)
        let onMap : Bool := 0 < x && x < menu.1
        if menu.1 ≤ x && x ≤ menu.2 then
          if menuforced && g.mode = .burrows && g.inDefineMode then
            if (y ≠ 12 && y ≠ 13 && !(x = menu.1 + 2 && y = 2)) || x = menu.1 || x = menu.2 then
              (true, false)
            else (false, onMap)
          else (true, false)
        else (false, onMap)
    | .dungeonmode => (h - 2 ≤ y, false)
    | .setupadventure => (true, false)
    | .chooseStartSite => (y ≤ 1 || h - 6 ≤ y || x = 0 || 57 ≤ x, false)
    | .newRegion => (y ≤ 1 || h - 2 ≤ y || x ≤ 37 || x = w - 1, false)
    | .other => (true, false)

def colorDistance (p c : RGB) : Int :=
  let dr : Int := p.r.toNat - c.r.toNat
  let dg : Int := p.g.toNat - c.g.toNat
  let db : Int := p.b.toNat - c.b.toNat
  dr * dr + dg * dg + db * db

def matchColor (gps : Gps) (c : RGB) : Nat :=
  ((List.range 16).foldl (fun best i =>
    let d := colorDistance (gps.uccolor i) c
    if d < best.2 then (i, d) else best) (0, 2 ^ 31 - 1)).1

-- emplace keeps the first character stored for a texpos.
def texposToChar (init : Init) (tp : Int) : Option UInt8 :=
  ((List.range 256).find? fun ch =>
    1 ≤ ch && 0 < init.largeFontTexpos ch && init.largeFontTexpos ch = tp).map UInt8.ofNat

-- Path 3: the overlay wins where it has a visible character.
def composited (gps : Gps) (screen : Nat → Glyph) (tile : Nat) : Glyph :=
  match gps.topInUse, gps.screenTop with
  | true, some top => if 32 < (top tile).ch then top tile else screen tile
  | _, _ => screen tile

-- Path 2: a blank character is looked up by its texpos in the font.
def charCode (g : Game) (ch : UInt8) (tile : Nat) : UInt8 :=
  match g.gps.screentexpos with
  | some texpos =>
      if ch ≤ 32 ∧ 0 < texpos tile then (texposToChar g.init (texpos tile)).getD ch else ch
  | none => ch

-- A texpos as the two bytes of a tile can hold it.
def storedTexpos (raw : Int) : Nat := if 0 < raw ∧ raw < 65536 then raw.toNat else 0

def texposAt (texpos : Option (Nat → Int)) (tile : Nat) : Int :=
  match texpos with
  | some t => t tile
  | none => 0

def tileCell (g : Game) (screen : Nat → Glyph) (x y tile : Nat) : Cell :=
  let glyph := composited g.gps screen tile
  let fgIdx := matchColor g.gps glyph.fg
  let bgIdx := matchColor g.gps glyph.bg
  let tp := storedTexpos (texposAt g.gps.screentexpos tile)
  let tpl := storedTexpos (texposAt g.gps.screentexposLower tile)
  { ch := charCode g glyph.ch tile
    fg := UInt8.ofNat (fgIdx % 8)
    bg := UInt8.ofNat (if (isTextTile g x y).1 then bgIdx % 8 ||| 64 else bgIdx % 8)
    bold := if fgIdx / 8 % 2 = 1 then 1 else 0
    tpLo := UInt8.ofNat (tp % 256)
    tpHi := UInt8.ofNat (tp / 256)
    tplLo := UInt8.ofNat (tpl % 256)
    tplHi := UInt8.ofNat (tpl / 256) }

-- The guard shared by fill_screen_buffer and capture_screen_buffer, apart
-- from the test of gps->screen.
def sizeOk (gps : Gps) : Bool :=
  0 < gps.dimx && 0 < gps.dimy && gps.dimx ≤ 256 && gps.dimy ≤ 256

-- const int total = dimx * dimy
def total (gps : Gps) : Nat := (gps.dimx * gps.dimy).toNat

-- False with dst unchanged when gps is not ready.
def fillScreenBuffer (g : Game) (dst : Buffer) : Bool × Buffer :=
  match g.gps.screen with
  | none => (false, dst)
  | some screen =>
      if sizeOk g.gps then
        let w := g.gps.dimx.toNat
        let h := g.gps.dimy.toNat
        (true, (Grid.columns w h).foldl (fun dst p =>
          let tile := Grid.index h p.1 p.2
          Function.update dst tile (tileCell g screen p.1 p.2 tile)) dst)
      else (false, dst)

end WebFort
