import WebFort.Library.Words

namespace WebFort

-- What DF and DFHack own and the plugin reads or writes. Pointers declared
-- with REQUIRE_GLOBAL are never null; those the source tests are options.

structure RGB where
  r : UInt8
  g : UInt8
  b : UInt8
  deriving DecidableEq

-- One tile of gps->screen or gps->screen_top: [0] character, [1..3]
-- foreground, [4..6] background.
structure Glyph where
  ch : UInt8
  fg : RGB
  bg : RGB
  deriving DecidableEq

structure Gps where
  dimx : Int
  dimy : Int
  screen : Option (Nat → Glyph)
  screenTop : Option (Nat → Glyph)
  topInUse : Bool
  screentexpos : Option (Nat → Int)
  screentexposLower : Option (Nat → Int)
  uccolor : Nat → RGB
  mouseX : Int
  mouseY : Int
  preciseMouseX : Int
  preciseMouseY : Int

-- The contents a call of vs->render(0) leaves in the screen buffers and the
-- mouse fields.
structure RenderEffect where
  screen : Nat → Glyph
  screenTop : Nat → Glyph
  topInUse : Bool
  screentexpos : Nat → Int
  screentexposLower : Nat → Int
  mouseX : Int
  mouseY : Int
  preciseMouseX : Int
  preciseMouseY : Int

-- A render writes into the buffers that exist and keeps the screen size.
def Gps.render (g : Gps) (e : RenderEffect) : Gps :=
  { g with
    screen := g.screen.map fun _ => e.screen
    screenTop := g.screenTop.map fun _ => e.screenTop
    topInUse := e.topInUse
    screentexpos := g.screentexpos.map fun _ => e.screentexpos
    screentexposLower := g.screentexposLower.map fun _ => e.screentexposLower
    mouseX := e.mouseX
    mouseY := e.mouseY
    preciseMouseX := e.preciseMouseX
    preciseMouseY := e.preciseMouseY }

inductive Viewscreen
  | dwarfmode
  | dungeonmode
  | setupadventure
  | chooseStartSite
  | newRegion
  | other
  deriving DecidableEq

-- plotinfo->main.mode
inductive SidebarMode
  | default
  | burrows
  | other
  deriving DecidableEq

structure Init where
  largeFontTexpos : Nat → Int
  gridX : Int
  gridY : Int
  useGraphics : Bool

structure Enabler where
  trackingOn : Int
  mouseLbut : Int
  mouseLbutDown : Int
  mouseLbutLift : Int
  mouseRbut : Int
  mouseRbutDown : Int
  mouseRbutLift : Int
  mouseMbut : Int
  mouseMbutDown : Int
  mouseMbutLift : Int
  deriving DecidableEq

structure Game where
  gps : Gps
  windowX : Int
  windowY : Int
  windowZ : Int
  init : Init
  enabler : Enabler
  -- Gui::getCurViewscreen()
  viewscreen : Viewscreen
  -- Gui::getCurViewscreen(true)
  topViewscreen : Option Viewscreen
  -- Gui::getCurFocus(true), whether "dwarfmode/Default" is among the strings
  focusDefault : Bool
  mode : SidebarMode
  inDefineMode : Bool
  cursorX : Option Int
  menuWidth : UInt8 × UInt8
  pauseState : Bool
  -- Maps::getSize in blocks, none when Maps::IsValid is false
  map : Option (Nat × Nat × Nat)
  -- time(NULL)
  time : Int
  -- World::ReadCurrentTick()
  currentTick : Nat

def isSafeToEscape (g : Game) : Bool :=
  !(g.viewscreen = .dwarfmode && g.mode = .default)

-- The tile coordinates a camera may not pass: no map, no upper bound.
-- Sizes are uint32_t and the blocks are 16 tiles wide.
def mapTiles (blocks : Nat) : Int := Library.int32 (blocks * 16 % 2 ^ 32 : Nat)

structure Camera where
  x : Int
  y : Int
  z : Int
  deriving DecidableEq

-- The bounds the CamMove handler and plugin_onupdate put on a moved camera.
def clampCamera (g : Game) (c : Camera) : Camera :=
  let x := if c.x < -30 then -30 else c.x
  let y := if c.y < -30 then -30 else c.y
  let z := if c.z < 0 then 0 else c.z
  match g.map with
  | none => ⟨x, y, z⟩
  | some (sx, sy, sz) =>
      let maxX := mapTiles sx - g.gps.dimx + 30
      let maxY := mapTiles sy - g.gps.dimy + 30
      let sz' := Library.int32 sz
      ⟨if x > maxX then maxX else x, if y > maxY then maxY else y,
        if sz > 0 ∧ z ≥ sz' then sz' - 1 else z⟩

end WebFort
