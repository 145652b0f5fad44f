import WebFort.System

namespace WebFort.Sample

open Library

-- A fortress at rest on a screen of 2 by 2 tiles that all show one character,
-- for running the model on fixed inputs.
def gps (ch : UInt8) : Gps where
  dimx := 2
  dimy := 2
  screen := some fun _ => ⟨ch, ⟨255, 255, 255⟩, ⟨0, 0, 0⟩⟩
  screenTop := none
  topInUse := false
  screentexpos := none
  screentexposLower := none
  uccolor i := ⟨UInt8.ofNat (17 * i), UInt8.ofNat (17 * i), UInt8.ofNat (17 * i)⟩
  mouseX := -1
  mouseY := -1
  preciseMouseX := -1
  preciseMouseY := -1

def game (ch : UInt8) : Game where
  gps := gps ch
  windowX := 0
  windowY := 0
  windowZ := 0
  init := { largeFontTexpos := fun _ => 0, gridX := 16, gridY := 16, useGraphics := false }
  enabler := ⟨0, 0, 0, 0, 0, 0, 0, 0, 0, 0⟩
  viewscreen := .dwarfmode
  topViewscreen := some .dwarfmode
  focusDefault := true
  mode := .default
  inDefineMode := false
  cursorX := none
  menuWidth := (1, 2)
  pauseState := true
  map := none
  time := 0
  currentTick := 0

-- The same with a menu open, and with time passing.
def menu : Game := { game 64 with mode := .other }

def running : Game := { game 64 with pauseState := false }

-- A render that draws nothing new, and screens that ignore their input.
def df : Df where
  render _ g :=
    { screen := fun t => (g.gps.screen.map fun f => f t).getD ⟨0, ⟨0, 0, 0⟩, ⟨0, 0, 0⟩⟩
      screenTop := fun t => (g.gps.screenTop.map fun f => f t).getD ⟨0, ⟨0, 0, 0⟩, ⟨0, 0, 0⟩⟩
      topInUse := g.gps.topInUse
      screentexpos := fun t => texposAt g.gps.screentexpos t
      screentexposLower := fun t => texposAt g.gps.screentexposLower t
      mouseX := g.gps.mouseX
      mouseY := g.gps.mouseY
      preciseMouseX := g.gps.preciseMouseX
      preciseMouseY := g.gps.preciseMouseY }
  feed _ _ g := g
  atlasBuilds := 0

-- A browser of the given protocol that asked for /nick/secret.
def conn (processor : Processor) (resource : String) (h : ascii resource ≠ []) : Conn where
  processor := processor
  resource := ascii resource
  resource_ne := h
  requestedSubprotocols := [wfVersion, wfInvalid]
  remoteEndpoint := ascii "127.0.0.1:50000"

def endpoint : Endpoint := fun _ => conn .hybi13 "/urist/wrong" (by decide)

def config : Config := { Config.default with secret := ascii "right" }

def start : State := State.init config (game 64)

-- Connection 0 has the turn.
def playing : State := { start with activeConn := some 0 }

-- One client has connected and one update has passed.
def watched : State := (plugin endpoint).exec start [.opened 0, .update (game 64) df]

end WebFort.Sample
