import WebFort.Server.Turn

namespace WebFort

open Library

-- How DF answers the calls one plugin_onupdate makes into it. A feed is told
-- apart by the number of mouse events still queued when it happens.
structure Df where
  render : Handle → Game → RenderEffect
  feed : Nat → List InterfaceKey → Game → Game
  -- How often wf_build_atlas publishes an atlas.
  atlasBuilds : Nat

namespace State

def withGame (st : State) (f : Game → Game) : State := { st with game := f st.game }

-- A write through the pointer get_active_client returns, unless it is null.
def withActive (st : State) (f : Client → Client) : State :=
  match st.activeConn with
  | none => st
  | some hdl => st.withRegistered hdl f

end State

namespace Game

def window (g : Game) : Camera := ⟨g.windowX, g.windowY, g.windowZ⟩

def setWindow (g : Game) (c : Camera) : Game :=
  { g with windowX := c.x, windowY := c.y, windowZ := c.z }

def setMouse (g : Game) (x y px py : Int) : Game :=
  { g with gps := { g.gps with mouseX := x, mouseY := y, preciseMouseX := px, preciseMouseY := py } }

-- The middle of a tile in pixels.
def stampMouse (g : Game) (x y : Int) : Game :=
  g.setMouse x y (x * g.init.gridX + g.init.gridX.tdiv 2) (y * g.init.gridY + g.init.gridY.tdiv 2)

end Game

-- The deltas queued by CamMove of the active player.
def drainCamera (st : State) : State :=
  let dx := st.activeCamDx
  let dy := st.activeCamDy
  let dz := st.activeCamDz
  let st := { st with activeCamDx := 0, activeCamDy := 0, activeCamDz := 0 }
  if dx ≠ 0 ∨ dy ≠ 0 ∨ dz ≠ 0 then
    let w := st.game.window
    let moved := clampCamera st.game ⟨int32 (w.x + dx), int32 (w.y + dy), int32 (w.z + dz)⟩
    (st.withGame fun g => g.setWindow moved).withActive Client.clearMod
  else st

def syncCamera (st : State) : State :=
  st.withActive fun cl => { cl with cam := st.game.window, hasOwnCam := true }

def flushInputQueue (st : State) : Res :=
  ⟨{ st with inputQueue := [] }, (flushKeys st.inputQueue).map Out.sdl, false⟩

def feedKeys (feed : List InterfaceKey → Game → Game) (keys : List InterfaceKey)
    (st : State) : Res :=
  .emit (st.withGame (feed keys)) (.feed keys)

def pressButton (type : WFMouseType) (button : UInt8) (e : Enabler) : Enabler :=
  if type = WFMouseType.down then
    match button with
    | 1 => { e with mouseLbut := 1, mouseLbutDown := 1 }
    | 2 => { e with mouseRbut := 1, mouseRbutDown := 1 }
    | 3 => { e with mouseMbut := 1, mouseMbutDown := 1 }
    | _ => e
  else
    match button with
    | 1 => { e with mouseLbut := 0, mouseLbutLift := 1 }
    | 2 => { e with mouseRbut := 0, mouseRbutLift := 1 }
    | 3 => { e with mouseMbut := 0, mouseMbutLift := 1 }
    | _ => e

-- All button flags get their old values back, tracking_on does not.
def restoreButtons (prev e : Enabler) : Enabler := { prev with trackingOn := e.trackingOn }

def trackingOn (g : Game) : Game := { g with enabler := { g.enabler with trackingOn := 1 } }

-- The part of wf_apply_mouse behind the tests of enabler and ws.
def feedMouse (feed : List InterfaceKey → Game → Game) (ev : WFMouseEvent) (st : State) : Res :=
  let st := st.withGame trackingOn
  if ev.type = WFMouseType.move then feedKeys feed [] st
  else if ev.type = WFMouseType.wheel then
    (Outcome.emit st (Out.sdl (.wheel (if ev.button = 4 then 1 else -1)))).andThen
      (feedKeys feed [if ev.button = 4 then .standardscrollUp else .standardscrollDown])
  else
    let prev := st.game.enabler
    let st := st.withGame fun g => { g with enabler := pressButton ev.type ev.button g.enabler }
    (feedKeys feed [] st).andThen fun st =>
      .ok (st.withGame fun g => { g with enabler := restoreButtons prev g.enabler })

-- Moves and presses set the position that every later tick stamps again.
def persistTile (ev : WFMouseEvent) (st : State) : State :=
  if ev.type = WFMouseType.move ∨ ev.type = WFMouseType.down then
    { st with mouseTileX := ev.tileX.toNat, mouseTileY := ev.tileY.toNat }
  else st

def stampEvent (ev : WFMouseEvent) (st : State) : State :=
  (persistTile ev st).withGame fun g => g.stampMouse ev.tileX.toNat ev.tileY.toNat

def applyMouse (feed : List InterfaceKey → Game → Game) (ev : WFMouseEvent) (st : State) : Res :=
  let st := stampEvent ev st
  if st.game.topViewscreen = none then .ok st else feedMouse feed ev st

def applyMouseEvents (df : Df) : List WFMouseEvent → State → Res
  | [], st => .ok st
  | ev :: rest, st =>
      (applyMouse (df.feed (rest.length + 1)) ev st).andThen (applyMouseEvents df rest)

def flushMouseQueue (df : Df) (st : State) : Res :=
  applyMouseEvents df st.mouseQueue { st with mouseQueue := [] }

def stampTile (st : State) : State :=
  st.withGame fun g => trackingOn (g.stampMouse st.mouseTileX st.mouseTileY)

def restampMouse (df : Df) (st : State) : Res :=
  if st.mouseTileX ≥ 0 then
    let st := stampTile st
    if st.game.topViewscreen = none then .ok st else feedKeys (df.feed 0) [] st
  else .ok st

-- The loops that clear mod where eight bytes of a tile differ.
def markChanged (mod : Nat → UInt8) (cur prev : Buffer) (total : Nat) : Nat → UInt8 :=
  fun t => if t < total ∧ cur t ≠ prev t then 0 else mod t

def Client.share (sc scPrev : Buffer) (dimsChanged : Bool) (total : Nat) (cl : Client) : Client :=
  if cl.hasOwnCam then cl
  else
    let cl := { cl with ownSc := cl.ownSc.copy sc total }
    if dimsChanged then cl.clearMod
    else { cl with mod := markChanged cl.mod sc scPrev total }

def captureScreenBuffer (st : State) : State :=
  match st.game.gps.screen with
  | none => st
  | some _ =>
      if sizeOk st.game.gps then
        let dimx := st.game.gps.dimx
        let dimy := st.game.gps.dimy
        let dimsChanged : Bool := dimx ≠ st.scPrevDimx || dimy ≠ st.scPrevDimy
        let sc := (fillScreenBuffer st.game st.sc).2
        let total := total st.game.gps
        { st with
          sc := sc
          clients := st.clients.mapVals fun _ cl => cl.share sc st.scPrev dimsChanged total
          scPrev := st.scPrev.copy sc total
          scPrevDimx := dimx
          scPrevDimy := dimy }
      else st

-- The active player's cursor as this spectator would see it, hidden when it
-- is outside.
def translateMouse (mouseTile : Int × Int) (save cam : Camera) (g : Game) : Game :=
  if mouseTile.1 ≥ 0 then
    let x := save.x + mouseTile.1 - cam.x
    let y := save.y + mouseTile.2 - cam.y
    if 0 ≤ x ∧ x < g.gps.dimx ∧ 0 ≤ y ∧ y < g.gps.dimy then g.stampMouse x y
    else g.setMouse (-1) (-1) (-1) (-1)
  else g.setMouse (-1) (-1) (-1) (-1)

def renderTop (render : Game → RenderEffect) (g : Game) : Game :=
  match g.topViewscreen with
  | none => g
  | some _ => { g with gps := g.gps.render (render g) }

-- memcpy of the first total tiles of a saved screen over the current one.
def restoreTiles (total : Nat) (saved cur : Nat → Glyph) : Nat → Glyph :=
  fun t => if t < total then saved t else cur t

-- What is put back after an extra render: the tiles, the overlay if it was in
-- use, and the mouse. screentexpos and screentexpos_lower are not saved.
def restoreGps (total : Nat) (saved cur : Gps) : Gps :=
  { cur with
    screen := cur.screen.map fun now => match saved.screen with
      | some old => restoreTiles total old now
      | none => now
    topInUse := saved.topInUse
    screenTop := cur.screenTop.map fun now => match saved.topInUse, saved.screenTop with
      | true, some old => restoreTiles total old now
      | _, _ => now
    mouseX := saved.mouseX
    mouseY := saved.mouseY
    preciseMouseX := saved.preciseMouseX
    preciseMouseY := saved.preciseMouseY }

-- The game as it stands when the extra render of a client has drawn.
def drawFor (render : Game → RenderEffect) (mouseTile : Int × Int) (save cam : Camera)
    (g : Game) : Game :=
  renderTop render ((translateMouse mouseTile save cam g).setWindow cam)

def extraRender (render : Game → RenderEffect) (mouseTile : Int × Int) (save cam : Camera)
    (ownSc : Buffer) (g : Game) : Buffer × Game :=
  let drawn := drawFor render mouseTile save cam g
  ((fillScreenBuffer drawn ownSc).2,
    { drawn with gps := restoreGps (total g.gps) g.gps drawn.gps })

-- Delta computation against the frame of the last pass.
def Client.diffOwn (total : Nat) (cl : Client) : Client :=
  { cl with
    mod := markChanged cl.mod cl.ownSc cl.ownScPrev total
    ownScPrev := cl.ownScPrev.copy cl.ownSc total }

def renderPass (df : Df) (sc : Buffer) (mouseTile : Int × Int) (save : Camera) (total : Nat)
    (hdl : Handle) (cl : Client) (g : Game) : Client × Game :=
  if !cl.hasOwnCam then (cl, g)
  else if cl.cam = save then
    (Client.diffOwn total { cl with ownSc := cl.ownSc.copy sc total }, g)
  else
    let r := extraRender (df.render hdl) mouseTile save cl.cam cl.ownSc g
    (Client.diffOwn total { cl with ownSc := r.1 }, r.2)

def renderClients (df : Df) (st : State) : State :=
  let save := st.game.window
  if st.game.gps.dimx * st.game.gps.dimy > 0 then
    let r := st.clients.accum
      (renderPass df st.sc (st.mouseTileX, st.mouseTileY) save (total st.game.gps)) st.game
    { st with clients := r.1, game := r.2.setWindow save }
  else st

def updateGraphics (df : Df) (st : State) : State :=
  { st with
    graphicsMode := st.game.init.useGraphics
    atlasVersion := (st.atlasVersion + df.atlasBuilds) % 16 }

-- The input part of plugin_onupdate, up to the capture.
def applyInput (df : Df) (st : State) : Res :=
  (flushInputQueue (syncCamera (drainCamera st))).andThen fun st =>
    (flushMouseQueue df st).andThen fun st => restampMouse df st

def pluginOnupdate (df : Df) (st : State) : Res :=
  (applyInput df st).andThen fun st =>
    .ok (updateGraphics df (renderClients df (captureScreenBuffer st)))

end WebFort
