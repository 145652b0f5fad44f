import WebFort.Server.Tock

namespace WebFort

open Library

-- The outer loop of split at the byte str points at; cur is the piece
-- between begin and str.
def splitLoop (c : UInt8) : Bytes → Bytes → List Bytes → List Bytes
  | [], cur, result => result ++ [cur]
  | b :: str, cur, result =>
      if b = 0 then result ++ [cur]
      else if b = c then splitLoop c str [] (result ++ [cur])
      else splitLoop c str (cur ++ [b]) result

def split (str : Bytes) (c : UInt8) : List Bytes := splitLoop c str [] []

-- Sizes are uint32_t while they are scaled and uint16_t on the wire.
def mapInfoPacket (blocks : Nat × Nat × Nat) : Bytes :=
  let wx : Nat := min (blocks.1 * 16 % 2 ^ 32) 65535
  let wy : Nat := min (blocks.2.1 * 16 % 2 ^ 32) 65535
  let wz : Nat := min blocks.2.2 65535
  118 :: le16 wx ++ le16 wy ++ le16 wz

def sendMapInfo (s : Endpoint) (hdl : Handle) (st : State) : Res :=
  match st.game.map with
  | none => .ok st
  | some blocks => send s hdl (mapInfoPacket blocks) st

def path (s : Endpoint) (hdl : Handle) : List Bytes := split ((s hdl).resource.drop 1) 47

-- path[0]
def pathNick (s : Endpoint) (hdl : Handle) : Bytes := (path s hdl).headD []

-- path.size() > 1 ? path[1] : ""
def pathSecret (s : Endpoint) (hdl : Handle) : Bytes := (path s hdl).getD 1 []

-- The Client on_open builds.
def openClient (s : Endpoint) (hdl : Handle) (st : State) : Client :=
  { Client.new st.nextId with
    isAdmin := pathSecret s hdl = st.config.secret
    addr := (s hdl).remoteEndpoint
    nick := pathNick s hdl
    atime := roundTimer st
    cam := ⟨st.game.windowX, st.game.windowY, st.game.windowZ⟩ }

def register (s : Endpoint) (hdl : Handle) (st : State) : State :=
  { st with
    clients := st.clients.insert hdl (openClient s hdl st)
    nextId := st.nextId + 1 }

def onOpen (s : Endpoint) (hdl : Handle) (st : State) : Res :=
  if validateOpen s hdl = wfInvalid then
    .emit st (.close hdl 4000 "Invalid version, expected 'WebFortress-v2.0'.")
  else if st.config.maxClients ≤ st.clients.size then
    .emit st (.close hdl 4001 "Server is full.")
  else if pathNick s hdl = nobody then
    .emit st (.close hdl 4002 "Invalid nickname.")
  else sendMapInfo s hdl (register s hdl st)

-- delete cl, where cl is registered.
def deleteClient (cl : Client) (st : State) : State := { st with freed := cl.id :: st.freed }

def eraseClient (c : Handle) (st : State) : State := { st with clients := st.clients.erase c }

def onClose (c : Handle) (st : State) : Res :=
  match st.clients.find? c with
  | none => .ok (eraseClient c st)
  | some cl =>
      (if st.activeConn = some c then setActive none st else .ok st).andThen fun st =>
        .ok (eraseClient c (deleteClient cl st))

-- The simkey calls of a KeyEvent for a key that passed the checks.
def keyEventKeys (k : Key) (code jsmods : UInt8) : List WFKeyEvent :=
  let alt := jsmods &&& 1 ≠ 0
  let shift := jsmods &&& 2 ≠ 0
  let ctrl := jsmods &&& 4 ≠ 0
  let sdlmods := (if alt then kmodAlt else 0) ||| (if shift then kmodShift else 0) |||
    (if ctrl then kmodCtrl else 0)
  (if alt then simkey 1 0 Key.lalt 0 else []) ++
  (if shift then simkey 1 0 Key.lshift 0 else []) ++
  (if ctrl then simkey 1 0 Key.lctrl 0 else []) ++
  simkey 1 sdlmods k code.toNat ++
  simkey 0 sdlmods k code.toNat ++
  (if alt then simkey 0 0 Key.lalt 0 else []) ++
  (if shift then simkey 0 0 Key.lshift 0 else []) ++
  (if ctrl then simkey 0 0 Key.lctrl 0 else [])

-- The character code if there is one, else the browser's key code mapped.
def eventKey (jsKey charCode : UInt8) : Key :=
  if charCode ≠ 0 then charCode.toNat else mapInputCodeToSDL jsKey.toNat

def isSafeKey (st : State) (hdl : Handle) (k : Key) : Bool :=
  (st.getClient hdl).isAdmin || k ≠ Key.escape || isSafeToEscape st.game

def keyEvent (hdl : Handle) (jsKey charCode jsmods : UInt8) (st : State) : State :=
  if st.activeConn ≠ some hdl then st
  else
    let k := eventKey jsKey charCode
    if k ≠ Key.unknown ∧ isSafeKey st hdl k then st.pushKeys (keyEventKeys k charCode jsmods)
    else st

def mouseEvent (hdl : Handle) (ev : WFMouseEvent) (st : State) : State :=
  if st.activeConn ≠ some hdl then st else st.simmouse ev

def cursorMove (hdl : Handle) (tileX tileY : UInt8) (st : State) : State :=
  if st.activeConn = some hdl then st
  else st.withRegistered hdl fun cl =>
    { cl with
      cursorX := int32 ((viewport st cl).x + tileX.toNat)
      cursorY := int32 ((viewport st cl).y + tileY.toNat)
      cursorActive := true }

def refreshScreen (hdl : Handle) (st : State) : State := st.withClient hdl Client.clearMod

-- A spectator's first move snaps to the game's camera.
def moveCamera (g : Game) (dx dy dz : Int) (cl : Client) : Client :=
  let base : Camera := if cl.hasOwnCam then cl.cam else ⟨g.windowX, g.windowY, g.windowZ⟩
  { cl.clearMod with
    cam := clampCamera g ⟨int32 (base.x + dx), int32 (base.y + dy), int32 (base.z + dz)⟩
    hasOwnCam := true }

def camMove (hdl : Handle) (dx dy dz : UInt8) (st : State) : State :=
  if st.registered hdl then
    if st.activeConn = some hdl then
      { st with
        activeCamDx := int32 (st.activeCamDx + int8 dx)
        activeCamDy := int32 (st.activeCamDy + int8 dy)
        activeCamDz := int32 (st.activeCamDz + int8 dz) }
    else st.withRegistered hdl (moveCamera st.game (int8 dx) (int8 dy) (int8 dz))
  else st

def requestTurn (hdl : Handle) (st : State) : Res :=
  if st.activeConn = some hdl then setActive none st
  else if st.activeConn = none then setActive (some hdl) st
  else .ok st

-- The dispatch on the first byte and the size; mdata[0] of an empty payload
-- is the terminating NUL.
inductive Message
  | keyEvent (jsKey charCode jsmods : UInt8)
  | mouseEvent (ev : WFMouseEvent)
  | cursorMove (tileX tileY : UInt8)
  | refreshScreen
  | camMove (dx dy dz : UInt8)
  | requestTurn
  | update
  deriving DecidableEq

def parseMessage (payload : Bytes) : Message :=
  match payload with
  | [111, jsKey, charCode, jsmods] => .keyEvent jsKey charCode jsmods
  | [113, x, y, button, type] => .mouseEvent ⟨x, y, button, type⟩
  | [114, x, y] => .cursorMove x y
  | 115 :: _ => .refreshScreen
  | [117, dx, dy, dz] => .camMove dx dy dz
  | 116 :: _ => .requestTurn
  | _ => .update

def onMessage (s : Endpoint) (hdl : Handle) (payload : Bytes) (st : State) : Res :=
  match parseMessage payload with
  | .keyEvent jsKey charCode jsmods => .ok (keyEvent hdl jsKey charCode jsmods st)
  | .mouseEvent ev => .ok (mouseEvent hdl ev st)
  | .cursorMove x y => .ok (cursorMove hdl x y st)
  | .refreshScreen => .ok (refreshScreen hdl st)
  | .camMove dx dy dz => .ok (camMove hdl dx dy dz st)
  | .requestTurn => requestTurn hdl st
  | .update => tock s hdl st

end WebFort
