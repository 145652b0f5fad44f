import WebFort.Server.Turn

namespace WebFort

open Library

-- endpoint::send throws when the processor rejects the frame.
def send (s : Endpoint) (hdl : Handle) (data : Bytes) (st : State) : Res :=
  match prepareDataFrame (s hdl).processor .binary true with
  | none => .emit st (.send hdl data)
  | some _ => .fail st

-- Not the dwarf-mode screen, or that screen with something open on it.
def isMenu (g : Game) : Bool :=
  match g.topViewscreen with
  | some .dwarfmode => !g.focusDefault
  | _ => true

def clamp16 (v : Int) : Int := if v < -32768 then -32768 else if v > 32767 then 32767 else v

-- The viewport a client looks through.
def viewport (st : State) (cl : Client) : Camera :=
  if cl.hasOwnCam then cl.cam else ⟨st.game.windowX, st.game.windowY, st.game.windowZ⟩

def tockBits (hdl : Handle) (st : State) : Nat :=
  (if st.activeConn = some hdl then 1 else 0) ||| (if st.activeConn = none then 2 else 0) |||
    (if st.config.ingameTime then 4 else 0) ||| (if st.graphicsMode then 8 else 0) |||
    (st.atlasVersion % 16) * 16

-- [0..15]
def tockHeader (hdl : Handle) (st : State) (cl : Client) (timeLeft : Int) : Bytes :=
  let cam := viewport st cl
  [110, UInt8.ofNat st.clients.size, UInt8.ofNat (tockBits hdl st), if isMenu st.game then 1 else 0]
    ++ le32 timeLeft ++ [leByte st.game.gps.dimx 0, leByte st.game.gps.dimy 0]
    ++ le16 (clamp16 cam.x) ++ le16 (clamp16 cam.y) ++ le16 (clamp16 cam.z)

-- uint8_t nick_len = nick.length() + 1
def nickLen (nick : Bytes) : UInt8 := UInt8.ofNat (nick.length + 1)

-- The memcpy of nick_len bytes of the C string.
def nickField (nick : Bytes) : Bytes := (nick ++ [0]).take (nickLen nick).toNat

-- The 16 colours are split over two bytes of the cell and packed again.
def fgByte (s : Cell) : UInt8 := UInt8.ofNat ((s.fg.toNat + if s.bold ≠ 0 then 8 else 0) % 16)

def tileRecord (x y : Nat) (s : Cell) : Bytes :=
  [UInt8.ofNat x, UInt8.ofNat y, s.ch, s.bg, fgByte s, s.tpLo, s.tpHi, s.tplLo, s.tplHi]

def bufSize : Nat := 1024 * 1024

-- The bytes written to buf so far and cl->mod.
structure TileLoop where
  bytes : Bytes
  mod : Nat → UInt8

-- The inner loop: a clean tile is skipped, a full packet ends the row.
def tockRow (src : Buffer) (dimy y : Nat) : List Nat → TileLoop → TileLoop
  | [], acc => acc
  | x :: xs, acc =>
      let tile := Grid.index dimy x y
      if acc.mod tile ≠ 0 then tockRow src dimy y xs acc
      else if acc.bytes.length + 9 > bufSize then acc
      else tockRow src dimy y xs
        ⟨acc.bytes ++ tileRecord x y (src tile), Function.update acc.mod tile 1⟩

def tockTiles (src : Buffer) (dimx dimy : Nat) (acc : TileLoop) : TileLoop :=
  (List.range dimy).foldl (fun acc y => tockRow src dimy y (List.range dimx) acc) acc

-- The header and the nick, before any tile.
def tockStart (hdl : Handle) (st : State) (cl activeCl : Client) (timeLeft : Int) : TileLoop :=
  ⟨tockHeader hdl st cl timeLeft ++ [nickLen activeCl.nick] ++ nickField activeCl.nick, cl.mod⟩

def tockPacket (hdl : Handle) (st : State) (cl activeCl : Client) (timeLeft : Int) : TileLoop :=
  tockTiles cl.ownSc st.game.gps.dimx.toNat st.game.gps.dimy.toNat
    (tockStart hdl st cl activeCl timeLeft)

structure CursorLoop where
  bytes : Bytes
  count : UInt8
  colorIdx : UInt8

-- Where the loop sees the cursor of a client, none when it is not active.
def worldCursor (st : State) (hdl : Handle) (c : Client) : Option (Int × Int) :=
  if st.activeConn = some hdl then
    if st.game.gps.mouseX ≥ 0 then
      some (st.game.windowX + st.game.gps.mouseX, st.game.windowY + st.game.gps.mouseY)
    else none
  else if c.cursorActive then some (c.cursorX, c.cursorY) else none

-- The same in tiles of the receiver's screen, none when outside it.
def visibleCursor (st : State) (cl : Client) (hdl : Handle) (c : Client) : Option (Int × Int) :=
  (worldCursor st hdl c).bind fun w =>
    let cx := w.1 - (viewport st cl).x
    let cy := w.2 - (viewport st cl).y
    if cx < 0 ∨ cy < 0 ∨ cx ≥ st.game.gps.dimx ∨ cy ≥ st.game.gps.dimy then none
    else some (cx, cy)

def cursorLoop (st : State) (hdl : Handle) (cl : Client) :
    List (Handle × Client) → CursorLoop → CursorLoop
  | [], acc => acc
  | (h, c) :: rest, acc =>
      let skipped := { acc with colorIdx := acc.colorIdx + 1 }
      if h = hdl then cursorLoop st hdl cl rest skipped
      else
        match visibleCursor st cl h c with
        | none => cursorLoop st hdl cl rest skipped
        | some (cx, cy) =>
            if 2 + acc.bytes.length + (nickLen c.nick).toNat + 4 > 4096 then acc
            else cursorLoop st hdl cl rest
              { bytes := acc.bytes ++ [nickLen c.nick] ++ nickField c.nick ++
                  [leByte cx 0, leByte cy 0, acc.colorIdx]
                count := acc.count + 1
                colorIdx := acc.colorIdx + 1 }

def cursorPacket (hdl : Handle) (st : State) : Bytes :=
  let acc := cursorLoop st hdl (st.getClient hdl) st.clients.entries ⟨[], 0, 0⟩
  [112, acc.count] ++ acc.bytes

-- The turn part of tock: idle timer, time left, expiry.
def expireTurn (st : State) : Res :=
  if (getTimeLeft st).2 then setActive none st else .ok st

-- The packet part: both frames, the tiles marked as sent in between.
def sendUpdate (s : Endpoint) (hdl : Handle) (activeCl : Client) (timeLeft : Int)
    (st : State) : Res :=
  let packet := tockPacket hdl st (st.getClient hdl) activeCl timeLeft
  let st := st.withClient hdl fun cl => { cl with mod := packet.mod }
  (send s hdl packet.bytes st).andThen fun st => send s hdl (cursorPacket hdl st) st

def tock (s : Endpoint) (hdl : Handle) (st : State) : Res :=
  (idleTimer st).andThen fun idle =>
    (expireTurn idle).andThen fun after =>
      sendUpdate s hdl st.getActive (getTimeLeft idle).1 after

end WebFort
