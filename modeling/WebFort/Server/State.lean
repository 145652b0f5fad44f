import WebFort.Capture
import WebFort.Input
import WebFort.Network
import WebFort.Library.OrdMap
import WebFort.Library.Outcome

namespace WebFort

open Library

structure Client where
  -- The address given out by new.
  id : Nat
  addr : Bytes
  nick : Bytes
  mod : Nat → UInt8
  atime : Int
  isAdmin : Bool
  cursorX : Int
  cursorY : Int
  cursorActive : Bool
  cam : Camera
  hasOwnCam : Bool
  ownSc : Buffer
  ownScPrev : Buffer

-- Client::Client()
def Client.new (id : Nat) : Client :=
  { id := id
    addr := []
    nick := []
    mod := fun _ => 0
    atime := 0
    isAdmin := false
    cursorX := -1
    cursorY := -1
    cursorActive := false
    cam := ⟨0, 0, 0⟩
    hasOwnCam := false
    ownSc := fun _ => Cell.zero
    ownScPrev := fun _ => Cell.zero }

-- memset(cl->mod, 0, sizeof(cl->mod)); the array has 256*256 entries.
def Client.clearMod (cl : Client) : Client :=
  { cl with mod := fun t => if t < 256 * 256 then 0 else cl.mod t }

structure Config where
  ingameTime : Bool
  autosaveWhileIdle : Bool
  turntime : Int
  maxClients : Nat
  port : Nat
  secret : Bytes

-- The defaults of config.cpp.
def Config.default : Config :=
  { ingameTime := false
    autosaveWhileIdle := false
    turntime := 600
    maxClients := 32
    port := 1234
    secret := [] }

def nobody : Bytes := ascii "__NOBODY"

structure State where
  clients : OrdMap Handle Client
  -- null_conn is none
  activeConn : Option Handle
  nullClient : Client
  itime : Int
  timedOut : Bool
  config : Config
  sc : Buffer
  scPrev : Buffer
  scPrevDimx : Int
  scPrevDimy : Int
  activeCamDx : Int
  activeCamDy : Int
  activeCamDz : Int
  inputQueue : List WFKeyEvent
  mouseQueue : List WFMouseEvent
  mouseTileX : Int
  mouseTileY : Int
  graphicsMode : Bool
  atlasVersion : Nat
  game : Game
  -- The next address new gives out, and the addresses passed to delete.
  nextId : Nat
  freed : List Nat

-- After the constructor of WFServerImpl: null_client is the first allocation.
def State.init (config : Config) (game : Game) : State :=
  { clients := OrdMap.empty
    activeConn := none
    nullClient := { Client.new 0 with nick := nobody }
    itime := 0
    timedOut := true
    config := config
    sc := fun _ => Cell.zero
    scPrev := fun _ => Cell.zero
    scPrevDimx := -1
    scPrevDimy := -1
    activeCamDx := 0
    activeCamDy := 0
    activeCamDz := 0
    inputQueue := []
    mouseQueue := []
    mouseTileX := -1
    mouseTileY := -1
    graphicsMode := false
    atlasVersion := 0
    game := game
    nextId := 1
    freed := [] }

inductive InterfaceKey
  | standardscrollUp
  | standardscrollDown
  deriving DecidableEq

-- What the plugin does to its surroundings.
inductive Out
  | send (hdl : Handle) (data : Bytes)
  | close (hdl : Handle) (code : Nat) (reason : String)
  | quicksave
  | announcement (text : Bytes)
  | sdl (ev : SdlEvent)
  | feed (keys : List InterfaceKey)

abbrev Res := Outcome State Out

namespace State

-- The object behind the pointer get_client returns.
def getClient (st : State) (hdl : Handle) : Client := (st.clients.find? hdl).getD st.nullClient

def getActive (st : State) : Client :=
  match st.activeConn with
  | none => st.nullClient
  | some hdl => st.getClient hdl

-- cl && cl != null_client
def registered (st : State) (hdl : Handle) : Bool := (st.clients.find? hdl).isSome

-- A write through the pointer get_client returns.
def withClient (st : State) (hdl : Handle) (f : Client → Client) : State :=
  { st with
    clients := st.clients.adjust hdl f
    nullClient := if st.registered hdl then st.nullClient else f st.nullClient }

-- The same behind the test cl != null_client.
def withRegistered (st : State) (hdl : Handle) (f : Client → Client) : State :=
  { st with clients := st.clients.adjust hdl f }

-- The queues g_wf_input_queue and g_wf_mouse_queue.
def pushKeys (st : State) (evs : List WFKeyEvent) : State :=
  { st with inputQueue := st.inputQueue ++ evs }

def simmouse (st : State) (ev : WFMouseEvent) : State :=
  { st with mouseQueue := st.mouseQueue ++ [ev] }

theorem registered_iff (st : State) (hdl : Handle) :
    st.registered hdl = true ↔ ∃ cl, st.clients.find? hdl = some cl :=
  Option.isSome_iff_exists

theorem getClient_of_find? {st : State} {hdl : Handle} {cl : Client}
    (h : st.clients.find? hdl = some cl) : st.getClient hdl = cl := by
  simp [getClient, h]

theorem withClient_find? (st : State) (hdl j : Handle) (f : Client → Client) :
    (st.withClient hdl f).clients.find? j =
      if j = hdl then (st.clients.find? j).map f else st.clients.find? j :=
  OrdMap.find?_adjust st.clients hdl j f

theorem withRegistered_find? (st : State) (hdl j : Handle) (f : Client → Client) :
    (st.withRegistered hdl f).clients.find? j =
      if j = hdl then (st.clients.find? j).map f else st.clients.find? j :=
  OrdMap.find?_adjust st.clients hdl j f

theorem withClient_find?_of_ne (st : State) {hdl j : Handle} (f : Client → Client) (h : j ≠ hdl) :
    (st.withClient hdl f).clients.find? j = st.clients.find? j := by
  simp [withClient_find?, h]

theorem withClient_find?_self {st : State} {hdl : Handle} {cl : Client} (f : Client → Client)
    (h : st.clients.find? hdl = some cl) :
    (st.withClient hdl f).clients.find? hdl = some (f cl) := by
  simp [withClient_find?, h]

-- The pointer leads to the written object, registered or not.
theorem getClient_withClient (st : State) (hdl : Handle) (f : Client → Client) :
    (st.withClient hdl f).getClient hdl = f (st.getClient hdl) := by
  unfold getClient
  rw [withClient_find?, if_pos rfl]
  cases h : st.clients.find? hdl with
  | none => simp [withClient, registered, h]
  | some cl => rfl

end State

end WebFort
