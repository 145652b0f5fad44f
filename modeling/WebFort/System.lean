import WebFort.Server.Handlers
import WebFort.Update
import WebFort.Library.Machine

namespace WebFort

open Library

-- What happens to the plugin. The handlers of the network thread and the
-- update of the main thread are atomic; between them DF may change anything
-- it owns, and time passes.
inductive Event
  | opened (hdl : Handle)
  | message (hdl : Handle) (payload : Bytes)
  | closed (hdl : Handle)
  | game (g : Game)
  -- DF has drawn a frame and calls plugin_onupdate.
  | update (g : Game) (df : Df)

def State.atGame (st : State) (g : Game) : State := { st with game := g }

def handle (s : Endpoint) : Event → State → Res
  | .opened hdl, st => onOpen s hdl st
  | .message hdl payload, st => onMessage s hdl payload st
  | .closed hdl, st => onClose hdl st
  | .game g, st => .ok (st.atGame g)
  | .update g df, st => pluginOnupdate df (st.atGame g)

-- The plugin alone, with nothing assumed of the order of events.
def plugin (s : Endpoint) : Machine State Event :=
  ⟨fun _ _ => True, fun st e => (handle s e st).state⟩

-- Whether the server called close on the connection.
def closes (hdl : Handle) (out : List Out) : Bool :=
  out.any fun o => match o with
    | .close h _ _ => h = hdl
    | _ => false

-- How far websocketpp is with a connection. After close it waits for the
-- close handshake and delivers no more messages.
inductive Phase
  | fresh
  | opened
  | refused
  | closed
  deriving DecidableEq

structure World where
  st : State
  phase : Handle → Phase
  -- srv.run() has not returned.
  running : Bool

def World.init (config : Config) (g : Game) : World :=
  { st := State.init config g, phase := fun _ => .fresh, running := true }

def enabled (w : World) : Event → Prop
  | .opened hdl => w.running = true ∧ w.phase hdl = .fresh
  | .message hdl _ => w.running = true ∧ w.phase hdl = .opened
  | .closed hdl => w.running = true ∧ (w.phase hdl = .opened ∨ w.phase hdl = .refused)
  | .game _ => True
  | .update _ _ => True

def nextPhase (e : Event) (out : List Out) (phase : Handle → Phase) : Handle → Phase :=
  match e with
  | .opened hdl => Function.update phase hdl (if closes hdl out then .refused else .opened)
  | .closed hdl => Function.update phase hdl .closed
  | _ => phase

-- An exception that leaves a handler leaves run(), and wsloop does not call
-- it again.
def next (s : Endpoint) (w : World) (e : Event) : World :=
  { st := (handle s e w.st).state
    phase := nextPhase e (handle s e w.st).out w.phase
    running := w.running && !(handle s e w.st).threw }

def server (s : Endpoint) : Machine World Event := ⟨enabled, next s⟩

end WebFort
