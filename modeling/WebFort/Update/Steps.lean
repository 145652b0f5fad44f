import WebFort.Update.Passes
import WebFort.System

namespace WebFort

open Library

-- plugin_onupdate taken apart where the handlers of the network thread can
-- run: before the loop over the clients, after each write to the viewport,
-- after each client, and before the viewport is restored.

-- The local variables of the loop.
structure Pass where
  df : Df
  save : Camera
  total : Nat
  -- The iterator over clients.
  it : Option Handle
  -- The client whose camera is in the viewport, not drawn yet, and the gps
  -- saved for it.
  drawing : Option (Handle × Gps)
  -- The camera the loop last put into the viewport; no code reads this.
  switched : Option Camera

-- The viewport where a tick of DF begins, and where plugin_onupdate leaves it
-- at the end of the tick.
structure Tick where
  begun : Camera
  ended : Camera

structure Midway where
  st : State
  pass : Option Pass
  tick : Tick
  lastTick : Tick

def Midway.init (config : Config) (g : Game) : Midway :=
  ⟨State.init config g, none, ⟨g.window, g.window⟩, ⟨g.window, g.window⟩⟩

inductive Step
  -- DF has run its main loop. Until the update ends this is the tick.
  | game (g : Game)
  -- plugin_onupdate up to the loop
  | update (df : Df)
  -- the next step of the loop
  | advance
  | clock (time : Int)
  | opened (hdl : Handle)
  | message (hdl : Handle) (payload : Bytes)
  | closed (hdl : Handle)

def startPass (df : Df) (st : State) : Pass where
  df := df
  save := st.game.window
  total := total st.game.gps
  it := if st.game.gps.dimx * st.game.gps.dimy > 0 then st.clients.first? else none
  drawing := none
  switched := none

namespace Midway

-- The part before the loop. The viewport it leaves is what the loop restores.
def start (df : Df) (m : Midway) : Midway :=
  let st := captureScreenBuffer (applyInput df m.st).state
  { m with
    st := st
    pass := some (startPass df st)
    tick := { m.tick with ended := st.game.window } }

-- The body of the loop is through with a client.
def nextClient (p : Pass) (hdl : Handle) (st : State) (m : Midway) : Midway :=
  { m with st := st, pass := some { p with drawing := none, it := st.clients.next? hdl } }

-- The loop at a client: one that has the save position is served from sc, for
-- any other the viewport is moved. An entry that on_close has erased meanwhile
-- is undefined behaviour in the source; here the loop goes on behind it.
def visit (p : Pass) (hdl : Handle) (m : Midway) : Midway :=
  match m.st.clients.find? hdl with
  | none => m.nextClient p hdl m.st
  | some cl =>
      if !cl.hasOwnCam then m.nextClient p hdl m.st
      else if cl.cam = p.save then
        m.nextClient p hdl (m.st.withRegistered hdl fun cl =>
          Client.diffOwn p.total { cl with ownSc := cl.ownSc.copy m.st.sc p.total })
      else
        { m with
          st := m.st.withGame fun g =>
            (translateMouse (m.st.mouseTileX, m.st.mouseTileY) p.save cl.cam g).setWindow cl.cam
          pass := some { p with drawing := some (hdl, m.st.game.gps), switched := some cl.cam } }

-- The render, the capture of it, and what is put back, except the viewport.
def draw (p : Pass) (hdl : Handle) (saved : Gps) (m : Midway) : Midway :=
  let drawn := renderTop (p.df.render hdl) m.st.game
  let st := m.st.withRegistered hdl fun cl =>
    Client.diffOwn p.total { cl with ownSc := (fillScreenBuffer drawn cl.ownSc).2 }
  m.nextClient p hdl { st with game := { drawn with gps := restoreGps p.total saved drawn.gps } }

def finish (p : Pass) (m : Midway) : Midway :=
  { m with st := updateGraphics p.df (m.st.withGame fun g => g.setWindow p.save), pass := none }

def advance (p : Pass) (m : Midway) : Midway :=
  match p.drawing, p.it with
  | some (hdl, saved), _ => m.draw p hdl saved
  | none, some hdl => m.visit p hdl
  | none, none => m.finish p

end Midway

-- The main thread is in plugin_onupdate while a pass is under way.
def Step.enabled (m : Midway) : Step → Prop
  | .game _ => m.pass = none
  | .update _ => m.pass = none
  | .advance => m.pass ≠ none
  | _ => True

def Step.next (s : Endpoint) (m : Midway) : Step → Midway
  | .game g =>
      { m with st := m.st.atGame g, tick := ⟨g.window, g.window⟩, lastTick := m.tick }
  | .update df => m.start df
  | .advance => match m.pass with
    | none => m
    | some p => m.advance p
  | .clock time => { m with st := m.st.withGame fun g => { g with time := time } }
  | .opened hdl => { m with st := (handle s (.opened hdl) m.st).state }
  | .message hdl payload => { m with st := (handle s (.message hdl payload) m.st).state }
  | .closed hdl => { m with st := (handle s (.closed hdl) m.st).state }

-- The two threads, with the handlers anywhere between two steps of the loop.
def threads (s : Endpoint) : Machine Midway Step := ⟨Step.enabled, Step.next s⟩

section Undisturbed

variable {s : Endpoint} {m : Midway} {p : Pass} {hdl : Handle} {cl : Client}

-- The step of the loop at a client that is not being drawn.
theorem exec_visit (hp : m.pass = some p) (hd : p.drawing = none) (hi : p.it = some hdl) (n : Nat) :
    (threads s).exec m (List.replicate (n + 1) .advance) =
      (threads s).exec (m.visit p hdl) (List.replicate n .advance) := by
  rw [List.replicate_succ, Machine.exec_cons]
  simp only [threads, Step.next, hp, Midway.advance, hd, hi]

theorem visit_shared (hcl : m.st.clients.find? hdl = some cl) (hown : cl.hasOwnCam = false) :
    m.visit p hdl = m.nextClient p hdl m.st := by
  simp [Midway.visit, hcl, hown]

theorem visit_served (hcl : m.st.clients.find? hdl = some cl) (hown : cl.hasOwnCam = true)
    (hcam : cl.cam = p.save) :
    m.visit p hdl = m.nextClient p hdl (m.st.withRegistered hdl fun cl =>
      Client.diffOwn p.total { cl with ownSc := cl.ownSc.copy m.st.sc p.total }) := by
  simp [Midway.visit, hcl, hown, hcam]

theorem visit_moved (hcl : m.st.clients.find? hdl = some cl) (hown : cl.hasOwnCam = true)
    (hcam : cl.cam ≠ p.save) :
    m.visit p hdl =
      { m with
        st := m.st.withGame fun g =>
          (translateMouse (m.st.mouseTileX, m.st.mouseTileY) p.save cl.cam g).setWindow cl.cam
        pass := some { p with drawing := some (hdl, m.st.game.gps), switched := some cl.cam } } := by
  simp [Midway.visit, hcl, hown, hcam]

section RenderPass

variable (df : Df) (sc : Buffer) (mouseTile : Int × Int) {save : Camera} (total : Nat)
  (hdl : Handle) (g : Game)

theorem renderPass_served (hown : cl.hasOwnCam = true) (hcam : cl.cam = save) :
    renderPass df sc mouseTile save total hdl cl g =
      (Client.diffOwn total { cl with ownSc := cl.ownSc.copy sc total }, g) := by
  simp [renderPass, hown, hcam]

theorem renderPass_moved (hown : cl.hasOwnCam = true) (hcam : cl.cam ≠ save) :
    renderPass df sc mouseTile save total hdl cl g =
      let r := extraRender (df.render hdl) mouseTile save cl.cam cl.ownSc g
      (Client.diffOwn total { cl with ownSc := r.1 }, r.2) := by
  simp [renderPass, hown, hcam]

end RenderPass

-- Of the client only its image under a function is written back.
theorem nextClient_adjust (hcl : m.st.clients.find? hdl = some cl) (f : Client → Client)
    (g : Game) :
    m.nextClient p hdl { m.st with clients := m.st.clients.adjust hdl fun _ => f cl, game := g } =
      m.nextClient p hdl { m.st.withRegistered hdl f with game := g } := by
  rw [OrdMap.adjust_const hcl f]
  rfl

-- What the loop computes for one client when no handler comes between.
theorem client_steps (hp : m.pass = some p) (hd : p.drawing = none) (hi : p.it = some hdl)
    (hcl : m.st.clients.find? hdl = some cl) (ht : p.total = total m.st.game.gps) :
    let r := renderPass p.df m.st.sc (m.st.mouseTileX, m.st.mouseTileY) p.save p.total hdl cl
      m.st.game
    ∃ n switched, (threads s).exec m (List.replicate n .advance) =
      m.nextClient { p with switched := switched } hdl
        { m.st with clients := m.st.clients.adjust hdl fun _ => r.1, game := r.2 } := by
  intro r
  cases hown : cl.hasOwnCam with
  | false =>
      have hr : r = (cl, m.st.game) := renderPass_shared _ _ _ _ _ hdl m.st.game hown
      refine ⟨1, p.switched, ?_⟩
      rw [exec_visit hp hd hi, visit_shared hcl hown, hr, OrdMap.adjust_same hcl]
      rfl
  | true =>
      by_cases hcam : cl.cam = p.save
      · have hr := renderPass_served p.df m.st.sc (m.st.mouseTileX, m.st.mouseTileY) p.total hdl
          m.st.game hown hcam
        refine ⟨1, p.switched, ?_⟩
        rw [exec_visit hp hd hi, visit_served hcl hown hcam]
        simp only [r, hr]
        rw [nextClient_adjust hcl fun cl =>
          Client.diffOwn p.total { cl with ownSc := cl.ownSc.copy m.st.sc p.total }]
        rfl
      · have hr := renderPass_moved p.df m.st.sc (m.st.mouseTileX, m.st.mouseTileY) p.total hdl
          m.st.game hown hcam
        refine ⟨2, some cl.cam, ?_⟩
        rw [exec_visit hp hd hi, visit_moved hcl hown hcam]
        simp only [r, hr, extraRender, ← ht]
        rw [nextClient_adjust hcl fun c => Client.diffOwn p.total { c with
          ownSc := (fillScreenBuffer (drawFor (p.df.render hdl)
            (m.st.mouseTileX, m.st.mouseTileY) p.save cl.cam m.st.game) c.ownSc).2 }]
        rfl

-- The loop over the clients from one of them on.
theorem loop_steps (todo : List (Handle × Client)) {done : List (Handle × Client)}
    (hsplit : m.st.clients.entries = done ++ todo) (hp : m.pass = some p) (hd : p.drawing = none)
    (hi : p.it = (todo.map Prod.fst).head?) (ht : p.total = total m.st.game.gps) :
    let r := OrdMap.accumEntries
      (renderPass p.df m.st.sc (m.st.mouseTileX, m.st.mouseTileY) p.save p.total) todo m.st.game
    ∃ n switched clients, clients.entries = done ++ r.1 ∧
      (threads s).exec m (List.replicate n .advance) =
        { m with
          st := { m.st with clients := clients, game := r.2 }
          pass := some { p with drawing := none, it := none, switched := switched } } := by
  induction todo generalizing m p done with
  | nil =>
      refine ⟨0, p.switched, m.st.clients, hsplit, ?_⟩
      obtain ⟨st, pass, tick, lastTick⟩ := m
      obtain ⟨df, save, total, it, drawing, switched⟩ := p
      cases hp
      cases hd
      cases hi
      rfl
  | cons e todo ih =>
      have hcl : m.st.clients.find? e.1 = some e.2 := OrdMap.find?_of_split hsplit
      obtain ⟨n, switched, hn⟩ := client_steps (s := s) hp hd hi hcl ht
      let r := renderPass p.df m.st.sc (m.st.mouseTileX, m.st.mouseTileY) p.save p.total e.1 e.2
        m.st.game
      have hentries := OrdMap.adjust_of_split hsplit fun _ => r.1
      have hres : Residue m.st.game r.2 := renderPass_residue p.df _ _ _ _ e.1 e.2 m.st.game
      let st' := { m.st with clients := m.st.clients.adjust e.1 fun _ => r.1, game := r.2 }
      obtain ⟨k, switched', clients, hclients, hk⟩ :=
        ih (m := m.nextClient { p with switched := switched } e.1 st')
          (hentries.trans (List.append_cons ..)) rfl rfl (OrdMap.next?_of_split hentries)
          (ht.trans hres.total.symm)
      refine ⟨n + k, switched', clients, ?_, ?_⟩
      · rw [hclients, List.append_assoc]
        rfl
      · rw [List.replicate_add, Machine.exec_append, hn]
        exact hk

theorem exec_finish (hp : m.pass = some p) (hd : p.drawing = none) (hi : p.it = none) :
    (threads s).exec m [.advance] = m.finish p := by
  simp only [Machine.exec_cons, Machine.exec_nil, threads, Step.next, hp, Midway.advance, hd, hi]

-- The loop and the restore are the one step renderClients.
theorem pass_steps (s : Endpoint) (df : Df) (st : State) (tick lastTick : Tick) :
    ∃ n, (threads s).exec ⟨st, some (startPass df st), tick, lastTick⟩
        (List.replicate n .advance) =
      ⟨updateGraphics df (renderClients df st), none, tick, lastTick⟩ := by
  unfold renderClients
  by_cases hpos : st.game.gps.dimx * st.game.gps.dimy > 0
  · have hstart : (startPass df st).it = (st.clients.entries.map Prod.fst).head? := if_pos hpos
    obtain ⟨n, switched, clients, hclients, hn⟩ :=
      loop_steps (s := s) (m := ⟨st, some (startPass df st), tick, lastTick⟩) st.clients.entries
        (List.nil_append _).symm rfl rfl hstart rfl
    have hall : clients = (st.clients.accum (renderPass df st.sc (st.mouseTileX, st.mouseTileY)
        st.game.window (total st.game.gps)) st.game).1 := by
      cases clients
      cases hclients
      rfl
    refine ⟨n + 1, ?_⟩
    rw [List.replicate_add, Machine.exec_append, hn, List.replicate_one, exec_finish rfl rfl rfl,
      hall]
    simp only [if_pos hpos]
    rfl
  · refine ⟨1, ?_⟩
    rw [List.replicate_one, exec_finish rfl rfl (if_neg hpos)]
    simp only [if_neg hpos]
    rfl

-- The update event of the one-step model.
theorem undisturbed_update (s : Endpoint) (m : Midway) (g : Game) (df : Df) :
    ∃ n, ((threads s).exec m (.game g :: .update df :: List.replicate n .advance)).pass = none ∧
      ((threads s).exec m (.game g :: .update df :: List.replicate n .advance)).st =
        (handle s (.update g df) m.st).state := by
  let st := captureScreenBuffer (applyInput df (m.st.atGame g)).state
  obtain ⟨n, hn⟩ := pass_steps s df st ⟨g.window, st.game.window⟩ m.tick
  refine ⟨n, ?_, ?_⟩
  · exact congrArg Midway.pass hn
  · exact (congrArg Midway.st hn).trans (pluginOnupdate_state df (m.st.atGame g)).symm

end Undisturbed

end WebFort
