import WebFort.Loop
import WebFort.Turns
import WebFort.Update.Passes

namespace WebFort

open Library

-- Two states that differ in what the clients look at and have been sent, and
-- in what was last rendered for them.
structure Alike (st st' : State) : Prop where
  client : OrdMap.Rel (fun _ => Client.Timed) st.clients st'.clients
  nullClient : Client.Timed st.nullClient st'.nullClient
  activeConn : st'.activeConn = st.activeConn
  itime : st'.itime = st.itime
  timedOut : st'.timedOut = st.timedOut
  config : st'.config = st.config
  nextId : st'.nextId = st.nextId
  freed : st'.freed = st.freed
  activeCamDx : st'.activeCamDx = st.activeCamDx
  activeCamDy : st'.activeCamDy = st.activeCamDy
  activeCamDz : st'.activeCamDz = st.activeCamDz
  inputQueue : st'.inputQueue = st.inputQueue
  mouseQueue : st'.mouseQueue = st.mouseQueue
  mouseTileX : st'.mouseTileX = st.mouseTileX
  mouseTileY : st'.mouseTileY = st.mouseTileY
  game : st'.game.core = st.game.core

namespace Client.Timed

variable {cl cl' : Client}

theorem symm (h : Client.Timed cl cl') : Client.Timed cl' cl :=
  ⟨⟨h.id.symm, h.addr.symm, h.nick.symm, h.isAdmin.symm⟩, h.atime.symm⟩

-- Writes that reach none of the compared fields on either side.
theorem write {f f' : Client → Client} (hf : ∀ cl, Client.Timed cl (f cl))
    (hf' : ∀ cl, Client.Timed cl (f' cl)) (h : Client.Timed cl cl') :
    Client.Timed (f cl) (f' cl') :=
  ((hf cl).symm.trans h).trans (hf' cl')

end Client.Timed

namespace Alike

variable {a b c st st' : State}

theorem refl (st : State) : Alike st st where
  client := OrdMap.rel_refl (fun _ => Client.Timed.refl) _
  nullClient := Client.Timed.refl _
  activeConn := rfl
  itime := rfl
  timedOut := rfl
  config := rfl
  nextId := rfl
  freed := rfl
  activeCamDx := rfl
  activeCamDy := rfl
  activeCamDz := rfl
  inputQueue := rfl
  mouseQueue := rfl
  mouseTileX := rfl
  mouseTileY := rfl
  game := rfl

theorem symm (h : Alike st st') : Alike st' st where
  client := h.client.symm fun _ _ _ => Client.Timed.symm
  nullClient := h.nullClient.symm
  activeConn := h.activeConn.symm
  itime := h.itime.symm
  timedOut := h.timedOut.symm
  config := h.config.symm
  nextId := h.nextId.symm
  freed := h.freed.symm
  activeCamDx := h.activeCamDx.symm
  activeCamDy := h.activeCamDy.symm
  activeCamDz := h.activeCamDz.symm
  inputQueue := h.inputQueue.symm
  mouseQueue := h.mouseQueue.symm
  mouseTileX := h.mouseTileX.symm
  mouseTileY := h.mouseTileY.symm
  game := h.game.symm

theorem trans (hab : Alike a b) (hbc : Alike b c) : Alike a c where
  client := hab.client.trans hbc.client fun _ _ _ _ => Client.Timed.trans
  nullClient := hab.nullClient.trans hbc.nullClient
  activeConn := hbc.activeConn.trans hab.activeConn
  itime := hbc.itime.trans hab.itime
  timedOut := hbc.timedOut.trans hab.timedOut
  config := hbc.config.trans hab.config
  nextId := hbc.nextId.trans hab.nextId
  freed := hbc.freed.trans hab.freed
  activeCamDx := hbc.activeCamDx.trans hab.activeCamDx
  activeCamDy := hbc.activeCamDy.trans hab.activeCamDy
  activeCamDz := hbc.activeCamDz.trans hab.activeCamDz
  inputQueue := hbc.inputQueue.trans hab.inputQueue
  mouseQueue := hbc.mouseQueue.trans hab.mouseQueue
  mouseTileX := hbc.mouseTileX.trans hab.mouseTileX
  mouseTileY := hbc.mouseTileY.trans hab.mouseTileY
  game := hbc.game.trans hab.game

-- Whatever does not look into the render buffers.
theorem reads {α : Type} (h : Alike st st') (f : Game → α) (hf : ∀ g, f g.core = f g) :
    f st'.game = f st.game := by
  rw [← hf st'.game, ← hf st.game, h.game]

theorem pauseState (h : Alike st st') : st'.game.pauseState = st.game.pauseState :=
  h.reads Game.pauseState fun _ => rfl

theorem time (h : Alike st st') : st'.game.time = st.game.time := h.reads Game.time fun _ => rfl

theorem safe (h : Alike st st') : isSafeToEscape st'.game = isSafeToEscape st.game :=
  h.reads isSafeToEscape fun _ => rfl

theorem roundTimer (h : Alike st st') : roundTimer st' = roundTimer st := by
  unfold WebFort.roundTimer
  rw [h.config, h.time, h.reads Game.currentTick fun _ => rfl]

theorem registered (h : Alike st st') (hdl : Handle) :
    st'.registered hdl = st.registered hdl := by
  unfold State.registered
  cases hcl : st.clients.find? hdl with
  | none => rw [h.client.find?_none hcl]
  | some cl =>
      obtain ⟨cl', hcl', -⟩ := h.client.find? hcl
      rw [hcl']
      rfl

theorem getClient (h : Alike st st') (hdl : Handle) :
    Client.Timed (st.getClient hdl) (st'.getClient hdl) := by
  unfold State.getClient
  cases hcl : st.clients.find? hdl with
  | none =>
      rw [h.client.find?_none hcl]
      exact h.nullClient
  | some cl =>
      obtain ⟨cl', hcl', ht⟩ := h.client.find? hcl
      rw [hcl']
      exact ht

theorem getActive (h : Alike st st') : Client.Timed st.getActive st'.getActive := by
  unfold State.getActive
  rw [h.activeConn]
  split
  · exact h.nullClient
  · exact h.getClient _

section Writes

variable {f f' : Client → Client}

theorem withRegistered (h : Alike st st') (hdl : Handle) (hf : ∀ cl, Client.Timed cl (f cl))
    (hf' : ∀ cl, Client.Timed cl (f' cl)) :
    Alike (st.withRegistered hdl f) (st'.withRegistered hdl f') :=
  { h with client := h.client.adjust fun _ _ => Client.Timed.write hf hf' }

theorem withClient (h : Alike st st') (hdl : Handle)
    (hf : ∀ cl cl', Client.Timed cl cl' → Client.Timed (f cl) (f' cl')) :
    Alike (st.withClient hdl f) (st'.withClient hdl f') := by
  refine { h with client := h.client.adjust hf, nullClient := ?_ }
  simp only [State.withClient, h.registered hdl]
  split
  · exact h.nullClient
  · exact hf _ _ h.nullClient

end Writes

theorem dropCursor (h : Alike st st') (conn : Option Handle) :
    Alike (dropCursor conn st) (dropCursor conn st') := by
  cases conn with
  | none => exact h
  | some hdl =>
      exact h.withRegistered hdl (fun _ => ⟨⟨rfl, rfl, rfl, rfl⟩, rfl⟩)
        fun _ => ⟨⟨rfl, rfl, rfl, rfl⟩, rfl⟩

theorem pushKeys (h : Alike st st') (evs : List WFKeyEvent) :
    Alike (st.pushKeys evs) (st'.pushKeys evs) :=
  { h with inputQueue := by simp only [State.pushKeys, h.inputQueue] }

theorem pauseGame (h : Alike st st') : Alike (pauseGame st) (pauseGame st') := by
  unfold WebFort.pauseGame
  rw [h.pauseState]
  split
  · exact h
  · exact (h.pushKeys _).pushKeys _

theorem atConn (h : Alike st st') (conn : Option Handle) :
    Alike { st with activeConn := conn } { st' with activeConn := conn } :=
  ⟨h.client, h.nullClient, rfl, h.itime, h.timedOut, h.config, h.nextId, h.freed, h.activeCamDx,
    h.activeCamDy, h.activeCamDz, h.inputQueue, h.mouseQueue, h.mouseTileX, h.mouseTileY, h.game⟩

theorem atIdle (h : Alike st st') {itime itime' : Int} (hi : itime' = itime) (b : Bool) :
    Alike { st with itime := itime, timedOut := b } { st' with itime := itime', timedOut := b } :=
  ⟨h.client, h.nullClient, h.activeConn, hi, rfl, h.config, h.nextId, h.freed, h.activeCamDx,
    h.activeCamDy, h.activeCamDz, h.inputQueue, h.mouseQueue, h.mouseTileX, h.mouseTileY, h.game⟩

theorem setActive (h : Alike st st') (newc : Option Handle) :
    Alike (setActive newc st).state (setActive newc st').state := by
  have hmove := ((h.dropCursor st.activeConn).atConn newc).dropCursor newc
  unfold WebFort.setActive
  rw [h.activeConn]
  split
  · exact h
  · cases newc with
    | none =>
        refine pauseGame ?_
        rw [hmove.config]
        split
        · exact hmove.atIdle hmove.time false
        · exact hmove
    | some hdl =>
        refine pauseGame (hmove.withClient hdl fun cl cl' ht => ?_)
        exact ⟨⟨ht.id, ht.addr, ht.nick, ht.isAdmin⟩, hmove.roundTimer⟩

theorem idleTimer (h : Alike st st') : Alike (idleTimer st).state (idleTimer st').state := by
  have hguard : (!st'.timedOut && st'.activeConn = none && st'.game.time - st'.itime > idleTimeout) =
      (!st.timedOut && st.activeConn = none && st.game.time - st.itime > idleTimeout) := by
    rw [h.timedOut, h.activeConn, h.time, h.itime]
  unfold WebFort.idleTimer
  rw [hguard]
  split
  · exact h.atIdle h.itime true
  · exact h

theorem getTimeLeft (h : Alike st st') : getTimeLeft st' = getTimeLeft st := by
  unfold WebFort.getTimeLeft
  rw [h.config, h.activeConn, h.client.size, h.roundTimer, h.getActive.atime]

theorem turnPart (h : Alike st st') : Alike (turnPart st) (turnPart st') := by
  unfold WebFort.turnPart expireTurn
  rw [h.idleTimer.getTimeLeft]
  split
  · exact h.idleTimer.setActive none
  · exact h.idleTimer

theorem tock (h : Alike st st') (s : Endpoint) (hdl : Handle) :
    Alike (tock s hdl st).state (tock s hdl st').state := by
  rw [tock_state, tock_state]
  exact h.turnPart.withClient hdl fun _ _ ht => ⟨⟨ht.id, ht.addr, ht.nick, ht.isAdmin⟩, ht.atime⟩

theorem keyEvent (h : Alike st st') (hdl : Handle) (jsKey charCode jsmods : UInt8) :
    Alike (keyEvent hdl jsKey charCode jsmods st) (keyEvent hdl jsKey charCode jsmods st') := by
  have hsafe : ∀ k, isSafeKey st' hdl k = isSafeKey st hdl k := by
    intro k
    unfold isSafeKey
    rw [(h.getClient hdl).isAdmin, h.safe]
  simp only [WebFort.keyEvent, h.activeConn, hsafe]
  split
  · exact h
  · split
    · exact h.pushKeys _
    · exact h

theorem mouseEvent (h : Alike st st') (hdl : Handle) (ev : WFMouseEvent) :
    Alike (mouseEvent hdl ev st) (mouseEvent hdl ev st') := by
  unfold WebFort.mouseEvent
  rw [h.activeConn]
  split
  · exact h
  · exact { h with mouseQueue := by simp only [State.simmouse, h.mouseQueue] }

theorem cursorMove (h : Alike st st') (hdl : Handle) (x y : UInt8) :
    Alike (cursorMove hdl x y st) (cursorMove hdl x y st') := by
  unfold WebFort.cursorMove
  rw [h.activeConn]
  split
  · exact h
  · exact h.withRegistered hdl (fun _ => ⟨⟨rfl, rfl, rfl, rfl⟩, rfl⟩)
      fun _ => ⟨⟨rfl, rfl, rfl, rfl⟩, rfl⟩

theorem refreshScreen (h : Alike st st') (hdl : Handle) :
    Alike (refreshScreen hdl st) (refreshScreen hdl st') :=
  h.withClient hdl fun _ _ ht => ⟨⟨ht.id, ht.addr, ht.nick, ht.isAdmin⟩, ht.atime⟩

theorem atCamera (h : Alike st st') (dx dy dz : Int) :
    Alike { st with
        activeCamDx := int32 (st.activeCamDx + dx)
        activeCamDy := int32 (st.activeCamDy + dy)
        activeCamDz := int32 (st.activeCamDz + dz) }
      { st' with
        activeCamDx := int32 (st'.activeCamDx + dx)
        activeCamDy := int32 (st'.activeCamDy + dy)
        activeCamDz := int32 (st'.activeCamDz + dz) } := by
  refine ⟨h.client, h.nullClient, h.activeConn, h.itime, h.timedOut, h.config, h.nextId, h.freed,
    ?_, ?_, ?_, h.inputQueue, h.mouseQueue, h.mouseTileX, h.mouseTileY, h.game⟩
  · simp only [h.activeCamDx]
  · simp only [h.activeCamDy]
  · simp only [h.activeCamDz]

theorem camMove (h : Alike st st') (hdl : Handle) (dx dy dz : UInt8) :
    Alike (camMove hdl dx dy dz st) (camMove hdl dx dy dz st') := by
  unfold WebFort.camMove
  simp only [h.registered hdl, h.activeConn]
  by_cases hr : st.registered hdl = true
  · rw [if_pos hr, if_pos hr]
    by_cases ha : st.activeConn = some hdl
    · rw [if_pos ha, if_pos ha]
      have hcam := h.atCamera (int8 dx) (int8 dy) (int8 dz)
      rw [h.activeConn] at hcam
      exact hcam
    · rw [if_neg ha, if_neg ha]
      exact h.withRegistered hdl (fun _ => ⟨⟨rfl, rfl, rfl, rfl⟩, rfl⟩)
        fun _ => ⟨⟨rfl, rfl, rfl, rfl⟩, rfl⟩
  · rw [if_neg hr, if_neg hr]
    exact h

theorem requestTurn (h : Alike st st') (hdl : Handle) :
    Alike (requestTurn hdl st).state (requestTurn hdl st').state := by
  unfold WebFort.requestTurn
  rw [h.activeConn]
  split
  · exact h.setActive none
  · split
    · exact h.setActive (some hdl)
    · exact h

theorem onMessage (h : Alike st st') (s : Endpoint) (hdl : Handle) (payload : Bytes) :
    Alike (onMessage s hdl payload st).state (onMessage s hdl payload st').state := by
  unfold WebFort.onMessage
  cases parseMessage payload with
  | keyEvent jsKey charCode jsmods => exact h.keyEvent hdl jsKey charCode jsmods
  | mouseEvent ev => exact h.mouseEvent hdl ev
  | cursorMove x y => exact h.cursorMove hdl x y
  | refreshScreen => exact h.refreshScreen hdl
  | camMove dx dy dz => exact h.camMove hdl dx dy dz
  | requestTurn => exact h.requestTurn hdl
  | update => exact h.tock s hdl

theorem register (h : Alike st st') (s : Endpoint) (hdl : Handle) :
    Alike (register s hdl st) (register s hdl st') := by
  have hsecret : st'.config.secret = st.config.secret := by rw [h.config]
  refine { h with client := h.client.insert ?_, nextId := congrArg (· + 1) h.nextId }
  refine ⟨⟨h.nextId, rfl, rfl, ?_⟩, h.roundTimer⟩
  simp only [openClient, hsecret]

-- The same connections are refused, in the same way.
theorem onOpen (h : Alike st st') (s : Endpoint) (hdl : Handle) :
    Alike (onOpen s hdl st).state (onOpen s hdl st').state ∧
      closes hdl (onOpen s hdl st').out = closes hdl (onOpen s hdl st).out := by
  unfold WebFort.onOpen
  rw [h.config, h.client.size]
  split
  · exact ⟨h, rfl⟩
  · split
    · exact ⟨h, rfl⟩
    · split
      · exact ⟨h, rfl⟩
      · rw [sendMapInfo_state, sendMapInfo_state, sendMapInfo_closes, sendMapInfo_closes]
        exact ⟨h.register s hdl, rfl⟩

theorem releaseTurn (h : Alike st st') (hdl : Handle) :
    Alike (releaseTurn hdl st) (releaseTurn hdl st') := by
  unfold WebFort.releaseTurn
  rw [h.activeConn]
  split
  · exact h.setActive none
  · exact h

theorem onClose (h : Alike st st') (hdl : Handle) :
    Alike (onClose hdl st).state (onClose hdl st').state := by
  cases hcl : st.clients.find? hdl with
  | none =>
      rw [onClose_absent hcl, onClose_absent (h.client.find?_none hcl)]
      exact { h with client := h.client.erase hdl }
  | some cl =>
      obtain ⟨cl', hcl', ht⟩ := h.client.find? hcl
      have hr := h.releaseTurn hdl
      rw [onClose_registered hcl, onClose_registered hcl']
      exact { hr with
        client := hr.client.erase hdl
        freed := by simp only [Outcome.ok_state, eraseClient, deleteClient, hr.freed, ht.id] }

end Alike

section Update

-- What the input part of an update reads.
structure SameInput (st st' : State) : Prop where
  game : st'.game = st.game
  inputQueue : st'.inputQueue = st.inputQueue
  mouseQueue : st'.mouseQueue = st.mouseQueue
  mouseTileX : st'.mouseTileX = st.mouseTileX
  mouseTileY : st'.mouseTileY = st.mouseTileY

variable {st st' : State}

theorem SameInput.withGame (h : SameInput st st') (f : Game → Game) :
    SameInput (st.withGame f) (st'.withGame f) := { h with game := congrArg f h.game }

-- A mouse event reaches nothing but the game.
theorem feedMouse_withGame (feed : List InterfaceKey → Game → Game) (ev : WFMouseEvent) :
    ∃ f : Game → Game, ∀ st, (feedMouse feed ev st).state = st.withGame f := by
  by_cases hmove : ev.type = WFMouseType.move
  · refine ⟨fun g => feed [] (trackingOn g), fun st => ?_⟩
    simp only [feedMouse, if_pos hmove]
    rfl
  · by_cases hwheel : ev.type = WFMouseType.wheel
    · refine ⟨fun g => feed [if ev.button = 4 then .standardscrollUp else .standardscrollDown]
        (trackingOn g), fun st => ?_⟩
      simp only [feedMouse, if_neg hmove, if_pos hwheel]
      rfl
    · refine ⟨fun g =>
        let on := trackingOn g
        let fed := feed [] { on with enabler := pressButton ev.type ev.button on.enabler }
        { fed with enabler := restoreButtons on.enabler fed.enabler }, fun st => ?_⟩
      simp only [feedMouse, if_neg hmove, if_neg hwheel]
      rfl

theorem SameInput.feedMouse (h : SameInput st st') (feed : List InterfaceKey → Game → Game)
    (ev : WFMouseEvent) : SameInput (feedMouse feed ev st).state (feedMouse feed ev st').state := by
  obtain ⟨f, hf⟩ := feedMouse_withGame feed ev
  rw [hf, hf]
  exact h.withGame f

theorem SameInput.applyMouse (h : SameInput st st') (feed : List InterfaceKey → Game → Game)
    (ev : WFMouseEvent) :
    SameInput (applyMouse feed ev st).state (applyMouse feed ev st').state := by
  have htile : SameInput (persistTile ev st) (persistTile ev st') := by
    unfold persistTile
    split
    · exact { h with mouseTileX := rfl, mouseTileY := rfl }
    · exact h
  have hstamp : SameInput (stampEvent ev st) (stampEvent ev st') :=
    htile.withGame fun g => g.stampMouse ev.tileX.toNat ev.tileY.toNat
  unfold WebFort.applyMouse
  simp only [hstamp.game]
  split
  · exact hstamp
  · exact hstamp.feedMouse feed ev

theorem SameInput.applyMouseEvents (h : SameInput st st') (df : Df) (evs : List WFMouseEvent) :
    SameInput (applyMouseEvents df evs st).state (applyMouseEvents df evs st').state := by
  induction evs generalizing st st' with
  | nil => exact h
  | cons ev rest ih =>
      simp only [WebFort.applyMouseEvents]
      rw [Outcome.andThen_of_ok _ (applyMouse_threw _ ev st),
        Outcome.andThen_of_ok _ (applyMouse_threw _ ev st')]
      exact ih (h.applyMouse _ ev)

theorem SameInput.restampMouse (h : SameInput st st') (df : Df) :
    SameInput (restampMouse df st).state (restampMouse df st').state := by
  unfold WebFort.restampMouse
  have hstamp : SameInput (stampTile st) (stampTile st') := by
    unfold stampTile
    simp only [h.mouseTileX, h.mouseTileY]
    exact h.withGame fun g => trackingOn (g.stampMouse st.mouseTileX st.mouseTileY)
  rw [h.mouseTileX]
  split
  · simp only [hstamp.game]
    split
    · exact hstamp
    · exact hstamp.withGame _
  · exact h

-- The queued camera moves.
def State.deltas (st : State) : Int × Int × Int := (st.activeCamDx, st.activeCamDy, st.activeCamDz)

-- What the steps around the input part leave alone.
structure Quiet (st st' : State) : Prop where
  inputQueue : st'.inputQueue = st.inputQueue
  mouseQueue : st'.mouseQueue = st.mouseQueue
  mouseTileX : st'.mouseTileX = st.mouseTileX
  mouseTileY : st'.mouseTileY = st.mouseTileY

theorem Quiet.trans {a b c : State} (hab : Quiet a b) (hbc : Quiet b c) : Quiet a c where
  inputQueue := hbc.inputQueue.trans hab.inputQueue
  mouseQueue := hbc.mouseQueue.trans hab.mouseQueue
  mouseTileX := hbc.mouseTileX.trans hab.mouseTileX
  mouseTileY := hbc.mouseTileY.trans hab.mouseTileY

theorem withActive_quiet (st : State) (f : Client → Client) :
    Quiet st (st.withActive f) ∧ (st.withActive f).deltas = st.deltas := by
  obtain ⟨clients, h⟩ := withActive_eq st f
  rw [h]
  exact ⟨⟨rfl, rfl, rfl, rfl⟩, rfl⟩

theorem drainCamera_quiet (st : State) :
    Quiet st (drainCamera st) ∧ (drainCamera st).deltas = (0, 0, 0) := by
  obtain ⟨clients, w, h⟩ := drainCamera_eq st
  rw [h]
  exact ⟨⟨rfl, rfl, rfl, rfl⟩, rfl⟩

theorem camera_quiet (st : State) :
    Quiet st (syncCamera (drainCamera st)) ∧
      (syncCamera (drainCamera st)).deltas = (0, 0, 0) := by
  obtain ⟨hdrain, hzero⟩ := drainCamera_quiet st
  obtain ⟨hsync, hsame⟩ := withActive_quiet (drainCamera st)
    fun cl => { cl with cam := (drainCamera st).game.window, hasOwnCam := true }
  exact ⟨hdrain.trans hsync, hsame.trans hzero⟩

theorem SameInput.applyInput (h : SameInput st st') (df : Df) (hd : st'.deltas = st.deltas) :
    SameInput (applyInput df st).state (applyInput df st').state := by
  simp only [State.deltas, Prod.mk.injEq] at hd
  obtain ⟨hx, hy, hz⟩ := hd
  have hgame : (syncCamera (drainCamera st')).game = (syncCamera (drainCamera st)).game := by
    rw [syncCamera_game, syncCamera_game, drainCamera_game, drainCamera_game, hx, hy, hz, h.game]
  obtain ⟨hq, -⟩ := camera_quiet st
  obtain ⟨hq', -⟩ := camera_quiet st'
  have hflush : SameInput { (flushInputQueue (syncCamera (drainCamera st))).state with mouseQueue := [] }
      { (flushInputQueue (syncCamera (drainCamera st'))).state with mouseQueue := [] } :=
    ⟨hgame, rfl, rfl, (hq'.mouseTileX.trans h.mouseTileX).trans hq.mouseTileX.symm,
      (hq'.mouseTileY.trans h.mouseTileY).trans hq.mouseTileY.symm⟩
  have hqueue : (flushInputQueue (syncCamera (drainCamera st'))).state.mouseQueue =
      (flushInputQueue (syncCamera (drainCamera st))).state.mouseQueue :=
    (hq'.mouseQueue.trans h.mouseQueue).trans hq.mouseQueue.symm
  rw [applyInput_state, applyInput_state]
  refine SameInput.restampMouse ?_ df
  unfold flushMouseQueue
  rw [hqueue]
  exact hflush.applyMouseEvents df _

theorem applyInput_deltas (df : Df) (st : State) : (applyInput df st).state.deltas = (0, 0, 0) := by
  obtain ⟨_, _, _, _, _, h⟩ := applyInput_touched df st
  rw [h]
  exact (camera_quiet st).2

-- The capture and the passes are output only.
theorem shown_quiet (df : Df) (st : State) :
    Quiet st (updateGraphics df (renderClients df (captureScreenBuffer st))) ∧
      (updateGraphics df (renderClients df (captureScreenBuffer st))).deltas = st.deltas ∧
      (updateGraphics df (renderClients df (captureScreenBuffer st))).game.core = st.game.core := by
  have hcapture : Quiet st (captureScreenBuffer st) ∧
      (captureScreenBuffer st).deltas = st.deltas := by
    rcases ready_or_not st.game.gps with ⟨screen, hs, hk⟩ | h
    · rw [captureScreenBuffer_ready hs hk]
      exact ⟨⟨rfl, rfl, rfl, rfl⟩, rfl⟩
    · rw [captureScreenBuffer_not_ready h]
      exact ⟨⟨rfl, rfl, rfl, rfl⟩, rfl⟩
  have hrender : Quiet (captureScreenBuffer st)
        (updateGraphics df (renderClients df (captureScreenBuffer st))) ∧
      (updateGraphics df (renderClients df (captureScreenBuffer st))).deltas =
        (captureScreenBuffer st).deltas := by
    unfold updateGraphics renderClients
    simp only
    split <;> exact ⟨⟨rfl, rfl, rfl, rfl⟩, rfl⟩
  refine ⟨hcapture.1.trans hrender.1, hrender.2.trans hcapture.2, ?_⟩
  refine (renderClients_core df (captureScreenBuffer st)).trans ?_
  rw [captureScreenBuffer_game]

-- An update overwrites whatever differed in the game.
theorem Alike.update (h : Alike st st') (df : Df) (g : Game) :
    Alike (pluginOnupdate df (st.atGame g)).state (pluginOnupdate df (st'.atGame g)).state := by
  have hinput : SameInput (st.atGame g) (st'.atGame g) :=
    ⟨rfl, h.inputQueue, h.mouseQueue, h.mouseTileX, h.mouseTileY⟩
  have hdeltas : (st'.atGame g).deltas = (st.atGame g).deltas := by
    simp only [State.deltas, State.atGame, h.activeCamDx, h.activeCamDy, h.activeCamDz]
  have hsame := hinput.applyInput df hdeltas
  have hu := pluginOnupdate_unticked df (st.atGame g)
  have hu' := pluginOnupdate_unticked df (st'.atGame g)
  have hnull : Client.Timed (pluginOnupdate df (st.atGame g)).state.nullClient
      (pluginOnupdate df (st'.atGame g)).state.nullClient := by
    rw [hu.nullClient, hu'.nullClient]
    exact h.nullClient
  have hclient : OrdMap.Rel (fun _ => Client.Timed) (pluginOnupdate df (st.atGame g)).state.clients
      (pluginOnupdate df (st'.atGame g)).state.clients :=
    ((hu.client.symm fun _ _ _ => Client.Timed.symm).trans h.client
      fun _ _ _ _ => Client.Timed.trans).trans hu'.client fun _ _ _ _ => Client.Timed.trans
  obtain ⟨hq, hd, hcore⟩ := shown_quiet df (applyInput df (st.atGame g)).state
  obtain ⟨hq', hd', hcore'⟩ := shown_quiet df (applyInput df (st'.atGame g)).state
  rw [← pluginOnupdate_state] at hq hd hcore hq' hd' hcore'
  have hzero : (pluginOnupdate df (st'.atGame g)).state.deltas =
      (pluginOnupdate df (st.atGame g)).state.deltas := by
    rw [hd, hd', applyInput_deltas, applyInput_deltas]
  simp only [State.deltas, Prod.mk.injEq] at hzero
  exact
    { client := hclient
      nullClient := hnull
      activeConn := (hu'.activeConn.trans h.activeConn).trans hu.activeConn.symm
      itime := (hu'.itime.trans h.itime).trans hu.itime.symm
      timedOut := (hu'.timedOut.trans h.timedOut).trans hu.timedOut.symm
      config := (hu'.config.trans h.config).trans hu.config.symm
      nextId := (hu'.nextId.trans h.nextId).trans hu.nextId.symm
      freed := (hu'.freed.trans h.freed).trans hu.freed.symm
      activeCamDx := hzero.1
      activeCamDy := hzero.2.1
      activeCamDz := hzero.2.2
      inputQueue := (hq'.inputQueue.trans hsame.inputQueue).trans hq.inputQueue.symm
      mouseQueue := (hq'.mouseQueue.trans hsame.mouseQueue).trans hq.mouseQueue.symm
      mouseTileX := (hq'.mouseTileX.trans hsame.mouseTileX).trans hq.mouseTileX.symm
      mouseTileY := (hq'.mouseTileY.trans hsame.mouseTileY).trans hq.mouseTileY.symm
      game := (hcore'.trans (congrArg Game.core hsame.game)).trans hcore.symm }

end Update

-- The same event takes alike states to alike states.
theorem Alike.handle {st st' : State} (h : Alike st st') (s : Endpoint) (e : Event) :
    Alike (handle s e st).state (handle s e st').state := by
  cases e with
  | opened hdl => exact (h.onOpen s hdl).1
  | message hdl payload => exact h.onMessage s hdl payload
  | closed hdl => exact h.onClose hdl
  | game g =>
      exact ⟨h.client, h.nullClient, h.activeConn, h.itime, h.timedOut, h.config, h.nextId, h.freed,
        h.activeCamDx, h.activeCamDy, h.activeCamDz, h.inputQueue, h.mouseQueue, h.mouseTileX,
        h.mouseTileY, rfl⟩
  | update g df => exact h.update df g

end WebFort
