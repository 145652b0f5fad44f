import WebFort.System
import WebFort.Server.Lemmas
import WebFort.Update.Frames

namespace WebFort

open Library

-- The events of one client that send tiles to it or move its camera.
def Event.Asks (hdl : Handle) : Event → Prop
  | .message j payload => j = hdl ∧ parseMessage payload = .update
  | _ => False

def Event.Moves (hdl : Handle) : Event → Prop
  | .message j payload => j = hdl ∧ ∃ dx dy dz, parseMessage payload = .camMove dx dy dz
  | _ => False

def Event.IsUpdate : Event → Prop
  | .update _ _ => True
  | _ => False

-- A client comes and goes with its own connection.
def Event.Ends (hdl : Handle) : Event → Prop
  | .opened j => j = hdl
  | .closed j => j = hdl
  | _ => False

theorem Event.Asks.exists {hdl : Handle} {e : Event} (h : e.Asks hdl) :
    ∃ payload, e = .message hdl payload ∧ parseMessage payload = .update := by
  cases e with
  | message j payload =>
      obtain ⟨rfl, hp⟩ := h
      exact ⟨payload, rfl, hp⟩
  | opened _ => exact h.elim
  | closed _ => exact h.elim
  | game _ => exact h.elim
  | update _ _ => exact h.elim

theorem Event.IsUpdate.exists {e : Event} (h : e.IsUpdate) : ∃ g df, e = .update g df := by
  cases e with
  | update g df => exact ⟨g, df, rfl⟩
  | opened _ => exact h.elim
  | message _ _ => exact h.elim
  | closed _ => exact h.elim
  | game _ => exact h.elim

theorem sendMapInfo_closes (s : Endpoint) (hdl : Handle) (st : State) :
    closes hdl (sendMapInfo s hdl st).out = false := by
  unfold sendMapInfo send
  split
  · rfl
  · split <;> simp [closes]

-- on_open closes the connection after one of its three tests, or registers a
-- client.
theorem onOpen_inv (s : Endpoint) (hdl : Handle) (st : State) :
    (¬(validateOpen s hdl ≠ wfInvalid ∧ st.clients.size < st.config.maxClients ∧
        pathNick s hdl ≠ nobody) ∧
      ∃ code reason, onOpen s hdl st = .emit st (.close hdl code reason)) ∨
    ((validateOpen s hdl ≠ wfInvalid ∧ st.clients.size < st.config.maxClients ∧
        pathNick s hdl ≠ nobody) ∧
      onOpen s hdl st = sendMapInfo s hdl (register s hdl st)) := by
  unfold onOpen
  split
  · rename_i hversion
    exact Or.inl ⟨fun h => h.1 hversion, _, _, rfl⟩
  · rename_i hversion
    split
    · rename_i hfull
      exact Or.inl ⟨fun h => absurd h.2.1 (by omega), _, _, rfl⟩
    · rename_i hroom
      split
      · rename_i hnick
        exact Or.inl ⟨fun h => h.2.2 hnick, _, _, rfl⟩
      · rename_i hnick
        exact Or.inr ⟨⟨hversion, by omega, hnick⟩, rfl⟩

-- Either a refusal, which changes nothing, or a new entry.
theorem onOpen_state (s : Endpoint) (hdl : Handle) (st : State) :
    (onOpen s hdl st).state = st ∨ (onOpen s hdl st).state = register s hdl st := by
  rcases onOpen_inv s hdl st with ⟨-, code, reason, h⟩ | ⟨-, h⟩
  · exact Or.inl (by rw [h]; rfl)
  · exact Or.inr (by rw [h, sendMapInfo_state])

-- on_close of a registered client, up to the delete.
def releaseTurn (c : Handle) (st : State) : State :=
  if st.activeConn = some c then (setActive none st).state else st

theorem releaseTurn_kept (c : Handle) (st : State) :
    Kept nobodys nobodys st (releaseTurn c st) := by
  unfold releaseTurn
  split
  · exact setActive_kept none st
  · exact Kept.refl st

theorem releaseTurn_activeConn (c : Handle) (st : State) :
    (releaseTurn c st).activeConn = if st.activeConn = some c then none else st.activeConn := by
  unfold releaseTurn
  split
  · exact setActive_activeConn none st
  · rfl

theorem onClose_absent {c : Handle} {st : State} (h : st.clients.find? c = none) :
    onClose c st = .ok (eraseClient c st) := by
  unfold onClose
  rw [h]

theorem onClose_registered {c : Handle} {cl : Client} {st : State}
    (h : st.clients.find? c = some cl) :
    onClose c st = .ok (eraseClient c (deleteClient cl (releaseTurn c st))) := by
  unfold onClose
  rw [h]
  unfold releaseTurn
  by_cases ha : st.activeConn = some c
  · simp only [if_pos ha]
    rw [Outcome.andThen_of_ok _ (setActive_threw none st), setActive_none_out]
    rfl
  · simp only [if_neg ha]
    rfl

theorem onClose_threw (c : Handle) (st : State) : (onClose c st).threw = false := by
  cases h : st.clients.find? c with
  | none => rw [onClose_absent h]; rfl
  | some cl => rw [onClose_registered h]; rfl

theorem onOpen_client (s : Endpoint) {hdl j : Handle} (st : State) (hj : hdl ≠ j) :
    (onOpen s j st).state.clients.find? hdl = st.clients.find? hdl := by
  rcases onOpen_state s j st with h | h
  · rw [h]
  · rw [h, register, OrdMap.find?_insert, if_neg hj]

theorem onOpen_screen (s : Endpoint) (hdl : Handle) (st : State) :
    SameScreen st (onOpen s hdl st).state := by
  rcases onOpen_state s hdl st with h | h
  · rw [h]
    exact ⟨rfl, rfl, rfl, rfl⟩
  · rw [h]
    exact ⟨rfl, rfl, rfl, rfl⟩

theorem onClose_client {hdl j : Handle} {cl : Client} (st : State) (hj : hdl ≠ j)
    (hcl : st.clients.find? hdl = some cl) :
    ∃ cl', (onClose j st).state.clients.find? hdl = some cl' ∧ Client.Kept False False cl cl' := by
  cases h : st.clients.find? j with
  | none =>
      refine ⟨cl, ?_, Client.Kept.refl cl⟩
      rw [onClose_absent h, Outcome.ok_state, eraseClient, OrdMap.find?_erase, if_neg hj, hcl]
  | some gone =>
      obtain ⟨cl', hcl', hk⟩ := (releaseTurn_kept j st).find? hcl
      refine ⟨cl', ?_, hk⟩
      rw [onClose_registered h, Outcome.ok_state, eraseClient, OrdMap.find?_erase, if_neg hj]
      exact hcl'

theorem onClose_screen (j : Handle) (st : State) : SameScreen st (onClose j st).state := by
  cases h : st.clients.find? j with
  | none =>
      rw [onClose_absent h]
      exact ⟨rfl, rfl, rfl, rfl⟩
  | some gone =>
      rw [onClose_registered h]
      exact { (releaseTurn_kept j st).screen with }

-- What everything but an update does to a client that stays.
theorem handle_client (s : Endpoint) (e : Event) (st : State) {hdl : Handle} {cl : Client}
    (hcl : st.clients.find? hdl = some cl) (hu : ¬e.IsUpdate) (he : ¬e.Ends hdl) :
    SameScreen st (handle s e st).state ∧
      ∃ cl', (handle s e st).state.clients.find? hdl = some cl' ∧
        Client.Kept (e.Asks hdl) (e.Moves hdl) cl cl' := by
  cases e with
  | opened j =>
      refine ⟨onOpen_screen s j st, cl, ?_, Client.Kept.refl cl⟩
      exact (onOpen_client s st (Ne.symm he)).trans hcl
  | message j payload =>
      have hk := onMessage_kept s j payload st
      obtain ⟨cl', hcl', hc⟩ := hk.find? hcl
      refine ⟨hk.screen, cl', hcl', hc.mono ?_ ?_⟩
      · exact fun h => ⟨h.1.symm, h.2⟩
      · exact fun h => ⟨h.1.symm, h.2⟩
  | closed j =>
      obtain ⟨cl', hcl', hc⟩ := onClose_client st (Ne.symm he) hcl
      exact ⟨onClose_screen j st, cl', hcl', hc.mono False.elim False.elim⟩
  | game g => exact ⟨⟨rfl, rfl, rfl, rfl⟩, cl, hcl, Client.Kept.refl cl⟩
  | update g df => exact absurd trivial hu

theorem handle_remarked (s : Endpoint) (e : Event) (st : State) {hdl : Handle} {cl : Client}
    (hcl : st.clients.find? hdl = some cl) (ha : ¬e.Asks hdl) (he : ¬e.Ends hdl) :
    ∃ cl', (handle s e st).state.clients.find? hdl = some cl' ∧ Client.Remarked cl cl' := by
  by_cases hu : e.IsUpdate
  · obtain ⟨g, df, rfl⟩ := hu.exists
    exact pluginOnupdate_remarked df (st.atGame g) hcl
  · obtain ⟨-, cl', hcl', hk⟩ := handle_client s e st hcl hu he
    exact ⟨cl', hcl', hk.mod ha⟩

section Sends

-- What an update does to its surroundings goes to DF.
def Out.ToGame : Out → Prop
  | .sdl _ => True
  | .feed _ => True
  | _ => False

variable {hdl : Handle}

theorem send_sends_of_ne (s : Endpoint) {j : Handle} (data : Bytes) (st : State) (hj : j ≠ hdl) :
    sends hdl (send s j data st).out = [] := by
  unfold send
  split
  · simp [sends, hj]
  · rfl

theorem setActive_sends (newc : Option Handle) (st : State) :
    sends hdl (setActive newc st).out = [] := by
  unfold setActive
  split
  · rfl
  · cases newc <;> rfl

theorem onOpen_sends (s : Endpoint) {j : Handle} (st : State) (hj : j ≠ hdl) :
    sends hdl (onOpen s j st).out = [] := by
  rcases onOpen_inv s j st with ⟨-, code, reason, h⟩ | ⟨-, h⟩
  · rw [h]
    rfl
  · rw [h, sendMapInfo]
    split
    · rfl
    · exact send_sends_of_ne s _ _ hj

theorem onClose_out (c : Handle) (st : State) : (onClose c st).out = [] := by
  cases h : st.clients.find? c with
  | none => rw [onClose_absent h]; rfl
  | some cl => rw [onClose_registered h]; rfl

theorem requestTurn_sends (j : Handle) (st : State) : sends hdl (requestTurn j st).out = [] := by
  unfold requestTurn
  split
  · exact setActive_sends none st
  · split
    · exact setActive_sends (some j) st
    · rfl

theorem onMessage_sends (s : Endpoint) (j : Handle) (payload : Bytes) (st : State)
    (h : ¬(j = hdl ∧ parseMessage payload = .update)) :
    sends hdl (onMessage s j payload st).out = [] := by
  unfold onMessage
  cases hp : parseMessage payload with
  | update =>
      have hj : ¬(hdl = j ∧ (s j).processor.takesBinary = true) := fun hb => h ⟨hb.1.symm, hp⟩
      exact (tock_sends s j hdl st).trans (if_neg hj)
  | requestTurn => exact requestTurn_sends j st
  | keyEvent _ _ _ => rfl
  | mouseEvent _ => rfl
  | cursorMove _ _ => rfl
  | refreshScreen => rfl
  | camMove _ _ _ => rfl

theorem feedMouse_emits (feed : List InterfaceKey → Game → Game) (ev : WFMouseEvent) (st : State) :
    (feedMouse feed ev st).Emits Out.ToGame := by
  unfold feedMouse feedKeys
  split
  · exact Outcome.emits_emit trivial
  · split
    · exact Outcome.emits_andThen (Outcome.emits_emit trivial) fun _ => Outcome.emits_emit trivial
    · exact Outcome.emits_andThen (Outcome.emits_emit trivial) fun _ => Outcome.emits_ok

theorem applyMouse_emits (feed : List InterfaceKey → Game → Game) (ev : WFMouseEvent) (st : State) :
    (applyMouse feed ev st).Emits Out.ToGame := by
  unfold applyMouse
  simp only
  split
  · exact Outcome.emits_ok
  · exact feedMouse_emits feed ev _

theorem applyMouseEvents_emits (df : Df) (evs : List WFMouseEvent) (st : State) :
    (applyMouseEvents df evs st).Emits Out.ToGame := by
  induction evs generalizing st with
  | nil => exact Outcome.emits_ok
  | cons ev rest ih => exact Outcome.emits_andThen (applyMouse_emits _ ev st) ih

theorem restampMouse_emits (df : Df) (st : State) : (restampMouse df st).Emits Out.ToGame := by
  unfold restampMouse feedKeys
  split
  · simp only
    split
    · exact Outcome.emits_ok
    · exact Outcome.emits_emit trivial
  · exact Outcome.emits_ok

theorem pluginOnupdate_emits (df : Df) (st : State) :
    (pluginOnupdate df st).Emits Out.ToGame := by
  refine Outcome.emits_andThen (Outcome.emits_andThen ?_ fun _ =>
    Outcome.emits_andThen ?_ fun _ => restampMouse_emits df _) fun _ => Outcome.emits_ok
  · intro o ho
    obtain ⟨ev, -, rfl⟩ := List.mem_map.mp ho
    trivial
  · exact applyMouseEvents_emits df _ _

theorem pluginOnupdate_sends (df : Df) (st : State) :
    sends hdl (pluginOnupdate df st).out = [] := by
  refine List.filterMap_eq_nil_iff.mpr fun o ho => ?_
  have hgame := pluginOnupdate_emits df st o ho
  cases o with
  | send j data => exact hgame.elim
  | close j code reason => rfl
  | quicksave => rfl
  | announcement text => rfl
  | sdl ev => rfl
  | feed keys => rfl

-- Only a tock of the client itself sends to a client that stays.
theorem handle_sends (s : Endpoint) (e : Event) (st : State) (ha : ¬e.Asks hdl)
    (he : ¬e.Ends hdl) : sends hdl (handle s e st).out = [] := by
  cases e with
  | opened j => exact onOpen_sends s st he
  | message j payload => exact onMessage_sends s j payload st ha
  | closed j => exact (congrArg (sends hdl) (onClose_out j st)).trans rfl
  | game g => rfl
  | update g df => exact pluginOnupdate_sends df _

end Sends

section Size

def Game.HasSize (w h : Nat) (g : Game) : Prop := g.gps.dimx = w ∧ g.gps.dimy = h

-- Feeding keys to a viewscreen does not resize the screen.
def Df.KeepsSize (df : Df) : Prop :=
  ∀ n keys g, (df.feed n keys g).gps.dimx = g.gps.dimx ∧ (df.feed n keys g).gps.dimy = g.gps.dimy

variable {w h : Nat}

theorem sizeOk_of_hasSize {g : Game} (hg : g.HasSize w h) (hw : 1 ≤ w ∧ w ≤ 256)
    (hh : 1 ≤ h ∧ h ≤ 256) : sizeOk g.gps = true := by
  obtain ⟨hx, hy⟩ := hg
  rw [sizeOk_iff, hx, hy]
  omega

theorem total_of_hasSize {g : Game} (hg : g.HasSize w h) : total g.gps = w * h := by
  unfold total
  rw [hg.1, hg.2, ← Int.natCast_mul, Int.toNat_natCast]

theorem pos_of_hasSize {g : Game} (hg : g.HasSize w h) (hw : 1 ≤ w) (hh : 1 ≤ h) :
    g.gps.dimx * g.gps.dimy > 0 := by
  rw [hg.1, hg.2]
  exact Int.mul_pos (by omega) (by omega)

theorem Df.KeepsSize.inert {df : Df} (hdf : df.KeepsSize) : Inert df (Game.HasSize w h) where
  feed n keys g hg := ⟨(hdf n keys g).1.trans hg.1, (hdf n keys g).2.trans hg.2⟩
  stampMouse _ _ _ hg := hg
  enabler _ _ hg := hg

theorem captured_hasSize {df : Df} (hdf : df.KeepsSize) {st : State} (hg : st.game.HasSize w h) :
    (captured df st).HasSize w h := by
  refine applyInput_game hdf.inert st ?_
  unfold Game.HasSize
  rw [syncCamera_game, drainCamera_gps]
  exact hg

theorem pluginOnupdate_hasSize {df : Df} (hdf : df.KeepsSize) {st : State}
    (hg : st.game.HasSize w h) : (pluginOnupdate df st).state.game.HasSize w h := by
  have hcap : (captureScreenBuffer (applyInput df st).state).game.HasSize w h := by
    rw [captureScreenBuffer_game]
    exact captured_hasSize hdf hg
  rw [pluginOnupdate_state]
  unfold updateGraphics renderClients
  simp only
  split
  · refine OrdMap.accum_invariant _ _ (fun g : Game => g.HasSize w h) ?_ _ hcap
    intro k cl g hg
    obtain ⟨hx, hy⟩ := renderPass_dims df _ _ _ _ k cl g
    exact ⟨hx.trans hg.1, hy.trans hg.2⟩
  · exact hcap

-- The game as an event leaves it, when it is not DF's turn.
theorem handle_game (s : Endpoint) (e : Event) (st : State) :
    (handle s e st).state.game = match e with
      | .game g => g
      | .update g df => (pluginOnupdate df (st.atGame g)).state.game
      | _ => st.game := by
  cases e with
  | opened j =>
      rcases onOpen_state s j st with h | h
      · exact congrArg State.game h
      · exact (congrArg State.game h).trans rfl
  | message j payload => exact (onMessage_kept s j payload st).game
  | closed j =>
      cases h : st.clients.find? j with
      | none => exact congrArg (fun r => r.state.game) (onClose_absent h)
      | some cl =>
          exact (congrArg (fun r => r.state.game) (onClose_registered h)).trans
            (releaseTurn_kept j st).game
  | game g => rfl
  | update g df => rfl

theorem handle_config (s : Endpoint) (e : Event) (st : State) :
    (handle s e st).state.config = st.config := by
  cases e with
  | opened hdl =>
      rcases onOpen_state s hdl st with h | h
      · exact congrArg State.config h
      · exact (congrArg State.config h).trans rfl
  | message hdl payload => exact (onMessage_kept s hdl payload st).config
  | closed hdl =>
      cases h : st.clients.find? hdl with
      | none => exact congrArg (fun r => r.state.config) (onClose_absent h)
      | some cl =>
          exact (congrArg (fun r => r.state.config) (onClose_registered h)).trans
            (releaseTurn_kept hdl st).config
  | game g => rfl
  | update g df => exact (pluginOnupdate_unticked df (st.atGame g)).config

theorem plugin_valid (s : Endpoint) (st : State) (es : List Event) : (plugin s).Valid st es :=
  (plugin s).valid_of_enabled (fun _ _ => trivial) st es

theorem plugin_config (s : Endpoint) (st : State) (es : List Event) :
    ((plugin s).exec st es).config = st.config := by
  induction es generalizing st with
  | nil => rfl
  | cons e es ih => exact (ih _).trans (handle_config s e st)

-- DF keeps the given screen size.
def Event.Sized (w h : Nat) : Event → Prop
  | .game g => g.HasSize w h
  | .update g df => g.HasSize w h ∧ df.KeepsSize
  | _ => True

theorem handle_hasSize (s : Endpoint) {e : Event} {st : State} (hg : st.game.HasSize w h)
    (he : e.Sized w h) : (handle s e st).state.game.HasSize w h := by
  rw [handle_game]
  cases e with
  | game g => exact he
  | update g df => exact pluginOnupdate_hasSize he.2 he.1
  | opened _ => exact hg
  | message _ _ => exact hg
  | closed _ => exact hg

end Size

end WebFort
