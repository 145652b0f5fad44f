import WebFort.Server.Handlers

namespace WebFort

open Library

-- What a handler does to a client it does not remove. Only a tock of the
-- client itself marks tiles as sent, and only its own camera moves count.
structure Client.Kept (sent moved : Prop) (cl cl' : Client) : Prop where
  id : cl'.id = cl.id
  addr : cl'.addr = cl.addr
  nick : cl'.nick = cl.nick
  isAdmin : cl'.isAdmin = cl.isAdmin
  ownSc : cl'.ownSc = cl.ownSc
  ownScPrev : cl'.ownScPrev = cl.ownScPrev
  mod : ¬sent → ∀ t, cl'.mod t ≠ 0 → cl'.mod t = cl.mod t
  hasOwnCam : ¬moved → cl'.hasOwnCam = cl.hasOwnCam

-- The same clients, and the fields no handler writes.
structure Kept (sent moved : Handle → Prop) (st st' : State) : Prop where
  client : OrdMap.Rel (fun j => Client.Kept (sent j) (moved j)) st.clients st'.clients
  nullNick : st'.nullClient.nick = st.nullClient.nick
  config : st'.config = st.config
  nextId : st'.nextId = st.nextId
  freed : st'.freed = st.freed
  sc : st'.sc = st.sc
  scPrev : st'.scPrev = st.scPrev
  scPrevDimx : st'.scPrevDimx = st.scPrevDimx
  scPrevDimy : st'.scPrevDimy = st.scPrevDimy
  game : st'.game = st.game

-- What identifies a client from its registration to its removal.
structure Client.Same (cl cl' : Client) : Prop where
  id : cl'.id = cl.id
  addr : cl'.addr = cl.addr
  nick : cl'.nick = cl.nick
  isAdmin : cl'.isAdmin = cl.isAdmin

-- No client came or went.
structure SameRegistry (st st' : State) : Prop where
  client : OrdMap.Rel (fun _ => Client.Same) st.clients st'.clients
  nullNick : st'.nullClient.nick = st.nullClient.nick
  config : st'.config = st.config
  nextId : st'.nextId = st.nextId
  freed : st'.freed = st.freed

-- The frame all shared clients get, which only a capture replaces.
structure SameScreen (st st' : State) : Prop where
  sc : st'.sc = st.sc
  scPrev : st'.scPrev = st.scPrev
  scPrevDimx : st'.scPrevDimx = st.scPrevDimx
  scPrevDimy : st'.scPrevDimy = st.scPrevDimy

def nobodys : Handle → Prop := fun _ => False

namespace Client.Kept

variable {sent moved sent' moved' : Prop} {a b c : Client}

theorem refl (cl : Client) : Client.Kept sent moved cl cl :=
  ⟨rfl, rfl, rfl, rfl, rfl, rfl, fun _ _ _ => rfl, fun _ => rfl⟩

theorem trans (hab : Client.Kept sent moved a b) (hbc : Client.Kept sent moved b c) :
    Client.Kept sent moved a c where
  id := hbc.id.trans hab.id
  addr := hbc.addr.trans hab.addr
  nick := hbc.nick.trans hab.nick
  isAdmin := hbc.isAdmin.trans hab.isAdmin
  ownSc := hbc.ownSc.trans hab.ownSc
  ownScPrev := hbc.ownScPrev.trans hab.ownScPrev
  mod := by
    intro hs t ht
    have hb := hbc.mod hs t ht
    rw [hb]
    exact hab.mod hs t (hb ▸ ht)
  hasOwnCam := fun hm => (hbc.hasOwnCam hm).trans (hab.hasOwnCam hm)

theorem mono (hs : sent → sent') (hm : moved → moved') (h : Client.Kept sent moved a b) :
    Client.Kept sent' moved' a b :=
  { h with mod := fun hn => h.mod (mt hs hn), hasOwnCam := fun hn => h.hasOwnCam (mt hm hn) }

theorem clearMod (cl : Client) : Client.Kept sent moved cl cl.clearMod where
  id := rfl
  addr := rfl
  nick := rfl
  isAdmin := rfl
  ownSc := rfl
  ownScPrev := rfl
  mod := by
    intro _ t ht
    simp only [Client.clearMod] at ht ⊢
    split at ht
    · exact absurd rfl ht
    · rw [if_neg ‹_›]
  hasOwnCam := fun _ => rfl

end Client.Kept

namespace Kept

variable {sent moved sent' moved' : Handle → Prop} {a b c st st' : State}

theorem refl (st : State) : Kept sent moved st st where
  client := OrdMap.rel_refl (fun _ => Client.Kept.refl) _
  nullNick := rfl
  config := rfl
  nextId := rfl
  freed := rfl
  sc := rfl
  scPrev := rfl
  scPrevDimx := rfl
  scPrevDimy := rfl
  game := rfl

theorem trans (hab : Kept sent moved a b) (hbc : Kept sent moved b c) : Kept sent moved a c where
  client := hab.client.trans hbc.client fun _ _ _ _ => Client.Kept.trans
  nullNick := hbc.nullNick.trans hab.nullNick
  config := hbc.config.trans hab.config
  nextId := hbc.nextId.trans hab.nextId
  freed := hbc.freed.trans hab.freed
  sc := hbc.sc.trans hab.sc
  scPrev := hbc.scPrev.trans hab.scPrev
  scPrevDimx := hbc.scPrevDimx.trans hab.scPrevDimx
  scPrevDimy := hbc.scPrevDimy.trans hab.scPrevDimy
  game := hbc.game.trans hab.game

theorem mono (hs : ∀ j, sent j → sent' j) (hm : ∀ j, moved j → moved' j)
    (h : Kept sent moved st st') : Kept sent' moved' st st' :=
  { h with client := h.client.mono fun j _ _ => Client.Kept.mono (hs j) (hm j) }

theorem of_nobodys (h : Kept nobodys nobodys st st') : Kept sent moved st st' :=
  h.mono (fun _ => False.elim) (fun _ => False.elim)

theorem find? (h : Kept sent moved st st') {j : Handle} {cl : Client}
    (hj : st.clients.find? j = some cl) :
    ∃ cl', st'.clients.find? j = some cl' ∧ Client.Kept (sent j) (moved j) cl cl' :=
  h.client.find? hj

theorem screen (h : Kept sent moved st st') : SameScreen st st' :=
  ⟨h.sc, h.scPrev, h.scPrevDimx, h.scPrevDimy⟩

theorem registry (h : Kept sent moved st st') : SameRegistry st st' :=
  { h with client := h.client.mono fun _ _ _ hk => ⟨hk.id, hk.addr, hk.nick, hk.isAdmin⟩ }

-- A write to one client.
theorem client_adjust (st : State) (hdl : Handle) (f : Client → Client)
    (hf : ∀ cl, Client.Kept (sent hdl) (moved hdl) cl (f cl)) :
    OrdMap.Rel (fun j => Client.Kept (sent j) (moved j)) st.clients (st.clients.adjust hdl f) :=
  OrdMap.rel_adjust (fun _ => Client.Kept.refl) _ hf

theorem withRegistered (st : State) (hdl : Handle) (f : Client → Client)
    (hf : ∀ cl, Client.Kept (sent hdl) (moved hdl) cl (f cl)) :
    Kept sent moved st (st.withRegistered hdl f) :=
  { (refl st : Kept sent moved st st) with
    client := client_adjust st hdl f hf }

theorem withClient (st : State) (hdl : Handle) (f : Client → Client)
    (hf : ∀ cl, Client.Kept (sent hdl) (moved hdl) cl (f cl)) :
    Kept sent moved st (st.withClient hdl f) := by
  refine { (refl st : Kept sent moved st st) with
    client := client_adjust st hdl f hf
    nullNick := ?_ }
  by_cases hr : st.registered hdl = true
  · simp only [State.withClient, if_pos hr]
  · simp only [State.withClient, if_neg hr]
    exact (hf _).nick

end Kept

theorem Client.Same.refl (cl : Client) : Client.Same cl cl := ⟨rfl, rfl, rfl, rfl⟩

theorem Client.Same.trans {a b c : Client} (hab : Client.Same a b) (hbc : Client.Same b c) :
    Client.Same a c :=
  ⟨hbc.id.trans hab.id, hbc.addr.trans hab.addr, hbc.nick.trans hab.nick,
    hbc.isAdmin.trans hab.isAdmin⟩

namespace SameRegistry

variable {st st' : State}

theorem refl (st : State) : SameRegistry st st :=
  ⟨OrdMap.rel_refl (fun _ => Client.Same.refl) _, rfl, rfl, rfl, rfl⟩

theorem size (h : SameRegistry st st') : st'.clients.size = st.clients.size := h.client.size

theorem find? (h : SameRegistry st st') {j : Handle} {cl : Client}
    (hj : st.clients.find? j = some cl) :
    ∃ cl', st'.clients.find? j = some cl' ∧ Client.Same cl cl' := h.client.find? hj

theorem find?_back (h : SameRegistry st st') {j : Handle} {cl' : Client}
    (hj : st'.clients.find? j = some cl') :
    ∃ cl, st.clients.find? j = some cl ∧ Client.Same cl cl' := h.client.find?_back hj

end SameRegistry

theorem send_state (s : Endpoint) (hdl : Handle) (data : Bytes) (st : State) :
    (send s hdl data st).state = st := by
  unfold send
  split <;> rfl

theorem sendMapInfo_state (s : Endpoint) (hdl : Handle) (st : State) :
    (sendMapInfo s hdl st).state = st := by
  unfold sendMapInfo
  split
  · rfl
  · exact send_state s hdl _ st

theorem dropCursor_kept (conn : Option Handle) (st : State) :
    Kept nobodys nobodys st (dropCursor conn st) := by
  cases conn with
  | none => exact Kept.refl st
  | some hdl =>
      exact Kept.withRegistered st hdl _ fun _ =>
        ⟨rfl, rfl, rfl, rfl, rfl, rfl, fun _ _ _ => rfl, fun _ => rfl⟩

theorem pauseGame_kept (st : State) : Kept nobodys nobodys st (pauseGame st) := by
  unfold pauseGame
  split
  · exact Kept.refl st
  · exact { Kept.refl st with }

theorem setActive_kept (newc : Option Handle) (st : State) :
    Kept nobodys nobodys st (setActive newc st).state := by
  unfold setActive
  split
  · exact Kept.refl st
  · have hold := dropCursor_kept st.activeConn st
    have hnew : ∀ st' : State, Kept nobodys nobodys st'
        (dropCursor newc { st' with activeConn := newc }) := fun st' =>
      { dropCursor_kept newc { st' with activeConn := newc } with }
    have hboth := hold.trans (hnew _)
    cases newc with
    | none =>
        refine hboth.trans (Kept.trans ?_ (pauseGame_kept _))
        split
        · exact { Kept.refl _ with }
        · exact Kept.refl _
    | some hdl =>
        refine hboth.trans (Kept.trans ?_ (pauseGame_kept _))
        refine Kept.withClient _ hdl _ fun cl => ?_
        exact { Client.Kept.clearMod cl with }

theorem idleTimer_kept (st : State) : Kept nobodys nobodys st (idleTimer st).state := by
  unfold idleTimer
  split
  · exact { Kept.refl st with }
  · exact Kept.refl st

theorem expireTurn_kept (st : State) : Kept nobodys nobodys st (expireTurn st).state := by
  unfold expireTurn
  split
  · exact setActive_kept none st
  · exact Kept.refl st

theorem sendUpdate_kept (s : Endpoint) (hdl : Handle) (activeCl : Client) (timeLeft : Int)
    (st : State) : Kept (· = hdl) nobodys st (sendUpdate s hdl activeCl timeLeft st).state := by
  unfold sendUpdate
  refine Outcome.andThen_frame (R := Kept (· = hdl) nobodys) (fun _ _ _ => Kept.trans) ?_ ?_
  · rw [send_state]
    exact Kept.withClient st hdl _ fun _ =>
      ⟨rfl, rfl, rfl, rfl, rfl, rfl, fun hn => absurd rfl hn, fun _ => rfl⟩
  · intro t
    rw [send_state]
    exact Kept.refl t

theorem tock_kept (s : Endpoint) (hdl : Handle) (st : State) :
    Kept (· = hdl) nobodys st (tock s hdl st).state := by
  unfold tock
  refine Outcome.andThen_frame (R := Kept (· = hdl) nobodys) (fun _ _ _ => Kept.trans)
    (idleTimer_kept st).of_nobodys fun idle => ?_
  exact Outcome.andThen_frame (R := Kept (· = hdl) nobodys) (fun _ _ _ => Kept.trans)
    (expireTurn_kept idle).of_nobodys fun after => sendUpdate_kept s hdl _ _ after

theorem requestTurn_kept (hdl : Handle) (st : State) :
    Kept nobodys nobodys st (requestTurn hdl st).state := by
  unfold requestTurn
  split
  · exact setActive_kept none st
  · split
    · exact setActive_kept (some hdl) st
    · exact Kept.refl st

section Shapes

variable (hdl : Handle) (st : State)

-- What the messages that do not move the turn write, whatever they decide.
theorem keyEvent_state (jsKey charCode jsmods : UInt8) :
    ∃ evs, keyEvent hdl jsKey charCode jsmods st = st.pushKeys evs := by
  have hnone : st.pushKeys [] = st := by simp [State.pushKeys]
  simp only [keyEvent]
  split
  · exact ⟨[], hnone.symm⟩
  · split
    · exact ⟨_, rfl⟩
    · exact ⟨[], hnone.symm⟩

theorem mouseEvent_state (ev : WFMouseEvent) :
    ∃ evs, mouseEvent hdl ev st = { st with mouseQueue := st.mouseQueue ++ evs } := by
  unfold mouseEvent
  split
  · exact ⟨[], by simp⟩
  · exact ⟨[ev], rfl⟩

theorem cursorMove_state (tileX tileY : UInt8) :
    ∃ f : Client → Client,
      (∀ cl, ∃ x y b, f cl = { cl with cursorX := x, cursorY := y, cursorActive := b }) ∧
        cursorMove hdl tileX tileY st = st.withRegistered hdl f := by
  unfold cursorMove
  split
  · refine ⟨id, fun cl => ⟨cl.cursorX, cl.cursorY, cl.cursorActive, rfl⟩, ?_⟩
    unfold State.withRegistered
    rw [OrdMap.adjust_id]
  · exact ⟨_, fun _ => ⟨_, _, _, rfl⟩, rfl⟩

theorem camMove_state (dx dy dz : UInt8) :
    (∃ x y z, camMove hdl dx dy dz st =
        { st with activeCamDx := x, activeCamDy := y, activeCamDz := z }) ∨
      camMove hdl dx dy dz st =
        st.withRegistered hdl (moveCamera st.game (int8 dx) (int8 dy) (int8 dz)) := by
  unfold camMove
  split
  · split
    · exact Or.inl ⟨_, _, _, rfl⟩
    · exact Or.inr rfl
  · exact Or.inl ⟨st.activeCamDx, st.activeCamDy, st.activeCamDz, rfl⟩

end Shapes

theorem keyEvent_kept (hdl : Handle) (jsKey charCode jsmods : UInt8) (st : State) :
    Kept nobodys nobodys st (keyEvent hdl jsKey charCode jsmods st) := by
  obtain ⟨evs, h⟩ := keyEvent_state hdl st jsKey charCode jsmods
  rw [h]
  exact { Kept.refl st with }

theorem mouseEvent_kept (hdl : Handle) (ev : WFMouseEvent) (st : State) :
    Kept nobodys nobodys st (mouseEvent hdl ev st) := by
  obtain ⟨evs, h⟩ := mouseEvent_state hdl st ev
  rw [h]
  exact { Kept.refl st with }

theorem cursorMove_kept (hdl : Handle) (tileX tileY : UInt8) (st : State) :
    Kept nobodys nobodys st (cursorMove hdl tileX tileY st) := by
  obtain ⟨f, hf, h⟩ := cursorMove_state hdl st tileX tileY
  rw [h]
  refine Kept.withRegistered st hdl f fun cl => ?_
  obtain ⟨x, y, b, hcl⟩ := hf cl
  rw [hcl]
  exact ⟨rfl, rfl, rfl, rfl, rfl, rfl, fun _ _ _ => rfl, fun _ => rfl⟩

theorem refreshScreen_kept (hdl : Handle) (st : State) :
    Kept nobodys nobodys st (refreshScreen hdl st) :=
  Kept.withClient st hdl _ Client.Kept.clearMod

theorem camMove_kept (hdl : Handle) (dx dy dz : UInt8) (st : State) :
    Kept nobodys (· = hdl) st (camMove hdl dx dy dz st) := by
  rcases camMove_state hdl st dx dy dz with ⟨x, y, z, h⟩ | h
  · rw [h]
    exact { Kept.refl st with }
  · rw [h]
    refine Kept.withRegistered st hdl _ fun cl => ?_
    have hc : Client.Kept False True cl cl.clearMod := Client.Kept.clearMod cl
    exact { hc with hasOwnCam := fun hn => absurd rfl hn }

-- Which messages send tiles and which ones move a camera.
theorem onMessage_kept (s : Endpoint) (hdl : Handle) (payload : Bytes) (st : State) :
    Kept (fun j => j = hdl ∧ parseMessage payload = .update)
      (fun j => j = hdl ∧ ∃ dx dy dz, parseMessage payload = .camMove dx dy dz)
      st (onMessage s hdl payload st).state := by
  unfold onMessage
  cases parseMessage payload with
  | keyEvent jsKey charCode jsmods => exact (keyEvent_kept hdl jsKey charCode jsmods st).of_nobodys
  | mouseEvent ev => exact (mouseEvent_kept hdl ev st).of_nobodys
  | cursorMove x y => exact (cursorMove_kept hdl x y st).of_nobodys
  | refreshScreen => exact (refreshScreen_kept hdl st).of_nobodys
  | camMove dx dy dz =>
      exact (camMove_kept hdl dx dy dz st).mono (fun _ => False.elim)
        fun _ hj => ⟨hj, dx, dy, dz, rfl⟩
  | requestTurn => exact (requestTurn_kept hdl st).of_nobodys
  | update => exact (tock_kept s hdl st).mono (fun _ hj => ⟨hj, rfl⟩) (fun _ => False.elim)

end WebFort
