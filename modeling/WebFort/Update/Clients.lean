import WebFort.Update.Frames
import WebFort.Server.Look

namespace WebFort

open Library

-- What the capture and the passes write in a client.
def Client.Redrawn (cl cl' : Client) : Prop :=
  ∃ mod ownSc ownScPrev, cl' = { cl with mod := mod, ownSc := ownSc, ownScPrev := ownScPrev }

namespace Client.Redrawn

theorem refl (cl : Client) : Client.Redrawn cl cl := ⟨_, _, _, rfl⟩

theorem trans {a b c : Client} (hab : Client.Redrawn a b) (hbc : Client.Redrawn b c) :
    Client.Redrawn a c := by
  obtain ⟨_, _, _, rfl⟩ := hab
  obtain ⟨_, _, _, rfl⟩ := hbc
  exact ⟨_, _, _, rfl⟩

end Client.Redrawn

theorem Client.share_redrawn (sc scPrev : Buffer) (dimsChanged : Bool) (total : Nat)
    (cl : Client) : Client.Redrawn cl (cl.share sc scPrev dimsChanged total) := by
  unfold Client.share
  split
  · exact Client.Redrawn.refl cl
  · simp only
    split <;> exact ⟨_, _, _, rfl⟩

theorem captureScreenBuffer_redrawn (st : State) {j : Handle} {cl : Client}
    (hcl : st.clients.find? j = some cl) :
    ∃ cl', (captureScreenBuffer st).clients.find? j = some cl' ∧ Client.Redrawn cl cl' := by
  rcases ready_or_not st.game.gps with ⟨screen, hs, hk⟩ | h
  · rw [captureScreenBuffer_ready hs hk]
    simp only [OrdMap.find?_mapVals, hcl, Option.map_some]
    exact ⟨_, rfl, cl.share_redrawn _ _ _ _⟩
  · rw [captureScreenBuffer_not_ready h]
    exact ⟨cl, hcl, Client.Redrawn.refl cl⟩

theorem renderPass_redrawn (df : Df) (sc : Buffer) (mouseTile : Int × Int) (save : Camera)
    (total : Nat) (hdl : Handle) (cl : Client) (g : Game) :
    Client.Redrawn cl (renderPass df sc mouseTile save total hdl cl g).1 := by
  cases h : cl.hasOwnCam with
  | false =>
      rw [renderPass_shared df sc mouseTile save total hdl g h]
      exact Client.Redrawn.refl cl
  | true =>
      obtain ⟨own, ho⟩ := renderPass_own df sc mouseTile save total hdl g h
      rw [ho]
      exact ⟨_, _, _, rfl⟩

section Cameras

variable (df : Df) (st : State) {j : Handle} {cl : Client}

-- The viewport as the active player's queued moves leave it.
def synced (st : State) : Camera := (drainCamera st).game.window

-- The player with the turn gets the viewport for a camera of its own.
theorem applyInput_client (hcl : st.clients.find? j = some cl) :
    ∃ cl', (applyInput df st).state.clients.find? j = some cl' ∧
      Client.Redrawn (if st.activeConn = some j then
        { cl with cam := synced st, hasOwnCam := true } else cl) cl' := by
  rw [applyInput_clients, syncCamera_find?, drainCamera_activeConn]
  by_cases hj : st.activeConn = some j
  · rw [if_pos hj, if_pos hj]
    rcases drainCamera_find? st j with h | ⟨-, h⟩
    · rw [h, hcl]
      exact ⟨_, rfl, Client.Redrawn.refl _⟩
    · rw [h, hcl]
      exact ⟨_, rfl, _, _, _, rfl⟩
  · rw [if_neg hj, if_neg hj, (drainCamera_find? st j).resolve_right fun h => hj h.1]
    exact ⟨cl, hcl, Client.Redrawn.refl cl⟩

theorem captured_client (hcl : st.clients.find? j = some cl) :
    ∃ cl', (captureScreenBuffer (applyInput df st).state).clients.find? j = some cl' ∧
      Client.Redrawn (if st.activeConn = some j then
        { cl with cam := synced st, hasOwnCam := true } else cl) cl' := by
  obtain ⟨cl1, hcl1, hinput⟩ := applyInput_client df st hcl
  obtain ⟨cl2, hcl2, hcapture⟩ := captureScreenBuffer_redrawn (applyInput df st).state hcl1
  exact ⟨cl2, hcl2, hinput.trans hcapture⟩

theorem pluginOnupdate_client (hcl : st.clients.find? j = some cl) :
    ∃ cl', (pluginOnupdate df st).state.clients.find? j = some cl' ∧
      Client.Redrawn (if st.activeConn = some j then
        { cl with cam := synced st, hasOwnCam := true } else cl) cl' := by
  obtain ⟨cl2, hcl2, hcaptured⟩ := captured_client df st hcl
  obtain ⟨g, hg⟩ := pluginOnupdate_find? df st j
  rw [hg, hcl2]
  refine ⟨_, rfl, hcaptured.trans ?_⟩
  split
  · exact renderPass_redrawn df _ _ _ _ j cl2 g
  · exact Client.Redrawn.refl cl2

section Look

variable {α : Type} {p : Client → Option α}

-- The same for whatever the drawing does not concern.
theorem look_drawn {st' : State}
    (hp : ∀ cl mod ownSc ownScPrev,
      p { cl with mod := mod, ownSc := ownSc, ownScPrev := ownScPrev } = p cl)
    (hnone : st.clients.find? j = none → st'.clients.find? j = none)
    (hsome : ∀ cl, st.clients.find? j = some cl → ∃ cl', st'.clients.find? j = some cl' ∧
      Client.Redrawn (if st.activeConn = some j then
        { cl with cam := synced st, hasOwnCam := true } else cl) cl') :
    st'.look p j =
      if st.activeConn = some j then
        (st.clients.find? j).bind fun cl => p { cl with cam := synced st, hasOwnCam := true }
      else st.look p j := by
  cases hcl : st.clients.find? j with
  | none => rw [look_of_none (hnone hcl), look_of_none hcl, Option.bind_none, ite_self]
  | some cl =>
      obtain ⟨cl', hcl', mod, ownSc, ownScPrev, rfl⟩ := hsome cl hcl
      rw [look_of_find? hcl', look_of_find? hcl, hp]
      split <;> rfl

theorem look_captured
    (hp : ∀ cl mod ownSc ownScPrev,
      p { cl with mod := mod, ownSc := ownSc, ownScPrev := ownScPrev } = p cl) (j : Handle) :
    (captureScreenBuffer (applyInput df st).state).look p j =
      if st.activeConn = some j then
        (st.clients.find? j).bind fun cl => p { cl with cam := synced st, hasOwnCam := true }
      else st.look p j :=
  look_drawn st hp
    (((applyInput_unticked df st).trans (captureScreenBuffer_unticked _)).client.find?_none ·)
    fun _ hcl => captured_client df st hcl

theorem look_pluginOnupdate
    (hp : ∀ cl mod ownSc ownScPrev,
      p { cl with mod := mod, ownSc := ownSc, ownScPrev := ownScPrev } = p cl) (j : Handle) :
    (pluginOnupdate df st).state.look p j =
      if st.activeConn = some j then
        (st.clients.find? j).bind fun cl => p { cl with cam := synced st, hasOwnCam := true }
      else st.look p j :=
  look_drawn st hp ((pluginOnupdate_unticked df st).client.find?_none ·)
    fun _ hcl => pluginOnupdate_client df st hcl

end Look

end Cameras

end WebFort
