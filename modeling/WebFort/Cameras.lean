import WebFort.Turns
import WebFort.Update.Clients

namespace WebFort

open Library

-- The camera of a client that does not look through the shared viewport.
def Client.ownCam (cl : Client) : Option Camera := if cl.hasOwnCam then some cl.cam else none

def ownCam (st : State) (j : Handle) : Option Camera := st.look Client.ownCam j

-- Who puts an own camera somewhere: the client with a CamMove, the update for
-- the holder of the turn.
inductive CamStep (j : Handle) (c : Camera) (st : State) : Event → Prop
  | kept {e : Event} (old : ownCam st j = some c) (other : e.IsUpdate → st.activeConn ≠ some j)
      (still : e.Moves j → st.activeConn = some j) (stays : ¬e.Ends j) : CamStep j c st e
  | moved {e : Event} (moves : e.Moves j) (watching : st.activeConn ≠ some j) (aim : Camera)
      (clamped : c = clampCamera st.game aim) : CamStep j c st e
  | synced (g : Game) (df : Df) (held : st.activeConn = some j)
      (viewport : c = synced (st.atGame g)) : CamStep j c st (.update g df)

section Steps

variable {s : Endpoint} {j : Handle} {c : Camera} {st : State} {e : Event}

theorem ownCam_dropCursor (conn : Option Handle) (st : State) :
    ownCam (dropCursor conn st) j = ownCam st j := by
  cases conn with
  | none => rfl
  | some hdl => exact look_withRegistered _ (Or.inr fun _ => rfl)

theorem ownCam_setActive (newc : Option Handle) (st : State) :
    ownCam (setActive newc st).state j = ownCam st j := by
  by_cases h : st.activeConn = newc
  · rw [setActive_same h]
    rfl
  · have hmoved : ownCam (setActive newc st).state j = _ :=
      look_setActive newc st (fun _ _ _ => rfl) h
    exact hmoved.trans ((ownCam_dropCursor newc _).trans (ownCam_dropCursor _ st))

theorem ownCam_turnPart (st : State) : ownCam (turnPart st) j = ownCam st j := by
  obtain ⟨timedOut, h | h⟩ := turnPart_state st
  · exact (congrArg (ownCam · j) h).trans rfl
  · exact (congrArg (ownCam · j) h).trans (ownCam_setActive none _)

theorem ownCam_requestTurn (hdl : Handle) (st : State) :
    ownCam (requestTurn hdl st).state j = ownCam st j := by
  unfold requestTurn
  split
  · exact ownCam_setActive none st
  · split
    · exact ownCam_setActive (some hdl) st
    · rfl

-- The move of a client that has not got the turn is bounded by the map.
theorem ownCam_camMove (hdl : Handle) (dx dy dz : UInt8) (st : State) :
    ownCam (camMove hdl dx dy dz st) j = ownCam st j ∧ (hdl = j → st.activeConn = some j) ∨
      (hdl = j ∧ st.activeConn ≠ some j) ∧ ∀ c, ownCam (camMove hdl dx dy dz st) j = some c →
        ∃ aim, c = clampCamera st.game aim := by
  by_cases hj : hdl = j
  · subst hj
    by_cases hact : st.activeConn = some hdl
    · refine Or.inl ⟨?_, fun _ => hact⟩
      unfold camMove
      rw [if_pos hact]
      split <;> rfl
    · refine Or.inr ⟨⟨rfl, hact⟩, fun c hc => ?_⟩
      unfold camMove at hc
      rw [if_neg hact] at hc
      split at hc
      · unfold ownCam State.look at hc
        rw [State.withRegistered_find?, if_pos rfl, Option.bind_map] at hc
        obtain ⟨cl, -, hcl⟩ := Option.bind_eq_some_iff.mp hc
        exact ⟨_, (Option.some.inj hcl).symm⟩
      · rename_i hreg
        have hnone : st.clients.find? hdl = none := by
          simpa [State.registered] using hreg
        exact absurd ((look_of_none hnone).symm.trans hc) (by simp)
  · refine Or.inl ⟨?_, fun h => absurd h hj⟩
    rcases camMove_state hdl st dx dy dz with ⟨x, y, z, h⟩ | h
    · exact (congrArg (ownCam · j) h).trans rfl
    · rw [h]
      exact look_withRegistered _ (Or.inl (Ne.symm hj))

theorem ownCam_onMessage (s : Endpoint) (hdl : Handle) (payload : Bytes) (st : State) :
    ownCam (onMessage s hdl payload st).state j = ownCam st j ∧
        (Event.Moves j (.message hdl payload) → st.activeConn = some j) ∨
      (Event.Moves j (.message hdl payload) ∧ st.activeConn ≠ some j) ∧
        ∀ c, ownCam (onMessage s hdl payload st).state j = some c →
          ∃ aim, c = clampCamera st.game aim := by
  have hstill : (∀ dx dy dz, parseMessage payload ≠ .camMove dx dy dz) →
      Event.Moves j (.message hdl payload) → st.activeConn = some j :=
    fun hp ⟨_, dx, dy, dz, hmove⟩ => absurd hmove (hp dx dy dz)
  cases hp : parseMessage payload with
  | keyEvent jsKey code jsmods =>
      obtain ⟨evs, h⟩ := keyEvent_state hdl st jsKey code jsmods
      refine Or.inl ⟨?_, hstill (by simp [hp])⟩
      rw [onMessage, hp]
      exact (congrArg (ownCam · j) h).trans rfl
  | mouseEvent ev =>
      obtain ⟨evs, h⟩ := mouseEvent_state hdl st ev
      refine Or.inl ⟨?_, hstill (by simp [hp])⟩
      rw [onMessage, hp]
      exact (congrArg (ownCam · j) h).trans rfl
  | cursorMove x y =>
      obtain ⟨f, hf, h⟩ := cursorMove_state hdl st x y
      refine Or.inl ⟨?_, hstill (by simp [hp])⟩
      rw [onMessage, hp]
      refine (congrArg (ownCam · j) h).trans (look_withRegistered f (Or.inr fun cl => ?_))
      obtain ⟨_, _, _, hcl⟩ := hf cl
      rw [hcl]
      rfl
  | refreshScreen =>
      refine Or.inl ⟨?_, hstill (by simp [hp])⟩
      rw [onMessage, hp]
      exact look_withClient _ (Or.inr fun _ => rfl)
  | camMove dx dy dz =>
      rw [onMessage, hp]
      rcases ownCam_camMove (j := j) hdl dx dy dz st with ⟨h, hact⟩ | ⟨⟨hj, hact⟩, h⟩
      · exact Or.inl ⟨h, fun hmoves => hact hmoves.1⟩
      · exact Or.inr ⟨⟨⟨hj, dx, dy, dz, hp⟩, hact⟩, h⟩
  | requestTurn =>
      refine Or.inl ⟨?_, hstill (by simp [hp])⟩
      rw [onMessage, hp]
      exact ownCam_requestTurn hdl st
  | update =>
      refine Or.inl ⟨?_, hstill (by simp [hp])⟩
      rw [onMessage, hp]
      show ownCam (tock s hdl st).state j = _
      rw [tock_state]
      refine Eq.trans ?_ (ownCam_turnPart st)
      exact look_withClient _ (Or.inr fun _ => rfl)

theorem ownCam_onOpen {hdl : Handle} (hj : hdl ≠ j) :
    ownCam (onOpen s hdl st).state j = ownCam st j :=
  look_congr (onOpen_client s st (Ne.symm hj))

-- A new client has none.
theorem ownCam_opened (hnew : st.clients.find? j = none) :
    ownCam (onOpen s j st).state j = none := by
  rcases onOpen_state s j st with h | h
  · rw [h]
    exact look_of_none hnew
  · rw [h]
    exact look_of_find? ((Registry.register_find? s j j st).trans (if_pos rfl))

theorem ownCam_onClose (hdl : Handle) (st : State) :
    ownCam (onClose hdl st).state j = if j = hdl then none else ownCam st j := by
  cases hcl : st.clients.find? hdl with
  | none =>
      rw [onClose_absent hcl]
      exact look_eraseClient hdl st
  | some cl =>
      have hrelease : ownCam (releaseTurn hdl st) j = ownCam st j := by
        unfold releaseTurn
        split
        · exact ownCam_setActive none st
        · rfl
      rw [onClose_registered hcl, ← hrelease]
      exact look_eraseClient hdl _

theorem ownCam_pluginOnupdate (df : Df) (st : State) :
    ownCam (pluginOnupdate df st).state j =
      if st.activeConn = some j then (st.clients.find? j).map fun _ => synced st
      else ownCam st j := by
  have hlook := look_pluginOnupdate df st (p := Client.ownCam) (fun _ _ _ _ => rfl) j
  rw [Option.map_eq_bind]
  exact hlook

-- The cameras the loop of an update finds are the ones it leaves behind.
theorem ownCam_captured (df : Df) (st : State) :
    ownCam (captureScreenBuffer (applyInput df st).state) j =
      ownCam (pluginOnupdate df st).state j :=
  (look_captured df st (p := Client.ownCam) (fun _ _ _ _ => rfl) j).trans
    (look_pluginOnupdate df st (p := Client.ownCam) (fun _ _ _ _ => rfl) j).symm

theorem camStep_of_handle (hnew : e = .opened j → st.clients.find? j = none)
    (h : ownCam (handle s e st).state j = some c) : CamStep j c st e := by
  cases e with
  | opened hdl =>
      by_cases hj : hdl = j
      · subst hj
        exact absurd ((ownCam_opened (hnew rfl)).symm.trans h) (by simp)
      · exact .kept ((ownCam_onOpen hj).symm.trans h) False.elim False.elim hj
  | message hdl payload =>
      rcases ownCam_onMessage (j := j) s hdl payload st with
        ⟨hsame, hstill⟩ | ⟨⟨hmoves, hact⟩, hclamp⟩
      · exact .kept (hsame.symm.trans h) False.elim hstill not_false
      · obtain ⟨aim, haim⟩ := hclamp c h
        exact .moved hmoves hact aim haim
  | closed hdl =>
      have hold := (ownCam_onClose hdl st).symm.trans h
      by_cases hj : j = hdl
      · rw [if_pos hj] at hold
        cases hold
      · rw [if_neg hj] at hold
        exact .kept hold False.elim False.elim (Ne.symm hj)
  | game g => exact .kept h False.elim False.elim not_false
  | update g df =>
      have hupdate := (ownCam_pluginOnupdate df (st.atGame g)).symm.trans h
      by_cases hheld : (st.atGame g).activeConn = some j
      · rw [if_pos hheld] at hupdate
        obtain ⟨cl, -, hc⟩ := Option.map_eq_some_iff.mp hupdate
        exact .synced g df hheld hc.symm
      · rw [if_neg hheld] at hupdate
        exact .kept hupdate (fun _ => hheld) False.elim not_false

end Steps

end WebFort
