import WebFort.Update.Lemmas

namespace WebFort

open Library

-- The last two steps of an update, and the state they meet.

theorem captureScreenBuffer_ready {st : State} {screen : Nat → Glyph}
    (hs : st.game.gps.screen = some screen) (hk : sizeOk st.game.gps = true) :
    captureScreenBuffer st =
      { st with
        sc := st.sc.copy (frame st.game screen) (total st.game.gps)
        clients := st.clients.mapVals fun _ cl =>
          cl.share (st.sc.copy (frame st.game screen) (total st.game.gps)) st.scPrev
            (st.game.gps.dimx ≠ st.scPrevDimx || st.game.gps.dimy ≠ st.scPrevDimy)
            (total st.game.gps)
        scPrev := st.scPrev.copy (st.sc.copy (frame st.game screen) (total st.game.gps))
          (total st.game.gps)
        scPrevDimx := st.game.gps.dimx
        scPrevDimy := st.game.gps.dimy } := by
  unfold captureScreenBuffer
  rw [hs]
  simp only [hk, if_true, fillScreenBuffer_ready st.game st.sc screen hs hk]

theorem captureScreenBuffer_not_ready {st : State}
    (h : st.game.gps.screen = none ∨ sizeOk st.game.gps = false) : captureScreenBuffer st = st := by
  unfold captureScreenBuffer
  rcases h with hs | hk
  · rw [hs]
  · split
    · rfl
    · rw [if_neg (by simp [hk])]

theorem ready_or_not (gps : Gps) :
    (∃ screen, gps.screen = some screen ∧ sizeOk gps = true) ∨
      (gps.screen = none ∨ sizeOk gps = false) := by
  cases hs : gps.screen with
  | none => exact Or.inr (Or.inl rfl)
  | some screen =>
      cases hk : sizeOk gps with
      | false => exact Or.inr (Or.inr rfl)
      | true => exact Or.inl ⟨screen, rfl, rfl⟩

theorem captureScreenBuffer_game (st : State) : (captureScreenBuffer st).game = st.game := by
  rcases ready_or_not st.game.gps with ⟨screen, hs, hk⟩ | h
  · rw [captureScreenBuffer_ready hs hk]
  · rw [captureScreenBuffer_not_ready h]

section Passes

variable (df : Df) (sc : Buffer) (mouseTile : Int × Int) (save : Camera) (total : Nat)

theorem renderPass_shared (hdl : Handle) {cl : Client} (g : Game) (h : cl.hasOwnCam = false) :
    renderPass df sc mouseTile save total hdl cl g = (cl, g) := by
  simp [renderPass, h]

-- An own camera gets some frame, then the diff against the last one.
theorem renderPass_own (hdl : Handle) {cl : Client} (g : Game) (h : cl.hasOwnCam = true) :
    ∃ own : Buffer, (renderPass df sc mouseTile save total hdl cl g).1 =
      Client.diffOwn total { cl with ownSc := own } := by
  unfold renderPass
  rw [if_neg (by simp [h])]
  split
  · exact ⟨_, rfl⟩
  · exact ⟨_, rfl⟩

-- The aim of an extra render changes the mouse alone.
theorem translateMouse_eq (mouseTile : Int × Int) (save cam : Camera) (g : Game) :
    ∃ x y px py, translateMouse mouseTile save cam g = g.setMouse x y px py := by
  unfold translateMouse
  split
  · simp only
    split
    · exact ⟨_, _, _, _, rfl⟩
    · exact ⟨_, _, _, _, rfl⟩
  · exact ⟨_, _, _, _, rfl⟩

theorem drawFor_dims (render : Game → RenderEffect) (cam : Camera) (g : Game) :
    (drawFor render mouseTile save cam g).gps.dimx = g.gps.dimx ∧
      (drawFor render mouseTile save cam g).gps.dimy = g.gps.dimy := by
  obtain ⟨x, y, px, py, haim⟩ := translateMouse_eq mouseTile save cam g
  unfold drawFor renderTop
  rw [haim]
  split <;> exact ⟨rfl, rfl⟩

theorem renderPass_dims (hdl : Handle) (cl : Client) (g : Game) :
    (renderPass df sc mouseTile save total hdl cl g).2.gps.dimx = g.gps.dimx ∧
      (renderPass df sc mouseTile save total hdl cl g).2.gps.dimy = g.gps.dimy := by
  unfold renderPass
  split
  · exact ⟨rfl, rfl⟩
  · split
    · exact ⟨rfl, rfl⟩
    · exact drawFor_dims mouseTile save (df.render hdl) cl.cam g

end Passes

-- Every client goes through one pass, in some state of the game.
theorem renderClients_find? (df : Df) (st : State) (j : Handle) :
    ∃ g : Game, (renderClients df st).clients.find? j = (st.clients.find? j).map fun cl =>
      if st.game.gps.dimx * st.game.gps.dimy > 0 then
        (renderPass df st.sc (st.mouseTileX, st.mouseTileY) st.game.window
          (total st.game.gps) j cl g).1
      else cl := by
  unfold renderClients
  simp only
  by_cases hpos : st.game.gps.dimx * st.game.gps.dimy > 0
  · simp only [if_pos hpos]
    obtain ⟨g, -, hg⟩ := OrdMap.find?_accum st.clients
      (renderPass df st.sc (st.mouseTileX, st.mouseTileY) st.game.window (total st.game.gps))
      (fun _ => True) (fun _ _ _ _ => trivial) j st.game trivial
    exact ⟨g, hg⟩
  · simp only [if_neg hpos, Option.map_id']
    exact ⟨st.game, trivial⟩

theorem pluginOnupdate_find? (df : Df) (st : State) (j : Handle) :
    ∃ g : Game, (pluginOnupdate df st).state.clients.find? j =
      ((captureScreenBuffer (applyInput df st).state).clients.find? j).map fun cl =>
        if (applyInput df st).state.game.gps.dimx * (applyInput df st).state.game.gps.dimy > 0 then
          (renderPass df (captureScreenBuffer (applyInput df st).state).sc
            ((captureScreenBuffer (applyInput df st).state).mouseTileX,
              (captureScreenBuffer (applyInput df st).state).mouseTileY)
            (applyInput df st).state.game.window (total (applyInput df st).state.game.gps) j cl g).1
        else cl := by
  obtain ⟨g, hg⟩ := renderClients_find? df (captureScreenBuffer (applyInput df st).state) j
  rw [captureScreenBuffer_game] at hg
  refine ⟨g, ?_⟩
  rw [pluginOnupdate_state]
  exact hg

-- The camera steps reach the active player only.
theorem syncCamera_find? (st : State) (j : Handle) :
    (syncCamera st).clients.find? j =
      if st.activeConn = some j then
        (st.clients.find? j).map fun cl => { cl with cam := st.game.window, hasOwnCam := true }
      else st.clients.find? j := by
  unfold syncCamera State.withActive
  cases h : st.activeConn with
  | none => simp
  | some hdl =>
      simp only [State.withRegistered_find?, Option.some.injEq, eq_comm (a := j)]

-- The queued moves of the active player make it be sent everything again.
def Drains (j : Handle) (st : State) : Prop :=
  st.activeConn = some j ∧ (st.activeCamDx ≠ 0 ∨ st.activeCamDy ≠ 0 ∨ st.activeCamDz ≠ 0)

instance (j : Handle) (st : State) : Decidable (Drains j st) :=
  inferInstanceAs (Decidable (_ ∧ _))

theorem drainCamera_find?_eq (st : State) (j : Handle) :
    (drainCamera st).clients.find? j =
      if Drains j st then (st.clients.find? j).map Client.clearMod else st.clients.find? j := by
  unfold drainCamera State.withActive State.withGame
  simp only
  split
  · rename_i hmoved
    have hdrains : Drains j st ↔ st.activeConn = some j := and_iff_left hmoved
    simp only [hdrains]
    cases h : st.activeConn with
    | none => simp
    | some hdl => simp only [State.withRegistered_find?, Option.some.injEq, eq_comm (a := j)]
  · rename_i hstill
    rw [if_neg fun h => hstill h.2]

theorem drainCamera_find? (st : State) (j : Handle) :
    (drainCamera st).clients.find? j = st.clients.find? j ∨
      (st.activeConn = some j ∧
        (drainCamera st).clients.find? j = (st.clients.find? j).map Client.clearMod) := by
  rw [drainCamera_find?_eq]
  split
  · rename_i h
    exact Or.inr ⟨h.1, rfl⟩
  · exact Or.inl rfl

theorem withActive_eq (st : State) (f : Client → Client) :
    ∃ clients, st.withActive f = { st with clients := clients } := by
  unfold State.withActive
  split
  · exact ⟨st.clients, rfl⟩
  · exact ⟨_, rfl⟩

theorem withActive_game (st : State) (f : Client → Client) : (st.withActive f).game = st.game := by
  obtain ⟨clients, h⟩ := withActive_eq st f
  rw [h]

-- The queued moves go into the window.
theorem drainCamera_eq (st : State) : ∃ clients w, drainCamera st = { st with
    activeCamDx := 0
    activeCamDy := 0
    activeCamDz := 0
    clients := clients
    game := st.game.setWindow w } := by
  unfold drainCamera
  simp only
  split
  · exact (withActive_eq _ Client.clearMod).imp fun clients h => ⟨_, h⟩
  · exact ⟨st.clients, st.game.window, rfl⟩

theorem drainCamera_game (st : State) :
    (drainCamera st).game =
      if st.activeCamDx ≠ 0 ∨ st.activeCamDy ≠ 0 ∨ st.activeCamDz ≠ 0 then
        st.game.setWindow (clampCamera st.game
          ⟨int32 (st.game.window.x + st.activeCamDx), int32 (st.game.window.y + st.activeCamDy),
            int32 (st.game.window.z + st.activeCamDz)⟩)
      else st.game := by
  unfold drainCamera
  simp only
  split
  · rw [withActive_game]
    rfl
  · rfl

@[simp] theorem drainCamera_activeConn (st : State) :
    (drainCamera st).activeConn = st.activeConn := by
  obtain ⟨clients, w, h⟩ := drainCamera_eq st
  rw [h]

theorem drainCamera_gps (st : State) : (drainCamera st).game.gps = st.game.gps := by
  obtain ⟨clients, w, h⟩ := drainCamera_eq st
  rw [h]
  rfl

theorem syncCamera_game (st : State) : (syncCamera st).game = st.game := by
  rw [syncCamera, withActive_game]

theorem applyInput_clients (df : Df) (st : State) :
    (applyInput df st).state.clients = (syncCamera (drainCamera st)).clients := by
  obtain ⟨_, _, _, _, _, h⟩ := applyInput_touched df st
  rw [h]

-- Nobody but the active player is touched before the capture.
theorem applyInput_find?_of_ne (df : Df) (st : State) {j : Handle} (hj : st.activeConn ≠ some j) :
    (applyInput df st).state.clients.find? j = st.clients.find? j := by
  rw [applyInput_clients, syncCamera_find?, drainCamera_activeConn, if_neg hj]
  exact (drainCamera_find? st j).resolve_right fun h => hj h.1

-- A client as the capture finds it.
def Client.drained (st : State) (j : Handle) (cl : Client) : Client :=
  if Drains j st then cl.clearMod else cl

def Client.taken (st : State) (j : Handle) (cl : Client) : Client :=
  if st.activeConn = some j then
    { cl.drained st j with cam := (drainCamera st).game.window, hasOwnCam := true }
  else cl.drained st j

theorem applyInput_taken (df : Df) (st : State) {j : Handle} {cl : Client}
    (hcl : st.clients.find? j = some cl) :
    (applyInput df st).state.clients.find? j = some (cl.taken st j) := by
  have hdrain : (drainCamera st).clients.find? j = some (cl.drained st j) := by
    rw [drainCamera_find?_eq, hcl]
    unfold Client.drained
    split <;> rfl
  rw [applyInput_clients, syncCamera_find?, drainCamera_activeConn, hdrain]
  unfold Client.taken
  split <;> rfl

theorem Client.drained_kept (st : State) (j : Handle) (cl : Client) (moved : Prop) :
    Client.Kept False moved cl (cl.drained st j) := by
  unfold Client.drained
  split
  · exact Client.Kept.clearMod cl
  · exact Client.Kept.refl cl

theorem Client.taken_kept (st : State) (j : Handle) (cl : Client) :
    Client.Kept False (st.activeConn = some j) cl (cl.taken st j) := by
  unfold Client.taken
  split
  · rename_i hact
    exact { cl.drained_kept st j True with hasOwnCam := fun hn => absurd hact hn }
  · exact cl.drained_kept st j _

theorem Client.taken_hasOwnCam {st : State} {j : Handle} {cl : Client} :
    (cl.taken st j).hasOwnCam = true ↔ cl.hasOwnCam = true ∨ st.activeConn = some j := by
  unfold Client.taken
  split
  · rename_i hact
    exact iff_of_true rfl (Or.inr hact)
  · rename_i hact
    rw [or_iff_left hact, (cl.drained_kept st j False).hasOwnCam not_false]

theorem applyInput_kept (df : Df) (st : State) {j : Handle} {cl : Client}
    (hcl : st.clients.find? j = some cl) :
    ∃ cl', (applyInput df st).state.clients.find? j = some cl' ∧
      Client.Kept False (st.activeConn = some j) cl cl' :=
  ⟨_, applyInput_taken df st hcl, cl.taken_kept st j⟩

section Buffers

theorem applyInput_screen (df : Df) (st : State) : SameScreen st (applyInput df st).state := by
  have hdrain : SameScreen st (drainCamera st) := by
    obtain ⟨clients, w, h⟩ := drainCamera_eq st
    rw [h]
    exact ⟨rfl, rfl, rfl, rfl⟩
  have hsync : SameScreen st (syncCamera (drainCamera st)) := by
    obtain ⟨clients, h⟩ := withActive_eq (drainCamera st) fun cl =>
      { cl with cam := (drainCamera st).game.window, hasOwnCam := true }
    rw [syncCamera, h]
    exact { hdrain with }
  obtain ⟨_, _, _, _, _, h⟩ := applyInput_touched df st
  rw [h]
  exact { hsync with }

-- The passes and the atlas leave the shared frame to the capture.
theorem pluginOnupdate_screen (df : Df) (st : State) :
    SameScreen (captureScreenBuffer (applyInput df st).state) (pluginOnupdate df st).state := by
  rw [pluginOnupdate_state]
  unfold updateGraphics renderClients
  simp only
  split <;> exact ⟨rfl, rfl, rfl, rfl⟩

-- The screen size and the picture an update captures.
def captured (df : Df) (st : State) : Game := (applyInput df st).state.game

variable {df : Df} {st : State} {j : Handle} {cl : Client}

-- What a tick with a screen leaves of the shared frame.
theorem pluginOnupdate_ready {screen : Nat → Glyph} (hs : (captured df st).gps.screen = some screen)
    (hk : sizeOk (captured df st).gps = true) :
    (pluginOnupdate df st).state.sc =
        st.sc.copy (frame (captured df st) screen) (total (captured df st).gps) ∧
      (pluginOnupdate df st).state.scPrev =
        st.scPrev.copy (pluginOnupdate df st).state.sc (total (captured df st).gps) ∧
      (pluginOnupdate df st).state.scPrevDimx = (captured df st).gps.dimx ∧
      (pluginOnupdate df st).state.scPrevDimy = (captured df st).gps.dimy := by
  have hscreen := applyInput_screen df st
  have hafter := pluginOnupdate_screen df st
  rw [captureScreenBuffer_ready hs hk] at hafter
  obtain ⟨hsc, hprev, hx, hy⟩ := hafter
  simp only [hscreen.sc, hscreen.scPrev] at hsc hprev
  refine ⟨hsc, ?_, hx, hy⟩
  rw [hprev, hsc]
  rfl

-- No capture without a screen of an accepted size.
theorem pluginOnupdate_not_ready
    (h : (captured df st).gps.screen = none ∨ sizeOk (captured df st).gps = false) :
    SameScreen st (pluginOnupdate df st).state := by
  have hscreen := applyInput_screen df st
  have hafter := pluginOnupdate_screen df st
  rw [captureScreenBuffer_not_ready h] at hafter
  exact ⟨hafter.sc.trans hscreen.sc, hafter.scPrev.trans hscreen.scPrev,
    hafter.scPrevDimx.trans hscreen.scPrevDimx, hafter.scPrevDimy.trans hscreen.scPrevDimy⟩

-- A client without a camera of its own gets the shared frame.
theorem pluginOnupdate_shared {screen : Nat → Glyph} (hcl : st.clients.find? j = some cl)
    (hown : cl.hasOwnCam = false) (hact : st.activeConn ≠ some j)
    (hs : (captured df st).gps.screen = some screen) (hk : sizeOk (captured df st).gps = true) :
    (pluginOnupdate df st).state.clients.find? j =
      some (cl.share (pluginOnupdate df st).state.sc st.scPrev
        ((captured df st).gps.dimx ≠ st.scPrevDimx || (captured df st).gps.dimy ≠ st.scPrevDimy)
        (total (captured df st).gps)) := by
  have hscreen := applyInput_screen df st
  have hstay := (applyInput_find?_of_ne df st hact).trans hcl
  obtain ⟨hsc, -⟩ := pluginOnupdate_ready hs hk
  obtain ⟨g, hg⟩ := pluginOnupdate_find? df st j
  rw [captureScreenBuffer_ready hs hk] at hg
  simp only [OrdMap.find?_mapVals, hstay, Option.map_some, hscreen.sc, hscreen.scPrev,
    hscreen.scPrevDimx, hscreen.scPrevDimy] at hg
  rw [hg, hsc]
  have hshare : ∀ (sc scPrev : Buffer) (changed : Bool) (total : Nat),
      (cl.share sc scPrev changed total).hasOwnCam = false := by
    intro sc scPrev changed total
    unfold Client.share
    rw [if_neg (by simp [hown])]
    simp only
    split <;> exact hown
  rw [renderPass_shared df _ _ _ _ j g (hshare _ _ _ _)]
  simp only [ite_self]
  rfl

theorem pluginOnupdate_shared_not_ready (hcl : st.clients.find? j = some cl)
    (hown : cl.hasOwnCam = false) (hact : st.activeConn ≠ some j)
    (h : (captured df st).gps.screen = none ∨ sizeOk (captured df st).gps = false) :
    (pluginOnupdate df st).state.clients.find? j = some cl := by
  have hstay := (applyInput_find?_of_ne df st hact).trans hcl
  obtain ⟨g, hg⟩ := pluginOnupdate_find? df st j
  rw [captureScreenBuffer_not_ready h] at hg
  rw [hg, hstay, Option.map_some, renderPass_shared df _ _ _ _ j g hown]
  simp only [ite_self]

-- A client with an own camera, or one that gets it here, ends with a diff
-- against its last frame.
theorem pluginOnupdate_taken (hcl : st.clients.find? j = some cl)
    (hown : cl.hasOwnCam = true ∨ st.activeConn = some j)
    (hpos : (captured df st).gps.dimx * (captured df st).gps.dimy > 0) :
    ∃ own, (pluginOnupdate df st).state.clients.find? j =
      some (Client.diffOwn (total (captured df st).gps) { cl.taken st j with ownSc := own }) := by
  have ho : (cl.taken st j).hasOwnCam = true := Client.taken_hasOwnCam.mpr hown
  have htaken := applyInput_taken df st hcl
  -- the capture skips it
  have hcap : (captureScreenBuffer (applyInput df st).state).clients.find? j =
      some (cl.taken st j) := by
    rcases ready_or_not (applyInput df st).state.game.gps with ⟨screen, hs, hsize⟩ | h
    · rw [captureScreenBuffer_ready hs hsize]
      simp only [OrdMap.find?_mapVals, htaken, Option.map_some]
      unfold Client.share
      rw [if_pos ho]
    · rw [captureScreenBuffer_not_ready h]
      exact htaken
  obtain ⟨g, hg⟩ := pluginOnupdate_find? df st j
  rw [hcap, Option.map_some] at hg
  obtain ⟨own, hpass⟩ := renderPass_own df (captureScreenBuffer (applyInput df st).state).sc
    ((captureScreenBuffer (applyInput df st).state).mouseTileX,
      (captureScreenBuffer (applyInput df st).state).mouseTileY)
    (applyInput df st).state.game.window (total (applyInput df st).state.game.gps) j g ho
  refine ⟨own, ?_⟩
  unfold captured at hpos
  rw [hg, if_pos hpos, hpass]
  rfl

theorem pluginOnupdate_own (hcl : st.clients.find? j = some cl)
    (hown : cl.hasOwnCam = true ∨ st.activeConn = some j)
    (hpos : (captured df st).gps.dimx * (captured df st).gps.dimy > 0) :
    ∃ cl' own, Client.Kept False (st.activeConn = some j) cl cl' ∧ cl'.hasOwnCam = true ∧
      (pluginOnupdate df st).state.clients.find? j =
        some (Client.diffOwn (total (captured df st).gps) { cl' with ownSc := own }) := by
  obtain ⟨own, hfind⟩ := pluginOnupdate_taken hcl hown hpos
  exact ⟨_, own, cl.taken_kept st j, Client.taken_hasOwnCam.mpr hown, hfind⟩

end Buffers

section Marks

-- Marks are cleared, never set.
def Client.Remarked (cl cl' : Client) : Prop := ∀ t, cl'.mod t ≠ 0 → cl'.mod t = cl.mod t

theorem Client.Remarked.refl (cl : Client) : Client.Remarked cl cl := fun _ _ => rfl

theorem Client.Remarked.trans {a b c : Client} (hab : Client.Remarked a b)
    (hbc : Client.Remarked b c) : Client.Remarked a c := by
  intro t ht
  have hb := hbc t ht
  rw [hb]
  exact hab t (hb ▸ ht)

-- The marks that survive are those of tiles that are the same.
theorem markChanged_ne_zero_iff (mod : Nat → UInt8) (cur prev : Buffer) {total t : Nat}
    (ht : t < total) : markChanged mod cur prev total t ≠ 0 ↔ mod t ≠ 0 ∧ cur t = prev t := by
  unfold markChanged
  split
  · rename_i hchanged
    exact iff_of_false (fun hne => hne rfl) fun hkept => hchanged.2 hkept.2
  · rename_i hsame
    have heq : cur t = prev t := not_not.mp fun hne => hsame ⟨ht, hne⟩
    rw [and_iff_left heq]

theorem markChanged_remarked (mod : Nat → UInt8) (cur prev : Buffer) (total : Nat) (t : Nat)
    (ht : markChanged mod cur prev total t ≠ 0) : markChanged mod cur prev total t = mod t := by
  unfold markChanged at ht ⊢
  split at ht
  · exact absurd rfl ht
  · rw [if_neg ‹_›]

theorem Client.share_remarked (sc scPrev : Buffer) (dimsChanged : Bool) (total : Nat)
    (cl : Client) : Client.Remarked cl (cl.share sc scPrev dimsChanged total) := by
  unfold Client.share
  split
  · exact Client.Remarked.refl cl
  · simp only
    split
    · exact (Client.Kept.clearMod _ : Client.Kept False False _ _).mod not_false
    · exact markChanged_remarked _ _ _ _

theorem renderPass_remarked (df : Df) (sc : Buffer) (mouseTile : Int × Int) (save : Camera)
    (total : Nat) (hdl : Handle) (cl : Client) (g : Game) :
    Client.Remarked cl (renderPass df sc mouseTile save total hdl cl g).1 := by
  cases h : cl.hasOwnCam with
  | false =>
      rw [renderPass_shared df sc mouseTile save total hdl g h]
      exact Client.Remarked.refl cl
  | true =>
      obtain ⟨own, ho⟩ := renderPass_own df sc mouseTile save total hdl g h
      rw [ho]
      exact markChanged_remarked _ _ _ _

theorem captureScreenBuffer_remarked (st : State) {j : Handle} {cl : Client}
    (hcl : st.clients.find? j = some cl) :
    ∃ cl', (captureScreenBuffer st).clients.find? j = some cl' ∧ Client.Remarked cl cl' := by
  rcases ready_or_not st.game.gps with ⟨screen, hs, hk⟩ | h
  · rw [captureScreenBuffer_ready hs hk]
    simp only [OrdMap.find?_mapVals, hcl, Option.map_some]
    exact ⟨_, rfl, cl.share_remarked _ _ _ _⟩
  · rw [captureScreenBuffer_not_ready h]
    exact ⟨cl, hcl, Client.Remarked.refl cl⟩

theorem pluginOnupdate_remarked (df : Df) (st : State) {j : Handle} {cl : Client}
    (hcl : st.clients.find? j = some cl) :
    ∃ cl', (pluginOnupdate df st).state.clients.find? j = some cl' ∧ Client.Remarked cl cl' := by
  obtain ⟨cl1, hcl1, hk⟩ := applyInput_kept df st hcl
  obtain ⟨cl2, hcl2, hm⟩ := captureScreenBuffer_remarked (applyInput df st).state hcl1
  have h2 : Client.Remarked cl cl2 := Client.Remarked.trans (hk.mod not_false) hm
  obtain ⟨g, hg⟩ := pluginOnupdate_find? df st j
  rw [hg, hcl2]
  refine ⟨_, rfl, ?_⟩
  split
  · exact h2.trans (renderPass_remarked df _ _ _ _ j cl2 g)
  · exact h2

end Marks

section Registry

-- The turn clock belongs to the handlers too.
structure Client.Timed (cl cl' : Client) : Prop extends Client.Same cl cl' where
  atime : cl'.atime = cl.atime

theorem Client.Timed.refl (cl : Client) : Client.Timed cl cl := ⟨Client.Same.refl cl, rfl⟩

theorem Client.Timed.trans {a b c : Client} (hab : Client.Timed a b) (hbc : Client.Timed b c) :
    Client.Timed a c :=
  ⟨hab.toSame.trans hbc.toSame, hbc.atime.trans hab.atime⟩

-- An update neither registers nor removes a client, nor does it move the turn.
structure Unticked (st st' : State) : Prop where
  client : OrdMap.Rel (fun _ => Client.Timed) st.clients st'.clients
  activeConn : st'.activeConn = st.activeConn
  nullClient : st'.nullClient = st.nullClient
  itime : st'.itime = st.itime
  timedOut : st'.timedOut = st.timedOut
  config : st'.config = st.config
  nextId : st'.nextId = st.nextId
  freed : st'.freed = st.freed

namespace Unticked

theorem refl (st : State) : Unticked st st :=
  ⟨OrdMap.rel_refl (fun _ => Client.Timed.refl) _, rfl, rfl, rfl, rfl, rfl, rfl, rfl⟩

theorem trans {a b c : State} (hab : Unticked a b) (hbc : Unticked b c) : Unticked a c where
  client := hab.client.trans hbc.client fun _ _ _ _ => Client.Timed.trans
  activeConn := hbc.activeConn.trans hab.activeConn
  nullClient := hbc.nullClient.trans hab.nullClient
  itime := hbc.itime.trans hab.itime
  timedOut := hbc.timedOut.trans hab.timedOut
  config := hbc.config.trans hab.config
  nextId := hbc.nextId.trans hab.nextId
  freed := hbc.freed.trans hab.freed

theorem registry {st st' : State} (h : Unticked st st') : SameRegistry st st' :=
  { h with
    client := h.client.mono fun _ _ _ ht => ht.toSame
    nullNick := congrArg Client.nick h.nullClient }

end Unticked

theorem withActive_unticked (st : State) (f : Client → Client) (hf : ∀ cl, Client.Timed cl (f cl)) :
    Unticked st (st.withActive f) := by
  unfold State.withActive
  split
  · exact Unticked.refl st
  · exact { Unticked.refl st with client := OrdMap.rel_adjust (fun _ => Client.Timed.refl) _ hf }

theorem drainCamera_unticked (st : State) : Unticked st (drainCamera st) := by
  unfold drainCamera
  simp only
  split
  · refine Unticked.trans ?_
      (withActive_unticked _ Client.clearMod fun cl => ⟨⟨rfl, rfl, rfl, rfl⟩, rfl⟩)
    exact { Unticked.refl st with }
  · exact { Unticked.refl st with }

theorem syncCamera_unticked (st : State) : Unticked st (syncCamera st) :=
  withActive_unticked st _ fun _ => ⟨⟨rfl, rfl, rfl, rfl⟩, rfl⟩

theorem applyInput_unticked (df : Df) (st : State) : Unticked st (applyInput df st).state := by
  have hcamera := (drainCamera_unticked st).trans (syncCamera_unticked _)
  obtain ⟨_, _, _, _, _, h⟩ := applyInput_touched df st
  rw [h]
  exact { hcamera with }

theorem Client.share_timed (sc scPrev : Buffer) (dimsChanged : Bool) (total : Nat) (cl : Client) :
    Client.Timed cl (cl.share sc scPrev dimsChanged total) := by
  unfold Client.share
  split
  · exact Client.Timed.refl cl
  · simp only
    split <;> exact ⟨⟨rfl, rfl, rfl, rfl⟩, rfl⟩

theorem captureScreenBuffer_unticked (st : State) : Unticked st (captureScreenBuffer st) := by
  rcases ready_or_not st.game.gps with ⟨screen, hs, hk⟩ | h
  · rw [captureScreenBuffer_ready hs hk]
    exact { Unticked.refl st with
      client := OrdMap.rel_mapVals _ fun _ cl => cl.share_timed _ _ _ _ }
  · rw [captureScreenBuffer_not_ready h]
    exact Unticked.refl st

theorem renderPass_timed (df : Df) (sc : Buffer) (mouseTile : Int × Int) (save : Camera)
    (total : Nat) (hdl : Handle) (cl : Client) (g : Game) :
    Client.Timed cl (renderPass df sc mouseTile save total hdl cl g).1 := by
  cases h : cl.hasOwnCam with
  | false =>
      rw [renderPass_shared df sc mouseTile save total hdl g h]
      exact Client.Timed.refl cl
  | true =>
      obtain ⟨own, ho⟩ := renderPass_own df sc mouseTile save total hdl g h
      rw [ho]
      exact ⟨⟨rfl, rfl, rfl, rfl⟩, rfl⟩

theorem renderClients_unticked (df : Df) (st : State) : Unticked st (renderClients df st) := by
  unfold renderClients
  simp only
  split
  · exact { Unticked.refl st with
      client := OrdMap.rel_accum _ (fun k cl g => renderPass_timed df _ _ _ _ k cl g) _ }
  · exact Unticked.refl st

theorem pluginOnupdate_unticked (df : Df) (st : State) :
    Unticked st (pluginOnupdate df st).state := by
  rw [pluginOnupdate_state]
  have hrender := ((applyInput_unticked df st).trans (captureScreenBuffer_unticked _)).trans
    (renderClients_unticked df _)
  exact { hrender with }

end Registry

end WebFort
