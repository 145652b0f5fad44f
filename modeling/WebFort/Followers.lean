import WebFort.Cameras
import WebFort.Header
import WebFort.Update.Steps
import WebFort.Library.History

namespace WebFort

open Library

-- The camera the browser reads from an update packet.
def reportedCam (data : Bytes) : Camera :=
  ⟨readInt16 (data.getD 10 0) (data.getD 11 0), readInt16 (data.getD 12 0) (data.getD 13 0),
    readInt16 (data.getD 14 0) (data.getD 15 0)⟩

theorem reportedCam_tileLoop (hdl : Handle) (st : State) :
    reportedCam (tileLoop hdl st).bytes =
      clampCam (viewport (turnPart st) ((turnPart st).getClient hdl)) := by
  obtain ⟨tiles, hbytes⟩ := tileLoop_bytes hdl st
  have hword : ∀ v, readInt16 (leByte (clamp16 v) 0) (leByte (clamp16 v) 1) = clamp16 v := fun v =>
    readInt16_le16 (clamp16_bounds v).1 (clamp16_bounds v).2
  let cam := viewport (turnPart st) ((turnPart st).getClient hdl)
  rw [hbytes]
  have hx : readInt16 (leByte (clamp16 cam.x) 0) (leByte (clamp16 cam.x) 1) = _ := hword cam.x
  have hy : readInt16 (leByte (clamp16 cam.y) 0) (leByte (clamp16 cam.y) 1) = _ := hword cam.y
  have hz : readInt16 (leByte (clamp16 cam.z) 0) (leByte (clamp16 cam.z) 1) = _ := hword cam.z
  show (⟨readInt16 _ _, readInt16 _ _, readInt16 _ _⟩ : Camera) = ⟨_, _, _⟩
  exact congr (congr (congrArg Camera.mk hx) hy) hz

-- The frame the client will be sent is the shared one, and so is the camera
-- its packets report.
def Follows (s : Endpoint) (j : Handle) (w : World) : Event → Prop
  | .update g df =>
      let st := w.st.atGame g
      let st' := (pluginOnupdate df st).state
      w.st.activeConn ≠ some j → sizeOk (captured df st).gps = true →
        (captured df st).gps.screen ≠ none → ∀ cl, st'.clients.find? j = some cl →
          ∀ t < total (captured df st).gps, cl.ownSc t = st'.sc t
  | .message hdl payload =>
      hdl = j → parseMessage payload = .update →
        (handle s (.message hdl payload) w.st).state.activeConn ≠ some j →
          reportedCam (tileLoop hdl w.st).bytes = clampCam w.st.game.window
  | _ => True

-- An update while the client has the turn, which finds the viewport at `c`.
def OwnTurn (j : Handle) (c : Camera) (w : World) (e : Event) : Prop :=
  ∃ g df, e = .update g df ∧ w.st.activeConn = some j ∧ c = synced (w.st.atGame g)

-- The viewport that is shared in a step.
def sharedView (w : World) : Event → Camera
  | .update g df => (captured df (w.st.atGame g)).window
  | _ => w.st.game.window

-- The steps that show something to the client while it does not have the
-- turn: an update of the screens, and a packet of its own.
def SeesGame (s : Endpoint) (j : Handle) (w : World) : Event → Prop
  | .update _ _ => w.st.activeConn ≠ some j
  | .message hdl payload =>
      hdl = j ∧ parseMessage payload = .update ∧
        (handle s (.message hdl payload) w.st).state.activeConn ≠ some j
  | _ => False

-- Where the client watches, the shared viewport is where the last update of
-- its own turns has found it, if there was one since it connected.
def StillThere (s : Endpoint) (start : World) (j : Handle) (done : List Event) (e : Event) : Prop :=
  SeesGame s j ((server s).exec start done) e → ∀ c,
    (server s).Since (OwnTurn j c) (fun w e => ¬e.Ends j ∧ ∀ c', ¬OwnTurn j c' w e) start done →
      sharedView ((server s).exec start done) e = c

section History

variable {s : Endpoint} {start : World} {es : List Event} {j : Handle}

-- The own camera of a client that never moved one comes from its turns.
structure Unmoved (s : Endpoint) (start : World) (j : Handle) (es : List Event) (w : World) :
    Prop where
  registered : Registered w
  camera : (server s).Each (fun _ e => ¬e.Moves j) start es → ∀ c, ownCam w.st j = some c →
    (server s).Since (OwnTurn j c) (fun w e => ¬e.Ends j ∧ ∀ c', ¬OwnTurn j c' w e) start es

theorem Unmoved.step {e : Event} (h : Unmoved s start j es ((server s).exec start es))
    (hen : enabled ((server s).exec start es) e) :
    Unmoved s start j (es ++ [e]) (next s ((server s).exec start es) e) := by
  refine ⟨h.registered.step hen, fun hquiet c hc => ?_⟩
  obtain ⟨hbefore, hquiet, -⟩ := ((server s).each_append _ _ es [e]).mp hquiet
  have hnew : e = .opened j → ((server s).exec start es).st.clients.find? j = none := by
    rintro rfl
    exact h.registered.absent hen
  cases camStep_of_handle hnew hc with
  | kept old other still stays =>
      refine (h.camera hbefore c old).step ⟨stays, ?_⟩
      rintro c' ⟨g, df, rfl, hact, -⟩
      exact other trivial hact
  | moved moves watching aim clamped => exact absurd moves hquiet
  | synced g df held viewport => exact Machine.since_of_step ⟨g, df, rfl, held, viewport⟩

theorem Unmoved.run (config : Config) (g : Game) (es : List Event)
    (hv : (server s).Valid (World.init config g) es) :
    Unmoved s (World.init config g) j es ((server s).exec (World.init config g) es) := by
  refine Machine.history_invariant (M := server s) (Unmoved s (World.init config g) j) ?_
    (fun es e h _ hen => h.step hen) es hv
  exact ⟨Registered.init config g,
    fun _ c hc => absurd ((look_of_none rfl).symm.trans hc) (by simp)⟩

-- A viewport that never moves is such a one.
theorem stillThere_of_fixed {v : Camera}
    (hfixed : (server s).Each (fun w e => sharedView w e = v ∧ ∀ c, OwnTurn j c w e → c = v)
      start es) (done : List Event) (e : Event) (rest : List Event) (he : es = done ++ e :: rest) :
    StillThere s start j done e := by
  subst he
  obtain ⟨hdone, hview, -⟩ := ((server s).each_append _ _ done (e :: rest)).mp hfixed
  rintro - c ⟨before, f, after, rfl, hown, -⟩
  obtain ⟨-, hturn, -⟩ := ((server s).each_append _ _ before (f :: after)).mp hdone
  rw [hview.1, hturn.2 c hown]

end History

section Frames

variable {df : Df} {st : State} {j : Handle} {cl : Client}

-- The capture has nothing for a client with an own camera.
theorem captured_own (hcl : st.clients.find? j = some cl) (hown : cl.hasOwnCam = true)
    (hact : st.activeConn ≠ some j) :
    (captureScreenBuffer (applyInput df st).state).clients.find? j = some cl := by
  have hinput := (applyInput_find?_of_ne df st hact).trans hcl
  rcases ready_or_not (applyInput df st).state.game.gps with ⟨screen, hs, hsize⟩ | h
  · rw [captureScreenBuffer_ready hs hsize]
    simp only [OrdMap.find?_mapVals, hinput, Option.map_some]
    unfold Client.share
    rw [if_pos hown]
  · rw [captureScreenBuffer_not_ready h]
    exact hinput

-- A camera that stands where the viewport is gets the shared frame all the
-- same.
theorem pluginOnupdate_served (hcl : st.clients.find? j = some cl) (hown : cl.hasOwnCam = true)
    (hact : st.activeConn ≠ some j) (hcam : (captured df st).window = cl.cam)
    (hsize : sizeOk (captured df st).gps = true) :
    ∃ cl', (pluginOnupdate df st).state.clients.find? j = some cl' ∧
      cl'.ownSc = cl.ownSc.copy (pluginOnupdate df st).state.sc (total (captured df st).gps) := by
  obtain ⟨hx, hy, -, -⟩ := (sizeOk_iff _).mp hsize
  have hpos : (captured df st).gps.dimx * (captured df st).gps.dimy > 0 := Int.mul_pos hx hy
  obtain ⟨g, hg⟩ := pluginOnupdate_find? df st j
  unfold captured at hcam hpos
  rw [captured_own hcl hown hact, Option.map_some, if_pos hpos,
    renderPass_served df _ _ _ j g hown hcam.symm] at hg
  exact ⟨_, hg, congrArg (fun sc => cl.ownSc.copy sc _) (pluginOnupdate_screen df st).sc.symm⟩

theorem share_ownSc (sc scPrev : Buffer) (changed : Bool) (total : Nat)
    (hown : cl.hasOwnCam = false) :
    (cl.share sc scPrev changed total).ownSc = cl.ownSc.copy sc total := by
  unfold Client.share
  rw [if_neg (by simp [hown])]
  simp only
  split <;> rfl

theorem follows_update {g : Game} {w : World} (s : Endpoint)
    (hcam : w.st.activeConn ≠ some j → ∀ c, ownCam w.st j = some c →
      (captured df (w.st.atGame g)).window = c) :
    Follows s j w (.update g df) := by
  intro hact hsize hscreen cl' hcl' t ht
  let st := w.st.atGame g
  obtain ⟨cl, hcl, -⟩ := (pluginOnupdate_unticked df st).client.find?_back hcl'
  have hcopy : cl'.ownSc = cl.ownSc.copy (pluginOnupdate df st).state.sc (total (captured df st).gps) := by
    cases hown : cl.hasOwnCam with
    | false =>
        obtain ⟨screen, hs⟩ := Option.ne_none_iff_exists'.mp hscreen
        have hshared := pluginOnupdate_shared hcl hown hact hs hsize
        obtain rfl := Option.some.inj (hcl'.symm.trans hshared)
        exact share_ownSc _ _ _ _ hown
    | true =>
        have hcamera : ownCam w.st j = some cl.cam := by
          refine (look_of_find? hcl).trans ?_
          rw [Client.ownCam, if_pos hown]
        obtain ⟨served, hserved, hsc⟩ := pluginOnupdate_served hcl hown hact
          (hcam hact _ hcamera) hsize
        obtain rfl := Option.some.inj (hcl'.symm.trans hserved)
        exact hsc
  rw [hcopy, Buffer.copy, if_pos ht]

theorem follows_message {payload : Bytes} {w : World} (s : Endpoint)
    (hcl : w.st.clients.find? j = some cl)
    (hcam : ∀ c, ownCam w.st j = some c → w.st.game.window = c) :
    Follows s j w (.message j payload) := by
  intro _ _ _
  obtain ⟨active, hclient⟩ := turnPart_getClient w.st j
  rw [reportedCam_tileLoop, hclient, State.getClient_of_find? hcl]
  refine congrArg clampCam ?_
  unfold viewport
  cases hown : cl.hasOwnCam with
  | false =>
      rw [(turnPart_kept w.st).game]
      rfl
  | true =>
      have hcamera : ownCam w.st j = some cl.cam := by
        refine (look_of_find? hcl).trans ?_
        rw [Client.ownCam, if_pos hown]
      exact (hcam _ hcamera).symm

end Frames

-- A client that never moves its camera follows the game in every run, as long
-- as each step that it watches finds the shared viewport where the last update
-- of the client's own turns has found it.
theorem viewers_follow_game (s : Endpoint) (config : Config) (g : Game) (es : List Event)
    (j : Handle) (hv : (server s).Valid (World.init config g) es)
    (hquiet : (server s).Each (fun _ e => ¬e.Moves j) (World.init config g) es)
    (hstill : ∀ done e rest, es = done ++ e :: rest →
      StillThere s (World.init config g) j done e) :
    (server s).Each (Follows s j) (World.init config g) es := by
  refine Machine.each_of_prefixes _ _ fun done e rest he => ?_
  subst he
  obtain ⟨hvalid, hen, -⟩ := ((server s).valid_append _ done (e :: rest)).mp hv
  have hunmoved := Unmoved.run (j := j) config g done hvalid
  have hbefore := (((server s).each_append _ _ done (e :: rest)).mp hquiet).1
  have hcam : SeesGame s j ((server s).exec (World.init config g) done) e →
      ∀ c, ownCam ((server s).exec (World.init config g) done).st j = some c →
        sharedView ((server s).exec (World.init config g) done) e = c := fun hw c hc =>
    hstill done e rest rfl hw c (hunmoved.camera hbefore c hc)
  cases e with
  | update g df => exact follows_update s hcam
  | message hdl payload =>
      intro hj hp hact
      subst hj
      obtain ⟨cl, hcl⟩ := (hunmoved.registered.phase hdl).mp hen.2
      exact follows_message s hcl (hcam ⟨rfl, hp, hact⟩) rfl hp hact
  | opened _ => trivial
  | closed _ => trivial
  | game _ => trivial

namespace Sample

-- Client 0 has the turn for one update.
def returned : List Event :=
  [.opened 0, .message 0 [116], .update (game 64) df, .message 0 [116]]

def scrolled : Game := { game 64 with windowX := 5 }

end Sample

theorem viewers_follow_game_sample :
    (server Sample.endpoint).Each (Follows Sample.endpoint 0)
      (World.init Sample.config (Sample.game 64))
      (Sample.returned ++ [.update (Sample.game 64) Sample.df]) := by
  refine viewers_follow_game Sample.endpoint Sample.config (Sample.game 64) _ 0 ?_ ?_ ?_
  · exact ⟨⟨rfl, rfl⟩, ⟨rfl, rfl⟩, trivial, ⟨rfl, rfl⟩, trivial, trivial⟩
  · have hrequest : ¬Event.Moves 0 (.message 0 [116]) := by
      rintro ⟨-, dx, dy, dz, h⟩
      cases h
    exact ⟨not_false, hrequest, not_false, hrequest, not_false, trivial⟩
  · have hupdate : ∀ w : World, w.st.activeCamDx = 0 → w.st.activeCamDy = 0 →
        w.st.activeCamDz = 0 → synced (w.st.atGame (Sample.game 64)) = ⟨0, 0, 0⟩ := by
      intro w hx hy hz
      unfold synced drainCamera
      simp only [State.atGame, hx, hy, hz]
      rfl
    have hother : ∀ (w : World) (e : Event), ¬e.IsUpdate → ∀ c, OwnTurn 0 c w e → c = ⟨0, 0, 0⟩ := by
      rintro w e hu c ⟨g, df, rfl, -⟩
      exact absurd trivial hu
    refine stillThere_of_fixed (v := ⟨0, 0, 0⟩)
      ⟨⟨rfl, hother _ _ not_false⟩, ⟨rfl, hother _ _ not_false⟩, ⟨rfl, ?_⟩,
        ⟨rfl, hother _ _ not_false⟩, ⟨rfl, ?_⟩, trivial⟩
    · rintro c ⟨g, df, he, -, rfl⟩
      cases he
      exact hupdate _ rfl rfl rfl
    · rintro c ⟨g, df, he, -, rfl⟩
      cases he
      exact hupdate _ rfl rfl rfl

-- It keeps a camera where that update has found the viewport.
theorem former_player_stays_behind :
    let es := Sample.returned ++ [.game Sample.scrolled, .message 0 [110]]
    (server Sample.endpoint).Valid (World.init Sample.config (Sample.game 64)) es ∧
    (server Sample.endpoint).Each (fun _ e => ¬e.Moves 0)
      (World.init Sample.config (Sample.game 64)) es ∧
    ¬(server Sample.endpoint).Each (Follows Sample.endpoint 0)
      (World.init Sample.config (Sample.game 64)) es := by
  refine ⟨⟨⟨rfl, rfl⟩, ⟨rfl, rfl⟩, trivial, ⟨rfl, rfl⟩, trivial, ⟨rfl, rfl⟩, trivial⟩, ?_, ?_⟩
  · have hmessage : ∀ payload : Bytes, (∀ dx dy dz, parseMessage payload ≠ .camMove dx dy dz) →
        ¬Event.Moves 0 (.message 0 payload) := by
      rintro payload hp ⟨-, dx, dy, dz, h⟩
      exact hp dx dy dz h
    exact ⟨not_false, hmessage _ (by simp [parseMessage]), not_false,
      hmessage _ (by simp [parseMessage]), not_false, hmessage _ (by simp [parseMessage]), trivial⟩
  · intro h
    have hreport := h.2.2.2.2.2.1 rfl rfl (by decide)
    exact absurd (congrArg Camera.x hreport) (by decide)

end WebFort
