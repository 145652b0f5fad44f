import WebFort.Cameras
import WebFort.Update.Passes
import WebFort.Library.History
import WebFort.Sample

namespace WebFort

open Library

-- How far a camera may be moved on the map that is loaded: the bounds of
-- clampCamera, and the number of z-levels.
structure Room where
  maxX : Int
  maxY : Int
  levels : Int
  deriving DecidableEq

def Game.room (g : Game) : Option Room :=
  g.map.map fun blocks =>
    ⟨mapTiles blocks.1 - g.gps.dimx + 30, mapTiles blocks.2.1 - g.gps.dimy + 30, blocks.2.2⟩

structure Room.Holds (r : Room) (c : Camera) : Prop where
  x : c.x ≤ r.maxX
  y : c.y ≤ r.maxY
  z : 0 ≤ c.z
  level : c.z < r.levels

def InRoom (g : Game) (c : Camera) : Prop := ∀ r, g.room = some r → r.Holds c

-- A loaded map has at least one z-level, and a signed number of them.
def HasLevels (g : Game) : Prop := ∀ r, g.room = some r → 0 < r.levels ∧ r.levels < 2 ^ 31

theorem inRoom_of_room {g g' : Game} {c : Camera} (hroom : g'.room = g.room) (h : InRoom g c) :
    InRoom g' c := fun r hr => h r (hroom.symm.trans hr)

theorem hasLevels_of_room {g g' : Game} (hroom : g'.room = g.room) (h : HasLevels g) :
    HasLevels g' := fun r hr => h r (hroom.symm.trans hr)

theorem clampCamera_inRoom {g : Game} (hlevels : HasLevels g) (aim : Camera) :
    InRoom g (clampCamera g aim) := by
  intro r hr
  have hbounds := hlevels r hr
  obtain ⟨⟨sx, sy, sz⟩, hmap, rfl⟩ := Option.map_eq_some_iff.mp hr
  have hlevel : (0 : Int) < sz ∧ (sz : Int) < 2 ^ 31 := hbounds
  have hsz : int32 sz = sz := int32_of_bounds (by omega) (by omega)
  unfold clampCamera
  simp only [hmap, hsz]
  constructor
  · simp only
    split <;> omega
  · simp only
    split <;> omega
  · simp only
    split
    · omega
    · split <;> omega
  · simp only
    split
    · omega
    · split <;> omega

-- The game DF is asked to draw for a client, if it is.
def passCall (mouseTile : Int × Int) (save : Camera) (cl : Client) (g : Game) : Option Game :=
  if !cl.hasOwnCam then none
  else if cl.cam = save then none
  else g.topViewscreen.map fun _ => (translateMouse mouseTile save cl.cam g).setWindow cl.cam

def passCalls (df : Df) (sc : Buffer) (mouseTile : Int × Int) (save : Camera) (total : Nat) :
    List (Handle × Client) → Game → List (Handle × Game)
  | [], _ => []
  | (hdl, cl) :: rest, g =>
      ((passCall mouseTile save cl g).map fun drawn => (hdl, drawn)).toList ++
        passCalls df sc mouseTile save total rest
          (renderPass df sc mouseTile save total hdl cl g).2

def renderCalls (df : Df) (st : State) : List (Handle × Game) :=
  if st.game.gps.dimx * st.game.gps.dimy > 0 then
    passCalls df st.sc (st.mouseTileX, st.mouseTileY) st.game.window (total st.game.gps)
      st.clients.entries st.game
  else []

section Calls

variable {df df' : Df} {sc : Buffer} {mouseTile : Int × Int} {save : Camera} {total : Nat}

theorem translateMouse_topViewscreen (mouseTile : Int × Int) (save cam : Camera) (g : Game) :
    ((translateMouse mouseTile save cam g).setWindow cam).topViewscreen = g.topViewscreen := by
  obtain ⟨x, y, px, py, haim⟩ := translateMouse_eq mouseTile save cam g
  rw [haim]
  rfl

theorem renderPass_congr {hdl : Handle} {cl : Client} {g : Game}
    (h : ∀ drawn, passCall mouseTile save cl g = some drawn →
      df'.render hdl drawn = df.render hdl drawn) :
    renderPass df' sc mouseTile save total hdl cl g =
      renderPass df sc mouseTile save total hdl cl g := by
  unfold renderPass
  split
  · rfl
  · split
    · rfl
    · rename_i hown hcam
      have hdraw : drawFor (df'.render hdl) mouseTile save cl.cam g =
          drawFor (df.render hdl) mouseTile save cl.cam g := by
        have htop := translateMouse_topViewscreen mouseTile save cl.cam g
        unfold drawFor renderTop
        cases hvs : g.topViewscreen with
        | none => rw [htop, hvs]
        | some vs =>
            have hcall := h _ (show passCall mouseTile save cl g = some _ by
              rw [passCall, if_neg hown, if_neg hcam, hvs, Option.map_some])
            rw [htop, hvs, hcall]
      unfold extraRender
      rw [hdraw]

theorem mem_passCalls_cons {hdl : Handle} {cl : Client} {rest : List (Handle × Client)} {g : Game}
    {call : Handle × Game} :
    call ∈ passCalls df sc mouseTile save total ((hdl, cl) :: rest) g ↔
      (∃ drawn, passCall mouseTile save cl g = some drawn ∧ call = (hdl, drawn)) ∨
        call ∈ passCalls df sc mouseTile save total rest
          (renderPass df sc mouseTile save total hdl cl g).2 := by
  rw [passCalls, List.mem_append, Option.mem_toList, Option.map_eq_some_iff]
  simp only [eq_comm]

-- These are all the calls: what DF would draw otherwise makes no difference.
theorem passCalls_congr (entries : List (Handle × Client)) (g : Game)
    (h : ∀ call ∈ passCalls df sc mouseTile save total entries g,
      df'.render call.1 call.2 = df.render call.1 call.2) :
    OrdMap.accumEntries (renderPass df' sc mouseTile save total) entries g =
      OrdMap.accumEntries (renderPass df sc mouseTile save total) entries g := by
  induction entries generalizing g with
  | nil =>
      unfold OrdMap.accumEntries
      rfl
  | cons entry rest ih =>
      obtain ⟨hdl, cl⟩ := entry
      have hpass : renderPass df' sc mouseTile save total hdl cl g =
          renderPass df sc mouseTile save total hdl cl g := by
        refine renderPass_congr fun drawn hdrawn => ?_
        exact h (hdl, drawn) (mem_passCalls_cons.mpr (Or.inl ⟨drawn, hdrawn, rfl⟩))
      have hrest := ih (renderPass df sc mouseTile save total hdl cl g).2 fun call hcall =>
        h call (mem_passCalls_cons.mpr (Or.inr hcall))
      simp only [OrdMap.accumEntries, hpass, hrest]

theorem renderClients_congr {st : State}
    (h : ∀ call ∈ renderCalls df st, df'.render call.1 call.2 = df.render call.1 call.2) :
    renderClients df' st = renderClients df st := by
  unfold renderCalls at h
  unfold renderClients
  simp only
  split
  · rename_i hpos
    rw [if_pos hpos] at h
    have hloop := passCalls_congr st.clients.entries st.game h
    have haccum : st.clients.accum (renderPass df' st.sc (st.mouseTileX, st.mouseTileY)
        st.game.window (WebFort.total st.game.gps)) st.game =
        st.clients.accum (renderPass df st.sc (st.mouseTileX, st.mouseTileY)
          st.game.window (WebFort.total st.game.gps)) st.game := by
      unfold OrdMap.accum
      simp only [hloop]
    rw [haccum]
  · rfl

-- Each of them is for a client that looks elsewhere, through its own camera,
-- on the map that was captured.
theorem mem_passCalls {entries : List (Handle × Client)} {g : Game} {call : Handle × Game}
    (h : call ∈ passCalls df sc mouseTile save total entries g) :
    ∃ cl, (call.1, cl) ∈ entries ∧ cl.ownCam = some call.2.window ∧ call.2.window ≠ save ∧
      call.2.room = g.room := by
  induction entries generalizing g with
  | nil => exact absurd h List.not_mem_nil
  | cons entry rest ih =>
      obtain ⟨hdl, cl⟩ := entry
      rcases mem_passCalls_cons.mp h with ⟨drawn, hdrawn, rfl⟩ | h
      · unfold passCall at hdrawn
        split at hdrawn
        · cases hdrawn
        · split at hdrawn
          · cases hdrawn
          · rename_i hown hcam
            obtain ⟨vs, -, rfl⟩ := Option.map_eq_some_iff.mp hdrawn
            refine ⟨cl, List.mem_cons_self, ?_, hcam, ?_⟩
            · unfold Client.ownCam
              rw [if_pos (by simpa using hown)]
              rfl
            · show (translateMouse mouseTile save cl.cam g).room = g.room
              obtain ⟨x, y, px, py, haim⟩ := translateMouse_eq mouseTile save cl.cam g
              rw [haim]
              rfl
      · obtain ⟨cl', hmem, hown, hne, hroom⟩ := ih h
        refine ⟨cl', List.mem_cons_of_mem _ hmem, hown, hne, hroom.trans ?_⟩
        exact (renderPass_residue df sc mouseTile save total hdl cl g).reads Game.room
          fun _ _ => rfl

end Calls

-- The calls of one update, after its input and its capture.
def updateCalls (df : Df) (st : State) : List (Handle × Game) :=
  renderCalls df (captureScreenBuffer (applyInput df st).state)

theorem mem_updateCalls {df : Df} {st : State} {call : Handle × Game}
    (h : call ∈ updateCalls df st) :
    ownCam (pluginOnupdate df st).state call.1 = some call.2.window ∧
      call.2.window ≠ (captured df st).window ∧ call.2.room = (captured df st).room := by
  unfold updateCalls renderCalls at h
  split at h
  · obtain ⟨cl, hmem, hown, helsewhere, hroom⟩ := mem_passCalls h
    rw [captureScreenBuffer_game] at hroom helsewhere
    refine ⟨?_, helsewhere, hroom⟩
    rw [← ownCam_captured]
    exact (look_of_find? ((OrdMap.mem_entries_iff _ _ _).mp hmem)).trans hown
  · exact absurd h List.not_mem_nil

theorem pluginOnupdate_room (df : Df) (st : State) :
    (pluginOnupdate df st).state.game.room = (captured df st).room := by
  have hres := (renderClients_residue df (captureScreenBuffer (applyInput df st).state)).1
  rw [captureScreenBuffer_game] at hres
  rw [pluginOnupdate_state]
  exact hres.reads Game.room fun _ _ => rfl

-- The deltas are applied within the bounds; without any, the viewport is the
-- one DF has chosen.
theorem synced_inRoom (st : State) (hlevels : HasLevels st.game)
    (hwindow : st.activeCamDx = 0 → st.activeCamDy = 0 → st.activeCamDz = 0 →
      InRoom st.game st.game.window) : InRoom st.game (synced st) := by
  unfold synced
  rw [drainCamera_game]
  split
  · exact clampCamera_inRoom hlevels _
  · rename_i hdelta
    simp only [not_or, not_not] at hdelta
    exact hwindow hdelta.1 hdelta.2.1 hdelta.2.2

-- A step that puts the own camera of a client somewhere, and the map it is
-- bounded by: a CamMove without the turn, and an update with it.
def Places (j : Handle) (r : Option Room) (w : World) (e : Event) : Prop :=
  (e.Moves j ∧ w.st.activeConn ≠ some j ∧ r = w.st.game.room) ∨
    ∃ g df, e = .update g df ∧ w.st.activeConn = some j ∧ r = g.room

section History

variable (s : Endpoint) (start : World)

def LastPlaced (j : Handle) (r : Option Room) (done : List Event) : Prop :=
  (server s).Since (Places j r) (fun w e => ¬e.Ends j ∧ ∀ r', ¬Places j r' w e) start done

-- The camera through which an update draws a client, and the map it was put
-- on. The holder of the turn is put where the update finds the viewport.
def LooksFrom (done : List Event) (g : Game) (j : Handle) (c : Camera) (r : Option Room) : Prop :=
  let w := (server s).exec start done
  if w.st.activeConn = some j then c = synced (w.st.atGame g) ∧ r = g.room
  else ownCam w.st j = some c ∧ LastPlaced s start j r done

-- Maps have levels, and DF keeps the viewport of a turn on its own map. Where
-- an update draws a client elsewhere than the others and the map or the screen
-- is not the one its camera was put on, the camera fits the new one as well.
def CamerasFit (done : List Event) : Event → Prop
  | .game g => HasLevels g
  | .update g df =>
      let w := (server s).exec start done
      let drawn := captured df (w.st.atGame g)
      HasLevels drawn ∧
        (w.st.activeConn ≠ none → HasLevels g ∧
          (w.st.activeCamDx = 0 → w.st.activeCamDy = 0 → w.st.activeCamDz = 0 →
            InRoom g g.window)) ∧
        ∀ j c r, LooksFrom s start done g j c r → c ≠ drawn.window → drawn.room ≠ r →
          InRoom drawn c
  | _ => True

end History

-- All extra renders of an update look at the map that is loaded.
def DrawsInside (w : World) : Event → Prop
  | .update g df => ∀ call ∈ updateCalls df (w.st.atGame g), InRoom call.2 call.2.window
  | _ => True

-- Every own camera lies on the map it was put on.
structure Inside (s : Endpoint) (start : World) (es : List Event) (w : World) : Prop where
  registered : Registered w
  levels : HasLevels w.st.game
  cameras : ∀ j c, ownCam w.st j = some c →
    ∃ r, LastPlaced s start j r es ∧ ∀ room, r = some room → room.Holds c

section Steps

variable {s : Endpoint} {start : World} {done : List Event} {e : Event}

theorem Inside.camera (h : Inside s start done ((server s).exec start done))
    (hen : enabled ((server s).exec start done) e) (hfit : CamerasFit s start done e) {j : Handle}
    {c : Camera} (hc : ownCam (next s ((server s).exec start done) e).st j = some c) :
    ∃ r, LastPlaced s start j r (done ++ [e]) ∧ ∀ room, r = some room → room.Holds c := by
  have hnew : e = .opened j → ((server s).exec start done).st.clients.find? j = none := by
    rintro rfl
    exact h.registered.absent hen
  cases camStep_of_handle hnew hc with
  | kept old other still stays =>
      obtain ⟨r, hlast, hholds⟩ := h.cameras j c old
      refine ⟨r, hlast.step ⟨stays, ?_⟩, hholds⟩
      rintro r' (⟨moves, watching, -⟩ | ⟨g, df, rfl, held, -⟩)
      · exact watching (still moves)
      · exact other trivial held
  | moved moves watching aim clamped =>
      refine ⟨_, Machine.since_of_step (Or.inl ⟨moves, watching, rfl⟩), ?_⟩
      rw [clamped]
      exact clampCamera_inRoom h.levels aim
  | synced g df held viewport =>
      obtain ⟨-, hturn, -⟩ := hfit
      obtain ⟨hlevels, hwindow⟩ := hturn (by rw [held]; simp)
      refine ⟨_, Machine.since_of_step (Or.inr ⟨g, df, rfl, held, rfl⟩), ?_⟩
      rw [viewport]
      exact synced_inRoom (((server s).exec start done).st.atGame g) hlevels hwindow

theorem Inside.step (h : Inside s start done ((server s).exec start done))
    (hen : enabled ((server s).exec start done) e) (hfit : CamerasFit s start done e) :
    Inside s start (done ++ [e]) (next s ((server s).exec start done) e) where
  registered := h.registered.step hen
  levels := by
    have hgame := handle_game s e ((server s).exec start done).st
    cases e with
    | game g => exact hfit
    | update g df => exact hasLevels_of_room (pluginOnupdate_room df _) hfit.1
    | opened hdl => exact hasLevels_of_room (congrArg Game.room hgame) h.levels
    | message hdl payload => exact hasLevels_of_room (congrArg Game.room hgame) h.levels
    | closed hdl => exact hasLevels_of_room (congrArg Game.room hgame) h.levels
  cameras _ _ hc := h.camera hen hfit hc

theorem Inside.draws (h : Inside s start done ((server s).exec start done))
    (hen : enabled ((server s).exec start done) e) (hfit : CamerasFit s start done e) :
    DrawsInside ((server s).exec start done) e := by
  cases e with
  | update g df =>
      let w := (server s).exec start done
      intro call hcall
      obtain ⟨hown, helsewhere, hroom⟩ := mem_updateCalls hcall
      obtain ⟨-, hturn, hchanged⟩ := hfit
      -- A map that is the one of the camera, or another one that it fits.
      have hdrawn : ∀ r, LooksFrom s start done g call.1 call.2.window r →
          (∀ room, r = some room → room.Holds call.2.window) →
          InRoom (captured df (w.st.atGame g)) call.2.window := by
        intro r hlooks hholds
        by_cases hsame : (captured df (w.st.atGame g)).room = r
        · exact fun room hr => hholds room (hsame.symm.trans hr)
        · exact hchanged call.1 _ r hlooks helsewhere hsame
      refine inRoom_of_room hroom ?_
      cases camStep_of_handle (e := .update g df) (s := s) nofun hown with
      | kept old other still stays =>
          obtain ⟨r, hlast, hholds⟩ := h.cameras call.1 _ old
          refine hdrawn r ?_ hholds
          unfold LooksFrom
          rw [if_neg (other trivial)]
          exact ⟨old, hlast⟩
      | moved moves watching aim clamped => exact moves.elim
      | synced _ _ held viewport =>
          obtain ⟨hlevels, hwindow⟩ := hturn (by rw [held]; simp)
          refine hdrawn g.room ?_ ?_
          · unfold LooksFrom
            rw [if_pos held]
            exact ⟨viewport, rfl⟩
          · rw [viewport]
            exact synced_inRoom (w.st.atGame g) hlevels hwindow
  | opened _ => trivial
  | message _ _ => trivial
  | closed _ => trivial
  | game _ => trivial

-- Nobody has the turn, and neither the map nor the screen changes.
def KeepsRoom (r : Option Room) (w : World) : Event → Prop
  | .game g => HasLevels g
  | .update g df =>
      w.st.activeConn = none ∧ HasLevels g ∧ g.room = r ∧ (captured df (w.st.atGame g)).room = r
  | _ => w.st.game.room = r

theorem camerasFit_of_kept {r : Option Room} {es : List Event}
    (hkept : (server s).Each (KeepsRoom r) start es) (done : List Event) (e : Event)
    (rest : List Event) (he : es = done ++ e :: rest) : CamerasFit s start done e := by
  subst he
  obtain ⟨hdone, hthis, -⟩ := ((server s).each_append _ _ done (e :: rest)).mp hkept
  cases e with
  | game g => exact hthis
  | update g df =>
      obtain ⟨hnobody, hlevels, hg, hdrawn⟩ := hthis
      refine ⟨hasLevels_of_room (hdrawn.trans hg.symm) hlevels, fun h => absurd hnobody h, ?_⟩
      intro j c r' hlooks _ hchanged
      unfold LooksFrom at hlooks
      rw [if_neg (by rw [hnobody]; simp)] at hlooks
      obtain ⟨before, f, after, rfl, hplaces, -⟩ := hlooks.2
      obtain ⟨-, hthen, -⟩ := ((server s).each_append _ _ before (f :: after)).mp hdone
      refine absurd (hdrawn.trans ?_) hchanged
      rcases hplaces with ⟨hmoves, -, hr⟩ | ⟨g', df', rfl, -, hr⟩
      · cases f with
        | message hdl payload => exact hthen.symm.trans hr.symm
        | opened _ => exact hmoves.elim
        | closed _ => exact hmoves.elim
        | game _ => exact hmoves.elim
        | update _ _ => exact hmoves.elim
      · exact hthen.2.2.1.symm.trans hr.symm
  | opened _ => trivial
  | message _ _ => trivial
  | closed _ => trivial

end Steps

-- In a run in which every camera that is drawn fits the map that has replaced
-- its own, no client's camera is drawn outside the map.
theorem renders_inside_map (s : Endpoint) (config : Config) (g : Game) (es : List Event)
    (hg : HasLevels g) (hv : (server s).Valid (World.init config g) es)
    (hfit : ∀ done e rest, es = done ++ e :: rest → CamerasFit s (World.init config g) done e) :
    (server s).Each DrawsInside (World.init config g) es := by
  refine Machine.each_of_prefixes _ _ fun done e rest he => ?_
  have hinside := Machine.prefix_invariant (Inside s (World.init config g))
    (CamerasFit s (World.init config g)) ?_ (fun _ _ h hen hfit => h.step hen hfit) hv hfit done
    (e :: rest) he
  · obtain ⟨-, hen, -⟩ := ((server s).valid_append _ done (e :: rest)).mp (he ▸ hv)
    exact hinside.draws hen (hfit done e rest he)
  · exact ⟨Registered.init config g, hg,
      fun j c hc => absurd ((look_of_none rfl).symm.trans hc) (by simp)⟩

namespace Sample

-- A map of one block and fifty levels, and one of a single level.
def deep : Game := { game 64 with map := some (1, 1, 50) }

def flat : Game := { game 64 with map := some (1, 1, 1) }

-- A spectator goes up 40 levels and is drawn.
def climbed : List Event := [.opened 0, .message 0 [117, 0, 0, 40], .update deep df]

-- It goes up before there is a map.
def strayed : List Event := [.opened 0, .message 0 [117, 0, 0, 40], .update flat df]

end Sample

theorem renders_inside_map_sample :
    (server Sample.endpoint).Each DrawsInside (World.init Sample.config Sample.deep)
      Sample.climbed := by
  have hlevels : HasLevels Sample.deep := by
    intro r hr
    obtain rfl := Option.some.inj hr
    decide
  refine renders_inside_map Sample.endpoint Sample.config Sample.deep Sample.climbed hlevels
    ⟨⟨rfl, rfl⟩, ⟨rfl, rfl⟩, trivial, trivial⟩ ?_
  exact camerasFit_of_kept (r := Sample.deep.room)
    ⟨rfl, rfl, ⟨rfl, hlevels, rfl, rfl⟩, trivial⟩

-- Level 40 of a map that has one.
theorem strayed_camera_drawn_outside :
    HasLevels (Sample.game 64) ∧
    (server Sample.endpoint).Valid (World.init Sample.config (Sample.game 64)) Sample.strayed ∧
    ¬(server Sample.endpoint).Each DrawsInside (World.init Sample.config (Sample.game 64))
      Sample.strayed := by
  refine ⟨fun r hr => absurd hr (by simp [Game.room, Sample.game]),
    ⟨⟨rfl, rfl⟩, ⟨rfl, rfl⟩, trivial, trivial⟩, fun h => ?_⟩
  let w := (server Sample.endpoint).exec (World.init Sample.config (Sample.game 64))
    [.opened 0, .message 0 [117, 0, 0, 40]]
  have hcall : (updateCalls Sample.df (w.st.atGame Sample.flat)).map
      (fun call => (call.2.window.z, call.2.room.map Room.levels)) = [(40, some 1)] := by
    decide
  obtain ⟨call, hmem, heq⟩ := List.mem_map.mp (hcall ▸ List.mem_singleton.mpr rfl)
  obtain ⟨hz, hlevels⟩ := Prod.mk.inj heq
  obtain ⟨r, hr, hone⟩ := Option.map_eq_some_iff.mp hlevels
  have hinside := (h.2.2.1 call hmem r hr).level
  omega

end WebFort
