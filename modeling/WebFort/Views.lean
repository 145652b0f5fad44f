import WebFort.Mouse
import WebFort.Followers
import WebFort.Update.Passes
import WebFort.Sample

namespace WebFort

open Library

-- What each client is shown after an update: the frame DF draws for its own
-- viewport, whoever else is watching.

-- A render does not look at what an extra render may leave behind: the texpos
-- buffers, an overlay that is not in use, and tiles behind the last one.
def Df.IgnoresLeftovers (df : Df) : Prop :=
  ∀ (hdl : Handle) (g g' : Game), Residue g g' → g'.window = g.window →
    df.render hdl g' = df.render hdl g

-- The game as it stands when a frame for a viewport is read: the captured one,
-- or one that is drawn from `g` with the mouse of the active player.
def viewed (df : Df) (mouseTile : Int × Int) (hdl : Handle) (g₀ : Game) (cam : Camera) (g : Game) :
    Game :=
  if cam = g₀.window then g₀ else drawFor (df.render hdl) mouseTile g₀.window cam g

-- The cells that fill_screen_buffer reads from it.
def picture (g : Game) : Buffer := (fillScreenBuffer g fun _ => Cell.zero).2

-- Which buffers DF has.
def Gps.allocated (gps : Gps) : Bool × Bool × Bool × Bool :=
  (gps.screen.isSome, gps.screenTop.isSome, gps.screentexpos.isSome, gps.screentexposLower.isSome)

-- What an extra render finds, up to the buffers' contents.
def SameBase (g g' : Game) : Prop := Residue g g' ∧ g'.gps.allocated = g.gps.allocated

section Base

variable {df : Df} {g g' : Game}

theorem SameBase.refl (g : Game) : SameBase g g := ⟨Residue.refl g, rfl⟩

theorem allocated_drawFor (render : Game → RenderEffect) (mouseTile : Int × Int)
    (save cam : Camera) (g : Game) :
    (drawFor render mouseTile save cam g).gps.allocated = g.gps.allocated := by
  obtain ⟨x, y, px, py, haim⟩ := translateMouse_eq mouseTile save cam g
  unfold drawFor renderTop
  rw [haim]
  split
  · rfl
  · simp only [Gps.allocated, Gps.render, Option.isSome_map, Game.setWindow, Game.setMouse]

theorem allocated_restoreGps (n : Nat) (saved cur : Gps) :
    (restoreGps n saved cur).allocated = cur.allocated := by
  simp only [Gps.allocated, restoreGps, Option.isSome_map]

theorem SameBase.pass (hg : SameBase g g') (sc : Buffer) (mouseTile : Int × Int) (save : Camera)
    (total : Nat) (hdl : Handle) (cl : Client) :
    SameBase g (renderPass df sc mouseTile save total hdl cl g').2 := by
  refine ⟨hg.1.trans (renderPass_residue df sc mouseTile save total hdl cl g'), ?_⟩
  unfold renderPass
  split
  · exact hg.2
  · split
    · exact hg.2
    · have hkept := allocated_restoreGps (WebFort.total g'.gps) g'.gps
        (drawFor (df.render hdl) mouseTile save cl.cam g').gps
      exact (hkept.trans (allocated_drawFor _ _ _ _ _)).trans hg.2

-- A render fills every buffer there is.
theorem render_eq (e : RenderEffect) {a b : Gps} (halloc : a.allocated = b.allocated)
    (hx : a.dimx = b.dimx) (hy : a.dimy = b.dimy) (hcolor : a.uccolor = b.uccolor) :
    a.render e = b.render e := by
  have hmap : ∀ {α : Type} (o p : Option α) (v : α), o.isSome = p.isSome →
      o.map (fun _ => v) = p.map fun _ => v := by
    intro α o p v h
    cases o <;> cases p <;> first | rfl | cases h
  simp only [Gps.allocated, Prod.mk.injEq] at halloc
  obtain ⟨hs, ht, htp, htpl⟩ := halloc
  simp only [Gps.render, hx, hy, hcolor, hmap _ _ _ hs, hmap _ _ _ ht, hmap _ _ _ htp,
    hmap _ _ _ htpl]

-- Before a render the window and the mouse are set anew.
theorem aim_core (mouseTile : Int × Int) (save cam w : Camera) (g : Game) :
    ((translateMouse mouseTile save cam g).setWindow cam).core =
      (translateMouse mouseTile save cam (g.setWindow w).core).setWindow cam := by
  have hx : (g.setWindow w).core.gps.dimx = g.gps.dimx := rfl
  have hy : (g.setWindow w).core.gps.dimy = g.gps.dimy := rfl
  unfold translateMouse
  split
  · simp only [hx, hy]
    split <;> rfl
  · rfl

theorem aim_residue (hg : Residue g g') (mouseTile : Int × Int) (save cam : Camera) :
    Residue ((translateMouse mouseTile save cam g).setWindow cam)
      ((translateMouse mouseTile save cam g').setWindow cam) := by
  have haim : ∀ g : Game, ∃ x y px py,
      (translateMouse mouseTile save cam g).setWindow cam = (g.setMouse x y px py).setWindow cam := by
    intro g
    obtain ⟨x, y, px, py, h⟩ := translateMouse_eq mouseTile save cam g
    exact ⟨x, y, px, py, congrArg (fun g : Game => g.setWindow cam) h⟩
  have hcore : ((translateMouse mouseTile save cam g').setWindow cam).core =
      ((translateMouse mouseTile save cam g).setWindow cam).core := by
    rw [aim_core mouseTile save cam g.window g', aim_core mouseTile save cam g.window g, hg.core]
    rfl
  obtain ⟨x, y, px, py, h⟩ := haim g
  obtain ⟨x', y', px', py', h'⟩ := haim g'
  rw [h, h'] at hcore ⊢
  exact ⟨hcore, hg.screen, hg.topInUse, hg.screenTop⟩

-- What is drawn from two such games is the same.
theorem drawFor_eq (hignores : df.IgnoresLeftovers) (hg : SameBase g g')
    (hvs : g.topViewscreen ≠ none) (mouseTile : Int × Int) (save cam : Camera) (hdl : Handle) :
    drawFor (df.render hdl) mouseTile save cam g' = drawFor (df.render hdl) mouseTile save cam g := by
  let a := (translateMouse mouseTile save cam g').setWindow cam
  let b := (translateMouse mouseTile save cam g).setWindow cam
  have haim : Residue b a := aim_residue hg.1 mouseTile save cam
  have hcore : a.core = b.core := haim.core
  have halloc : a.gps.allocated = b.gps.allocated := by
    have hkept : ∀ g : Game, ((translateMouse mouseTile save cam g).setWindow cam).gps.allocated =
        g.gps.allocated := by
      intro g
      obtain ⟨x, y, px, py, h⟩ := translateMouse_eq mouseTile save cam g
      rw [h]
      rfl
    exact (hkept g').trans (hg.2.trans (hkept g).symm)
  have htop : ∀ g : Game, ((translateMouse mouseTile save cam g).setWindow cam).topViewscreen =
      g.topViewscreen := by
    intro g
    obtain ⟨x, y, px, py, h⟩ := translateMouse_eq mouseTile save cam g
    rw [h]
    rfl
  obtain ⟨vs, hvs⟩ := Option.ne_none_iff_exists'.mp hvs
  have hb : b.topViewscreen = some vs := (htop g).trans hvs
  have htops : a.core.topViewscreen = b.core.topViewscreen := congrArg Game.topViewscreen hcore
  have ha : a.topViewscreen = some vs := htops.trans hb
  have hx : a.core.gps.dimx = b.core.gps.dimx := congrArg (fun k : Game => k.gps.dimx) hcore
  have hy : a.core.gps.dimy = b.core.gps.dimy := congrArg (fun k : Game => k.gps.dimy) hcore
  have hcolor : a.core.gps.uccolor = b.core.gps.uccolor :=
    congrArg (fun k : Game => k.gps.uccolor) hcore
  have hgps : a.gps.render (df.render hdl b) = b.gps.render (df.render hdl b) :=
    render_eq _ halloc hx hy hcolor
  calc drawFor (df.render hdl) mouseTile save cam g'
      = { a with gps := a.gps.render (df.render hdl a) } := by
        show renderTop (df.render hdl) a = _
        unfold renderTop
        rw [ha]
    _ = { a with gps := b.gps.render (df.render hdl b) } := by rw [hignores hdl b a haim rfl, hgps]
    _ = { b with gps := b.gps.render (df.render hdl b) } :=
        congrArg (fun k : Game => { k with gps := b.gps.render (df.render hdl b) }) hcore
    _ = drawFor (df.render hdl) mouseTile save cam g := by
        show _ = renderTop (df.render hdl) b
        unfold renderTop
        rw [hb]

end Base

section Update

variable {df : Df} {st : State} {j : Handle} {cl : Client}

-- The pass of a client starts from what the capture saw.
theorem pass_from_base (hpos : (captured df st).gps.dimx * (captured df st).gps.dimy > 0) :
    ∃ g, SameBase (captured df st) g ∧ (pluginOnupdate df st).state.clients.find? j =
      ((captureScreenBuffer (applyInput df st).state).clients.find? j).map fun cl =>
        (renderPass df (captureScreenBuffer (applyInput df st).state).sc
          ((captureScreenBuffer (applyInput df st).state).mouseTileX,
            (captureScreenBuffer (applyInput df st).state).mouseTileY)
          (captured df st).window (total (captured df st).gps) j cl g).1 := by
  have hgame := captureScreenBuffer_game (applyInput df st).state
  rw [pluginOnupdate_state]
  unfold updateGraphics renderClients
  simp only [hgame]
  have hpos' : (applyInput df st).state.game.gps.dimx * (applyInput df st).state.game.gps.dimy > 0 :=
    hpos
  rw [if_pos hpos']
  exact OrdMap.find?_accum _ _ (SameBase (captured df st))
    (fun hdl cl g hg => hg.pass _ _ _ _ hdl cl) j _ (SameBase.refl _)

theorem picture_apply {g : Game} {screen : Nat → Glyph} (hs : g.gps.screen = some screen)
    (hk : sizeOk g.gps = true) (dst : Buffer) {t : Nat} (ht : t < total g.gps) :
    (fillScreenBuffer g dst).2 t = picture g t := by
  unfold picture
  rw [fillScreenBuffer_ready g dst screen hs hk, fillScreenBuffer_ready g _ screen hs hk]
  exact (if_pos ht).trans (if_pos ht).symm

theorem update_window (df : Df) (st : State) :
    (pluginOnupdate df st).state.game.window = (captured df st).window := by
  rw [pluginOnupdate_state]
  refine (renderClients_residue df (captureScreenBuffer (applyInput df st).state)).2.trans ?_
  rw [captureScreenBuffer_game]
  rfl

theorem update_mouseTile (df : Df) (st : State) :
    mouseTile (pluginOnupdate df st).state =
      mouseTile (captureScreenBuffer (applyInput df st).state) := by
  rw [pluginOnupdate_state]
  exact renderClients_mouseTile df _

-- A pass reads the shared frame or one of its own.
theorem renderPass_picture {screen : Nat → Glyph} {g₀ g : Game} (hs : g₀.gps.screen = some screen)
    (hk : sizeOk g₀.gps = true) (hg : SameBase g₀ g) {sc : Buffer}
    (hsc : ∀ t < total g₀.gps, sc t = picture g₀ t) (tile : Int × Int)
    (hown : cl.hasOwnCam = true) :
    ∃ g', SameBase g₀ g' ∧ ∀ t < total g₀.gps,
      (renderPass df sc tile g₀.window (total g₀.gps) j cl g).1.ownSc t =
        picture (viewed df tile j g₀ cl.cam g') t := by
  unfold renderPass viewed
  rw [hown]
  simp only [Bool.not_true, Bool.false_eq_true, if_false]
  split
  · exact ⟨g₀, SameBase.refl g₀, fun t ht => (if_pos ht).trans (hsc t ht)⟩
  · refine ⟨g, hg, fun t ht => ?_⟩
    obtain ⟨hx, hy⟩ := drawFor_dims tile g₀.window (df.render j) cl.cam g
    have hdims : g.gps.dimx = g₀.gps.dimx ∧ g.gps.dimy = g₀.gps.dimy :=
      ⟨hg.1.reads (fun g => g.gps.dimx) fun _ _ => rfl, hg.1.reads (fun g => g.gps.dimy) fun _ _ => rfl⟩
    have hscreen : g.gps.screen.isSome = true := by
      have halloc := congrArg Prod.fst hg.2
      exact halloc.trans (by rw [Gps.allocated, hs]; rfl)
    obtain ⟨hbuffer, -⟩ := drawFor_buffers (df.render j) tile g₀.window cl.cam g
    obtain ⟨drawn, hdrawn⟩ := Option.isSome_iff_exists.mp (hbuffer.trans hscreen)
    have htotal : t < total (drawFor (df.render j) tile g₀.window cl.cam g).gps := by
      unfold total
      rw [hx, hy, hdims.1, hdims.2]
      exact ht
    exact picture_apply hdrawn
      ((sizeOk_congr (hx.trans hdims.1) (hy.trans hdims.2)).trans hk) cl.ownSc htotal

theorem renderPass_view (df : Df) (sc : Buffer) (tile : Int × Int) (save : Camera) (n : Nat)
    (hdl : Handle) (cl : Client) (g : Game) :
    (renderPass df sc tile save n hdl cl g).1.hasOwnCam = cl.hasOwnCam ∧
      (renderPass df sc tile save n hdl cl g).1.cam = cl.cam := by
  unfold renderPass
  split
  · exact ⟨rfl, rfl⟩
  · split <;> exact ⟨rfl, rfl⟩

theorem share_hasOwnCam (sc scPrev : Buffer) (changed : Bool) (n : Nat) :
    (cl.share sc scPrev changed n).hasOwnCam = cl.hasOwnCam := by
  unfold Client.share
  split
  · rfl
  · simp only
    split <;> rfl

theorem capture_sc {screen : Nat → Glyph} (hs : st.game.gps.screen = some screen)
    (hk : sizeOk st.game.gps = true) {t : Nat} (ht : t < total st.game.gps) :
    (captureScreenBuffer st).sc t = picture st.game t := by
  rw [captureScreenBuffer_ready hs hk, ← picture_apply hs hk st.sc ht,
    fillScreenBuffer_ready _ _ screen hs hk]

-- Whoever has no camera takes over the shared frame.
theorem capture_shared {screen : Nat → Glyph} (hs : st.game.gps.screen = some screen)
    (hk : sizeOk st.game.gps = true) (hcl : (captureScreenBuffer st).clients.find? j = some cl)
    (hown : cl.hasOwnCam = false) {t : Nat} (ht : t < total st.game.gps) :
    cl.ownSc t = (captureScreenBuffer st).sc t := by
  rw [captureScreenBuffer_ready hs hk] at hcl ⊢
  simp only [OrdMap.find?_mapVals] at hcl
  obtain ⟨cl₀, -, rfl⟩ := Option.map_eq_some_iff.mp hcl
  rw [share_hasOwnCam] at hown
  rw [share_ownSc _ _ _ _ hown]
  exact if_pos ht

end Update

-- After an update every client has the picture of its own viewport: what is
-- drawn with the mouse of the active player from a game that is the captured
-- one but for what extra renders leave behind. Where a render does not look at
-- that, it is drawn from the captured game.
theorem everyone_sees_own_view (df : Df) (st : State) (hs : (captured df st).gps.screen ≠ none)
    (hk : sizeOk (captured df st).gps = true) :
    let st' := (pluginOnupdate df st).state
    let g₀ := captured df st
    ∀ j cl, st'.clients.find? j = some cl →
      (∃ g, SameBase g₀ g ∧ ∀ t < total g₀.gps, cl.ownSc t =
        picture (viewed df (mouseTile st') j g₀ (viewport st' cl) g) t) ∧
      (df.IgnoresLeftovers → g₀.topViewscreen ≠ none → ∀ t < total g₀.gps, cl.ownSc t =
        picture (viewed df (mouseTile st') j g₀ (viewport st' cl) g₀) t) := by
  intro st' g₀ j cl hcl
  obtain ⟨screen, hs⟩ := Option.ne_none_iff_exists'.mp hs
  have hpos : g₀.gps.dimx * g₀.gps.dimy > 0 := by
    obtain ⟨hx, hy, -, -⟩ := (sizeOk_iff _).mp hk
    exact Int.mul_pos hx hy
  let st₁ := captureScreenBuffer (applyInput df st).state
  have htile : mouseTile st' = mouseTile st₁ := update_mouseTile df st
  have hwindow : st'.game.window = g₀.window := update_window df st
  have hframe : ∀ t < total g₀.gps, st₁.sc t = picture g₀ t := fun t ht => capture_sc hs hk ht
  have hshown : ∃ g, SameBase g₀ g ∧ ∀ t < total g₀.gps, cl.ownSc t =
      picture (viewed df (mouseTile st') j g₀ (viewport st' cl) g) t := by
    obtain ⟨g, hg, hfind⟩ := pass_from_base hpos
    obtain ⟨cl₁, hcl₁, rfl⟩ := Option.map_eq_some_iff.mp (hfind.symm.trans hcl)
    obtain ⟨hown', hcam'⟩ := renderPass_view df st₁.sc (st₁.mouseTileX, st₁.mouseTileY) g₀.window
      (total g₀.gps) j cl₁ g
    unfold viewport
    rw [htile, hown', hcam']
    cases hown : cl₁.hasOwnCam with
    | true => exact renderPass_picture hs hk hg hframe _ hown
    | false =>
        refine ⟨g₀, SameBase.refl g₀, fun t ht => ?_⟩
        have hviewed : viewed df (mouseTile st₁) j g₀ st'.game.window g₀ = g₀ := if_pos hwindow
        calc (renderPass df st₁.sc _ _ _ j cl₁ g).1.ownSc t
            = cl₁.ownSc t := by rw [renderPass_shared df _ _ _ _ j g hown]
          _ = st₁.sc t := capture_shared hs hk hcl₁ hown ht
          _ = picture g₀ t := hframe t ht
          _ = _ := congrArg (fun g => picture g t) hviewed.symm
  refine ⟨hshown, fun hignores hvs t ht => ?_⟩
  obtain ⟨g, hg, hpicture⟩ := hshown
  rw [hpicture t ht]
  unfold viewed
  rw [drawFor_eq hignores hg hvs]

namespace Sample

-- A fortress whose every tile shows how far to the east the viewport is.
def panorama : Df where
  render _ g :=
    { screen := fun _ => ⟨UInt8.ofNat g.windowX.toNat, ⟨255, 255, 255⟩, ⟨0, 0, 0⟩⟩
      screenTop := fun _ => ⟨0, ⟨0, 0, 0⟩, ⟨0, 0, 0⟩⟩
      topInUse := false
      screentexpos := fun _ => 0
      screentexposLower := fun _ => 0
      mouseX := -1
      mouseY := -1
      preciseMouseX := -1
      preciseMouseY := -1 }
  feed _ _ g := g
  atlasBuilds := 0

theorem panorama_ignoresLeftovers : panorama.IgnoresLeftovers := by
  intro hdl g g' _ hwindow
  have hx : g'.windowX = g.windowX := congrArg Camera.x hwindow
  exact congrArg (fun x => RenderEffect.mk (fun _ => ⟨UInt8.ofNat (Int.toNat x), _, _⟩) _ _ _ _ _ _ _ _) hx

-- Two spectators that have walked off, one three tiles further than the other.
def wanderers : State :=
  camMove 0 2 0 0 (camMove 1 5 0 0
    ((plugin endpoint).exec start [.opened 0, .opened 1, .update (game 64) df]))

end Sample

theorem everyone_sees_own_view_sample :
    ((pluginOnupdate Sample.panorama Sample.wanderers).state.clients.find? 0).map
        (fun cl => (cl.ownSc 3).ch) = some 2 ∧
      ((pluginOnupdate Sample.panorama Sample.wanderers).state.clients.find? 1).map
        (fun cl => (cl.ownSc 3).ch) = some 5 := by
  have hall := everyone_sees_own_view Sample.panorama Sample.wanderers (Option.some_ne_none _)
    (by decide)
  have hdrawn : ∀ j cl, (pluginOnupdate Sample.panorama Sample.wanderers).state.clients.find? j =
      some cl → _ := fun j cl hcl =>
    (hall j cl hcl).2 Sample.panorama_ignoresLeftovers (by decide) 3 (by decide)
  refine ⟨?_, ?_⟩
  · exact congrArg some ((congrArg Cell.ch (hdrawn 0 _ rfl)).trans (by decide))
  · exact congrArg some ((congrArg Cell.ch (hdrawn 1 _ rfl)).trans (by decide))

end WebFort
