import WebFort.Update.Frames

namespace WebFort

open Library

-- DF without the buffers a render draws into.
def Game.core (g : Game) : Game :=
  { g with gps := { g.gps with
      screen := none, screenTop := none, topInUse := false
      screentexpos := none, screentexposLower := none } }

-- What the extra renders of a pass may leave behind in DF: a moved window, the
-- unused overlay, and the texpos buffers.
structure Residue (g g' : Game) : Prop where
  core : (g'.setWindow g.window).core = g.core
  screen : ∀ t < total g.gps, g'.gps.screen.map (· t) = g.gps.screen.map (· t)
  topInUse : g'.gps.topInUse = g.gps.topInUse
  screenTop : g.gps.topInUse = true → ∀ t < total g.gps,
    g'.gps.screenTop.map (· t) = g.gps.screenTop.map (· t)

namespace Residue

variable {a b c g g' : Game}

theorem refl (g : Game) : Residue g g := ⟨rfl, fun _ _ => rfl, rfl, fun _ _ _ => rfl⟩

-- Whatever looks neither at the window nor into the buffers.
theorem reads {α : Type} (h : Residue g g') (f : Game → α)
    (hf : ∀ g c, f (g.setWindow c).core = f g) : f g' = f g := by
  rw [← hf g' g.window, h.core]
  exact hf g g.window

theorem total (h : Residue g g') : WebFort.total g'.gps = WebFort.total g.gps :=
  h.reads (fun g => WebFort.total g.gps) fun _ _ => rfl

theorem trans (hab : Residue a b) (hbc : Residue b c) : Residue a c where
  core := by
    have hset : ∀ w, (c.setWindow w).core = (b.setWindow w).core := fun w =>
      congrArg (fun g : Game => g.setWindow w) hbc.core
    exact (hset a.window).trans hab.core
  screen t ht := (hbc.screen t (hab.total ▸ ht)).trans (hab.screen t ht)
  topInUse := hbc.topInUse.trans hab.topInUse
  screenTop hu t ht :=
    (hbc.screenTop (hab.topInUse.trans hu) t (hab.total ▸ ht)).trans (hab.screenTop hu t ht)

end Residue

section Restore

variable {saved cur : Gps} {n t : Nat}

-- A buffer is put back tile by tile, where there is one.
theorem restoreGps_screen (h : cur.screen.isSome = saved.screen.isSome) (ht : t < n) :
    (restoreGps n saved cur).screen.map (· t) = saved.screen.map (· t) := by
  unfold restoreGps
  cases hs : saved.screen with
  | none =>
      have hc : cur.screen = none := by simpa [hs] using h
      simp [hc]
  | some old =>
      obtain ⟨now, hc⟩ := Option.isSome_iff_exists.mp (h.trans (congrArg Option.isSome hs))
      simp [hc, restoreTiles, ht]

theorem restoreGps_screenTop (h : cur.screenTop.isSome = saved.screenTop.isSome)
    (hu : saved.topInUse = true) (ht : t < n) :
    (restoreGps n saved cur).screenTop.map (· t) = saved.screenTop.map (· t) := by
  unfold restoreGps
  cases hs : saved.screenTop with
  | none =>
      have hc : cur.screenTop = none := by simpa [hs] using h
      simp [hc]
  | some old =>
      obtain ⟨now, hc⟩ := Option.isSome_iff_exists.mp (h.trans (congrArg Option.isSome hs))
      simp [hc, hu, restoreTiles, ht]

end Restore

-- A render fills the buffers that exist.
theorem drawFor_buffers (render : Game → RenderEffect) (mouseTile : Int × Int) (save cam : Camera)
    (g : Game) :
    (drawFor render mouseTile save cam g).gps.screen.isSome = g.gps.screen.isSome ∧
      (drawFor render mouseTile save cam g).gps.screenTop.isSome = g.gps.screenTop.isSome := by
  obtain ⟨x, y, px, py, haim⟩ := translateMouse_eq mouseTile save cam g
  unfold drawFor renderTop
  rw [haim]
  split
  · exact ⟨rfl, rfl⟩
  · simp only [Gps.render, Option.isSome_map, Game.setWindow, Game.setMouse, and_self]

-- Up to the window and the mouse, which are put back, it draws nowhere else.
theorem drawFor_core (render : Game → RenderEffect) (mouseTile : Int × Int) (save cam w : Camera)
    (g : Game) (x y px py : Int) :
    (((drawFor render mouseTile save cam g).setMouse x y px py).setWindow w).core =
      ((g.setMouse x y px py).setWindow w).core := by
  obtain ⟨x', y', px', py', haim⟩ := translateMouse_eq mouseTile save cam g
  unfold drawFor renderTop
  rw [haim]
  split <;> rfl

theorem extraRender_residue (render : Game → RenderEffect) (mouseTile : Int × Int)
    (save cam : Camera) (ownSc : Buffer) (g : Game) :
    Residue g (extraRender render mouseTile save cam ownSc g).2 := by
  obtain ⟨hscreen, htop⟩ := drawFor_buffers render mouseTile save cam g
  refine ⟨?_, fun t => restoreGps_screen hscreen, rfl, fun hu t => restoreGps_screenTop htop hu⟩
  exact drawFor_core render mouseTile save cam g.window g g.gps.mouseX g.gps.mouseY
    g.gps.preciseMouseX g.gps.preciseMouseY

theorem renderPass_residue (df : Df) (sc : Buffer) (mouseTile : Int × Int) (save : Camera)
    (total : Nat) (hdl : Handle) (cl : Client) (g : Game) :
    Residue g (renderPass df sc mouseTile save total hdl cl g).2 := by
  unfold renderPass
  split
  · exact Residue.refl g
  · split
    · exact Residue.refl g
    · exact extraRender_residue (df.render hdl) mouseTile save cl.cam cl.ownSc g

-- After the loop the window is put back as well.
theorem renderClients_residue (df : Df) (st : State) :
    Residue st.game (renderClients df st).game ∧
      (renderClients df st).game.window = st.game.window := by
  unfold renderClients
  simp only
  split
  · have hpass := OrdMap.accum_invariant st.clients
      (renderPass df st.sc (st.mouseTileX, st.mouseTileY) st.game.window (total st.game.gps))
      (Residue st.game) (fun k cl g h => h.trans (renderPass_residue df _ _ _ _ k cl g))
      st.game (Residue.refl _)
    exact ⟨⟨hpass.core, hpass.screen, hpass.topInUse, hpass.screenTop⟩, rfl⟩
  · exact ⟨Residue.refl _, rfl⟩

theorem renderClients_core (df : Df) (st : State) :
    (renderClients df st).game.core = st.game.core := by
  obtain ⟨hres, hwindow⟩ := renderClients_residue df st
  have hcore := hres.core
  rw [← hwindow] at hcore
  exact hcore

end WebFort
