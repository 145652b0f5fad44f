import WebFort.Update.Passes
import WebFort.Sample

namespace WebFort

open Library

-- What DF draws for one client of the pass, if it draws for it at all.
def drawing (df : Df) (mouseTile : Int × Int) (save : Camera) (hdl : Handle) (cl : Client)
    (g : Game) : Option RenderEffect :=
  if cl.hasOwnCam ∧ cl.cam ≠ save then
    g.topViewscreen.map fun _ =>
      df.render hdl ((translateMouse mouseTile save cl.cam g).setWindow cl.cam)
  else none

-- DF's drawings of a pass in order.
def drawings (df : Df) (sc : Buffer) (mouseTile : Int × Int) (save : Camera) (total : Nat) :
    List (Handle × Client) → Game → List RenderEffect
  | [], _ => []
  | e :: rest, g =>
      (drawing df mouseTile save e.1 e.2 g).toList ++
        drawings df sc mouseTile save total rest
          (renderPass df sc mouseTile save total e.1 e.2 g).2

-- The last drawing of the whole pass, which no later one covers.
def lastDrawing (df : Df) (st : State) : Option RenderEffect :=
  if st.game.gps.dimx * st.game.gps.dimy > 0 then
    (drawings df st.sc (st.mouseTileX, st.mouseTileY) st.game.window (total st.game.gps)
      st.clients.entries st.game).getLast?
  else none

-- The character path 2 gives a blank tile.
def fontChar (init : Init) (ch : UInt8) (tp : Int) : UInt8 :=
  if ch ≤ 32 ∧ 0 < tp then (texposToChar init tp).getD ch else ch

-- The drawing has left in the texpos buffers, as far as the capture reads
-- them, what was there before.
def SameTexpos (g : Game) (e : RenderEffect) : Prop :=
  ∀ screen, g.gps.screen = some screen → sizeOk g.gps = true → ∀ t < total g.gps,
    (∀ texpos, g.gps.screentexpos = some texpos →
      storedTexpos (e.screentexpos t) = storedTexpos (texpos t) ∧
        fontChar g.init (composited g.gps screen t).ch (e.screentexpos t) =
          fontChar g.init (composited g.gps screen t).ch (texpos t)) ∧
    ∀ lower, g.gps.screentexposLower = some lower →
      storedTexpos (e.screentexposLower t) = storedTexpos (lower t)

-- Nothing that is put back or captured differs.
structure Invisible (g g' : Game) : Prop where
  window : g'.window = g.window
  mouse : g'.gps.mouseX = g.gps.mouseX ∧ g'.gps.mouseY = g.gps.mouseY
  preciseMouse : g'.gps.preciseMouseX = g.gps.preciseMouseX ∧
    g'.gps.preciseMouseY = g.gps.preciseMouseY
  frame : ∀ dst, fillScreenBuffer g' dst = fillScreenBuffer g dst

section Leftover

-- A texpos buffer, if there is one, after a last drawing.
def drawnOver (field : RenderEffect → Nat → Int) (last : Option RenderEffect)
    (buf : Option (Nat → Int)) : Option (Nat → Int) :=
  match last with
  | none => buf
  | some e => buf.map fun _ => field e

structure Leftover (g g' : Game) (last : Option RenderEffect) : Prop where
  texpos : g'.gps.screentexpos = drawnOver RenderEffect.screentexpos last g.gps.screentexpos
  lower : g'.gps.screentexposLower =
    drawnOver RenderEffect.screentexposLower last g.gps.screentexposLower

theorem drawnOver_append (field : RenderEffect → Nat → Int) (l l' : List RenderEffect)
    (buf : Option (Nat → Int)) :
    drawnOver field (l ++ l').getLast? buf =
      drawnOver field l'.getLast? (drawnOver field l.getLast? buf) := by
  rw [List.getLast?_append]
  cases l'.getLast? with
  | none => rfl
  | some e =>
      cases l.getLast? with
      | none => rfl
      | some e' => simp [drawnOver, Function.comp_def]

theorem Leftover.trans {a b c : Game} {l l' : List RenderEffect}
    (hab : Leftover a b l.getLast?) (hbc : Leftover b c l'.getLast?) :
    Leftover a c (l ++ l').getLast? where
  texpos := by rw [drawnOver_append, ← hab.texpos, hbc.texpos]
  lower := by rw [drawnOver_append, ← hab.lower, hbc.lower]

theorem drawFor_leftover (render : Game → RenderEffect) (mouseTile : Int × Int) (save cam : Camera)
    (g : Game) :
    Leftover g (drawFor render mouseTile save cam g) (g.topViewscreen.map fun _ =>
      render ((translateMouse mouseTile save cam g).setWindow cam)) := by
  obtain ⟨x, y, px, py, haim⟩ := translateMouse_eq mouseTile save cam g
  have hview : ((g.setMouse x y px py).setWindow cam).topViewscreen = g.topViewscreen := rfl
  unfold drawFor renderTop
  rw [haim, hview]
  cases g.topViewscreen with
  | none => exact ⟨rfl, rfl⟩
  | some v => exact ⟨rfl, rfl⟩

-- What is restored after a drawing does not include them.
theorem renderPass_leftover (df : Df) (sc : Buffer) (mouseTile : Int × Int) (save : Camera)
    (total : Nat) (hdl : Handle) (cl : Client) (g : Game) :
    Leftover g (renderPass df sc mouseTile save total hdl cl g).2
      (drawing df mouseTile save hdl cl g).toList.getLast? := by
  have hlast : ∀ o : Option RenderEffect, o.toList.getLast? = o := fun o => by
    cases o <;> rfl
  rw [hlast]
  unfold drawing renderPass
  cases hown : cl.hasOwnCam with
  | false => exact ⟨rfl, rfl⟩
  | true =>
      by_cases hcam : cl.cam = save
      · simp only [Bool.not_true, Bool.false_eq_true, if_false, ne_eq, hcam,
          not_true_eq_false, and_false]
        exact ⟨rfl, rfl⟩
      · simp only [Bool.not_true, Bool.false_eq_true, if_false, ne_eq, hcam,
          not_false_eq_true, and_self, if_true]
        obtain ⟨htp, hlow⟩ := drawFor_leftover (df.render hdl) mouseTile save cl.cam g
        exact ⟨htp, hlow⟩

theorem drawings_leftover (df : Df) (sc : Buffer) (mouseTile : Int × Int) (save : Camera)
    (total : Nat) (es : List (Handle × Client)) (g : Game) :
    Leftover g (OrdMap.accumEntries (renderPass df sc mouseTile save total) es g).2
      (drawings df sc mouseTile save total es g).getLast? := by
  induction es generalizing g with
  | nil => exact ⟨rfl, rfl⟩
  | cons e es ih => exact (renderPass_leftover df sc mouseTile save total e.1 e.2 g).trans (ih _)

theorem renderClients_leftover (df : Df) (st : State) :
    Leftover st.game (renderClients df st).game (lastDrawing df st) := by
  unfold renderClients lastDrawing
  simp only
  split
  · obtain ⟨htp, hlow⟩ := drawings_leftover df st.sc (st.mouseTileX, st.mouseTileY) st.game.window
      (total st.game.gps) st.clients.entries st.game
    exact ⟨htp, hlow⟩
  · exact ⟨rfl, rfl⟩

end Leftover

section Frame

variable {g g' : Game}

theorem storedTexpos_lt (v : Int) : storedTexpos v < 65536 := by
  unfold storedTexpos
  split <;> omega

-- The two bytes of a tile hold all of a stored texpos.
theorem texposBytes_iff (v w : Int) :
    (UInt8.ofNat (storedTexpos v % 256) = UInt8.ofNat (storedTexpos w % 256) ∧
      UInt8.ofNat (storedTexpos v / 256) = UInt8.ofNat (storedTexpos w / 256)) ↔
      storedTexpos v = storedTexpos w := by
  have hv := storedTexpos_lt v
  have hw := storedTexpos_lt w
  simp only [← UInt8.toNat_inj, UInt8.toNat_ofNat']
  omega

theorem Residue.composited (h : Residue g g') {screen screen' : Nat → Glyph}
    (hs : g.gps.screen = some screen) (hs' : g'.gps.screen = some screen') {t : Nat}
    (ht : t < WebFort.total g.gps) :
    WebFort.composited g'.gps screen' t = WebFort.composited g.gps screen t := by
  have htile : screen' t = screen t := by
    have hscreen := h.screen t ht
    rw [hs, hs'] at hscreen
    exact Option.some.inj hscreen
  unfold WebFort.composited
  rw [h.topInUse]
  cases hu : g.gps.topInUse with
  | false => exact htile
  | true =>
      have htop := h.screenTop hu t ht
      cases hold : g.gps.screenTop with
      | none =>
          have hnow : g'.gps.screenTop = none := by simpa [hold] using htop
          rw [hnow]
          exact htile
      | some old =>
          rw [hold] at htop
          obtain ⟨now, hnow, hat⟩ := Option.map_eq_some_iff.mp htop
          rw [hnow]
          simp only [hat, htile]

-- Of a tile only what comes from the texpos buffers can differ.
theorem Residue.tileCell_iff (h : Residue g g') {screen screen' : Nat → Glyph}
    (hs : g.gps.screen = some screen) (hs' : g'.gps.screen = some screen') {t : Nat}
    (ht : t < WebFort.total g.gps) (x y : Nat) :
    tileCell g' screen' x y t = tileCell g screen x y t ↔
      charCode g' (WebFort.composited g.gps screen t).ch t =
          charCode g (WebFort.composited g.gps screen t).ch t ∧
        storedTexpos (texposAt g'.gps.screentexpos t) =
          storedTexpos (texposAt g.gps.screentexpos t) ∧
        storedTexpos (texposAt g'.gps.screentexposLower t) =
          storedTexpos (texposAt g.gps.screentexposLower t) := by
  have hmatch : ∀ c, matchColor g'.gps c = matchColor g.gps c := fun c =>
    h.reads (fun g => matchColor g.gps c) fun _ _ => rfl
  have htext : isTextTile g' x y = isTextTile g x y :=
    h.reads (fun g => isTextTile g x y) fun _ _ => rfl
  rw [← texposBytes_iff (texposAt g'.gps.screentexpos t),
    ← texposBytes_iff (texposAt g'.gps.screentexposLower t)]
  simp only [tileCell, h.composited hs hs' ht, hmatch, htext, Cell.mk.injEq, true_and, and_assoc]

theorem charCode_eq (g : Game) (ch : UInt8) (t : Nat) :
    charCode g ch t = match g.gps.screentexpos with
      | some texpos => fontChar g.init ch (texpos t)
      | none => ch := by
  unfold charCode fontChar
  cases g.gps.screentexpos <;> rfl

-- Both frames are one exactly when they agree tile by tile.
theorem Residue.fill_iff (h : Residue g g') :
    (∀ dst, fillScreenBuffer g' dst = fillScreenBuffer g dst) ↔
      ∀ screen screen', g.gps.screen = some screen → g'.gps.screen = some screen' →
        sizeOk g.gps = true → ∀ t < WebFort.total g.gps, frame g' screen' t = frame g screen t := by
  have hsize : sizeOk g'.gps = sizeOk g.gps := h.reads (fun g => sizeOk g.gps) fun _ _ => rfl
  cases hk : sizeOk g.gps with
  | false =>
      simp only [fillScreenBuffer_not_ready g _ (Or.inr hk),
        fillScreenBuffer_not_ready g' _ (Or.inr (hsize.trans hk)), Bool.false_eq_true,
        false_implies, implies_true]
  | true =>
      have hpos : 0 < WebFort.total g.gps := by
        obtain ⟨hx, hy, -, -⟩ := (sizeOk_iff g.gps).mp hk
        rw [total_eq g.gps hk]
        exact Nat.mul_pos (by omega) (by omega)
      have hzero := h.screen 0 hpos
      cases hs : g.gps.screen with
      | none =>
          have hs' : g'.gps.screen = none := by simpa [hs] using hzero
          simp only [fillScreenBuffer_not_ready g _ (Or.inl hs),
            fillScreenBuffer_not_ready g' _ (Or.inl hs'), reduceCtorEq, false_implies, implies_true]
      | some screen =>
          rw [hs] at hzero
          obtain ⟨screen', hs', -⟩ := Option.map_eq_some_iff.mp hzero
          have hfill : ∀ dst, fillScreenBuffer g' dst =
              (true, Buffer.copy dst (frame g' screen') (WebFort.total g.gps)) := fun dst => by
            rw [fillScreenBuffer_ready g' dst screen' hs' (hsize.trans hk), h.total]
          simp only [hfill, fillScreenBuffer_ready g _ screen hs hk, Prod.mk.injEq, true_and, hs',
            Option.some.injEq]
          constructor
          · rintro hall _ _ rfl rfl - t ht
            have hat := congrFun (hall fun _ => Cell.zero) t
            simpa [Buffer.copy, ht] using hat
          · intro hall dst
            funext t
            unfold Buffer.copy
            split
            · exact hall screen screen' rfl rfl trivial t ‹_›
            · rfl

end Frame

theorem renderClients_mouse (df : Df) (st : State) :
    (renderClients df st).game.gps.mouseX = st.game.gps.mouseX ∧
      (renderClients df st).game.gps.mouseY = st.game.gps.mouseY ∧
      (renderClients df st).game.gps.preciseMouseX = st.game.gps.preciseMouseX ∧
      (renderClients df st).game.gps.preciseMouseY = st.game.gps.preciseMouseY := by
  have h := (renderClients_residue df st).1
  exact ⟨h.reads (fun g => g.gps.mouseX) fun _ _ => rfl,
    h.reads (fun g => g.gps.mouseY) fun _ _ => rfl,
    h.reads (fun g => g.gps.preciseMouseX) fun _ _ => rfl,
    h.reads (fun g => g.gps.preciseMouseY) fun _ _ => rfl⟩

section Traces

variable {g g' : Game}

theorem frame_iff (h : Residue g g') {screen screen' : Nat → Glyph}
    (hs : g.gps.screen = some screen) (hs' : g'.gps.screen = some screen') {t : Nat}
    (ht : t < total g.gps) :
    frame g' screen' t = frame g screen t ↔
      charCode g' (composited g.gps screen t).ch t = charCode g (composited g.gps screen t).ch t ∧
        storedTexpos (texposAt g'.gps.screentexpos t) =
          storedTexpos (texposAt g.gps.screentexpos t) ∧
        storedTexpos (texposAt g'.gps.screentexposLower t) =
          storedTexpos (texposAt g.gps.screentexposLower t) := by
  have hdimy : g'.gps.dimy = g.gps.dimy := h.reads (fun g => g.gps.dimy) fun _ _ => rfl
  unfold frame
  rw [hdimy]
  exact h.tileCell_iff hs hs' ht _ _

-- The same with the drawing that filled the buffers.
theorem drawn_tile_iff (hinit : g'.init = g.init) {e : RenderEffect}
    (hlast : Leftover g g' (some e)) (ch : UInt8) (t : Nat) :
    (charCode g' ch t = charCode g ch t ∧
      storedTexpos (texposAt g'.gps.screentexpos t) =
        storedTexpos (texposAt g.gps.screentexpos t) ∧
      storedTexpos (texposAt g'.gps.screentexposLower t) =
        storedTexpos (texposAt g.gps.screentexposLower t)) ↔
    (∀ texpos, g.gps.screentexpos = some texpos →
      storedTexpos (e.screentexpos t) = storedTexpos (texpos t) ∧
        fontChar g.init ch (e.screentexpos t) = fontChar g.init ch (texpos t)) ∧
    ∀ lower, g.gps.screentexposLower = some lower →
      storedTexpos (e.screentexposLower t) = storedTexpos (lower t) := by
  obtain ⟨htp, hlow⟩ := hlast
  simp only [charCode_eq, htp, hlow, hinit, drawnOver]
  have hupper : ((∀ texpos, g.gps.screentexpos = some texpos →
      storedTexpos (e.screentexpos t) = storedTexpos (texpos t) ∧
        fontChar g.init ch (e.screentexpos t) = fontChar g.init ch (texpos t)) ↔
      match g.gps.screentexpos with
        | some texpos => storedTexpos (e.screentexpos t) = storedTexpos (texpos t) ∧
            fontChar g.init ch (e.screentexpos t) = fontChar g.init ch (texpos t)
        | none => True) := by
    cases g.gps.screentexpos <;> simp
  have hunder : ((∀ lower, g.gps.screentexposLower = some lower →
      storedTexpos (e.screentexposLower t) = storedTexpos (lower t)) ↔
      match g.gps.screentexposLower with
        | some lower => storedTexpos (e.screentexposLower t) = storedTexpos (lower t)
        | none => True) := by
    cases g.gps.screentexposLower <;> simp
  rw [hupper, hunder]
  cases g.gps.screentexpos <;> cases g.gps.screentexposLower <;>
    simp [texposAt, and_comm, and_assoc]

-- A drawing shows in the second capture where its texpos values do.
theorem sameTexpos_iff {last : Option RenderEffect} (h : Residue g g')
    (hlast : Leftover g g' last) :
    (∀ dst, fillScreenBuffer g' dst = fillScreenBuffer g dst) ↔
      ∀ e, last = some e → SameTexpos g e := by
  have hinit : g'.init = g.init := h.reads Game.init fun _ _ => rfl
  rw [h.fill_iff]
  cases last with
  | none =>
      simp only [reduceCtorEq, false_implies, implies_true, iff_true]
      intro screen screen' hs hs' _ t ht
      rw [frame_iff h hs hs' ht, charCode_eq, charCode_eq, hinit, hlast.texpos, hlast.lower]
      exact ⟨rfl, rfl, rfl⟩
  | some e =>
      simp only [Option.some.injEq, forall_eq']
      constructor
      · intro hall screen hs hk t ht
        have hat := h.screen t ht
        rw [hs] at hat
        obtain ⟨screen', hs', -⟩ := Option.map_eq_some_iff.mp hat
        have hframe := hall screen screen' hs hs' hk t ht
        rw [frame_iff h hs hs' ht, drawn_tile_iff hinit hlast] at hframe
        exact hframe
      · intro hsame screen screen' hs hs' hk t ht
        rw [frame_iff h hs hs' ht, drawn_tile_iff hinit hlast]
        exact hsame screen hs hk t ht

end Traces

-- The passes go unseen exactly when the last drawing puts back the texpos
-- buffers itself, as far as they reach the wire.
theorem extra_renders_invisible_iff (df : Df) (st : State) :
    Invisible st.game (renderClients df st).game ↔
      ∀ e, lastDrawing df st = some e → SameTexpos st.game e := by
  obtain ⟨hres, hwindow⟩ := renderClients_residue df st
  obtain ⟨hx, hy, hpx, hpy⟩ := renderClients_mouse df st
  rw [← sameTexpos_iff hres (renderClients_leftover df st)]
  exact ⟨fun h => h.frame, fun h => ⟨hwindow, ⟨hx, hy⟩, ⟨hpx, hpy⟩, h⟩⟩

-- A spectator one tile off, on a map of one sprite, sees another sprite.
theorem extra_render_leaves_texpos :
    let map : Game := { Sample.game 64 with
      gps := { Sample.gps 64 with screentexpos := some fun _ => 7 } }
    let df : Df := { Sample.df with
      render := fun hdl g => { Sample.df.render hdl g with screentexpos := fun _ => 8 } }
    let st := (plugin Sample.endpoint).exec (State.init Sample.config map)
      [.opened 0, .message 0 [117, 1, 0, 0]]
    ¬Invisible st.game (renderClients df st).game := by
  intro map df st h
  have htile := congrArg (fun r => (r.2 0).tpLo) (h.frame fun _ => Cell.zero)
  exact absurd htile (by decide)

end WebFort
