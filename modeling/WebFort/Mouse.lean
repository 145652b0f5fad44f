import WebFort.Turns
import WebFort.Sample

namespace WebFort

open Library

-- A grid size as the render hooks read it.
def hookGrid (n : Int) : Int := if n ≠ 0 then n else 16

-- wf_stamp_mouse of an enabled plugin. The hooks call it before every render
-- of the dwarf or the dungeon screen that is not one of the extra passes.
def wfStampMouse (st : State) : State :=
  if st.mouseTileX < 0 then st
  else
    st.withGame fun g =>
      let w := hookGrid g.init.gridX
      let h := hookGrid g.init.gridY
      trackingOn (g.setMouse st.mouseTileX st.mouseTileY
        (st.mouseTileX * w + w.tdiv 2) (st.mouseTileY * h + h.tdiv 2))

def Event.KeepsSize : Event → Prop
  | .update _ df => df.KeepsSize
  | _ => True

-- The events of the plugin, and DF drawing a frame on a screen of any size.
inductive Moment
  | event (e : Event)
  | render (g : Game)

-- The plugin together with its render hooks. Feeding keys to a viewscreen
-- does not resize the screen; anything else may.
def hooked (s : Endpoint) : Machine World Moment where
  enabled w m := match m with
    | .event e => enabled w e ∧ e.KeepsSize
    | .render _ => True
  next w m := match m with
    | .event e => next s w e
    | .render g => { w with st := wfStampMouse (w.st.atGame g) }

-- The games right after the stamps of wf_apply_mouse for the queued events
-- and after the stamp that follows them.
def mouseStamps (df : Df) : List WFMouseEvent → State → List Game
  | [], st => if st.mouseTileX ≥ 0 then [(stampTile st).game] else []
  | ev :: rest, st =>
      (stampEvent ev st).game :: mouseStamps df rest (applyMouse (df.feed (rest.length + 1)) ev st).state

def updateStamps (df : Df) (st : State) : List Game :=
  mouseStamps df st.mouseQueue
    { (flushInputQueue (syncCamera (drainCamera st))).state with mouseQueue := [] }

def stampsAt (w : World) : Moment → List Game
  | .event (.update g df) => updateStamps df (w.st.atGame g)
  | .event _ => []
  | .render g =>
      if w.st.mouseTileX ≥ 0 then [(wfStampMouse (w.st.atGame g)).game] else []

structure OnScreen (g : Game) : Prop where
  left : 0 ≤ g.gps.mouseX
  right : g.gps.mouseX < g.gps.dimx
  top : 0 ≤ g.gps.mouseY
  bottom : g.gps.mouseY < g.gps.dimy

def MouseOnScreen (w : World) (m : Moment) : Prop := ∀ g ∈ stampsAt w m, OnScreen g

def TileFits (g : Game) (x y : Int) : Prop := x < g.gps.dimx ∧ y < g.gps.dimy

-- Moves and presses replace the tile that is stamped again and again.
def WFMouseEvent.Sets (ev : WFMouseEvent) : Prop :=
  ev.type = WFMouseType.move ∨ ev.type = WFMouseType.down

-- Every tile that is queued fits the screen of the update, and so does the
-- tile from before wherever it is still used.
def MouseFits (w : World) : Moment → Prop
  | .event (.update g _) =>
      (∀ ev ∈ w.st.mouseQueue, TileFits g ev.tileX.toNat ev.tileY.toNat) ∧
        (0 ≤ w.st.mouseTileX → (∀ ev ∈ w.st.mouseQueue, ¬ev.Sets) →
          TileFits g w.st.mouseTileX w.st.mouseTileY)
  | .event _ => True
  | .render g => 0 ≤ w.st.mouseTileX → TileFits g w.st.mouseTileX w.st.mouseTileY

section Stamps

variable {df : Df} {st : State}

def SameSize (g g' : Game) : Prop := g'.gps.dimx = g.gps.dimx ∧ g'.gps.dimy = g.gps.dimy

theorem sameSize_inert (hdf : df.KeepsSize) (g : Game) : Inert df (SameSize g) where
  feed n keys g' hg := ⟨(hdf n keys g').1.trans hg.1, (hdf n keys g').2.trans hg.2⟩
  stampMouse _ _ _ hg := hg
  enabler _ _ hg := hg

theorem tileFits_of_sameSize {g g' : Game} {x y : Int} (h : SameSize g g') :
    TileFits g' x y ↔ TileFits g x y := by
  unfold TileFits
  rw [h.1, h.2]

-- The tile is only the sign of its column until it has been set.
def Tiled (st : State) : Prop := 0 ≤ st.mouseTileX → 0 ≤ st.mouseTileY

-- The position the mouse was last moved or pressed at.
def mouseTile (st : State) : Int × Int := (st.mouseTileX, st.mouseTileY)

theorem tiled_of_mouseTile {st' : State} (h : mouseTile st' = mouseTile st) (ht : Tiled st) :
    Tiled st' := by
  obtain ⟨hx, hy⟩ := Prod.mk.inj h
  unfold Tiled
  rw [hx, hy]
  exact ht

theorem onScreen_stampMouse {g : Game} {x y : Int} (hx : 0 ≤ x) (hy : 0 ≤ y) :
    OnScreen (g.stampMouse x y) ↔ TileFits g x y :=
  ⟨fun h => ⟨h.right, h.bottom⟩, fun h => ⟨hx, h.1, hy, h.2⟩⟩

theorem onScreen_stampTile (ht : Tiled st) (hx : 0 ≤ st.mouseTileX) :
    OnScreen (stampTile st).game ↔ TileFits st.game st.mouseTileX st.mouseTileY :=
  ⟨fun h => ⟨h.right, h.bottom⟩, fun h => ⟨hx, h.1, ht hx, h.2⟩⟩

theorem onScreen_stampEvent (ev : WFMouseEvent) :
    OnScreen (stampEvent ev st).game ↔ TileFits st.game ev.tileX.toNat ev.tileY.toNat := by
  have hgame : (persistTile ev st).game = st.game := by
    unfold persistTile
    split <;> rfl
  show OnScreen ((persistTile ev st).game.stampMouse _ _) ↔ _
  rw [hgame]
  exact onScreen_stampMouse (Int.natCast_nonneg _) (Int.natCast_nonneg _)

theorem feedMouse_tile (feed : List InterfaceKey → Game → Game) (ev : WFMouseEvent) (st : State) :
    (feedMouse feed ev st).state.mouseTileX = st.mouseTileX ∧
      (feedMouse feed ev st).state.mouseTileY = st.mouseTileY := by
  unfold feedMouse
  split
  · exact ⟨rfl, rfl⟩
  · split
    · exact ⟨rfl, rfl⟩
    · rw [Outcome.andThen_of_ok _ rfl]
      simp only [feedKeys, Outcome.emit_state, Outcome.ok_state, State.withGame, and_self]

theorem applyMouse_tile (feed : List InterfaceKey → Game → Game) (ev : WFMouseEvent) (st : State) :
    (applyMouse feed ev st).state.mouseTileX = (persistTile ev st).mouseTileX ∧
      (applyMouse feed ev st).state.mouseTileY = (persistTile ev st).mouseTileY := by
  unfold applyMouse
  simp only
  split
  · exact ⟨rfl, rfl⟩
  · exact feedMouse_tile feed ev _

theorem applyMouse_tiled (feed : List InterfaceKey → Game → Game) (ev : WFMouseEvent)
    (h : Tiled st) : Tiled (applyMouse feed ev st).state := by
  obtain ⟨hx, hy⟩ := applyMouse_tile feed ev st
  unfold Tiled
  rw [hx, hy]
  unfold persistTile
  split
  · exact fun _ => Int.natCast_nonneg _
  · exact h

-- DF while more events are queued behind those it is fed.
def Df.ahead (df : Df) (n : Nat) : Df := { df with feed := fun k => df.feed (k + n) }

-- The stamps are those that the loop makes, each in the state the events
-- before it have left, and the one behind the loop.
theorem mem_mouseStamps {g : Game} (evs : List WFMouseEvent) (st : State) :
    g ∈ mouseStamps df evs st ↔
      (∃ before ev after, evs = before ++ ev :: after ∧
        g = (stampEvent ev
          (applyMouseEvents (df.ahead (after.length + 1)) before st).state).game) ∨
      0 ≤ (applyMouseEvents df evs st).state.mouseTileX ∧
        g = (stampTile (applyMouseEvents df evs st).state).game := by
  induction evs generalizing st with
  | nil =>
      simp only [mouseStamps, applyMouseEvents, Outcome.ok_state, List.nil_eq_append_iff,
        List.cons_ne_nil, and_false, false_and, exists_false, false_or, ge_iff_le]
      split
      · rename_i hx
        simp [hx]
      · rename_i hx
        simp [hx]
  | cons ev rest ih =>
      have hstep : ∀ (df' : Df) n more, df'.feed (more.length + 1) = df.feed n →
          (applyMouseEvents df' (ev :: more) st).state =
            (applyMouseEvents df' more (applyMouse (df.feed n) ev st).state).state := by
        intro df' n more hfeed
        rw [applyMouseEvents, hfeed, Outcome.andThen_of_ok _ (applyMouse_threw _ ev st)]
      have hahead : ∀ (before after : List WFMouseEvent) (ev' : WFMouseEvent),
          (df.ahead (after.length + 1)).feed (before.length + 1) =
            df.feed ((before ++ ev' :: after).length + 1) := by
        intro before after ev'
        show df.feed (before.length + 1 + (after.length + 1)) = _
        rw [List.length_append, List.length_cons, Nat.add_right_comm]
      rw [mouseStamps, List.mem_cons, ih, hstep df _ rest rfl, ← or_assoc]
      refine or_congr_left ⟨?_, ?_⟩
      · rintro (rfl | ⟨before, ev', after, rfl, rfl⟩)
        · exact ⟨[], ev, rest, rfl, rfl⟩
        · refine ⟨ev :: before, ev', after, rfl, ?_⟩
          rw [hstep _ _ before (hahead before after ev')]
      · rintro ⟨before, ev', after, hsplit, rfl⟩
        cases before with
        | nil =>
            obtain ⟨rfl, rfl⟩ := List.cons.inj hsplit
            exact Or.inl rfl
        | cons e before =>
            obtain ⟨rfl, rfl⟩ := List.cons.inj hsplit
            refine Or.inr ⟨before, ev', after, rfl, ?_⟩
            rw [hstep _ _ before (hahead before after ev')]
            rfl

-- The loop over the queue, with the stamp that ends it.
theorem mouseStamps_iff (hdf : df.KeepsSize) (evs : List WFMouseEvent) (htiled : Tiled st) :
    (∀ g ∈ mouseStamps df evs st, OnScreen g) ↔
      (∀ ev ∈ evs, TileFits st.game ev.tileX.toNat ev.tileY.toNat) ∧
        (0 ≤ st.mouseTileX → (∀ ev ∈ evs, ¬ev.Sets) →
          TileFits st.game st.mouseTileX st.mouseTileY) := by
  induction evs generalizing st with
  | nil =>
      unfold mouseStamps
      split
      · rename_i hx
        simp only [List.mem_singleton, forall_eq, onScreen_stampTile htiled hx]
        simp [hx]
      · rename_i hx
        simp [hx]
  | cons ev rest ih =>
      let st' := (applyMouse (df.feed (rest.length + 1)) ev st).state
      have hsize : SameSize st.game st'.game :=
        applyMouse_game (sameSize_inert hdf st.game) _ ev st ⟨rfl, rfl⟩
      have htiled' : Tiled st' := applyMouse_tiled _ ev htiled
      have hrest := ih htiled'
      simp only [tileFits_of_sameSize hsize] at hrest
      obtain ⟨hx, hy⟩ := applyMouse_tile (df.feed (rest.length + 1)) ev st
      have hx' : st'.mouseTileX = (persistTile ev st).mouseTileX := hx
      have hy' : st'.mouseTileY = (persistTile ev st).mouseTileY := hy
      rw [hx', hy'] at hrest
      unfold mouseStamps
      rw [List.forall_mem_cons, hrest, onScreen_stampEvent, List.forall_mem_cons, and_assoc]
      refine and_congr_right fun hev => and_congr_right fun _ => ?_
      by_cases hsets : ev.Sets
      · have hpersist : persistTile ev st =
            { st with mouseTileX := ev.tileX.toNat, mouseTileY := ev.tileY.toNat } := if_pos hsets
        rw [hpersist]
        exact ⟨fun _ _ hnone => absurd hsets (hnone ev List.mem_cons_self), fun _ _ _ => hev⟩
      · have hpersist : persistTile ev st = st := if_neg hsets
        rw [hpersist]
        simp only [List.forall_mem_cons, hsets, not_false_eq_true, true_and]

theorem drainCamera_mouse (st : State) :
    (drainCamera st).mouseTileX = st.mouseTileX ∧ (drainCamera st).mouseTileY = st.mouseTileY := by
  obtain ⟨clients, w, h⟩ := drainCamera_eq st
  rw [h]
  exact ⟨rfl, rfl⟩

theorem syncCamera_mouse (st : State) :
    (syncCamera st).mouseTileX = st.mouseTileX ∧ (syncCamera st).mouseTileY = st.mouseTileY := by
  obtain ⟨clients, h⟩ := withActive_eq st fun cl =>
    { cl with cam := st.game.window, hasOwnCam := true }
  rw [syncCamera, h]
  exact ⟨rfl, rfl⟩

theorem updateStamps_iff (st : State) (hdf : df.KeepsSize) (htiled : Tiled st) :
    (∀ g ∈ updateStamps df st, OnScreen g) ↔
      (∀ ev ∈ st.mouseQueue, TileFits st.game ev.tileX.toNat ev.tileY.toNat) ∧
        (0 ≤ st.mouseTileX → (∀ ev ∈ st.mouseQueue, ¬ev.Sets) →
          TileFits st.game st.mouseTileX st.mouseTileY) := by
  let moved := syncCamera (drainCamera st)
  have hx : moved.mouseTileX = st.mouseTileX :=
    (syncCamera_mouse (drainCamera st)).1.trans (drainCamera_mouse st).1
  have hy : moved.mouseTileY = st.mouseTileY :=
    (syncCamera_mouse (drainCamera st)).2.trans (drainCamera_mouse st).2
  have hgps : moved.game.gps = st.game.gps :=
    (congrArg Game.gps (syncCamera_game (drainCamera st))).trans (drainCamera_gps st)
  have htiled' : Tiled { (flushInputQueue moved).state with mouseQueue := [] } := by
    show 0 ≤ moved.mouseTileX → 0 ≤ moved.mouseTileY
    rw [hx, hy]
    exact htiled
  refine (mouseStamps_iff hdf st.mouseQueue htiled').trans ?_
  show (∀ ev ∈ st.mouseQueue, TileFits moved.game ev.tileX.toNat ev.tileY.toNat) ∧
      (0 ≤ moved.mouseTileX → (∀ ev ∈ st.mouseQueue, ¬ev.Sets) →
        TileFits moved.game moved.mouseTileX moved.mouseTileY) ↔ _
  unfold TileFits
  rw [hx, hy, hgps]

theorem applyMouseEvents_tiled (evs : List WFMouseEvent) (h : Tiled st) :
    Tiled (applyMouseEvents df evs st).state := by
  induction evs generalizing st with
  | nil => exact h
  | cons ev rest ih =>
      unfold applyMouseEvents
      rw [Outcome.andThen_of_ok _ (applyMouse_threw _ ev st)]
      exact ih (applyMouse_tiled _ ev h)

theorem restampMouse_mouseTile (df : Df) (st : State) :
    mouseTile (restampMouse df st).state = mouseTile st := by
  unfold restampMouse
  split
  · simp only
    split <;> rfl
  · rfl

theorem captureScreenBuffer_mouseTile (st : State) :
    mouseTile (captureScreenBuffer st) = mouseTile st := by
  rcases ready_or_not st.game.gps with ⟨screen, hs, hsize⟩ | h
  · exact (congrArg mouseTile (captureScreenBuffer_ready hs hsize)).trans rfl
  · exact congrArg mouseTile (captureScreenBuffer_not_ready h)

theorem renderClients_mouseTile (df : Df) (st : State) :
    mouseTile (renderClients df st) = mouseTile st := by
  unfold renderClients
  simp only
  split <;> rfl

theorem pluginOnupdate_tiled (df : Df) (st : State) (h : Tiled st) :
    Tiled (pluginOnupdate df st).state := by
  let moved := syncCamera (drainCamera st)
  have hmoved : Tiled (flushInputQueue moved).state := by
    show 0 ≤ moved.mouseTileX → 0 ≤ moved.mouseTileY
    rw [(syncCamera_mouse _).1, (syncCamera_mouse _).2, (drainCamera_mouse st).1,
      (drainCamera_mouse st).2]
    exact h
  have hqueue : Tiled (flushMouseQueue df (flushInputQueue moved).state).state :=
    applyMouseEvents_tiled _ hmoved
  rw [pluginOnupdate_state]
  have hdrawn := (renderClients_mouseTile df (captureScreenBuffer (applyInput df st).state)).trans
    (captureScreenBuffer_mouseTile (applyInput df st).state)
  rw [applyInput_state] at hdrawn ⊢
  exact tiled_of_mouseTile (hdrawn.trans (restampMouse_mouseTile df _)) hqueue

end Stamps

section Steps

variable {st : State}

theorem setActive_mouseTile (newc : Option Handle) (st : State) :
    mouseTile (setActive newc st).state = mouseTile st := by
  obtain ⟨_, _, _, _, _, _, h⟩ := setActive_state newc st
  rw [h]
  rfl

theorem onMessage_mouseTile (s : Endpoint) (hdl : Handle) (payload : Bytes) (st : State) :
    mouseTile (onMessage s hdl payload st).state = mouseTile st := by
  unfold onMessage
  cases parseMessage payload with
  | keyEvent jsKey code jsmods =>
      obtain ⟨evs, h⟩ := keyEvent_state hdl st jsKey code jsmods
      exact (congrArg mouseTile h).trans rfl
  | mouseEvent ev =>
      obtain ⟨evs, h⟩ := mouseEvent_state hdl st ev
      exact (congrArg mouseTile h).trans rfl
  | cursorMove x y =>
      obtain ⟨f, -, h⟩ := cursorMove_state hdl st x y
      exact (congrArg mouseTile h).trans rfl
  | refreshScreen => rfl
  | camMove dx dy dz =>
      rcases camMove_state hdl st dx dy dz with ⟨x, y, z, h⟩ | h
      · exact (congrArg mouseTile h).trans rfl
      · exact (congrArg mouseTile h).trans rfl
  | requestTurn =>
      show mouseTile (requestTurn hdl st).state = mouseTile st
      unfold requestTurn
      split
      · exact setActive_mouseTile none st
      · split
        · exact setActive_mouseTile (some hdl) st
        · rfl
  | update =>
      show mouseTile (tock s hdl st).state = mouseTile st
      rw [tock_state]
      obtain ⟨timedOut, h | h⟩ := turnPart_state st
      · exact (congrArg mouseTile h).trans rfl
      · exact (congrArg mouseTile h).trans (setActive_mouseTile none _)

theorem handle_tiled (s : Endpoint) (e : Event) (h : Tiled st) : Tiled (handle s e st).state := by
  cases e with
  | opened hdl =>
      refine tiled_of_mouseTile ?_ h
      rcases onOpen_state s hdl st with hs | hs
      · exact congrArg mouseTile hs
      · exact (congrArg mouseTile hs).trans rfl
  | message hdl payload => exact tiled_of_mouseTile (onMessage_mouseTile s hdl payload st) h
  | closed hdl =>
      refine tiled_of_mouseTile ?_ h
      cases hcl : st.clients.find? hdl with
      | none => exact congrArg (fun r => mouseTile r.state) (onClose_absent hcl)
      | some cl =>
          refine (congrArg (fun r => mouseTile r.state) (onClose_registered hcl)).trans ?_
          show mouseTile (releaseTurn hdl st) = mouseTile st
          unfold releaseTurn
          split
          · exact setActive_mouseTile none st
          · rfl
  | game g => exact h
  | update g df => exact pluginOnupdate_tiled df (st.atGame g) h

theorem stampsAt_iff {s : Endpoint} {w : World} {m : Moment} (htiled : Tiled w.st)
    (hen : (hooked s).enabled w m) : MouseOnScreen w m ↔ MouseFits w m := by
  cases m with
  | event e =>
      cases e with
      | update g df => exact updateStamps_iff (w.st.atGame g) hen.2 htiled
      | opened _ => exact ⟨fun _ => trivial, fun _ _ h => absurd h List.not_mem_nil⟩
      | message _ _ => exact ⟨fun _ => trivial, fun _ _ h => absurd h List.not_mem_nil⟩
      | closed _ => exact ⟨fun _ => trivial, fun _ _ h => absurd h List.not_mem_nil⟩
      | game _ => exact ⟨fun _ => trivial, fun _ _ h => absurd h List.not_mem_nil⟩
  | render g =>
      unfold MouseOnScreen MouseFits stampsAt
      simp only
      split
      · rename_i hx
        have hstamp : wfStampMouse (w.st.atGame g) = _ := if_neg (by
          show ¬w.st.mouseTileX < 0
          omega)
        simp only [List.mem_singleton, forall_eq, hstamp, ge_iff_le.mp hx, true_imp_iff]
        exact ⟨fun h => ⟨h.right, h.bottom⟩, fun h => ⟨hx, h.1, htiled hx, h.2⟩⟩
      · rename_i hx
        exact ⟨fun _ h => absurd h hx, fun _ _ h => absurd h List.not_mem_nil⟩

end Steps

-- Every stamp of a run lies on the screen exactly when every tile that is
-- stamped fits the screen of its moment.
theorem mouse_on_screen_iff (s : Endpoint) (config : Config) (g : Game) (ms : List Moment)
    (hv : (hooked s).Valid (World.init config g) ms) :
    (hooked s).Each MouseOnScreen (World.init config g) ms ↔
      (hooked s).Each MouseFits (World.init config g) ms := by
  refine (hooked s).each_iff (fun w => Tiled w.st) MouseOnScreen MouseFits (fun w m ht _ => ?_)
    (fun w m ht hen => stampsAt_iff ht hen) _ ms (fun h => absurd h (show ¬(0 : Int) ≤ -1 by decide)) hv
  cases m with
  | event e => exact handle_tiled s e ht
  | render g =>
      show Tiled (wfStampMouse (w.st.atGame g))
      unfold wfStampMouse
      split <;> exact ht

namespace Sample

-- The player presses the left button over a tile; the update and the next
-- render stamp it.
def pressed (x y : UInt8) : List Moment :=
  [.event (.opened 0), .event (.message 0 [116]), .event (.message 0 [113, x, y, 1, 1]),
    .event (.update (game 64) df), .render (game 64)]

theorem pressed_valid (x y : UInt8) :
    (hooked endpoint).Valid (World.init config (game 64)) (pressed x y) :=
  ⟨⟨⟨rfl, rfl⟩, trivial⟩, ⟨⟨rfl, rfl⟩, trivial⟩, ⟨⟨rfl, rfl⟩, trivial⟩,
    ⟨trivial, fun _ _ _ => ⟨rfl, rfl⟩⟩, trivial, trivial⟩

end Sample

theorem mouse_on_screen_iff_sample :
    (hooked Sample.endpoint).Each MouseOnScreen (World.init Sample.config (Sample.game 64))
      (Sample.pressed 1 1) := by
  refine (mouse_on_screen_iff Sample.endpoint Sample.config (Sample.game 64) (Sample.pressed 1 1)
    (Sample.pressed_valid 1 1)).mpr ⟨trivial, trivial, trivial, ⟨?_, ?_⟩, ?_, trivial⟩
  · intro ev hev
    obtain rfl := List.mem_singleton.mp hev
    exact ⟨by decide, by decide⟩
  · exact fun h => absurd h (by decide)
  · exact fun _ => ⟨by decide, by decide⟩

-- Tile 200 of a screen that has two columns.
theorem mouse_stamped_off_screen :
    (hooked Sample.endpoint).Valid (World.init Sample.config (Sample.game 64))
      (Sample.pressed 200 200) ∧
    ¬(hooked Sample.endpoint).Each MouseOnScreen (World.init Sample.config (Sample.game 64))
      (Sample.pressed 200 200) := by
  refine ⟨Sample.pressed_valid 200 200, fun h => ?_⟩
  have hfirst := (h.2.2.2.1 _ List.mem_cons_self).right
  exact absurd hfirst (by decide)

end WebFort
