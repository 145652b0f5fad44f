import WebFort.Cameras
import WebFort.Deltas
import WebFort.Sample
import WebFort.Library.Clamp
import WebFort.Update.Passes

namespace WebFort

open Library

-- The bounds that clampCamera puts on a coordinate.
def Game.span (g : Game) : Axis → Span
  | .x => ⟨-30, g.map.map fun blocks => mapTiles blocks.1 - g.gps.dimx + 30⟩
  | .y => ⟨-30, g.map.map fun blocks => mapTiles blocks.2.1 - g.gps.dimy + 30⟩
  | .z => ⟨0, g.map.bind fun blocks =>
      if blocks.2.2 > 0 then some (int32 blocks.2.2 - 1) else none⟩

structure CamMove where
  dx : UInt8
  dy : UInt8
  dz : UInt8

namespace CamMove

def payload (m : CamMove) : Bytes := [117, m.dx, m.dy, m.dz]

def delta (m : CamMove) : Axis → Int
  | .x => int8 m.dx
  | .y => int8 m.dy
  | .z => int8 m.dz

end CamMove

-- The moves between two updates, and the frame of the second one.
structure Beat where
  moves : List CamMove
  g : Game
  df : Df

def Beat.deltas (t : Beat) (a : Axis) : List Int := t.moves.map (·.delta a)

-- Both clients send the same moves.
def Beat.events (active spectator : Handle) (t : Beat) : List Event :=
  (t.moves.flatMap fun m => [.message active m.payload, .message spectator m.payload]) ++
    [.update t.g t.df]

-- Where the next move of a spectator starts.
def spectatorCamera (spectator : Handle) (st : State) : Camera :=
  (ownCam st spectator).getD st.game.window

def FitsInt32 (n : Int) : Prop := -2 ^ 31 ≤ n ∧ n < 2 ^ 31

-- No fetch_add wraps around.
def SumsFit : Int → List Int → Prop
  | _, [] => True
  | q, d :: ds => FitsInt32 (q + d) ∧ SumsFit (q + d) ds

-- No move overflows the coordinate.
def StepsFit (b : Span) : Int → List Int → Prop
  | _, [] => True
  | x, d :: ds => FitsInt32 (x + d) ∧ StepsFit b (b.clamp (x + d)) ds

def Df.KeepsView (df : Df) : Prop :=
  ∀ n keys g, (df.feed n keys g).window = g.window ∧ (df.feed n keys g).span = g.span

-- DF leaves the window, the map and the screen as they are, and no addition
-- has a result beyond int32_t.
structure Beat.Quiet (spectator : Handle) (st : State) (t : Beat) : Prop where
  window : t.g.window = st.game.window
  span : t.g.span = st.game.span
  df : t.df.KeepsView
  sums : ∀ a, SumsFit 0 (t.deltas a)
  aim : ∀ a, FitsInt32 (st.game.window.along a + (t.deltas a).sum)
  steps : ∀ a, StepsFit (st.game.span a) ((spectatorCamera spectator st).along a) (t.deltas a)

def ticking (s : Endpoint) (active spectator : Handle) : Machine State Beat where
  enabled st t := t.Quiet spectator st
  next st t := (plugin s).exec st (t.events active spectator)

-- What plugin_onupdate makes of the sums of a tick.
def settle (b : Axis → Span) (c : Axis → Int) (sum : Axis → Int) : Axis → Int :=
  if sum .x ≠ 0 ∨ sum .y ≠ 0 ∨ sum .z ≠ 0 then fun a => (b a).clamp (c a + sum a) else c

-- One clamp at the end of the tick does what one after each move does: moves
-- that cancel each other begin inside, and the end is between those of the
-- same moves, but the first, from the two bounds.
def Beat.Alike (st : State) (t : Beat) : Prop :=
  t.moves ≠ [] →
    ((∀ a, (t.deltas a).sum = 0) → ∀ a, (st.game.span a).clamp (st.game.window.along a) =
      st.game.window.along a) ∧
    ∀ a, (st.game.span a).Reaches (t.deltas a).tail
      ((st.game.span a).clamp (st.game.window.along a + (t.deltas a).sum))

-- The two clients between two ticks.
structure Side (active spectator : Handle) (st : State) : Prop where
  holder : st.activeConn = some active
  activeIn : st.registered active = true
  spectatorIn : st.registered spectator = true
  queued : st.queued = fun _ => 0

theorem along_ext {c c' : Camera} (h : ∀ a, c.along a = c'.along a) : c = c' := by
  cases c
  cases c'
  have hx := h .x
  have hy := h .y
  have hz := h .z
  simp only [Camera.along] at hx hy hz
  rw [hx, hy, hz]

theorem clampCamera_along (g : Game) (c : Camera) (a : Axis) :
    (clampCamera g c).along a = (g.span a).clamp (c.along a) := by
  unfold clampCamera Game.span Span.clamp
  cases hmap : g.map with
  | none => cases a <;> rfl
  | some blocks =>
      obtain ⟨sx, sy, sz⟩ := blocks
      cases a with
      | x => rfl
      | y => rfl
      | z =>
          have hlevel : ∀ z : Int, z ≥ int32 sz ↔ z > int32 sz - 1 := fun z => by omega
          by_cases hsz : sz > 0
          · simp only [Camera.along, Option.bind_some, hsz, true_and, hlevel]
            rfl
          · simp only [Camera.along, Option.bind_some, hsz, false_and]
            rfl

theorem int32_of_fits {n : Int} (h : FitsInt32 n) : int32 n = n := int32_of_bounds h.1 h.2

-- Moved by what fits
theorem along_moved {c : Camera} {d : Axis → Int} (h : ∀ a, FitsInt32 (c.along a + d a))
    (a : Axis) : (⟨int32 (c.x + d .x), int32 (c.y + d .y), int32 (c.z + d .z)⟩ : Camera).along a =
      c.along a + d a := by
  cases a with
  | x => exact int32_of_fits (h .x)
  | y => exact int32_of_fits (h .y)
  | z => exact int32_of_fits (h .z)

theorem fetchAdd_queued (st : State) (a b : Axis) (d : Int) :
    (st.fetchAdd a d).queued b = if b = a then int32 (st.queued a + d) else st.queued b :=
  queued_setQueued st a b _

section Moves

variable {active spectator : Handle} {st : State} {g : Game} {q c : Axis → Int}

-- The two clients during a tick: what is queued for the one, and where the
-- other one is.
structure Driven (active spectator : Handle) (g : Game) (q c : Axis → Int) (st : State) : Prop where
  holder : st.activeConn = some active
  activeIn : st.registered active = true
  spectatorIn : st.registered spectator = true
  queued : st.queued = q
  camera : (spectatorCamera spectator st).along = c
  game : st.game = g

theorem camMove_holder (m : CamMove) (hholder : st.activeConn = some active)
    (hactive : st.registered active = true) :
    camMove active m.dx m.dy m.dz st =
      ((st.fetchAdd .x (m.delta .x)).fetchAdd .y (m.delta .y)).fetchAdd .z (m.delta .z) := by
  simp only [camMove, if_pos hactive, if_pos hholder]
  rfl

theorem camMove_spectator (m : CamMove) (hholder : st.activeConn ≠ some spectator)
    (hspectator : st.registered spectator = true) :
    camMove spectator m.dx m.dy m.dz st = st.withRegistered spectator
      (moveCamera st.game (m.delta .x) (m.delta .y) (m.delta .z)) := by
  simp only [camMove, if_pos hspectator, if_neg hholder]
  rfl

theorem registered_withRegistered (f : Client → Client) (j : Handle) (st : State) :
    (st.withRegistered spectator f).registered j = st.registered j := by
  unfold State.registered
  rw [State.withRegistered_find?]
  split
  · exact Option.isSome_map
  · rfl

theorem ownCam_moved (m : CamMove) (hspectator : st.registered spectator = true) :
    ownCam (st.withRegistered spectator
        (moveCamera st.game (m.delta .x) (m.delta .y) (m.delta .z))) spectator =
      some (clampCamera st.game
        ⟨int32 ((spectatorCamera spectator st).x + m.delta .x),
          int32 ((spectatorCamera spectator st).y + m.delta .y),
          int32 ((spectatorCamera spectator st).z + m.delta .z)⟩) := by
  obtain ⟨cl, hcl⟩ := (st.registered_iff spectator).mp hspectator
  have hbase : spectatorCamera spectator st =
      if cl.hasOwnCam then cl.cam else st.game.window := by
    unfold spectatorCamera ownCam
    rw [look_of_find? hcl, Client.ownCam]
    split <;> rfl
  unfold ownCam State.look
  rw [State.withRegistered_find?, if_pos rfl, hcl, hbase]
  rfl

theorem Driven.move (h : Driven active spectator g q c st) (hne : active ≠ spectator)
    (s : Endpoint) (m : CamMove) (hq : ∀ a, FitsInt32 (q a + m.delta a))
    (hc : ∀ a, FitsInt32 (c a + m.delta a)) :
    let st' := (plugin s).exec st [.message active m.payload, .message spectator m.payload]
    Driven active spectator g (fun a => q a + m.delta a)
        (fun a => (g.span a).clamp (c a + m.delta a)) st' ∧
      (ownCam st' spectator).isSome := by
  intro st'
  obtain ⟨hholder, hactive, hspectator, rfl, rfl, rfl⟩ := h
  let st₁ := ((st.fetchAdd .x (m.delta .x)).fetchAdd .y (m.delta .y)).fetchAdd .z (m.delta .z)
  have hother : st.activeConn ≠ some spectator := by
    rw [hholder]
    exact fun heq => hne (Option.some.inj heq)
  have hmoved : st₁.registered spectator = true := hspectator
  have hst₁ : (plugin s).next st (.message active m.payload) = st₁ :=
    camMove_holder m hholder hactive
  have hst' : st' = st₁.withRegistered spectator
      (moveCamera st₁.game (m.delta .x) (m.delta .y) (m.delta .z)) := by
    show (plugin s).next ((plugin s).next st (.message active m.payload)) _ = _
    rw [hst₁]
    exact camMove_spectator m hother hmoved
  have hown := ownCam_moved m hmoved
  rw [hst']
  refine ⟨⟨hholder, ?_, ?_, ?_, ?_, rfl⟩, Option.isSome_iff_exists.mpr ⟨_, hown⟩⟩
  · exact (registered_withRegistered _ active st₁).trans hactive
  · exact (registered_withRegistered _ spectator st₁).trans hspectator
  · have hsame : (st₁.withRegistered spectator (moveCamera st₁.game (m.delta .x) (m.delta .y)
        (m.delta .z))).queued = st₁.queued := queued_congr rfl rfl rfl
    rw [hsame]
    funext a
    rw [← int32_of_fits (hq a)]
    simp only [st₁, fetchAdd_queued]
    cases a <;> rfl
  · funext a
    -- what is queued for the other client does not move this one
    have hbase : spectatorCamera spectator st₁ = spectatorCamera spectator st := rfl
    rw [spectatorCamera, hown, Option.getD_some, clampCamera_along, hbase, along_moved hc]
    rfl

-- Any number of moves
theorem Driven.moves (h : Driven active spectator g q c st) (hne : active ≠ spectator)
    (s : Endpoint) (ms : List CamMove) (hq : ∀ a, SumsFit (q a) (ms.map (·.delta a)))
    (hc : ∀ a, StepsFit (g.span a) (c a) (ms.map (·.delta a))) :
    let st' := (plugin s).exec st
      (ms.flatMap fun m => [.message active m.payload, .message spectator m.payload])
    Driven active spectator g (fun a => q a + (ms.map (·.delta a)).sum)
        (fun a => (g.span a).walk (c a) (ms.map (·.delta a))) st' ∧
      (ms ≠ [] → (ownCam st' spectator).isSome) := by
  induction ms generalizing q c st with
  | nil => simpa using h
  | cons m ms ih =>
      obtain ⟨hmoved, hown⟩ := h.move hne s m (fun a => (hq a).1) fun a => (hc a).1
      obtain ⟨hrest, hrestown⟩ := ih hmoved (fun a => (hq a).2) fun a => (hc a).2
      intro st'
      have hst' : st' = (plugin s).exec ((plugin s).exec st
          [.message active m.payload, .message spectator m.payload])
          (ms.flatMap fun m => [.message active m.payload, .message spectator m.payload]) := by
        rw [← Machine.exec_append]
        rfl
      rw [hst']
      refine ⟨?_, fun _ => ?_⟩
      · simpa [Int.add_assoc] using hrest
      · cases ms with
        | nil => exact hown
        | cons _ _ => exact hrestown (List.cons_ne_nil _ _)

end Moves

section Update

theorem drainCamera_window {st : State}
    (h : ∀ a, FitsInt32 (st.game.window.along a + st.queued a)) :
    (drainCamera st).game.window.along =
      settle st.game.span st.game.window.along st.queued := by
  have hmoved : ∀ a, (clampCamera st.game ⟨int32 (st.game.window.x + st.activeCamDx),
      int32 (st.game.window.y + st.activeCamDy),
      int32 (st.game.window.z + st.activeCamDz)⟩).along a =
        (st.game.span a).clamp (st.game.window.along a + st.queued a) := by
    intro a
    rw [clampCamera_along]
    exact congrArg (st.game.span a).clamp (along_moved h a)
  by_cases hmove : st.activeCamDx ≠ 0 ∨ st.activeCamDy ≠ 0 ∨ st.activeCamDz ≠ 0
  · have hsettle : settle st.game.span st.game.window.along st.queued =
        fun a => (st.game.span a).clamp (st.game.window.along a + st.queued a) := if_pos hmove
    rw [hsettle, drainCamera_game, if_pos hmove]
    exact funext hmoved
  · have hsettle : settle st.game.span st.game.window.along st.queued = st.game.window.along :=
      if_neg hmove
    rw [hsettle, drainCamera_game, if_neg hmove]

theorem drainCamera_span (st : State) : (drainCamera st).game.span = st.game.span := by
  obtain ⟨clients, w, h⟩ := drainCamera_eq st
  rw [h]
  rfl

theorem drainCamera_queued (st : State) : (drainCamera st).queued = fun _ => 0 := by
  obtain ⟨clients, w, h⟩ := drainCamera_eq st
  rw [h]
  funext a
  cases a <;> rfl

theorem pluginOnupdate_queued (df : Df) (st : State) :
    (pluginOnupdate df st).state.queued = fun _ => 0 := by
  rw [pluginOnupdate_state, drawn_queued, (applyInput_touched df st).queued, syncCamera,
    withActive_queued, drainCamera_queued]

-- DF is asked to draw other parts of the map, and put back.
theorem pluginOnupdate_view {df : Df} (hdf : df.KeepsView) (st : State) :
    (pluginOnupdate df st).state.game.window = (drainCamera st).game.window ∧
      (pluginOnupdate df st).state.game.span = st.game.span := by
  let P : Game → Prop := fun g =>
    g.window = (drainCamera st).game.window ∧ g.span = (drainCamera st).game.span
  have hinert : Inert df P := {
    feed := fun n keys g hg => ⟨(hdf n keys g).1.trans hg.1, (hdf n keys g).2.trans hg.2⟩
    stampMouse := fun _ _ _ hg => hg
    enabler := fun _ _ hg => hg }
  have hinput : P (captureScreenBuffer (applyInput df st).state).game := by
    rw [captureScreenBuffer_game]
    apply applyInput_game hinert
    rw [syncCamera_game]
    exact ⟨rfl, rfl⟩
  obtain ⟨hres, hwindow⟩ := renderClients_residue df (captureScreenBuffer (applyInput df st).state)
  rw [pluginOnupdate_state]
  refine ⟨hwindow.trans hinput.1, ?_⟩
  exact (hres.reads Game.span fun _ _ => rfl).trans (hinput.2.trans (drainCamera_span st))

variable {active spectator : Handle} {st : State} {g : Game} {q c : Axis → Int}

theorem Driven.update (h : Driven active spectator g q c st) (hne : active ≠ spectator)
    {g' : Game} {df : Df} (hwindow : g'.window = g.window) (hspan : g'.span = g.span)
    (hdf : df.KeepsView) (hq : ∀ a, FitsInt32 (g.window.along a + q a))
    (hidle : ownCam st spectator = none → q = fun _ => 0) :
    let st' := (pluginOnupdate df (st.atGame g')).state
    Side active spectator st' ∧ st'.game.span = g.span ∧
      st'.game.window.along = settle g.span g.window.along q ∧
      (spectatorCamera spectator st').along = c := by
  obtain ⟨hholder, hactive, hspectator, rfl, rfl, rfl⟩ := h
  intro st'
  have hunticked := pluginOnupdate_unticked df (st.atGame g')
  have hregistered : ∀ j, st'.registered j = st.registered j :=
    fun j => hunticked.client.isSome_find? j
  have hview := pluginOnupdate_view hdf (st.atGame g')
  have hsettled : st'.game.window.along = settle st.game.span st.game.window.along st.queued := by
    have hdrained : ∀ a,
        FitsInt32 ((st.atGame g').game.window.along a + (st.atGame g').queued a) := by
      show ∀ a, FitsInt32 (g'.window.along a + st.queued a)
      rwa [hwindow]
    rw [hview.1, drainCamera_window hdrained]
    show settle g'.span g'.window.along st.queued = _
    rw [hwindow, hspan]
  have hother : st.activeConn ≠ some spectator := by
    rw [hholder]
    exact fun heq => hne (Option.some.inj heq)
  have hown : ownCam st' spectator = ownCam st spectator := by
    exact (ownCam_pluginOnupdate df (st.atGame g')).trans (if_neg hother)
  refine ⟨⟨?_, ?_, ?_, pluginOnupdate_queued df _⟩, hview.2.trans hspan, hsettled, ?_⟩
  · exact hunticked.activeConn.trans hholder
  · exact (hregistered active).trans hactive
  · exact (hregistered spectator).trans hspectator
  · unfold spectatorCamera
    rw [hown]
    cases hcam : ownCam st spectator with
    | some cam => rfl
    | none =>
        -- it has not moved yet, and neither has the window
        have hzero := hidle hcam
        rw [Option.getD_none, Option.getD_none, hsettled, hzero]
        rfl

end Update

section Beats

variable {s : Endpoint} {active spectator : Handle} {st : State} {t : Beat}

theorem Side.driven (h : Side active spectator st) :
    Driven active spectator st.game (fun _ => 0) (spectatorCamera spectator st).along st :=
  ⟨h.holder, h.activeIn, h.spectatorIn, h.queued, rfl, rfl⟩

-- One tick: the sums for the one, the single moves for the other.
theorem Side.beat (h : Side active spectator st) (hne : active ≠ spectator)
    (ht : t.Quiet spectator st) :
    let st' := (ticking s active spectator).next st t
    Side active spectator st' ∧
      st'.game.window.along =
        settle st.game.span st.game.window.along (fun a => (t.deltas a).sum) ∧
      (spectatorCamera spectator st').along =
        fun a => (st.game.span a).walk ((spectatorCamera spectator st).along a) (t.deltas a) := by
  intro st'
  obtain ⟨hdriven, hown⟩ := h.driven.moves hne s t.moves ht.sums ht.steps
  have hst' : st' = (pluginOnupdate t.df (((plugin s).exec st (t.moves.flatMap fun m =>
      [.message active m.payload, .message spectator m.payload])).atGame t.g)).state := by
    show (plugin s).exec st (_ ++ [_]) = _
    rw [Machine.exec_append]
    rfl
  rw [hst']
  have haim : ∀ a, FitsInt32 (st.game.window.along a + (0 + (t.deltas a).sum)) := by
    intro a
    rw [Int.zero_add]
    exact ht.aim a
  obtain ⟨hside, -, hwindow, hcamera⟩ := hdriven.update hne ht.window ht.span ht.df haim
    (fun hnone => by
      cases hmoves : t.moves with
      | nil => simp
      | cons m ms =>
          have hsome := hown (hmoves ▸ List.cons_ne_nil m ms)
          rw [hnone] at hsome
          cases hsome)
  refine ⟨hside, ?_, hcamera⟩
  simp only [Int.zero_add] at hwindow
  exact hwindow

theorem settle_of_moved {b : Axis → Span} {c sum : Axis → Int} (h : ¬∀ a, sum a = 0) :
    settle b c sum = fun a => (b a).clamp (c a + sum a) := by
  apply if_pos
  by_contra hnone
  simp only [ne_eq, not_or, not_not] at hnone
  apply h
  rintro (_ | _ | _)
  · exact hnone.1
  · exact hnone.2.1
  · exact hnone.2.2

theorem settle_of_still {b : Axis → Span} {c sum : Axis → Int} (h : ∀ a, sum a = 0) :
    settle b c sum = c := by
  apply if_neg
  simp [h]

-- The sums and the single moves agree where one clamp does for all of them.
theorem walk_eq_settle_iff (t : Beat) (st : State) :
    (fun a => (st.game.span a).walk (st.game.window.along a) (t.deltas a)) =
        settle st.game.span st.game.window.along (fun a => (t.deltas a).sum) ↔
      t.Alike st := by
  unfold Beat.Alike
  cases hmoves : t.moves with
  | nil =>
      have hdeltas : ∀ a, t.deltas a = [] := fun a => by rw [Beat.deltas, hmoves, List.map_nil]
      rw [settle_of_still fun a => by rw [hdeltas, List.sum_nil]]
      simp [hdeltas]
  | cons m ms =>
      have hdeltas : ∀ a, t.deltas a = m.delta a :: (t.deltas a).tail := fun a => by
        rw [Beat.deltas, hmoves, List.map_cons, List.tail_cons]
      have hiff : ∀ a, (st.game.span a).walk (st.game.window.along a) (t.deltas a) =
          (st.game.span a).clamp (st.game.window.along a + (t.deltas a).sum) ↔
            (st.game.span a).Reaches (t.deltas a).tail
              ((st.game.span a).clamp (st.game.window.along a + (t.deltas a).sum)) := fun a => by
        have hclamp := (st.game.span a).walk_eq_clamp_iff (st.game.window.along a) (m.delta a)
          (t.deltas a).tail
        rwa [← hdeltas a] at hclamp
      simp only [ne_eq, reduceCtorEq, not_false_eq_true, true_implies, ← hiff]
      by_cases hzero : ∀ a, (t.deltas a).sum = 0
      · rw [settle_of_still hzero]
        simp only [hzero, Int.add_zero, implies_true, true_implies]
        constructor
        · intro hsame
          have hinside : ∀ a, (st.game.span a).clamp (st.game.window.along a) =
              st.game.window.along a := by
            intro a
            have hwalk : (st.game.span a).walk (st.game.window.along a) (t.deltas a) =
                st.game.window.along a := congrFun hsame a
            have hend := (st.game.span a).clamp_walk_cons (st.game.window.along a) (m.delta a)
              (t.deltas a).tail
            rwa [← hdeltas a, hwalk] at hend
          exact ⟨hinside, fun a => (congrFun hsame a).trans (hinside a).symm⟩
        · rintro ⟨hinside, hwalk⟩
          exact funext fun a => (hwalk a).trans (hinside a)
      · rw [settle_of_moved hzero, funext_iff]
        exact ⟨fun h => ⟨fun hall => absurd hall hzero, h⟩, fun h => h.2⟩

-- So it is wherever no partial sum of a tick leaves the bounds.
theorem Beat.alike_of_inside {t : Beat} {st : State}
    (h : ∀ a before, before <+: t.deltas a →
      (st.game.span a).clamp (st.game.window.along a + before.sum) =
        st.game.window.along a + before.sum) : t.Alike st := by
  rw [← walk_eq_settle_iff]
  have hwalk : ∀ a, (st.game.span a).walk (st.game.window.along a) (t.deltas a) =
      st.game.window.along a + (t.deltas a).sum := fun a =>
    (st.game.span a).walk_of_inside (h a)
  funext a
  rw [hwalk a]
  by_cases hzero : ∀ a, (t.deltas a).sum = 0
  · rw [settle_of_still hzero, hzero, Int.add_zero]
  · rw [settle_of_moved hzero]
    exact (h a _ (List.prefix_refl _)).symm

-- The viewport of the one and the camera of the other are at the same place
-- after every tick exactly if every tick is one in which it makes no
-- difference how often the bounds are applied.
theorem camera_paths_agree_iff (s : Endpoint) {active spectator : Handle}
    (hne : active ≠ spectator) {st : State} (hst : Side active spectator st)
    (hsame : spectatorCamera spectator st = st.game.window) {ticks : List Beat}
    (hquiet : (ticking s active spectator).Valid st ticks) :
    (∀ done rest, ticks = done ++ rest →
        spectatorCamera spectator ((ticking s active spectator).exec st done) =
          ((ticking s active spectator).exec st done).game.window) ↔
      (ticking s active spectator).Each (fun st t => t.Alike st) st ticks := by
  let I : State → Prop := fun st =>
    Side active spectator st ∧ spectatorCamera spectator st = st.game.window
  have hstep : ∀ st t, I st → (ticking s active spectator).enabled st t →
      (I ((ticking s active spectator).next st t) ↔ t.Alike st) := by
    rintro st t ⟨hside, hcam⟩ ht
    obtain ⟨hside', hwindow, hcamera⟩ := hside.beat (s := s) hne ht
    rw [hcam] at hcamera
    rw [← walk_eq_settle_iff, ← hcamera, ← hwindow]
    exact ⟨fun h => congrArg Camera.along h.2, fun h => ⟨hside', along_ext (congrFun h)⟩⟩
  rw [← Machine.always_iff_each _ I _ hstep st ticks ⟨hst, hsame⟩ hquiet]
  refine ⟨fun h done rest hdone => ⟨?_, h done rest hdone⟩, fun h done rest hdone =>
    (h done rest hdone).2⟩
  have hvalid := hquiet
  rw [hdone, Machine.valid_append] at hvalid
  exact (ticking s active spectator).exec_invariant (Side active spectator)
    (fun _ _ hside ht => (hside.beat (s := s) hne ht).1) st done hst hvalid.1

end Beats

namespace Sample

-- Client 0 has the turn, client 1 watches.
def paired (g : Game) : State :=
  (plugin endpoint).exec (State.init config g) [.opened 0, .opened 1, .message 0 [116]]

def cornered : Game := { game 64 with windowX := -30 }

-- One to the left and one to the right
def bounce (g : Game) : Beat := ⟨[⟨255, 0, 0⟩, ⟨1, 0, 0⟩], g, df⟩

theorem bounce_sum (g : Game) (a : Axis) : ((bounce g).deltas a).sum = 0 := by
  have hx : ([int8 255, int8 1] : List Int).sum = 0 := by decide
  have hrest : ([int8 0, int8 0] : List Int).sum = 0 := by decide
  cases a with
  | x => exact hx
  | y => exact hrest
  | z => exact hrest

theorem bounce_quiet (g : Game) (st : State) (hwindow : g.window = st.game.window)
    (hspan : g.span = st.game.span) (haim : ∀ a, FitsInt32 (g.window.along a + 0))
    (hsteps : ∀ a, StepsFit (g.span a) ((spectatorCamera 1 st).along a) ((bounce g).deltas a)) :
    (bounce g).Quiet 1 st where
  window := hwindow
  span := hspan
  df _ _ _ := ⟨rfl, rfl⟩
  sums a := by cases a <;> exact ⟨⟨by decide, by decide⟩, ⟨by decide, by decide⟩, trivial⟩
  aim a := by
    rw [← hwindow, bounce_sum]
    exact haim a
  steps := hspan ▸ hsteps

end Sample

theorem camera_paths_agree_iff_sample :
    let st := (ticking Sample.endpoint 0 1).next (Sample.paired (Sample.game 64))
      (Sample.bounce (Sample.game 64))
    spectatorCamera 1 st = st.game.window := by
  have hside : Side 0 1 (Sample.paired (Sample.game 64)) :=
    ⟨rfl, rfl, rfl, by funext a; cases a <;> rfl⟩
  have hquiet : (Sample.bounce (Sample.game 64)).Quiet 1 (Sample.paired (Sample.game 64)) := by
    apply Sample.bounce_quiet
    · rfl
    · rfl
    · rintro (_ | _ | _) <;> exact ⟨by decide, by decide⟩
    · rintro (_ | _ | _) <;> exact ⟨⟨by decide, by decide⟩, ⟨by decide, by decide⟩, trivial⟩
  have hvalid : (ticking Sample.endpoint 0 1).Valid (Sample.paired (Sample.game 64))
      [Sample.bounce (Sample.game 64)] := ⟨hquiet, trivial⟩
  have hagree := camera_paths_agree_iff Sample.endpoint (by decide) hside rfl hvalid
  have halike : (Sample.bounce (Sample.game 64)).Alike (Sample.paired (Sample.game 64)) := by
    intro _
    refine ⟨fun _ => ?_, ?_⟩
    · rintro (_ | _ | _) <;> rfl
    · intro a
      rw [Sample.bounce_sum]
      cases a with
      | x => exact ⟨by decide, nofun⟩
      | y => exact ⟨by decide, nofun⟩
      | z => exact ⟨by decide, nofun⟩
  have hsame := hagree.mpr ⟨halike, trivial⟩ [Sample.bounce (Sample.game 64)] [] rfl
  rwa [Machine.exec_cons, Machine.exec_nil] at hsame

-- At the left border the viewport stays where it is, and the camera that was
-- pushed back is one tile further.
theorem bounce_at_border :
    let st := Sample.paired Sample.cornered
    let st' := (ticking Sample.endpoint 0 1).next st (Sample.bounce Sample.cornered)
    Side 0 1 st ∧ spectatorCamera 1 st = st.game.window ∧
      (Sample.bounce Sample.cornered).Quiet 1 st ∧ st'.game.window.x = -30 ∧
      (spectatorCamera 1 st').x = -29 := by
  refine ⟨⟨rfl, rfl, rfl, by funext a; cases a <;> rfl⟩, rfl, ?_, rfl, rfl⟩
  apply Sample.bounce_quiet
  · rfl
  · rfl
  · rintro (_ | _ | _) <;> exact ⟨by decide, by decide⟩
  · rintro (_ | _ | _) <;> exact ⟨⟨by decide, by decide⟩, ⟨by decide, by decide⟩, trivial⟩

end WebFort
