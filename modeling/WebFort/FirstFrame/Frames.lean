import WebFort.System.Lemmas
import WebFort.Update.Passes

namespace WebFort

open Library

-- The frame a tick captures, if DF has a screen of an accepted size.
def drawn (df : Df) (st : State) : Option Buffer :=
  if sizeOk (captured df st).gps then
    (captured df st).gps.screen.map fun screen => frame (captured df st) screen
  else none

def Captures (st : State) : Event → Prop
  | .update g df => drawn df (st.atGame g) ≠ none
  | _ => False

theorem Captures.isUpdate {st : State} {e : Event} (h : Captures st e) : e.IsUpdate := by
  cases e with
  | update g df => exact trivial
  | opened _ => exact h
  | message _ _ => exact h
  | closed _ => exact h
  | game _ => exact h

-- What makes the next answer carry this tile: the client asks for the whole
-- screen, or a capture finds another size or another cell.
def Unmarks (hdl : Handle) (t : Nat) (st : State) : Event → Prop
  | .message j payload => j = hdl ∧ parseMessage payload = .refreshScreen
  | .update g df => ∃ f, drawn df (st.atGame g) = some f ∧
      ((captured df (st.atGame g)).gps.dimx ≠ st.scPrevDimx ∨
        (captured df (st.atGame g)).gps.dimy ≠ st.scPrevDimy ∨ f t ≠ st.scPrev t)
  | _ => False

theorem Unmarks.refreshes {hdl : Handle} {t : Nat} {st : State} {e : Event}
    (h : Unmarks hdl t st e) (hu : ¬e.IsUpdate) :
    ∃ payload, e = .message hdl payload ∧ parseMessage payload = .refreshScreen := by
  cases e with
  | message j payload =>
      obtain ⟨rfl, hp⟩ := h
      exact ⟨payload, rfl, hp⟩
  | update g df => exact absurd trivial hu
  | opened _ => exact h.elim
  | closed _ => exact h.elim
  | game _ => exact h.elim

-- DF changes the size of its screen only with a frame that is captured.
def Screened (s : Endpoint) (st : State) (e : Event) : Prop :=
  Captures st e ∨ ((handle s e st).state.game.gps.dimx = st.game.gps.dimx ∧
    (handle s e st).state.game.gps.dimy = st.game.gps.dimy)

-- The plugin alone, under such a DF.
def screened (s : Endpoint) : Machine State Event := ⟨Screened s, fun st e => (handle s e st).state⟩

section Frames

variable {s : Endpoint} {hdl : Handle} {df : Df} {st : State} {cl : Client}

theorem drawn_eq_some {f : Buffer} :
    drawn df st = some f ↔ ∃ screen, (captured df st).gps.screen = some screen ∧
      sizeOk (captured df st).gps = true ∧ frame (captured df st) screen = f := by
  unfold drawn
  cases hk : sizeOk (captured df st).gps with
  | false => simp
  | true => simp [Option.map_eq_some_iff]

theorem drawn_eq_none :
    drawn df st = none ↔
      (captured df st).gps.screen = none ∨ sizeOk (captured df st).gps = false := by
  unfold drawn
  cases hk : sizeOk (captured df st).gps with
  | false => simp
  | true => simp

theorem pluginOnupdate_drawn {f : Buffer} (hf : drawn df st = some f) :
    (pluginOnupdate df st).state.sc = st.sc.copy f (total (captured df st).gps) ∧
      (pluginOnupdate df st).state.scPrev =
        st.scPrev.copy (pluginOnupdate df st).state.sc (total (captured df st).gps) ∧
      (pluginOnupdate df st).state.scPrevDimx = (captured df st).gps.dimx ∧
      (pluginOnupdate df st).state.scPrevDimy = (captured df st).gps.dimy := by
  obtain ⟨screen, hs, hk, rfl⟩ := drawn_eq_some.mp hf
  exact pluginOnupdate_ready hs hk

-- The extra renders keep the size that was captured.
theorem pluginOnupdate_dims (df : Df) (st : State) :
    (pluginOnupdate df st).state.game.gps.dimx = (captured df st).gps.dimx ∧
      (pluginOnupdate df st).state.game.gps.dimy = (captured df st).gps.dimy := by
  have hgame : Residue (captured df st) (pluginOnupdate df st).state.game := by
    rw [pluginOnupdate_state]
    have h := (renderClients_residue df (captureScreenBuffer (applyInput df st).state)).1
    rwa [captureScreenBuffer_game] at h
  constructor
  · exact hgame.reads (fun g => g.gps.dimx) fun _ _ => rfl
  · exact hgame.reads (fun g => g.gps.dimy) fun _ _ => rfl

-- The frame and its predecessor differ only while a tick runs, and the size
-- is the one of the last capture.
structure Framed (st : State) : Prop where
  size : sizeOk st.game.gps = true
  prev : st.scPrev = st.sc
  dims : st.scPrevDimx = -1 ∨
    (st.scPrevDimx = st.game.gps.dimx ∧ st.scPrevDimy = st.game.gps.dimy)

theorem Framed.init (config : Config) {g : Game} (hk : sizeOk g.gps = true) :
    Framed (State.init config g) := ⟨hk, rfl, Or.inl rfl⟩

theorem handle_screen (s : Endpoint) {e : Event} (hc : ¬Captures st e) :
    SameScreen st (handle s e st).state := by
  cases e with
  | opened j => exact onOpen_screen s j st
  | message j payload => exact (onMessage_kept s j payload st).screen
  | closed j => exact onClose_screen j st
  | game g => exact ⟨rfl, rfl, rfl, rfl⟩
  | update g df => exact { pluginOnupdate_not_ready (drawn_eq_none.mp (not_not.mp hc)) with }

theorem Framed.tick (h : Framed st) {g : Game} {f : Buffer}
    (hf : drawn df (st.atGame g) = some f) : Framed (pluginOnupdate df (st.atGame g)).state := by
  obtain ⟨hsc, hprev, hx, hy⟩ := pluginOnupdate_drawn hf
  obtain ⟨hgx, hgy⟩ := pluginOnupdate_dims df (st.atGame g)
  obtain ⟨-, -, hk, -⟩ := drawn_eq_some.mp hf
  refine ⟨(sizeOk_congr hgx hgy).trans hk, ?_, Or.inr ⟨hx.trans hgx.symm, hy.trans hgy.symm⟩⟩
  rw [hprev]
  funext t
  have hold : (st.atGame g).scPrev t = st.sc t := congrFun h.prev t
  unfold Buffer.copy
  split
  · rfl
  · rw [hsc, hold]
    exact (if_neg ‹_›).symm

theorem Framed.step (h : Framed st) {e : Event} (hscr : Screened s st e) :
    Framed (handle s e st).state := by
  by_cases hc : Captures st e
  · obtain ⟨g, df, rfl⟩ := hc.isUpdate.exists
    obtain ⟨f, hf⟩ := Option.ne_none_iff_exists'.mp hc
    exact h.tick hf
  · have hs := handle_screen s hc
    obtain ⟨hx, hy⟩ := hscr.resolve_left hc
    refine ⟨(sizeOk_congr hx hy).trans h.size, by rw [hs.scPrev, hs.sc, h.prev], ?_⟩
    rw [hs.scPrevDimx, hs.scPrevDimy, hx, hy]
    exact h.dims

theorem Client.share_tile {sc scPrev : Buffer} (changed : Bool) {total t : Nat}
    (hcam : cl.hasOwnCam = false) (ht : t < total) (hlen : total ≤ 256 * 256) :
    (cl.share sc scPrev changed total).hasOwnCam = false ∧
      (cl.share sc scPrev changed total).ownSc t = sc t ∧
      (cl.share sc scPrev changed total).mod t =
        if changed = true ∨ sc t ≠ scPrev t then 0 else cl.mod t := by
  have hcopy : cl.ownSc.copy sc total t = sc t := if_pos ht
  unfold Client.share
  rw [if_neg (by simp [hcam])]
  cases changed with
  | true =>
      have hclear : t < 256 * 256 := by omega
      simp [Client.clearMod, hcam, hcopy, hclear]
  | false => simp [markChanged, hcam, hcopy, ht]

-- A capture unmarks the tile of every client that shares the frame.
theorem unmarks_iff {g : Game} {f : Buffer} {t : Nat}
    (hf : drawn df (st.atGame g) = some f) (ht : t < total (captured df (st.atGame g)).gps) :
    Unmarks hdl t st (.update g df) ↔
      (decide ((captured df (st.atGame g)).gps.dimx ≠ (st.atGame g).scPrevDimx) ||
          decide ((captured df (st.atGame g)).gps.dimy ≠ (st.atGame g).scPrevDimy)) = true ∨
        (pluginOnupdate df (st.atGame g)).state.sc t ≠ (st.atGame g).scPrev t := by
  have hcell : (pluginOnupdate df (st.atGame g)).state.sc t = f t :=
    (congrFun (pluginOnupdate_drawn hf).1 t).trans (if_pos ht)
  rw [hcell, Bool.or_eq_true, decide_eq_true_iff, decide_eq_true_iff, or_assoc]
  constructor
  · rintro ⟨f', hf', h⟩
    obtain rfl := Option.some.inj (hf.symm.trans hf')
    exact h
  · exact fun h => ⟨f, hf, h⟩

-- A capture that keeps the mark of a tile finds the screen and the tile as
-- they were.
theorem Framed.same (h : Framed st) {g : Game} {f : Buffer} {t : Nat}
    (hf : drawn df (st.atGame g) = some f) (ht : t < total (captured df (st.atGame g)).gps)
    (hu : ¬Unmarks hdl t st (.update g df)) :
    (captured df (st.atGame g)).gps.dimx = st.game.gps.dimx ∧
      (captured df (st.atGame g)).gps.dimy = st.game.gps.dimy ∧
      (pluginOnupdate df (st.atGame g)).state.sc t = st.sc t := by
  obtain ⟨-, -, hk, -⟩ := drawn_eq_some.mp hf
  rw [unmarks_iff hf ht] at hu
  simp only [Bool.or_eq_true, decide_eq_true_iff, not_or, not_not] at hu
  obtain ⟨⟨hx, hy⟩, hcell⟩ := hu
  -- before any capture sc_prev_dimx is no width
  have hdims := h.dims.resolve_left fun hn => by
    obtain ⟨hpos, -⟩ := (sizeOk_iff _).mp hk
    have hdimx : (captured df (st.atGame g)).gps.dimx = -1 := hx.trans hn
    omega
  exact ⟨hx.trans hdims.1, hy.trans hdims.2, hcell.trans (congrFun h.prev t)⟩

end Frames

end WebFort
