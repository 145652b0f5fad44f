import WebFort.Update
import WebFort.Capture.Lemmas
import WebFort.Server.Frame

namespace WebFort

open Library

section Input

-- DF's side of the state and the queues that feed it.
def Touched (st st' : State) : Prop :=
  ∃ keys mouse x y g, st' =
    { st with inputQueue := keys, mouseQueue := mouse, mouseTileX := x, mouseTileY := y, game := g }

theorem Touched.refl (st : State) : Touched st st := ⟨_, _, _, _, _, rfl⟩

theorem Touched.trans {a b c : State} (hab : Touched a b) (hbc : Touched b c) : Touched a c := by
  obtain ⟨_, _, _, _, _, rfl⟩ := hab
  obtain ⟨_, _, _, _, _, rfl⟩ := hbc
  exact ⟨_, _, _, _, _, rfl⟩

theorem Touched.andThen {st : State} {r : Res} {k : State → Res} (hr : Touched st r.state)
    (hk : ∀ t, Touched t (k t).state) : Touched st (r.andThen k).state :=
  Outcome.andThen_frame (R := Touched) (fun _ _ _ => Touched.trans) hr hk

theorem withGame_touched (st : State) (f : Game → Game) : Touched st (st.withGame f) :=
  ⟨_, _, _, _, _, rfl⟩

-- What the input part may do to DF: anything a feed does, and the writes of
-- the plugin to the mouse and the enabler.
structure Inert (df : Df) (P : Game → Prop) : Prop where
  feed : ∀ n keys g, P g → P (df.feed n keys g)
  stampMouse : ∀ g x y, P g → P (g.stampMouse x y)
  enabler : ∀ g e, P g → P { g with enabler := e }

variable {df : Df} {P : Game → Prop}

theorem feedMouse_touched (feed : List InterfaceKey → Game → Game) (ev : WFMouseEvent)
    (st : State) : Touched st (feedMouse feed ev st).state := by
  have hkeys : ∀ (keys : List InterfaceKey) (st : State),
      Touched st (feedKeys feed keys st).state := fun keys st => withGame_touched st (feed keys)
  have htracked := withGame_touched st trackingOn
  unfold feedMouse
  simp only
  split
  · exact htracked.trans (hkeys _ _)
  · split
    · exact Touched.andThen htracked (hkeys _)
    · refine Touched.andThen (Touched.trans ?_ (hkeys _ _)) fun _ => ⟨_, _, _, _, _, rfl⟩
      exact htracked.trans (withGame_touched _ _)

theorem feedMouse_threw (feed : List InterfaceKey → Game → Game) (ev : WFMouseEvent)
    (st : State) : (feedMouse feed ev st).threw = false := by
  unfold feedMouse
  split
  · rfl
  · split <;> rfl

theorem feedMouse_game (hP : Inert df P) (n : Nat) (ev : WFMouseEvent) (st : State)
    (hg : P st.game) : P (feedMouse (df.feed n) ev st).state.game := by
  have ht : P (trackingOn st.game) := hP.enabler _ _ hg
  unfold feedMouse
  split
  · exact hP.feed n _ _ ht
  · split
    · exact hP.feed n _ _ ht
    · exact hP.enabler _ _ (hP.feed n _ _ (hP.enabler _ _ ht))

theorem persistTile_touched (ev : WFMouseEvent) (st : State) : Touched st (persistTile ev st) := by
  unfold persistTile
  split
  · exact ⟨_, _, _, _, _, rfl⟩
  · exact Touched.refl st

@[simp] theorem persistTile_game (ev : WFMouseEvent) (st : State) :
    (persistTile ev st).game = st.game := by
  unfold persistTile
  split <;> rfl

theorem applyMouse_touched (feed : List InterfaceKey → Game → Game) (ev : WFMouseEvent)
    (st : State) : Touched st (applyMouse feed ev st).state := by
  have hstamp := (persistTile_touched ev st).trans
    (withGame_touched _ fun g => g.stampMouse ev.tileX.toNat ev.tileY.toNat)
  unfold applyMouse
  simp only
  split
  · exact hstamp
  · exact hstamp.trans (feedMouse_touched feed ev _)

theorem applyMouse_threw (feed : List InterfaceKey → Game → Game) (ev : WFMouseEvent)
    (st : State) : (applyMouse feed ev st).threw = false := by
  unfold applyMouse
  simp only
  split
  · rfl
  · exact feedMouse_threw feed ev _

theorem applyMouse_game (hP : Inert df P) (n : Nat) (ev : WFMouseEvent) (st : State)
    (hg : P st.game) : P (applyMouse (df.feed n) ev st).state.game := by
  have hstamp : P ((persistTile ev st).withGame
      fun g => g.stampMouse ev.tileX.toNat ev.tileY.toNat).game :=
    hP.stampMouse _ _ _ (by rwa [persistTile_game])
  unfold applyMouse
  simp only
  split
  · exact hstamp
  · exact feedMouse_game hP n ev _ hstamp

theorem applyMouseEvents_threw (df : Df) (evs : List WFMouseEvent) (st : State) :
    (applyMouseEvents df evs st).threw = false := by
  induction evs generalizing st with
  | nil => rfl
  | cons ev rest ih =>
      simp only [applyMouseEvents]
      rw [Outcome.andThen_of_ok _ (applyMouse_threw _ ev st)]
      exact ih _

theorem applyMouseEvents_touched (df : Df) (evs : List WFMouseEvent) (st : State) :
    Touched st (applyMouseEvents df evs st).state := by
  induction evs generalizing st with
  | nil => exact Touched.refl st
  | cons ev rest ih =>
      simp only [applyMouseEvents]
      rw [Outcome.andThen_of_ok _ (applyMouse_threw _ ev st)]
      exact (applyMouse_touched _ ev st).trans (ih _)

theorem applyMouseEvents_game (hP : Inert df P) (evs : List WFMouseEvent) (st : State)
    (hg : P st.game) : P (applyMouseEvents df evs st).state.game := by
  induction evs generalizing st with
  | nil => exact hg
  | cons ev rest ih =>
      simp only [applyMouseEvents]
      rw [Outcome.andThen_of_ok _ (applyMouse_threw _ ev st)]
      exact ih _ (applyMouse_game hP _ ev st hg)

theorem flushMouseQueue_threw (df : Df) (st : State) : (flushMouseQueue df st).threw = false :=
  applyMouseEvents_threw df _ _

theorem restampMouse_touched (df : Df) (st : State) : Touched st (restampMouse df st).state := by
  unfold restampMouse
  split
  · simp only
    split <;> exact ⟨_, _, _, _, _, rfl⟩
  · exact Touched.refl st

theorem restampMouse_threw (df : Df) (st : State) : (restampMouse df st).threw = false := by
  unfold restampMouse
  split
  · simp only
    split <;> rfl
  · rfl

theorem restampMouse_game (hP : Inert df P) (st : State) (hg : P st.game) :
    P (restampMouse df st).state.game := by
  have hstamp : P (trackingOn (st.game.stampMouse st.mouseTileX st.mouseTileY)) :=
    hP.enabler _ _ (hP.stampMouse _ _ _ hg)
  unfold restampMouse
  split
  · simp only
    split
    · exact hstamp
    · exact hP.feed 0 _ _ hstamp
  · exact hg

-- The three parts one after the other.
theorem applyInput_state (df : Df) (st : State) :
    (applyInput df st).state =
      (restampMouse df (flushMouseQueue df
        (flushInputQueue (syncCamera (drainCamera st))).state).state).state := by
  have hf : (flushInputQueue (syncCamera (drainCamera st))).threw = false := rfl
  unfold applyInput
  rw [Outcome.andThen_of_ok _ hf]
  simp only
  rw [Outcome.andThen_of_ok _ (flushMouseQueue_threw df _)]

theorem applyInput_threw (df : Df) (st : State) : (applyInput df st).threw = false := by
  have hf : (flushInputQueue (syncCamera (drainCamera st))).threw = false := rfl
  unfold applyInput
  rw [Outcome.andThen_of_ok _ hf]
  simp only
  rw [Outcome.andThen_of_ok _ (flushMouseQueue_threw df _)]
  exact restampMouse_threw df _

theorem applyInput_touched (df : Df) (st : State) :
    Touched (syncCamera (drainCamera st)) (applyInput df st).state := by
  rw [applyInput_state]
  have hflush : Touched (syncCamera (drainCamera st))
      (flushInputQueue (syncCamera (drainCamera st))).state := ⟨_, _, _, _, _, rfl⟩
  refine (hflush.trans ?_).trans (restampMouse_touched df _)
  exact Touched.trans ⟨_, _, _, _, _, rfl⟩ (applyMouseEvents_touched df _ _)

theorem applyInput_game (hP : Inert df P) (st : State)
    (hg : P (syncCamera (drainCamera st)).game) : P (applyInput df st).state.game := by
  rw [applyInput_state]
  exact restampMouse_game hP _ (applyMouseEvents_game hP _ _ hg)

theorem pluginOnupdate_threw (df : Df) (st : State) : (pluginOnupdate df st).threw = false := by
  unfold pluginOnupdate
  rw [Outcome.andThen_of_ok _ (applyInput_threw df st)]
  rfl

theorem pluginOnupdate_state (df : Df) (st : State) :
    (pluginOnupdate df st).state =
      updateGraphics df (renderClients df (captureScreenBuffer (applyInput df st).state)) := by
  unfold pluginOnupdate
  rw [Outcome.andThen_of_ok _ (applyInput_threw df st)]
  rfl

end Input

end WebFort
