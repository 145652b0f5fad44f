import WebFort.Server.Queue
import WebFort.Sample

namespace WebFort

open Library

-- DF's own reading of the space bar.
def togglePause (paused : Bool) (ev : SdlEvent) : Bool :=
  if presses Keycode.space ev then !paused else paused

-- pause_state once DF has handled the keys of a flush.
def pausedAfterFlush (st : State) : Bool :=
  (sdlEvents (flushInputQueue st).out).foldl togglePause st.game.pauseState

-- Between two flushes DF handles no keys, so that it keeps its pause state,
-- and no player presses the space bar.
def Between (st : State) : Event → Prop
  | .message _ payload => ∀ jsKey charCode jsmods,
      parseMessage payload = .keyEvent jsKey charCode jsmods → eventKey jsKey charCode ≠ Key.space
  | .game g => g.pauseState = st.game.pauseState
  | .update _ _ => False
  | _ => True

-- The new holder of the turn, where an event moves it.
def focusChange (s : Endpoint) (st : State) (e : Event) : List (Option Handle) :=
  if (handle s e st).state.activeConn = st.activeConn then []
  else [(handle s e st).state.activeConn]

-- The presses of the space bar waiting in the queue.
def spaces (st : State) : Nat := (flushKeys st.inputQueue).countP (presses Keycode.space)

theorem foldl_togglePause (evs : List SdlEvent) (paused : Bool) :
    evs.foldl togglePause paused =
      (paused ^^ decide (evs.countP (presses Keycode.space) % 2 = 1)) := by
  induction evs generalizing paused with
  | nil => simp
  | cons ev evs ih =>
      rw [List.foldl_cons, ih, List.countP_cons]
      cases hp : presses Keycode.space ev with
      | false => simp [togglePause, hp]
      | true =>
          have hodd : decide ((evs.countP (presses Keycode.space) + 1) % 2 = 1) =
              !decide (evs.countP (presses Keycode.space) % 2 = 1) := by
            rw [← decide_not]
            exact decide_eq_decide.mpr (by omega)
          simp only [togglePause, hp, if_true, hodd]
          cases paused <;> simp

theorem pausedAfterFlush_eq (st : State) :
    pausedAfterFlush st = (st.game.pauseState ^^ decide (spaces st % 2 = 1)) := by
  unfold pausedAfterFlush
  rw [sdlEvents_flush]
  exact foldl_togglePause _ _

theorem typed_no_space {st : State} {e : Event} (hb : Between st e) :
    (flushKeys (typed st e)).countP (presses Keycode.space) = 0 := by
  refine List.countP_eq_zero.mpr fun sdl hsdl hpress => ?_
  cases e with
  | message hdl payload =>
      by_cases hkey : ∃ jsKey charCode jsmods, parseMessage payload = .keyEvent jsKey charCode jsmods
      · obtain ⟨jsKey, charCode, jsmods, hp⟩ := hkey
        have hne := mt (wfToSdlKeycode_eventKey jsKey charCode (Or.inr rfl)).mp
          (hb jsKey charCode jsmods hp)
        simp only [typed, hp] at hsdl
        split at hsdl
        · have hno := flushKeys_typed _ charCode jsmods Keycode.space (by decide) hne sdl hsdl
          exact absurd (hno.symm.trans hpress) (by decide)
        · simp [flushKeys] at hsdl
      · rw [typed_of_no_key st hdl hkey] at hsdl
        simp [flushKeys] at hsdl
  | opened _ => simp [typed, flushKeys] at hsdl
  | closed _ => simp [typed, flushKeys] at hsdl
  | game _ => simp [typed, flushKeys] at hsdl
  | update _ _ => simp [typed, flushKeys] at hsdl

-- Each change of hands looks at the pause state of the last flush.
theorem handover_spaces (s : Endpoint) (st : State) (e : Event) :
    (flushKeys (handover s st e)).countP (presses Keycode.space) =
      if st.game.pauseState then 0 else (focusChange s st e).length := by
  have hone : (flushKeys [⟨1, 0, Key.space, 32⟩]).countP (presses Keycode.space) = 1 := by decide
  unfold handover focusChange pauseKeys
  split
  · simp [flushKeys]
  · split
    · rfl
    · exact hone

theorem next_between {s : Endpoint} {st : State} {e : Event} (hb : Between st e) :
    ((plugin s).next st e).game.pauseState = st.game.pauseState ∧
      spaces ((plugin s).next st e) =
        spaces st + if st.game.pauseState then 0 else (focusChange s st e).length := by
  have hu : ¬e.IsUpdate := by
    intro hu
    obtain ⟨g, df, rfl⟩ := hu.exists
    exact hb
  constructor
  · refine (congrArg Game.pauseState (handle_game s e st)).trans ?_
    cases e with
    | game g => exact hb
    | update _ _ => exact hb.elim
    | opened _ => rfl
    | message _ _ => rfl
    | closed _ => rfl
  · have hqueue : ((plugin s).next st e).inputQueue =
        st.inputQueue ++ (typed st e ++ handover s st e) := handle_inputQueue s e st hu
    unfold spaces
    rw [hqueue, flushKeys_append, flushKeys_append, List.countP_append, List.countP_append,
      typed_no_space hb, handover_spaces, Nat.zero_add]

theorem spaces_of_run {s : Endpoint} {st : State} {es : List Event}
    (hb : (plugin s).Each Between st es) :
    ((plugin s).exec st es).game.pauseState = st.game.pauseState ∧
      spaces ((plugin s).exec st es) = spaces st +
        if st.game.pauseState then 0 else ((plugin s).trace (focusChange s) st es).length := by
  induction es generalizing st with
  | nil => simp [Machine.trace]
  | cons e es ih =>
      obtain ⟨hpause, hspaces⟩ := next_between hb.1
      obtain ⟨hpause', hspaces'⟩ := ih hb.2
      refine ⟨hpause'.trans hpause, ?_⟩
      rw [Machine.exec_cons, hspaces', hspaces, hpause, Machine.trace, List.length_append]
      split <;> omega

-- The presses of several changes of hands in one tick undo each other.
theorem paused_after_flush_iff (s : Endpoint) (st : State) (es : List Event)
    (hqueue : st.inputQueue = []) (hb : (plugin s).Each Between st es) :
    pausedAfterFlush ((plugin s).exec st es) = true ↔
      st.game.pauseState = true ∨ ((plugin s).trace (focusChange s) st es).length % 2 = 1 := by
  obtain ⟨hpause, hspaces⟩ := spaces_of_run hb
  have hempty : spaces st = 0 := by
    unfold spaces
    rw [hqueue]
    rfl
  rw [pausedAfterFlush_eq, hpause, hspaces, hempty, Nat.zero_add]
  cases st.game.pauseState <;> simp

-- One player asks for the turn.
theorem paused_after_flush_iff_sample :
    pausedAfterFlush ((plugin Sample.endpoint).exec (State.init Sample.config Sample.running)
      [.opened 0, .message 0 [116]]) = true :=
  (paused_after_flush_iff Sample.endpoint (State.init Sample.config Sample.running)
    [.opened 0, .message 0 [116]] rfl
    ⟨trivial, fun _ _ _ h => (nomatch h), trivial⟩).mpr (Or.inr (by decide))

-- The player takes the turn and gives it back before the next flush.
theorem two_handovers_leave_running :
    let st := State.init Sample.config Sample.running
    let es := [Event.opened 0, .message 0 [116], .message 0 [116]]
    st.inputQueue = [] ∧ (plugin Sample.endpoint).Each Between st es ∧
      (plugin Sample.endpoint).trace (focusChange Sample.endpoint) st es = [some 0, none] ∧
      pausedAfterFlush ((plugin Sample.endpoint).exec st es) = false :=
  ⟨rfl, ⟨trivial, fun _ _ _ h => (nomatch h), fun _ _ _ h => (nomatch h), trivial⟩,
    by decide, by decide⟩

end WebFort
