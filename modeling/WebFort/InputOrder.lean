import WebFort.Server.Queue
import WebFort.Library.Drain
import WebFort.Sample

namespace WebFort

open Library

-- Keys and mouse events on their way through g_wf_input_queue and
-- g_wf_mouse_queue.

abbrev Input := WFKeyEvent ⊕ WFMouseEvent

-- What a message of the active player puts into the mouse queue.
def clicked (st : State) : Event → List WFMouseEvent
  | .message hdl payload => match parseMessage payload with
    | .mouseEvent ev => if st.activeConn = some hdl then [ev] else []
    | _ => []
  | _ => []

-- The space bar set_active presses is one of the keys.
def arrivals (s : Endpoint) (st : State) : Event → List (Arrival WFKeyEvent WFMouseEvent)
  | .update _ _ => [.drain]
  | e => (typed st e ++ handover s st e).map .left ++ (clicked st e).map .right

-- The input plugin_onupdate takes over, in the order it hands it to DF.
def applied (st : State) : Event → List Input
  | .update _ _ => st.inputQueue.map .inl ++ st.mouseQueue.map .inr
  | _ => []

def mice (inputs : List Input) : List WFMouseEvent := inputs.filterMap Sum.getRight?

-- One input after the other is given to DF.
def applyInputs (df : Df) : List Input → State → Res
  | [], st => .ok st
  | .inl ev :: rest, st =>
      (Outcome.andThen ⟨st, (flushKey ev).map Out.sdl, false⟩ (applyInputs df rest))
  | .inr ev :: rest, st =>
      (applyMouse (df.feed ((mice rest).length + 1)) ev st).andThen (applyInputs df rest)

section Flush

theorem mice_inr (evs : List WFMouseEvent) : mice (evs.map .inr) = evs := by
  simp [mice, List.filterMap_map, Function.comp_def]

theorem applyInputs_mice (df : Df) (evs : List WFMouseEvent) (st : State) :
    applyInputs df (evs.map .inr) st = applyMouseEvents df evs st := by
  induction evs generalizing st with
  | nil => rfl
  | cons ev evs ih =>
      have hrest : applyInputs df (evs.map .inr) = applyMouseEvents df evs := funext ih
      simp only [List.map_cons, applyInputs, applyMouseEvents, hrest, mice_inr]

theorem applyInputs_keys (df : Df) (keys : List WFKeyEvent) (rest : List Input) (st : State) :
    applyInputs df (keys.map .inl ++ rest) st =
      (Outcome.andThen ⟨st, (flushKeys keys).map Out.sdl, false⟩ (applyInputs df rest)) := by
  induction keys with
  | nil => simp [flushKeys, Outcome.andThen]
  | cons ev keys ih =>
      have hcons : flushKeys (ev :: keys) = flushKey ev ++ flushKeys keys := List.flatMap_cons
      simp only [List.map_cons, List.cons_append, applyInputs, hcons, List.map_append]
      simp only [Outcome.andThen, ih, Bool.false_eq_true, if_false, List.append_assoc]

-- The state in which the two flushes find DF.
def flushStart (st : State) : State :=
  { syncCamera (drainCamera st) with inputQueue := [], mouseQueue := [] }

theorem syncCamera_queues (st : State) :
    (syncCamera (drainCamera st)).inputQueue = st.inputQueue ∧
      (syncCamera (drainCamera st)).mouseQueue = st.mouseQueue := by
  obtain ⟨clients, w, hdrain⟩ := drainCamera_eq st
  obtain ⟨clients', hsync⟩ := withActive_eq (drainCamera st) fun cl =>
    { cl with cam := (drainCamera st).game.window, hasOwnCam := true }
  rw [syncCamera, hsync, hdrain]
  exact ⟨rfl, rfl⟩

theorem flush_eq (df : Df) (st : State) :
    ((flushInputQueue (syncCamera (drainCamera st))).andThen (flushMouseQueue df)) =
      applyInputs df (st.inputQueue.map .inl ++ st.mouseQueue.map .inr) (flushStart st) := by
  obtain ⟨hkeys, hmouse⟩ := syncCamera_queues st
  have hflush : (flushInputQueue (syncCamera (drainCamera st))).threw = false := rfl
  rw [applyInputs_keys, Outcome.andThen_of_ok _ hflush, Outcome.andThen_of_ok _ rfl]
  simp only [flushInputQueue, flushMouseQueue, applyInputs_mice, hkeys, hmouse, flushStart]

-- What DF is given in an update: the inputs, and the hover of the cursor.
theorem update_out (df : Df) (st : State) :
    (pluginOnupdate df st).out =
      (applyInputs df (st.inputQueue.map .inl ++ st.mouseQueue.map .inr) (flushStart st)).out ++
        (restampMouse df
          (applyInputs df (st.inputQueue.map .inl ++ st.mouseQueue.map .inr)
            (flushStart st)).state).out := by
  have hflush : (flushInputQueue (syncCamera (drainCamera st))).threw = false := rfl
  have hmouse := flushMouseQueue_threw df (flushInputQueue (syncCamera (drainCamera st))).state
  have hinput : (pluginOnupdate df st).out = (applyInput df st).out := by
    unfold pluginOnupdate
    rw [Outcome.andThen_of_ok _ (applyInput_threw df st)]
    exact List.append_nil _
  rw [hinput, ← flush_eq, Outcome.andThen_of_ok _ hflush]
  unfold applyInput
  rw [Outcome.andThen_of_ok _ hflush]
  simp only [Outcome.andThen_of_ok _ hmouse, List.append_assoc]

end Flush

section Queues

theorem setActive_mouseQueue (newc : Option Handle) (st : State) :
    (setActive newc st).state.mouseQueue = st.mouseQueue := by
  obtain ⟨_, _, _, _, _, _, h⟩ := setActive_state newc st
  rw [h]

theorem turnPart_mouseQueue (st : State) : (turnPart st).mouseQueue = st.mouseQueue := by
  obtain ⟨timedOut, h | h⟩ := turnPart_state st
  · rw [h]
  · rw [h, setActive_mouseQueue]

theorem onMessage_mouseQueue (s : Endpoint) (hdl : Handle) (payload : Bytes) (st : State) :
    (onMessage s hdl payload st).state.mouseQueue =
      st.mouseQueue ++ clicked st (.message hdl payload) := by
  cases hp : parseMessage payload with
  | mouseEvent ev =>
      simp only [onMessage, clicked, hp, Outcome.ok_state, mouseEvent]
      by_cases ha : st.activeConn = some hdl
      · simp [ha, State.simmouse]
      · simp [ha]
  | keyEvent jsKey charCode jsmods =>
      obtain ⟨evs, h⟩ := keyEvent_state hdl st jsKey charCode jsmods
      simp only [onMessage, clicked, hp, Outcome.ok_state, h, List.append_nil]
      rfl
  | cursorMove x y =>
      obtain ⟨f, -, h⟩ := cursorMove_state hdl st x y
      simp only [onMessage, clicked, hp, Outcome.ok_state, h, List.append_nil]
      rfl
  | refreshScreen =>
      simp [onMessage, clicked, hp, refreshScreen, State.withClient]
  | camMove dx dy dz =>
      simp only [onMessage, clicked, hp, Outcome.ok_state, List.append_nil]
      rcases camMove_state hdl st dx dy dz with ⟨x, y, z, h⟩ | h
      · rw [h]
      · rw [h]
        rfl
  | requestTurn =>
      simp only [onMessage, clicked, hp, requestTurn, List.append_nil]
      split
      · exact setActive_mouseQueue none st
      · split
        · exact setActive_mouseQueue (some hdl) st
        · rfl
  | update =>
      simp only [onMessage, clicked, hp, tock_state, List.append_nil]
      exact turnPart_mouseQueue st

theorem handle_mouseQueue (s : Endpoint) (e : Event) (st : State) (hu : ¬e.IsUpdate) :
    (handle s e st).state.mouseQueue = st.mouseQueue ++ clicked st e := by
  cases e with
  | message hdl payload => exact onMessage_mouseQueue s hdl payload st
  | opened hdl =>
      have hopen : (onOpen s hdl st).state.mouseQueue = st.mouseQueue := by
        rcases onOpen_state s hdl st with h | h
        · rw [h]
        · rw [h]
          rfl
      simpa only [handle, clicked, List.append_nil] using hopen
  | closed hdl =>
      simp only [handle, clicked, List.append_nil]
      cases hcl : st.clients.find? hdl with
      | none => rw [onClose_absent hcl]; rfl
      | some cl =>
          rw [onClose_registered hcl]
          simp only [Outcome.ok_state]
          unfold releaseTurn
          split
          · exact setActive_mouseQueue none st
          · rfl
  | game g => simp [handle, clicked, State.atGame]
  | update g df => exact absurd trivial hu

-- Only the flushes themselves take from the queues.
def SameQueues (st st' : State) : Prop :=
  st'.inputQueue = st.inputQueue ∧ st'.mouseQueue = st.mouseQueue

theorem SameQueues.trans {a b c : State} (hab : SameQueues a b) (hbc : SameQueues b c) :
    SameQueues a c := ⟨hbc.1.trans hab.1, hbc.2.trans hab.2⟩

theorem applyMouse_queues (feed : List InterfaceKey → Game → Game) (ev : WFMouseEvent)
    (st : State) : SameQueues st (applyMouse feed ev st).state := by
  have hfeed : ∀ st : State, SameQueues st (feedMouse feed ev st).state := by
    intro st
    unfold feedMouse
    split
    · exact ⟨rfl, rfl⟩
    · split
      · exact Outcome.andThen_frame (R := SameQueues) (fun _ _ _ => SameQueues.trans) ⟨rfl, rfl⟩
          fun _ => ⟨rfl, rfl⟩
      · exact Outcome.andThen_frame (R := SameQueues) (fun _ _ _ => SameQueues.trans) ⟨rfl, rfl⟩
          fun _ => ⟨rfl, rfl⟩
  have hpersist : SameQueues st (persistTile ev st) := by
    unfold persistTile
    split <;> exact ⟨rfl, rfl⟩
  let stamped := (persistTile ev st).withGame fun g => g.stampMouse ev.tileX.toNat ev.tileY.toNat
  have hstamp : SameQueues st stamped := ⟨hpersist.1, hpersist.2⟩
  have heq : applyMouse feed ev st =
      if stamped.game.topViewscreen = none then .ok stamped else feedMouse feed ev stamped := rfl
  rw [heq]
  split
  · exact hstamp
  · exact hstamp.trans (hfeed stamped)

theorem applyMouseEvents_queues (df : Df) (evs : List WFMouseEvent) (st : State) :
    SameQueues st (applyMouseEvents df evs st).state := by
  induction evs generalizing st with
  | nil => exact ⟨rfl, rfl⟩
  | cons ev evs ih =>
      exact Outcome.andThen_frame (R := SameQueues) (fun _ _ _ => SameQueues.trans)
        (applyMouse_queues _ ev st) ih

theorem restampMouse_queues (df : Df) (st : State) : SameQueues st (restampMouse df st).state := by
  unfold restampMouse
  split
  · simp only
    split <;> exact ⟨rfl, rfl⟩
  · exact ⟨rfl, rfl⟩

theorem update_queues (df : Df) (st : State) :
    (pluginOnupdate df st).state.inputQueue = [] ∧ (pluginOnupdate df st).state.mouseQueue = [] := by
  have hinput : SameQueues (flushStart st) (applyInput df st).state := by
    rw [applyInput_state]
    exact SameQueues.trans (applyMouseEvents_queues df _ _) (restampMouse_queues df _)
  have hcapture : ∀ st : State, SameQueues st (captureScreenBuffer st) := by
    intro st
    unfold captureScreenBuffer
    split
    · exact ⟨rfl, rfl⟩
    · split <;> exact ⟨rfl, rfl⟩
  have hrender : ∀ st : State, SameQueues st (renderClients df st) := by
    intro st
    unfold renderClients
    simp only
    split <;> exact ⟨rfl, rfl⟩
  rw [pluginOnupdate_state]
  exact (hinput.trans (hcapture _)).trans (hrender _)

end Queues

section Run

variable (s : Endpoint)

-- One event of the run, the queues after it and what it has applied.
theorem queues_next (st : State) (e : Event) :
    ((handle s e st).state.inputQueue, (handle s e st).state.mouseQueue) =
        Arrival.waiting st.inputQueue st.mouseQueue (arrivals s st e) ∧
      applied st e = Arrival.served st.inputQueue st.mouseQueue (arrivals s st e) := by
  by_cases hu : e.IsUpdate
  · obtain ⟨g, df, rfl⟩ := hu.exists
    obtain ⟨hkeys, hmice⟩ := update_queues df (st.atGame g)
    refine ⟨?_, (List.append_nil _).symm⟩
    exact Prod.ext hkeys hmice
  · have harr : arrivals s st e =
        (typed st e ++ handover s st e).map .left ++ (clicked st e).map .right := by
      cases e with
      | update g df => exact absurd trivial hu
      | _ => rfl
    have hnone : applied st e = [] := by
      cases e with
      | update g df => exact absurd trivial hu
      | _ => rfl
    rw [harr, hnone, Arrival.waiting_append, Arrival.waiting_lefts, Arrival.waiting_rights,
      Arrival.served_append, Arrival.waiting_lefts, Arrival.served_lefts_only,
      Arrival.served_rights_only]
    refine ⟨?_, rfl⟩
    rw [handle_inputQueue s e st hu, handle_mouseQueue s e st hu]

theorem applied_run (st : State) (es : List Event) :
    (((plugin s).exec st es).inputQueue, ((plugin s).exec st es).mouseQueue) =
        Arrival.waiting st.inputQueue st.mouseQueue ((plugin s).trace (arrivals s) st es) ∧
      (plugin s).trace applied st es =
        Arrival.served st.inputQueue st.mouseQueue ((plugin s).trace (arrivals s) st es) := by
  induction es generalizing st with
  | nil => exact ⟨rfl, rfl⟩
  | cons e es ih =>
      obtain ⟨hqueues, happlied⟩ := queues_next s st e
      obtain ⟨hrest, hserved⟩ := ih (handle s e st).state
      have hkeys := congrArg Prod.fst hqueues
      have hmice := congrArg Prod.snd hqueues
      have hnext : (plugin s).next st e = (handle s e st).state := rfl
      simp only at hkeys hmice
      simp only [Machine.trace, Machine.exec_cons, hnext, Arrival.waiting_append,
        Arrival.served_append, ← hkeys, ← hmice, ← happlied]
      exact ⟨hrest, congrArg (applied st e ++ ·) hserved⟩

end Run

-- Every key and every mouse event is applied once, each kind in the order of
-- its messages. A tick applies what has arrived since the last one, the keys
-- before the mouse events.
theorem input_order (s : Endpoint) (st : State) (es : List Event) :
    (∀ (st : State) (g : Game) (df : Df),
      let given := applyInputs df (applied st (.update g df)) (flushStart (st.atGame g))
      (handle s (.update g df) st).out = given.out ++ (restampMouse df given.state).out) ∧
    (plugin s).trace applied st es =
      Arrival.served st.inputQueue st.mouseQueue ((plugin s).trace (arrivals s) st es) ∧
    ((plugin s).trace applied st es).filterMap Sum.getLeft? ++
        ((plugin s).exec st es).inputQueue =
      st.inputQueue ++ Arrival.lefts ((plugin s).trace (arrivals s) st es) ∧
    ((plugin s).trace applied st es).filterMap Sum.getRight? ++
        ((plugin s).exec st es).mouseQueue =
      st.mouseQueue ++ Arrival.rights ((plugin s).trace (arrivals s) st es) := by
  obtain ⟨hqueues, hserved⟩ := applied_run s st es
  have hkeys := congrArg Prod.fst hqueues
  have hmice := congrArg Prod.snd hqueues
  simp only at hkeys hmice
  refine ⟨fun st g df => update_out df (st.atGame g), hserved, ?_, ?_⟩
  · rw [hserved, hkeys]
    exact Arrival.served_lefts _ _ _
  · rw [hserved, hmice]
    exact Arrival.served_rights _ _ _

-- A click and then the return key, both before the tick: DF gets the key
-- first, then the click and the hover of the cursor.
theorem click_is_overtaken :
    let click : Event := .message 0 [113, 1, 1, 1, 1]
    let key : Event := .message 0 [111, 13, 0, 0]
    let tick : Event := .update (Sample.game 64) Sample.df
    (plugin Sample.endpoint).trace (arrivals Sample.endpoint) Sample.playing [click, key, tick] =
      [.right ⟨1, 1, 1, 1⟩, .left ⟨1, 0, Key.ret, 0⟩, .drain] ∧
    (handle Sample.endpoint tick
        ((plugin Sample.endpoint).exec Sample.playing [click, key])).out =
      [.sdl (.key true 13 0), .sdl (.key false 13 0), .feed [], .feed []] :=
  ⟨rfl, rfl⟩

end WebFort
