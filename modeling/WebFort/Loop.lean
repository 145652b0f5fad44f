import WebFort.System.Lemmas
import WebFort.Sample

namespace WebFort

open Library

-- The three tests on_open makes before it registers a client.
def admits (s : Endpoint) (hdl : Handle) (st : State) : Prop :=
  validateOpen s hdl ≠ wfInvalid ∧ st.clients.size < st.config.maxClients ∧ pathNick s hdl ≠ nobody

theorem onOpen_admitted {s : Endpoint} {hdl : Handle} {st : State} (h : admits s hdl st) :
    (onOpen s hdl st).state = register s hdl st := by
  rcases onOpen_inv s hdl st with ⟨hnot, -⟩ | ⟨-, hopen⟩
  · exact absurd h hnot
  · rw [hopen, sendMapInfo_state]

-- An event after which a handler is left by an exception. hybi00 takes text
-- frames only and every frame of the server is binary.
def Fatal (s : Endpoint) (w : World) : Event → Prop
  | .opened hdl => (s hdl).processor = .hybi00 ∧ admits s hdl w.st ∧ w.st.game.map ≠ none
  | .message hdl payload => (s hdl).processor = .hybi00 ∧ parseMessage payload = .update
  | _ => False

theorem send_threw (s : Endpoint) (hdl : Handle) (data : Bytes) (st : State) :
    (send s hdl data st).threw = true ↔ (s hdl).processor = .hybi00 := by
  cases h : (s hdl).processor.takesBinary with
  | true =>
      rw [send_of_takes data st h]
      simp [(takesBinary_iff _).mp h]
  | false =>
      rw [send_of_rejects data st h]
      have hp : ¬(s hdl).processor ≠ .hybi00 := fun hp =>
        absurd ((takesBinary_iff _).mpr hp) (by simp [h])
      simp [not_not.mp hp]

theorem sendMapInfo_threw (s : Endpoint) (hdl : Handle) (st : State) :
    (sendMapInfo s hdl st).threw = true ↔
      (s hdl).processor = .hybi00 ∧ st.game.map ≠ none := by
  unfold sendMapInfo
  cases st.game.map with
  | none => simp
  | some blocks => simpa using send_threw s hdl (mapInfoPacket blocks) st

theorem onOpen_threw (s : Endpoint) (hdl : Handle) (st : State) :
    (onOpen s hdl st).threw = true ↔
      (s hdl).processor = .hybi00 ∧ admits s hdl st ∧ st.game.map ≠ none := by
  rcases onOpen_inv s hdl st with ⟨hnot, code, reason, hopen⟩ | ⟨hadmits, hopen⟩
  · rw [hopen, Outcome.emit_threw]
    exact iff_of_false Bool.false_ne_true fun h => hnot h.2.1
  · rw [hopen, sendMapInfo_threw]
    exact ⟨fun h => ⟨h.1, hadmits, h.2⟩, fun h => ⟨h.1, h.2.2⟩⟩

theorem requestTurn_threw (hdl : Handle) (st : State) : (requestTurn hdl st).threw = false := by
  unfold requestTurn
  split
  · exact setActive_threw none st
  · split
    · exact setActive_threw (some hdl) st
    · rfl

theorem onMessage_threw (s : Endpoint) (hdl : Handle) (payload : Bytes) (st : State) :
    (onMessage s hdl payload st).threw = true ↔
      (s hdl).processor = .hybi00 ∧ parseMessage payload = .update := by
  unfold onMessage
  cases parseMessage payload with
  | update =>
      simp only [tock_threw, Bool.not_eq_true', and_true]
      cases h : (s hdl).processor.takesBinary with
      | true => simp [(takesBinary_iff _).mp h]
      | false =>
          have hp : ¬(s hdl).processor ≠ .hybi00 := fun hp =>
            absurd ((takesBinary_iff _).mpr hp) (by simp [h])
          simp [not_not.mp hp]
  | requestTurn => simp [requestTurn_threw]
  | keyEvent _ _ _ => simp
  | mouseEvent _ => simp
  | cursorMove _ _ => simp
  | refreshScreen => simp
  | camMove _ _ _ => simp

theorem handle_threw (s : Endpoint) (e : Event) (w : World) :
    (handle s e w.st).threw = true ↔ Fatal s w e := by
  cases e with
  | opened hdl => exact onOpen_threw s hdl w.st
  | message hdl payload => exact onMessage_threw s hdl payload w.st
  | closed hdl => simp [handle, Fatal, onClose_threw]
  | game g => simp [handle, Fatal]
  | update g df => simp [handle, Fatal, pluginOnupdate_threw]

theorem next_running (s : Endpoint) (w : World) (e : Event) :
    (next s w e).running = true ↔ w.running = true ∧ ¬Fatal s w e := by
  simp only [next, Bool.and_eq_true, Bool.not_eq_true', ← handle_threw, Bool.not_eq_true]

-- run() is still going at the end of a run of events exactly when none of
-- them was fatal.
theorem running_iff_no_fatal (s : Endpoint) (config : Config) (g : Game) (es : List Event) :
    ((server s).exec (World.init config g) es).running = true ↔
      (server s).Each (fun w e => ¬Fatal s w e) (World.init config g) es := by
  have hrun : ∀ w : World, ((server s).exec w es).running = true ↔
      w.running = true ∧ (server s).Each (fun w e => ¬Fatal s w e) w es := by
    induction es with
    | nil => exact fun w => (and_iff_left trivial).symm
    | cons e es ih =>
        intro w
        refine (ih (next s w e)).trans ?_
        rw [next_running]
        exact and_assoc
  refine (hrun _).trans ?_
  simp [World.init]

-- A page that speaks the old draft asks for one update.
theorem hybi00_stops_loop :
    let s : Endpoint := fun _ => Sample.conn .hybi00 "/urist" (by decide)
    let w := (server s).exec (World.init Sample.config (Sample.game 64))
      [.opened 0, .opened 1, .message 0 [110]]
    (server s).Valid (World.init Sample.config (Sample.game 64))
      [.opened 0, .opened 1, .message 0 [110]] ∧
    w.running = false ∧ w.phase 1 = .opened ∧ ¬enabled w (.message 1 [110]) :=
  ⟨⟨⟨rfl, rfl⟩, ⟨rfl, rfl⟩, ⟨rfl, rfl⟩, trivial⟩, rfl, rfl, fun h => absurd h.1 (by decide)⟩

end WebFort
