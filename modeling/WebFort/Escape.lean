import WebFort.Server.Queue
import WebFort.Sample

namespace WebFort

open Library

-- DF handles the events one after the other; each may change the screen.
def deliver (react : SdlEvent → Game → Game) (evs : List SdlEvent) (g : Game) : Game :=
  evs.foldl (fun g ev => react ev g) g

-- No press of Escape meets a screen where it is not safe.
def EscapesSafely (react : SdlEvent → Game → Game) : List SdlEvent → Game → Prop
  | [], _ => True
  | ev :: rest, g =>
      (presses Keycode.escape ev = true → isSafeToEscape g = true) ∧
        EscapesSafely react rest (react ev g)

inductive Stroke
  | handler (e : Event)
  | flush

-- The handlers fill the queue, a flush empties it into DF. DF changes its
-- screen for keys only, and no administrator types.
def keyboard (s : Endpoint) (react : SdlEvent → Game → Game) : Machine State Stroke where
  enabled st
    | .handler (.message hdl payload) => ∀ jsKey charCode jsmods,
        parseMessage payload = .keyEvent jsKey charCode jsmods → (st.getClient hdl).isAdmin = false
    | .handler (.opened _) => True
    | .handler (.closed _) => True
    | .handler (.game _) => False
    | .handler (.update _ _) => False
    | .flush => True
  next st
    | .handler e => (handle s e st).state
    | .flush =>
        (flushInputQueue st).state.withGame (deliver react (sdlEvents (flushInputQueue st).out))

-- When an Escape passes the check, the screen it will meet, behind the keys
-- queued before it and under its own modifiers, passes too.
def FindsSafeScreen (react : SdlEvent → Game → Game) (st : State) : Stroke → Prop
  | .handler (.message hdl payload) => ∀ jsKey charCode jsmods,
      parseMessage payload = .keyEvent jsKey charCode jsmods → st.activeConn = some hdl →
      eventKey jsKey charCode = Key.escape → isSafeToEscape st.game = true →
      isSafeToEscape (deliver react
        (flushKeys st.inputQueue ++ modifierDowns (sdlMods jsmods)) st.game) = true
  | _ => True

section Delivery

variable {react : SdlEvent → Game → Game}

theorem escapesSafely_append (a b : List SdlEvent) (g : Game) :
    EscapesSafely react (a ++ b) g ↔
      EscapesSafely react a g ∧ EscapesSafely react b (deliver react a g) := by
  induction a generalizing g with
  | nil => simp [EscapesSafely, deliver]
  | cons ev a ih =>
      simp only [List.cons_append, EscapesSafely, ih, and_assoc]
      rfl

theorem escapesSafely_of_no_escape {evs : List SdlEvent}
    (h : ∀ ev ∈ evs, presses Keycode.escape ev = false) (g : Game) :
    EscapesSafely react evs g := by
  induction evs generalizing g with
  | nil => trivial
  | cons ev evs ih =>
      refine ⟨fun hp => ?_, ih (fun e he => h e (List.mem_cons_of_mem ev he)) _⟩
      exact absurd (hp.symm.trans (h ev List.mem_cons_self)) (by decide)

-- The keys a message adds, seen at the end of the queue.
theorem escapesSafely_escape (jsmods charCode jsKey : UInt8)
    (hk : eventKey jsKey charCode = Key.escape) (g : Game) :
    EscapesSafely react (flushKeys (keyEventKeys Key.escape charCode jsmods)) g ↔
      isSafeToEscape (deliver react (modifierDowns (sdlMods jsmods)) g) = true := by
  have hsk : wfToSdlKeycode Key.escape charCode.toNat = Keycode.escape := by
    have h := (wfToSdlKeycode_eventKey jsKey charCode (Or.inl rfl)).mpr hk
    rwa [hk] at h
  have hkeys : keyEventKeys Key.escape charCode jsmods =
      [⟨1, sdlMods jsmods, Key.escape, charCode.toNat⟩] := by
    rw [keyEventKeys_eq]
    rfl
  have hflush : flushKeys (keyEventKeys Key.escape charCode jsmods) =
      flushKey ⟨1, sdlMods jsmods, Key.escape, charCode.toNat⟩ := by
    rw [hkeys]
    exact List.append_nil _
  obtain ⟨mod, rest, heq, hrest⟩ := flushKey_eq ⟨1, sdlMods jsmods, Key.escape, charCode.toNat⟩
    (by rw [hsk]; decide)
  rw [hflush, heq, escapesSafely_append, hsk]
  have hmods : EscapesSafely react (modifierDowns (sdlMods jsmods)) g :=
    escapesSafely_of_no_escape (presses_modifiers (by decide) _).1 g
  have hpress : presses Keycode.escape (.key true Keycode.escape mod) = true := by
    simp [presses]
  constructor
  · exact fun h => h.2.1 hpress
  · exact fun h => ⟨hmods, fun _ => h,
      escapesSafely_of_no_escape (hrest Keycode.escape (by decide)) _⟩

theorem handover_no_escape (s : Endpoint) (st : State) (e : Event) :
    ∀ sdl ∈ flushKeys (handover s st e), presses Keycode.escape sdl = false := by
  have hspace : ∀ sdl ∈ flushKeys [⟨1, 0, Key.space, 32⟩], presses Keycode.escape sdl = false := by
    decide
  unfold handover pauseKeys
  split
  · simp [flushKeys]
  · split
    · simp [flushKeys]
    · exact hspace

-- What is queued may be flushed.
def Loaded (react : SdlEvent → Game → Game) (st : State) : Prop :=
  EscapesSafely react (flushKeys st.inputQueue) st.game

-- Only a press of Escape that is let through can spoil the queue.
theorem typed_escapesSafely {s : Endpoint} {st : State} {e : Event}
    (hen : (keyboard s react).enabled st (.handler e)) :
    EscapesSafely react (flushKeys (typed st e)) (deliver react (flushKeys st.inputQueue) st.game) ↔
      FindsSafeScreen react st (.handler e) := by
  cases e with
  | message hdl payload =>
      by_cases hkey : ∃ jsKey charCode jsmods, parseMessage payload = .keyEvent jsKey charCode jsmods
      · obtain ⟨jsKey, charCode, jsmods, hp⟩ := hkey
        have hadmin := hen jsKey charCode jsmods hp
        have hfind : FindsSafeScreen react st (.handler (.message hdl payload)) ↔
            (st.activeConn = some hdl → eventKey jsKey charCode = Key.escape →
              isSafeToEscape st.game = true → isSafeToEscape (deliver react
                (modifierDowns (sdlMods jsmods)) (deliver react (flushKeys st.inputQueue) st.game)) =
                  true) := by
          unfold FindsSafeScreen deliver
          simp only [hp, Message.keyEvent.injEq, and_imp, List.foldl_append]
          exact ⟨fun h => h jsKey charCode jsmods rfl rfl rfl,
            fun h _ _ _ hj hc hm => by subst hj hc hm; exact h⟩
        rw [hfind]
        simp only [typed, hp]
        by_cases hesc : eventKey jsKey charCode = Key.escape
        · have hsafe : isSafeKey st hdl Key.escape = isSafeToEscape st.game := by
            simp [isSafeKey, hadmin]
          by_cases hpass : st.activeConn = some hdl ∧ isSafeToEscape st.game = true
          · rw [if_pos ⟨hpass.1, by rw [hesc]; decide, by rw [hesc, hsafe]; exact hpass.2⟩, hesc,
              escapesSafely_escape jsmods charCode jsKey hesc]
            simp [hpass]
          · rw [if_neg fun h => hpass ⟨h.1, by rw [← hsafe, ← hesc]; exact h.2.2⟩]
            exact ⟨fun _ ha _ hs => absurd ⟨ha, hs⟩ hpass, fun _ => trivial⟩
        · refine ⟨fun _ _ h => absurd h hesc, fun _ => escapesSafely_of_no_escape ?_ _⟩
          have hne := mt (wfToSdlKeycode_eventKey jsKey charCode (Or.inl rfl)).mp hesc
          split
          · exact flushKeys_typed _ charCode jsmods Keycode.escape (by decide) hne
          · simp [flushKeys]
      · rw [typed_of_no_key st hdl hkey]
        exact ⟨fun _ jsKey charCode jsmods hp => absurd ⟨jsKey, charCode, jsmods, hp⟩ hkey,
          fun _ => trivial⟩
  | opened _ => exact ⟨fun _ => trivial, fun _ => trivial⟩
  | closed _ => exact ⟨fun _ => trivial, fun _ => trivial⟩
  | game _ => exact hen.elim
  | update _ _ => exact hen.elim

theorem loaded_next {s : Endpoint} {st : State} {stroke : Stroke} (hst : Loaded react st)
    (hen : (keyboard s react).enabled st stroke) :
    Loaded react ((keyboard s react).next st stroke) ↔ FindsSafeScreen react st stroke := by
  cases stroke with
  | flush => exact ⟨fun _ => trivial, fun _ => trivial⟩
  | handler e =>
      have hkept : (handle s e st).state.game = st.game ∧ ¬e.IsUpdate := by
        rw [handle_game]
        cases e with
        | game g => exact hen.elim
        | update g df => exact hen.elim
        | opened _ => exact ⟨rfl, id⟩
        | message _ _ => exact ⟨rfl, id⟩
        | closed _ => exact ⟨rfl, id⟩
      have hspace : EscapesSafely react (flushKeys (handover s st e)) (deliver react
          (flushKeys (typed st e)) (deliver react (flushKeys st.inputQueue) st.game)) :=
        escapesSafely_of_no_escape (handover_no_escape s st e) _
      have hnext : (keyboard s react).next st (.handler e) = (handle s e st).state := rfl
      rw [hnext, ← typed_escapesSafely hen]
      unfold Loaded
      rw [hkept.1, handle_inputQueue s e st hkept.2, flushKeys_append, flushKeys_append,
        escapesSafely_append, escapesSafely_append]
      exact ⟨fun h => h.2.1, fun h => ⟨hst, h, hspace⟩⟩

end Delivery

-- Whenever a flush comes in a run, it delivers no Escape to the main screen,
-- exactly when every Escape let through finds a safe screen at its turn.
theorem escapes_safely_iff (s : Endpoint) (react : SdlEvent → Game → Game) (config : Config)
    (g : Game) (strokes : List Stroke)
    (hv : (keyboard s react).Valid (State.init config g) strokes) :
    (∀ done rest, strokes = done ++ rest →
      let st := (keyboard s react).exec (State.init config g) done
      EscapesSafely react (sdlEvents (flushInputQueue st).out) st.game) ↔
    (keyboard s react).Each (FindsSafeScreen react) (State.init config g) strokes := by
  refine Iff.trans ?_ ((keyboard s react).always_iff_each (Loaded react) (FindsSafeScreen react)
    (fun _ _ hst hen => loaded_next hst hen) (State.init config g) strokes trivial hv)
  simp only [sdlEvents_flush]
  rfl

-- A menu that Escape closes.
def closeMenu : SdlEvent → Game → Game
  | .key true 27 _, g => { g with mode := .default }
  | _, g => g

-- One press, alone in its tick.
theorem escapes_safely_iff_sample :
    let st := (keyboard Sample.endpoint closeMenu).exec (State.init Sample.config Sample.menu)
      [.handler (.opened 0), .handler (.message 0 [116]), .handler (.message 0 [111, 27, 0, 0])]
    EscapesSafely closeMenu (sdlEvents (flushInputQueue st).out) st.game := by
  refine (escapes_safely_iff Sample.endpoint closeMenu Sample.config Sample.menu
    [.handler (.opened 0), .handler (.message 0 [116]), .handler (.message 0 [111, 27, 0, 0]), .flush]
    ?_).mpr ?_ [.handler (.opened 0), .handler (.message 0 [116]),
      .handler (.message 0 [111, 27, 0, 0])] [.flush] rfl
  · exact ⟨trivial, fun _ _ _ _ => rfl, fun _ _ _ _ => rfl, trivial, trivial⟩
  · refine ⟨trivial, fun _ _ _ h => (nomatch h), fun _ _ _ h _ _ _ => ?_, trivial, trivial⟩
    obtain ⟨rfl, rfl, rfl⟩ := Message.keyEvent.inj h
    rfl

-- Two presses in one tick: the second one opens the main menu.
theorem second_escape_reaches_main_screen :
    let strokes := [Stroke.handler (.opened 0), .handler (.message 0 [116]),
      .handler (.message 0 [111, 27, 0, 0]), .handler (.message 0 [111, 27, 0, 0])]
    let st := (keyboard Sample.endpoint closeMenu).exec (State.init Sample.config Sample.menu) strokes
    (keyboard Sample.endpoint closeMenu).Valid (State.init Sample.config Sample.menu) strokes ∧
      ¬EscapesSafely closeMenu (sdlEvents (flushInputQueue st).out) st.game := by
  refine ⟨⟨trivial, fun _ _ _ _ => rfl, fun _ _ _ _ => rfl, fun _ _ _ _ => rfl, trivial⟩, fun h => ?_⟩
  exact absurd (h.2.2.1 rfl) (by decide)

end WebFort
