import WebFort.System.Lemmas
import WebFort.Turns

namespace WebFort

open Library

-- How the key queue grows between two flushes, and what a flush makes of it.

-- KMOD bits of the modifier byte of a KeyEvent.
def sdlMods (jsmods : UInt8) : Nat :=
  (if jsmods &&& 1 ≠ 0 then kmodAlt else 0) ||| (if jsmods &&& 2 ≠ 0 then kmodShift else 0) |||
    (if jsmods &&& 4 ≠ 0 then kmodCtrl else 0)

-- Of all the simkey calls of a KeyEvent the press of the key itself is queued.
theorem keyEventKeys_eq (k : Key) (code jsmods : UInt8) :
    keyEventKeys k code jsmods = simkey 1 (sdlMods jsmods) k code.toNat := by
  have hup : ∀ mods sym unicode, simkey 0 mods sym unicode = [] := fun _ _ _ => rfl
  have halt : simkey 1 0 Key.lalt 0 = [] := rfl
  have hshift : simkey 1 0 Key.lshift 0 = [] := rfl
  have hctrl : simkey 1 0 Key.lctrl 0 = [] := rfl
  unfold keyEventKeys
  simp only [hup, halt, hshift, hctrl, ite_self, List.append_nil, List.nil_append]
  rfl

theorem mem_keyEventKeys {k : Key} {code jsmods : UInt8} {ev : WFKeyEvent}
    (h : ev ∈ keyEventKeys k code jsmods) : ev = ⟨1, sdlMods jsmods, k, code.toNat⟩ := by
  rw [keyEventKeys_eq] at h
  unfold simkey at h
  split at h
  · simp at h
  · split at h
    · simp at h
    · split at h
      · simp at h
      · exact List.mem_singleton.mp h

-- The press of the space bar by set_active.
def pauseKeys (g : Game) : List WFKeyEvent := if g.pauseState then [] else [⟨1, 0, Key.space, 32⟩]

theorem pauseGame_inputQueue (st : State) :
    (pauseGame st).inputQueue = st.inputQueue ++ pauseKeys st.game := by
  unfold pauseGame pauseKeys
  split
  · exact (List.append_nil _).symm
  · have hdown : simkey 1 0 Key.space 32 = [⟨1, 0, Key.space, 32⟩] := rfl
    have hup : simkey 0 0 Key.space 32 = [] := rfl
    simp only [State.pushKeys, hdown, hup, List.append_nil]

theorem setActive_inputQueue (newc : Option Handle) (st : State) :
    (setActive newc st).state.inputQueue =
      st.inputQueue ++ if newc = st.activeConn then [] else pauseKeys st.game := by
  by_cases h : st.activeConn = newc
  · rw [setActive_same h, if_pos h.symm]
    exact (List.append_nil _).symm
  · have hgame : (dropCursor newc { dropCursor st.activeConn st with activeConn := newc }).game =
        st.game := (dropCursor_game newc _).trans (dropCursor_game st.activeConn st)
    have hqueue : (dropCursor newc
        { dropCursor st.activeConn st with activeConn := newc }).inputQueue = st.inputQueue :=
      (dropCursor_inputQueue newc _).trans (dropCursor_inputQueue st.activeConn st)
    rw [if_neg (Ne.symm h)]
    simp only [setActive, if_neg h]
    cases newc with
    | none =>
        simp only [Outcome.ok_state, pauseGame_inputQueue]
        split <;> exact congrArg₂ (fun q g => q ++ pauseKeys g) hqueue hgame
    | some hdl =>
        simp only [Outcome.emit_state, pauseGame_inputQueue]
        exact congrArg₂ (fun q g => q ++ pauseKeys g) hqueue hgame

-- The keys a message of the active player puts in the queue.
def typed (st : State) : Event → List WFKeyEvent
  | .message hdl payload => match parseMessage payload with
    | .keyEvent jsKey charCode jsmods =>
        if st.activeConn = some hdl ∧ eventKey jsKey charCode ≠ Key.unknown ∧
            isSafeKey st hdl (eventKey jsKey charCode) then
          keyEventKeys (eventKey jsKey charCode) charCode jsmods
        else []
    | _ => []
  | _ => []

theorem typed_of_no_key (st : State) (hdl : Handle) {payload : Bytes}
    (h : ¬∃ jsKey charCode jsmods, parseMessage payload = .keyEvent jsKey charCode jsmods) :
    typed st (.message hdl payload) = [] := by
  unfold typed
  simp only
  split
  · rename_i jsKey charCode jsmods hp
    exact absurd ⟨jsKey, charCode, jsmods, hp⟩ h
  · rfl

-- The key of set_active, where the event moves the turn.
def handover (s : Endpoint) (st : State) (e : Event) : List WFKeyEvent :=
  if (handle s e st).state.activeConn = st.activeConn then [] else pauseKeys st.game

theorem keyEvent_inputQueue (hdl : Handle) (jsKey charCode jsmods : UInt8) (st : State) :
    (keyEvent hdl jsKey charCode jsmods st).inputQueue = st.inputQueue ++
      if st.activeConn = some hdl ∧ eventKey jsKey charCode ≠ Key.unknown ∧
          isSafeKey st hdl (eventKey jsKey charCode) then
        keyEventKeys (eventKey jsKey charCode) charCode jsmods
      else [] := by
  unfold keyEvent
  by_cases ha : st.activeConn = some hdl
  · simp only [ha, ne_eq, not_true_eq_false, if_false, true_and]
    split
    · rfl
    · exact (List.append_nil _).symm
  · simp only [if_pos ha, if_neg fun h : _ ∧ _ => ha h.1, List.append_nil]

theorem camMove_inputQueue (hdl : Handle) (dx dy dz : UInt8) (st : State) :
    (camMove hdl dx dy dz st).inputQueue = st.inputQueue := by
  rcases camMove_state hdl st dx dy dz with ⟨x, y, z, h⟩ | h
  · rw [h]
  · rw [h]
    rfl

theorem mouseEvent_inputQueue (hdl : Handle) (ev : WFMouseEvent) (st : State) :
    (mouseEvent hdl ev st).inputQueue = st.inputQueue := by
  obtain ⟨evs, h⟩ := mouseEvent_state hdl st ev
  rw [h]

theorem cursorMove_inputQueue (hdl : Handle) (x y : UInt8) (st : State) :
    (cursorMove hdl x y st).inputQueue = st.inputQueue := by
  obtain ⟨f, -, h⟩ := cursorMove_state hdl st x y
  rw [h]
  rfl

theorem turnPart_inputQueue (st : State) :
    (turnPart st).inputQueue = st.inputQueue ++
      if (turnPart st).activeConn = st.activeConn then [] else pauseKeys st.game := by
  obtain ⟨timedOut, h | h⟩ := turnPart_state st
  · rw [h]
    simp
  · rw [h, setActive_inputQueue, setActive_activeConn]

theorem requestTurn_inputQueue (hdl : Handle) (st : State) :
    (requestTurn hdl st).state.inputQueue = st.inputQueue ++
      if (requestTurn hdl st).state.activeConn = st.activeConn then [] else pauseKeys st.game := by
  unfold requestTurn
  split
  · rw [setActive_inputQueue, setActive_activeConn]
  · split
    · rw [setActive_inputQueue, setActive_activeConn]
    · simp

theorem onMessage_inputQueue (s : Endpoint) (hdl : Handle) (payload : Bytes) (st : State) :
    (onMessage s hdl payload st).state.inputQueue = st.inputQueue ++
      (typed st (.message hdl payload) ++ handover s st (.message hdl payload)) := by
  cases hp : parseMessage payload with
  | keyEvent jsKey charCode jsmods =>
      simp only [onMessage, handover, handle, typed, hp, Outcome.ok_state, keyEvent_activeConn,
        if_true, List.append_nil]
      exact keyEvent_inputQueue hdl jsKey charCode jsmods st
  | mouseEvent ev =>
      simp [onMessage, handover, handle, typed, hp, mouseEvent_activeConn, mouseEvent_inputQueue]
  | cursorMove x y =>
      simp [onMessage, handover, handle, typed, hp, cursorMove_activeConn, cursorMove_inputQueue]
  | refreshScreen =>
      simp [onMessage, handover, handle, typed, hp, refreshScreen, State.withClient]
  | camMove dx dy dz =>
      simp [onMessage, handover, handle, typed, hp, camMove_activeConn, camMove_inputQueue]
  | requestTurn =>
      simp only [onMessage, handover, handle, typed, hp, List.nil_append]
      exact requestTurn_inputQueue hdl st
  | update =>
      simp only [onMessage, handover, handle, typed, hp, List.nil_append, tock_state]
      exact turnPart_inputQueue st

theorem releaseTurn_inputQueue (hdl : Handle) (st : State) :
    (releaseTurn hdl st).inputQueue = st.inputQueue ++
      if (releaseTurn hdl st).activeConn = st.activeConn then [] else pauseKeys st.game := by
  unfold releaseTurn
  split
  · rw [setActive_inputQueue, setActive_activeConn]
  · simp

-- Nothing else gets into the queue, and only a flush takes from it.
theorem handle_inputQueue (s : Endpoint) (e : Event) (st : State) (hu : ¬e.IsUpdate) :
    (handle s e st).state.inputQueue = st.inputQueue ++ (typed st e ++ handover s st e) := by
  cases e with
  | message hdl payload => exact onMessage_inputQueue s hdl payload st
  | opened hdl =>
      have hopen : (onOpen s hdl st).state.inputQueue = st.inputQueue := by
        rcases onOpen_state s hdl st with h | h
        · rw [h]
        · rw [h]
          rfl
      simp only [handle, handover, typed, onOpen_activeConn, if_true, List.append_nil]
      exact hopen
  | closed hdl =>
      cases hcl : st.clients.find? hdl with
      | none =>
          simp only [handle, handover, typed, onClose_absent hcl, Outcome.ok_state, eraseClient,
            if_true, List.append_nil]
      | some cl =>
          simp only [handle, handover, typed, onClose_registered hcl, Outcome.ok_state,
            List.nil_append]
          exact releaseTurn_inputQueue hdl st
  | game g => simp [handle, handover, typed, State.atGame]
  | update g df => exact absurd trivial hu

-- What DF reads from its own event queue.
def sdlEvents (out : List Out) : List SdlEvent :=
  out.filterMap fun o => match o with
    | .sdl ev => some ev
    | _ => none

theorem sdlEvents_flush (st : State) :
    sdlEvents (flushInputQueue st).out = flushKeys st.inputQueue := by
  unfold sdlEvents flushInputQueue
  simp only [List.filterMap_map]
  exact List.filterMap_some

theorem flushKeys_append (a b : List WFKeyEvent) :
    flushKeys (a ++ b) = flushKeys a ++ flushKeys b := List.flatMap_append

-- Whether an SDL event is the press of a key.
def presses (k : Keycode) : SdlEvent → Bool
  | .key true sym _ => sym = k
  | _ => false

-- A pushed key is one event, at a press maybe followed by its text.
theorem wfPushSdlKey_eq (sym : Keycode) (mods : Nat) (down : Bool) (unicode : Nat) :
    ∃ mod text, wfPushSdlKey sym mods down unicode = .key down sym mod :: text ∧
      ∀ k, ∀ sdl ∈ text, presses k sdl = false := by
  unfold wfPushSdlKey
  refine ⟨_, _, rfl, fun k sdl hsdl => ?_⟩
  split at hsdl
  · obtain rfl := List.mem_singleton.mp hsdl
    rfl
  · simp at hsdl

theorem presses_release (sym k : Keycode) (mods unicode : Nat) :
    ∀ sdl ∈ wfPushSdlKey sym mods false unicode, presses k sdl = false := by
  intro sdl hsdl
  obtain ⟨mod, text, heq, htext⟩ := wfPushSdlKey_eq sym mods false unicode
  rw [heq] at hsdl
  rcases List.mem_cons.mp hsdl with rfl | h
  · rfl
  · exact htext k sdl h

-- Modifiers lie outside the main block.
theorem presses_modifiers {k : Nat} (hk : k < 2 ^ 30) (mods : Nat) :
    (∀ sdl ∈ modifierDowns mods, presses k sdl = false) ∧
      ∀ sdl ∈ modifierUps mods, presses k sdl = false := by
  have hpush : ∀ (c : Prop) [Decidable c] (n : Nat) (down : Bool),
      ∀ sdl ∈ (if c then wfPushSdlKey (Keycode.scancode n) 0 down 0 else []),
        presses k sdl = false := by
    intro c _ n down sdl hsdl
    split at hsdl
    · obtain ⟨mod, text, heq, htext⟩ := wfPushSdlKey_eq (Keycode.scancode n) 0 down 0
      rw [heq] at hsdl
      rcases List.mem_cons.mp hsdl with rfl | h
      · have hne : (2 ^ 30 + n : Nat) ≠ k := by omega
        cases down with
        | false => rfl
        | true => exact decide_eq_false hne
      · exact htext k sdl h
    · simp at hsdl
  refine ⟨fun sdl hsdl => ?_, fun sdl hsdl => ?_⟩
  · rcases List.mem_append.mp hsdl with h | h
    · rcases List.mem_append.mp h with h | h
      · exact hpush _ 225 true sdl h
      · exact hpush _ 224 true sdl h
    · exact hpush _ 226 true sdl h
  · rcases List.mem_append.mp hsdl with h | h
    · rcases List.mem_append.mp h with h | h
      · exact hpush _ 226 false sdl h
      · exact hpush _ 224 false sdl h
    · exact hpush _ 225 false sdl h

-- A flush presses a key once, between the modifiers it came with.
theorem flushKey_eq (ev : WFKeyEvent) (hsk : wfToSdlKeycode ev.sym ev.unicode ≠ 0) :
    ∃ mod rest, flushKey ev = modifierDowns ev.sdlmods ++
        .key true (wfToSdlKeycode ev.sym ev.unicode) mod :: rest ∧
      ∀ k : Nat, k < 2 ^ 30 → ∀ sdl ∈ rest, presses k sdl = false := by
  obtain ⟨mod, text, heq, htext⟩ := wfPushSdlKey_eq (wfToSdlKeycode ev.sym ev.unicode) ev.sdlmods
    true ev.unicode
  refine ⟨mod, text ++ (wfPushSdlKey (wfToSdlKeycode ev.sym ev.unicode) ev.sdlmods false ev.unicode ++
    modifierUps ev.sdlmods), ?_, fun k hk sdl hsdl => ?_⟩
  · unfold flushKey
    simp only [if_neg hsk, heq, List.append_assoc, List.cons_append]
  · rcases List.mem_append.mp hsdl with h | h
    · exact htext k sdl h
    · rcases List.mem_append.mp h with h | h
      · exact presses_release _ k _ _ sdl h
      · exact (presses_modifiers hk ev.sdlmods).2 sdl h

theorem toLowerAscii_eq {c : Nat} (h : toLowerAscii c = 27 ∨ toLowerAscii c = 32) :
    c = toLowerAscii c := by
  unfold toLowerAscii at h ⊢
  split at h
  · omega
  · rw [if_neg ‹_›]

-- Escape and space are never the translation of another key.
theorem sym_of_wfToSdlKeycode {sym unicode : Nat}
    (h : wfToSdlKeycode sym unicode = Keycode.escape ∨ wfToSdlKeycode sym unicode = Keycode.space) :
    sym = wfToSdlKeycode sym unicode ∨ unicode = wfToSdlKeycode sym unicode := by
  unfold wfToSdlKeycode at h ⊢
  split at h
  · rename_i hu
    rw [if_pos hu]
    exact Or.inr (toLowerAscii_eq h)
  · rename_i hu
    rw [if_neg hu]
    left
    -- a row of the table is one of the two or contradicts them
    split at h <;> first
      | exact absurd h (by decide)
      | rfl
      | skip
    by_cases hs : 0x20 ≤ sym ∧ sym ≤ 0x7E
    · rw [if_pos hs] at h ⊢
      exact toLowerAscii_eq h
    · rw [if_neg hs] at h
      exact absurd h (by decide)

theorem wfToSdlKeycode_eventKey (jsKey charCode : UInt8) {k : Nat}
    (hk : k = Keycode.escape ∨ k = Keycode.space) :
    wfToSdlKeycode (eventKey jsKey charCode) charCode.toNat = k ↔ eventKey jsKey charCode = k := by
  constructor
  · intro h
    rcases sym_of_wfToSdlKeycode (h ▸ hk) with hsym | hchar
    · exact hsym.trans h
    · have hpos : charCode ≠ 0 := by
        rintro rfl
        rw [h] at hchar
        rcases hk with rfl | rfl
        · exact absurd hchar (by decide)
        · exact absurd hchar (by decide)
      rw [h] at hchar
      unfold eventKey
      rw [if_pos hpos]
      exact hchar
  · intro h
    by_cases hpos : charCode = 0
    · subst hpos
      rw [h]
      rcases hk with rfl | rfl <;> rfl
    · have hchar : charCode.toNat = k := by
        unfold eventKey at h
        rwa [if_pos hpos] at h
      rw [h, hchar]
      rcases hk with rfl | rfl <;> rfl

theorem flushKeys_typed (k : Key) (code jsmods : UInt8) :
    ∀ (sk : Nat), sk < 2 ^ 30 → wfToSdlKeycode k code.toNat ≠ sk →
      ∀ sdl ∈ flushKeys (keyEventKeys k code jsmods), presses sk sdl = false := by
  intro sk hsk hne sdl hsdl
  obtain ⟨ev, hev, hin⟩ := List.mem_flatMap.mp hsdl
  rw [mem_keyEventKeys hev] at hin
  by_cases hz : wfToSdlKeycode k code.toNat = 0
  · simp [flushKey, hz] at hin
  · obtain ⟨mod, rest, heq, hrest⟩ := flushKey_eq ⟨1, sdlMods jsmods, k, code.toNat⟩ hz
    rw [heq] at hin
    rcases List.mem_append.mp hin with h | h
    · exact (presses_modifiers hsk _).1 sdl h
    · rcases List.mem_cons.mp h with rfl | h
      · exact decide_eq_false hne
      · exact hrest sk hsk sdl h

end WebFort
