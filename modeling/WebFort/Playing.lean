import WebFort.Library.Flow
import WebFort.Controls
import WebFort.Delay
import WebFort.InputOrder

namespace WebFort

open Library

-- A page in somebody's hands, with its connection and the plugin.
structure Player where
  circuit : Circuit
  ctl : Controls

inductive PlayStep
  | net (m : Move)
  | hand (g : Gesture)

section Machine

variable (s : Endpoint) (c : Handle)

-- What the player does on the page comes from gestures alone.
def Player.enabled (u : Player) : PlayStep → Prop
  | .net m => Circuit.enabled c u.circuit m ∧ ∀ payload, m ≠ .act payload
  | .hand _ => u.circuit.world.phase c = .opened

def Player.next (u : Player) : PlayStep → Player
  | .net m =>
      { circuit := Circuit.next s c u.circuit m
        ctl :=
          match m, u.circuit.down with
          | .opened, _ => u.ctl.onOpen
          | .receive _, data :: _ => u.ctl.onMessage data
          | _, _ => u.ctl }
  | .hand g =>
      { circuit := { u.circuit with up := u.circuit.up ++ g.sends u.ctl }
        ctl := g.after u.ctl }

def player : Machine Player PlayStep := ⟨Player.enabled c, Player.next s c⟩

end Machine

-- The keys of the page that reach DF from a keydown, and what SDL calls them.
def keydownKey (keyCode : Nat) : Option Keycode :=
  if keyCode ∈ [8, 9, 13, 27, 32] then some keyCode
  else if keyCode = 45 then some (Keycode.scancode 73)
  else if 41 ≤ keyCode ∧ keyCode ≤ 64 ∧ keyCode ≠ 46 then some keyCode
  else none

-- The same for a keypress, of which the page sends the last eight bits.
def charKey (charCode : Nat) : Option Keycode :=
  if 0x20 ≤ charCode % 256 ∧ charCode % 256 ≤ 0x7E then some (toLowerAscii (charCode % 256))
  else if charCode % 256 ∈ [8, 9, 13, 27] then some (charCode % 256)
  else none

def KeyStroke.held (k : KeyStroke) : List Keycode :=
  (if k.shift then [Keycode.lshift] else []) ++ (if k.ctrl then [Keycode.lctrl] else []) ++
    if k.alt then [Keycode.lalt] else []

-- w, a, s and d, also with shift.
def cameraKeys : List Nat := [119, 87, 115, 83, 97, 65, 100, 68]

-- The key a keystroke of the active player means.
def KeyStroke.pressed (p : Controls) (k : KeyStroke) : Option Keycode :=
  if k.keyCode < 65 ∧ k.keyCode ∉ [16, 17, 18] then keydownKey k.keyCode
  else if k.charCode = 0 ∨ (p.isInMenu = false ∧ k.charCode ∈ cameraKeys) then none
  else charKey k.charCode

def Gesture.strokes (p : Controls) : Gesture → List KeyMove
  | .key k => if p.active then ((k.pressed p).map (stroke k.held)).getD [] else []
  | _ => []

-- What the keys of a message become when they are flushed.
def messageMoves (payload : Bytes) : List KeyMove :=
  match parseMessage payload with
  | .keyEvent jsKey charCode jsmods =>
      keyMoves (flushKeys (keyEventKeys (eventKey jsKey charCode) charCode jsmods))
  | _ => []

section Keys

variable {p : Controls} {k : KeyStroke}

theorem modifiers_mod (k : KeyStroke) : modifiers k.mod = k.held := by
  have hall : ∀ shift ctrl alt : Bool,
      modifiers (KeyStroke.mod ⟨0, 0, shift, ctrl, alt⟩) = KeyStroke.held ⟨0, 0, shift, ctrl, alt⟩ := by
    decide
  exact hall k.shift k.ctrl k.alt

-- A key event that the first table does not know leaves nothing in the queue,
-- and one that the second does not know is dropped at the flush.
theorem moves_keyEvent (jsKey charCode jsmods : UInt8) :
    keyMoves (flushKeys (keyEventKeys (eventKey jsKey charCode) charCode jsmods)) =
      if wfToSdlKeycode (eventKey jsKey charCode) charCode.toNat = 0 then []
      else stroke (modifiers jsmods)
        (wfToSdlKeycode (eventKey jsKey charCode) charCode.toNat) := by
  have hlt : eventKey jsKey charCode < Key.rshift := by
    unfold eventKey
    split
    · exact Nat.lt_of_lt_of_le charCode.toNat_lt (by decide)
    · have hall : ∀ n < 256, mapInputCodeToSDL n < Key.rshift := by decide +kernel
      exact hall _ jsKey.toNat_lt
  have hmod : ∀ k : Nat, Key.rshift ≤ k → eventKey jsKey charCode ≠ k := by
    rintro k hle rfl
    exact absurd hlt (Nat.not_lt.mpr hle)
  have hno : ¬(eventKey jsKey charCode = Key.lshift ∨ eventKey jsKey charCode = Key.rshift ∨
      eventKey jsKey charCode = Key.lctrl ∨ eventKey jsKey charCode = Key.rctrl ∨
      eventKey jsKey charCode = Key.lalt ∨ eventKey jsKey charCode = Key.ralt) := by
    simp only [not_or]
    refine ⟨hmod _ ?_, hmod _ ?_, hmod _ ?_, hmod _ ?_, hmod _ ?_, hmod _ ?_⟩ <;> decide
  rw [keyEventKeys_eq, simkey, if_neg (by decide), if_neg hno]
  split
  · rename_i hnone
    rw [hnone.1, hnone.2]
    rfl
  · rw [← heldKeys_sdlMods]
    exact (congrArg keyMoves (List.flatMap_singleton _ _)).trans (moves_flushKey _)

theorem keydown_moves (hcode : k.keyCode < 65) (mods : UInt8) :
    messageMoves [111, UInt8.ofNat k.keyCode, 0, mods] =
      ((keydownKey k.keyCode).map (stroke (modifiers mods))).getD [] := by
  have htable : ∀ n < 65, wfToSdlKeycode (eventKey (UInt8.ofNat n) 0) 0 =
      (keydownKey n).getD 0 ∧ keydownKey n ≠ some 0 := by decide +kernel
  obtain ⟨hkey, hzero⟩ := htable _ hcode
  have hmoves := moves_keyEvent (UInt8.ofNat k.keyCode) 0 mods
  have hnul : (0 : UInt8).toNat = 0 := rfl
  rw [hnul, hkey] at hmoves
  refine hmoves.trans ?_
  cases hcase : keydownKey k.keyCode with
  | none => rfl
  | some sk =>
      have hne : sk ≠ 0 := fun h => hzero (hcase.trans (congrArg some h))
      exact if_neg hne

theorem keypress_moves (charCode : Nat) (mods : UInt8) :
    messageMoves [111, 0, UInt8.ofNat charCode, mods] =
      ((charKey charCode).map (stroke (modifiers mods))).getD [] := by
  have htable : ∀ n < 256, wfToSdlKeycode (eventKey 0 (UInt8.ofNat n)) n =
      (charKey n).getD 0 ∧ charKey n ≠ some 0 := by decide +kernel
  have hmod : charKey charCode = charKey (charCode % 256) := by
    unfold charKey
    rw [Nat.mod_mod]
  have hbyte : UInt8.ofNat charCode = UInt8.ofNat (charCode % 256) := by
    apply UInt8.toNat_inj.mp
    simp
  obtain ⟨hkey, hzero⟩ := htable (charCode % 256) (Nat.mod_lt _ (by decide))
  have hmoves := moves_keyEvent 0 (UInt8.ofNat (charCode % 256)) mods
  have hnat : (UInt8.ofNat (charCode % 256)).toNat = charCode % 256 := by
    rw [UInt8.toNat_ofNat', Nat.mod_mod]
  rw [hnat, hkey] at hmoves
  rw [hmod, hbyte]
  refine hmoves.trans ?_
  cases hcase : charKey (charCode % 256) with
  | none => rfl
  | some sk =>
      have hne : sk ≠ 0 := fun h => hzero (hcase.trans (congrArg some h))
      exact if_neg hne

end Keys

-- The keys that are under way from the page to DF, in their order: those in
-- the queue of the plugin and those in messages.
def Player.typing (u : Player) : List KeyMove :=
  keyMoves (flushKeys u.circuit.world.st.inputQueue) ++ u.circuit.up.flatMap messageMoves

-- What the plugin tells DF of keys in a step.
def struck (s : Endpoint) (u : Player) : PlayStep → List KeyMove
  | .net (.other e) => keyMoves (sdlEvents (handle s e u.circuit.world.st).out)
  | _ => []

def wanted (u : Player) : PlayStep → List KeyMove
  | .hand g => g.strokes u.ctl
  | .net _ => []

-- The client keeps the turn, and its escape key is let through.
def KeepsTurn (s : Endpoint) (c : Handle) (u : Player) (a : PlayStep) : Prop :=
  (Player.next s c u a).circuit.world.st.activeConn = some c ∧
    ∀ payload rest jsKey charCode jsmods, a = .net .deliver → u.circuit.up = payload :: rest →
      parseMessage payload = .keyEvent jsKey charCode jsmods →
        isSafeKey u.circuit.world.st c (eventKey jsKey charCode) = true

section Gestures

variable {p : Controls} {k : KeyStroke}

theorem messageMoves_of_no_key {payload : Bytes}
    (h : ∀ jsKey charCode jsmods, parseMessage payload ≠ .keyEvent jsKey charCode jsmods) :
    messageMoves payload = [] := by
  unfold messageMoves
  split
  · rename_i jsKey charCode jsmods hp
    exact absurd hp (h jsKey charCode jsmods)
  · rfl

theorem messageMoves_camMove (dx dy dz : Int) : messageMoves (sendCamMove dx dy dz) = [] :=
  messageMoves_of_no_key fun _ _ _ => by
    simp only [sendCamMove, parseMessage, ne_eq, reduceCtorEq, not_false_eq_true]

theorem messageMoves_mouse (type : WFMouseType) (tile : Int × Int) (button : UInt8) :
    messageMoves (sendMouseEvent type tile button) = [] :=
  messageMoves_of_no_key fun _ _ _ => by
    simp only [sendMouseEvent, parseMessage, ne_eq, reduceCtorEq, not_false_eq_true]

theorem keydown_strokes (hcode : k.keyCode < 65 ∧ k.keyCode ∉ [16, 17, 18]) :
    (onkeydown p k).2 = true ∧
      (onkeydown p k).1.flatMap messageMoves =
        if p.active then ((keydownKey k.keyCode).map (stroke k.held)).getD [] else [] := by
  have hplain : ¬(k.keyCode = 91 ∨ k.keyCode = 18 ∨ k.keyCode = 17 ∨ k.keyCode = 16) := by
    obtain ⟨hlt, hmod⟩ := hcode
    simp only [List.mem_cons, List.not_mem_nil, or_false] at hmod
    omega
  unfold onkeydown
  rw [if_neg hplain, if_pos hcode.1]
  cases hactive : p.active with
  | false => exact ⟨rfl, rfl⟩
  | true =>
      refine ⟨rfl, ?_⟩
      rw [← modifiers_mod]
      exact (List.flatMap_singleton _ _).trans (keydown_moves hcode.1 k.mod)

theorem keydown_ignored (hcode : ¬(k.keyCode < 65 ∧ k.keyCode ∉ [16, 17, 18])) :
    onkeydown p k = ([], false) := by
  unfold onkeydown
  split
  · rfl
  · rename_i hplain
    rw [if_neg fun hlt => hcode ⟨hlt, by
      simp only [List.mem_cons, List.not_mem_nil, or_false]
      omega⟩]

-- A camera key moves the camera, unless the active player is in a menu.
theorem onkeypress_eq :
    ∃ dx dy dz, onkeypress p k =
      if (!p.active || !p.isInMenu) = true ∧ k.charCode ∈ cameraKeys then [sendCamMove dx dy dz]
      else if p.active then [[111, 0, UInt8.ofNat k.charCode, k.mod]] else [] := by
  unfold onkeypress
  simp only [cameraKeys, List.mem_cons, List.not_mem_nil, or_false]
  by_cases hroute : (!p.active || !p.isInMenu) = true
  · simp only [hroute, true_and]
    split
    · exact ⟨_, _, _, (if_pos (by omega)).symm⟩
    · split
      · exact ⟨_, _, _, (if_pos (by omega)).symm⟩
      · split
        · exact ⟨_, _, _, (if_pos (by omega)).symm⟩
        · split
          · exact ⟨_, _, _, (if_pos (by omega)).symm⟩
          · have hno : ¬(k.charCode = 119 ∨ k.charCode = 87 ∨ k.charCode = 115 ∨ k.charCode = 83 ∨
                k.charCode = 97 ∨ k.charCode = 65 ∨ k.charCode = 100 ∨ k.charCode = 68) := by omega
            refine ⟨0, 0, 0, ?_⟩
            rw [if_neg hno]
            cases p.active <;> rfl
  · simp only [hroute, Bool.false_eq_true, false_and, if_false]
    refine ⟨0, 0, 0, ?_⟩
    cases p.active <;> rfl

theorem keypress_strokes :
    (onkeypress p k).flatMap messageMoves =
      if p.active = true ∧ ¬(p.isInMenu = false ∧ k.charCode ∈ cameraKeys) then
        ((charKey k.charCode).map (stroke k.held)).getD []
      else [] := by
  obtain ⟨dx, dy, dz, h⟩ := onkeypress_eq (p := p) (k := k)
  rw [h]
  by_cases hcam : (!p.active || !p.isInMenu) = true ∧ k.charCode ∈ cameraKeys
  · rw [if_pos hcam, List.flatMap_singleton, messageMoves_camMove]
    refine (if_neg fun hkey => hkey.2 ⟨?_, hcam.2⟩).symm
    simpa [hkey.1] using hcam.1
  · rw [if_neg hcam]
    cases hactive : p.active with
    | false => simp
    | true =>
        have hkey : ¬(p.isInMenu = false ∧ k.charCode ∈ cameraKeys) := fun h =>
          hcam ⟨by simp [hactive, h.1], h.2⟩
        rw [if_pos rfl, if_pos ⟨rfl, hkey⟩, ← modifiers_mod]
        exact (List.flatMap_singleton _ _).trans (keypress_moves k.charCode k.mod)

-- A gesture sends the key it means, once.
theorem gesture_strokes (g : Gesture) : (g.sends p).flatMap messageMoves = g.strokes p := by
  cases g with
  | key k =>
      show (keystroke p k).flatMap messageMoves = _
      simp only [keystroke, Gesture.strokes, KeyStroke.pressed, List.flatMap_append]
      by_cases hcode : k.keyCode < 65 ∧ k.keyCode ∉ [16, 17, 18]
      · obtain ⟨hstop, hmoves⟩ := keydown_strokes (p := p) hcode
        rw [hmoves, if_pos (Or.inl hstop), if_pos hcode]
        exact List.append_nil _
      · rw [keydown_ignored hcode, if_neg hcode]
        by_cases hchar : k.charCode = 0
        · simp [hchar]
        · simp only [hchar, Bool.false_eq_true, or_false, if_false, List.flatMap_nil,
            List.nil_append, false_or, keypress_strokes]
          cases p.active with
          | false => simp
          | true =>
              by_cases hcam : p.isInMenu = false ∧ k.charCode ∈ cameraKeys
              · simp [hcam]
              · simp only [hcam, not_false_eq_true, and_self, if_true, if_false]
  | mousemove now px py =>
      simp only [Gesture.sends, Gesture.strokes]
      split
      · rfl
      · rw [List.flatMap_cons, messageMoves_mouse]
        split
        · rfl
        · rfl
  | mousedown button px py =>
      exact (List.flatMap_singleton _ _).trans (messageMoves_mouse _ _ _)
  | mouseup button px py =>
      exact (List.flatMap_singleton _ _).trans (messageMoves_mouse _ _ _)
  | wheel deltaY px py =>
      simp only [Gesture.sends, Gesture.strokes]
      split
      · exact (List.flatMap_singleton _ _).trans (messageMoves_mouse _ _ _)
      · exact (List.flatMap_singleton _ _).trans (messageMoves_camMove _ _ _)
  | click =>
      simp only [Gesture.sends, Gesture.strokes]
      split <;> rfl

end Gestures

-- Anything but a key.
def Out.NoKey : Out → Prop
  | .sdl (.key _ _ _) => False
  | _ => True

section Update

theorem keyMoves_noKey {out : List Out} (h : ∀ o ∈ out, o.NoKey) : keyMoves (sdlEvents out) = [] := by
  unfold keyMoves sdlEvents
  rw [List.filterMap_filterMap]
  refine List.filterMap_eq_nil_iff.mpr fun o ho => ?_
  have hno := h o ho
  cases o with
  | sdl ev =>
      cases ev with
      | key _ _ _ => exact hno.elim
      | textInput _ => rfl
      | wheel _ => rfl
  | send _ _ => rfl
  | close _ _ _ => rfl
  | quicksave => rfl
  | announcement _ => rfl
  | feed _ => rfl

theorem applyMouse_noKey (feed : List InterfaceKey → Game → Game) (ev : WFMouseEvent) (st : State) :
    (applyMouse feed ev st).Emits Out.NoKey := by
  unfold applyMouse feedMouse feedKeys
  simp only
  split
  · exact Outcome.emits_ok
  · split
    · exact Outcome.emits_emit trivial
    · split
      · exact Outcome.emits_andThen (Outcome.emits_emit trivial) fun _ => Outcome.emits_emit trivial
      · exact Outcome.emits_andThen (Outcome.emits_emit trivial) fun _ => Outcome.emits_ok

theorem applyMouseEvents_noKey (df : Df) (evs : List WFMouseEvent) (st : State) :
    (applyMouseEvents df evs st).Emits Out.NoKey := by
  induction evs generalizing st with
  | nil => exact Outcome.emits_ok
  | cons ev rest ih => exact Outcome.emits_andThen (applyMouse_noKey _ ev st) ih

theorem restampMouse_noKey (df : Df) (st : State) : (restampMouse df st).Emits Out.NoKey := by
  unfold restampMouse feedKeys
  split
  · simp only
    split
    · exact Outcome.emits_ok
    · exact Outcome.emits_emit trivial
  · exact Outcome.emits_ok

-- An update flushes the key queue, and DF gets no other key.
theorem update_moves (df : Df) (st : State) :
    keyMoves (sdlEvents (pluginOnupdate df st).out) = keyMoves (flushKeys st.inputQueue) := by
  have hsplit : ∀ a b : List Out, keyMoves (sdlEvents (a ++ b)) =
      keyMoves (sdlEvents a) ++ keyMoves (sdlEvents b) := fun a b => by
    simp only [keyMoves, sdlEvents, List.filterMap_append]
  have hkeys : sdlEvents ((flushKeys st.inputQueue).map Out.sdl) = flushKeys st.inputQueue := by
    unfold sdlEvents
    simp only [List.filterMap_map]
    exact List.filterMap_some
  rw [update_out, applyInputs_keys, Outcome.andThen_of_ok _ rfl, applyInputs_mice, hsplit, hsplit,
    hkeys, keyMoves_noKey (applyMouseEvents_noKey df st.mouseQueue (flushStart st)),
    keyMoves_noKey (restampMouse_noKey df _), List.append_nil, List.append_nil]

theorem setActive_noKey (newc : Option Handle) (st : State) :
    (setActive newc st).Emits Out.NoKey := by
  unfold setActive
  split
  · exact Outcome.emits_ok
  · cases newc with
    | none => exact Outcome.emits_ok
    | some _ => exact Outcome.emits_emit trivial

theorem send_noKey (s : Endpoint) (hdl : Handle) (data : Bytes) (st : State) :
    (send s hdl data st).Emits Out.NoKey := by
  unfold send
  split
  · exact Outcome.emits_emit trivial
  · exact Outcome.emits_fail

theorem tock_noKey (s : Endpoint) (hdl : Handle) (st : State) : (tock s hdl st).Emits Out.NoKey := by
  refine Outcome.emits_andThen ?_ fun _ => Outcome.emits_andThen ?_ fun _ =>
    Outcome.emits_andThen (send_noKey s hdl _ _) fun _ => send_noKey s hdl _ _
  · unfold idleTimer
    split
    · exact Outcome.emits_emit trivial
    · exact Outcome.emits_ok
  · unfold expireTurn
    split
    · exact setActive_noKey _ _
    · exact Outcome.emits_ok

-- Only an update gives DF a key.
theorem handle_noKey (s : Endpoint) (e : Event) (st : State) (hu : ¬e.IsUpdate) :
    (handle s e st).Emits Out.NoKey := by
  cases e with
  | opened hdl =>
      rcases onOpen_inv s hdl st with ⟨-, code, reason, h⟩ | ⟨-, h⟩
      · simp only [handle, h]
        exact Outcome.emits_emit trivial
      · simp only [handle, h]
        unfold sendMapInfo
        split
        · exact Outcome.emits_ok
        · exact send_noKey s hdl _ _
  | message hdl payload =>
      simp only [handle, onMessage]
      cases parseMessage payload with
      | requestTurn =>
          simp only [requestTurn]
          split
          · exact setActive_noKey _ _
          · split
            · exact setActive_noKey _ _
            · exact Outcome.emits_ok
      | update => exact tock_noKey s hdl st
      | keyEvent _ _ _ => exact Outcome.emits_ok
      | mouseEvent _ => exact Outcome.emits_ok
      | cursorMove _ _ => exact Outcome.emits_ok
      | refreshScreen => exact Outcome.emits_ok
      | camMove _ _ _ => exact Outcome.emits_ok
  | closed hdl =>
      intro o ho
      have hnone : (onClose hdl st).out = [] := onClose_out hdl st
      rw [handle, hnone] at ho
      exact absurd ho List.not_mem_nil
  | game g => exact Outcome.emits_ok
  | update g df => exact absurd trivial hu

end Update

section Run

variable {s : Endpoint} {c : Handle} {u : Player}

-- An event that leaves the turn where it is, at the key queue.
theorem queue_moves (hactive : u.circuit.world.st.activeConn = some c) {e : Event}
    (hkeep : (handle s e u.circuit.world.st).state.activeConn = some c) :
    keyMoves (sdlEvents (handle s e u.circuit.world.st).out) ++
        keyMoves (flushKeys (handle s e u.circuit.world.st).state.inputQueue) =
      keyMoves (flushKeys u.circuit.world.st.inputQueue) ++
        keyMoves (flushKeys (typed u.circuit.world.st e)) := by
  by_cases hu : e.IsUpdate
  · obtain ⟨g, df, rfl⟩ := hu.exists
    have hempty := (update_queues df (u.circuit.world.st.atGame g)).1
    have htyped : typed u.circuit.world.st (.update g df) = [] := rfl
    simp only [handle, hempty, update_moves, htyped]
    rfl
  · have hno : handover s u.circuit.world.st e = [] := if_pos (hkeep.trans hactive.symm)
    rw [keyMoves_noKey (handle_noKey s e _ hu), handle_inputQueue s e _ hu, hno, List.append_nil,
      flushKeys_append, moves_append, List.nil_append]

theorem typed_other (hactive : u.circuit.world.st.activeConn = some c) {e : Event} (he : ¬e.Of c) :
    typed u.circuit.world.st e = [] := by
  cases e with
  | message j payload =>
      have hj : u.circuit.world.st.activeConn ≠ some j := fun h =>
        he (Option.some.inj (h.symm.trans hactive))
      unfold typed
      simp only
      split
      · exact if_neg fun h => hj h.1
      · rfl
  | opened _ => rfl
  | closed _ => rfl
  | game _ => rfl
  | update _ _ => rfl

-- A key message of the player that has the turn.
theorem typed_own (hactive : u.circuit.world.st.activeConn = some c) {payload : Bytes}
    (hsafe : ∀ jsKey charCode jsmods, parseMessage payload = .keyEvent jsKey charCode jsmods →
      isSafeKey u.circuit.world.st c (eventKey jsKey charCode) = true) :
    keyMoves (flushKeys (typed u.circuit.world.st (.message c payload))) = messageMoves payload := by
  cases hp : parseMessage payload with
  | keyEvent jsKey charCode jsmods =>
      simp only [typed, messageMoves, hp]
      by_cases hunknown : eventKey jsKey charCode = Key.unknown
      · -- without a key there is no character either
        have hzero : wfToSdlKeycode (eventKey jsKey charCode) charCode.toNat = 0 := by
          have hchar : charCode = 0 := by
            by_contra hne
            unfold eventKey at hunknown
            rw [if_pos hne] at hunknown
            exact hne (UInt8.toNat_inj.mp hunknown)
          rw [hunknown, hchar]
          rfl
        rw [if_neg fun h => h.2.1 hunknown, moves_keyEvent, if_pos hzero]
        rfl
      · rw [if_pos ⟨hactive, hunknown, hsafe jsKey charCode jsmods hp⟩]
  | mouseEvent _ => simp only [typed, messageMoves, hp]; rfl
  | cursorMove _ _ => simp only [typed, messageMoves, hp]; rfl
  | refreshScreen => simp only [typed, messageMoves, hp]; rfl
  | camMove _ _ _ => simp only [typed, messageMoves, hp]; rfl
  | requestTurn => simp only [typed, messageMoves, hp]; rfl
  | update => simp only [typed, messageMoves, hp]; rfl

theorem typing_next (hphase : u.circuit.world.phase c = .opened)
    (hactive : u.circuit.world.st.activeConn = some c) {a : PlayStep}
    (hen : (player s c).enabled u a) (hkeep : KeepsTurn s c u a) :
    struck s u a ++ ((player s c).next u a).typing = u.typing ++ wanted u a := by
  cases a with
  | hand g =>
      simp only [player, Player.next, Player.typing, struck, wanted, List.flatMap_append,
        gesture_strokes, List.nil_append, List.append_assoc]
  | net m =>
      simp only [wanted, List.append_nil]
      cases m with
      | opened =>
          have hfresh : u.circuit.world.phase c = .fresh := hen.1.2
          exact absurd (hphase.symm.trans hfresh) (by decide)
      | deliver =>
          obtain ⟨payload, rest, hup, -⟩ := hen.1
          have hsafe := hkeep.2 payload rest
          have hstay := hkeep.1
          simp only [Player.next, Circuit.next, hup, WebFort.next] at hstay
          have hqueue := queue_moves hactive hstay
          rw [keyMoves_noKey (handle_noKey s _ _ id), List.nil_append,
            typed_own hactive fun jsKey charCode jsmods => hsafe jsKey charCode jsmods rfl hup] at hqueue
          simp only [struck, player, Player.next, Player.typing, Circuit.next, hup, WebFort.next,
            hqueue, List.flatMap_cons, List.nil_append, List.append_assoc]
      | receive nextFrame =>
          have hrequest : messageMoves [110] = [] := rfl
          cases hdown : u.circuit.down with
          | nil => exact absurd hdown hen.1
          | cons data rest =>
              simp only [struck, player, Player.next, Player.typing, Circuit.next, hdown,
                List.nil_append]
              split <;> simp only [List.flatMap_append, List.flatMap_singleton, hrequest,
                List.append_nil]
      | fire =>
          have hrequest : messageMoves [110] = [] := rfl
          simp only [struck, player, Player.next, Player.typing, Circuit.next, List.flatMap_append,
            List.flatMap_singleton, hrequest, List.append_nil, List.nil_append]
      | act payload => exact absurd rfl (hen.2 payload)
      | other e =>
          have hstay := hkeep.1
          simp only [Player.next, Circuit.next, WebFort.next] at hstay
          have hqueue := queue_moves hactive hstay
          have hnone : keyMoves (flushKeys (typed u.circuit.world.st e)) = [] := by
            rw [typed_other hactive hen.1.2]
            rfl
          rw [hnone, List.append_nil] at hqueue
          simp only [struck, player, Player.next, Player.typing, Circuit.next, WebFort.next,
            ← List.append_assoc, hqueue]

theorem deliver_enabled (hup : u.circuit.up ≠ []) (hrunning : u.circuit.world.running = true)
    (hphase : u.circuit.world.phase c = .opened) : (player s c).enabled u (.net .deliver) := by
  obtain ⟨payload, rest, hup⟩ := List.exists_cons_of_ne_nil hup
  exact ⟨⟨payload, rest, hup, hrunning, hphase⟩, fun _ => by simp⟩

theorem player_phase (hphase : u.circuit.world.phase c = .opened) {a : PlayStep}
    (hen : (player s c).enabled u a) :
    ((player s c).next u a).circuit.world.phase c = .opened := by
  cases a with
  | hand _ => exact hphase
  | net m => exact circuit_phase hphase hen.1

end Run

-- While a player keeps the turn, DF gets the keys of the keystrokes on its
-- page: each once, in their order, each between its modifiers, after those
-- that were under way before, and what it has not got yet is under way.
theorem keystrokes_reach_game (s : Endpoint) (c : Handle) (u : Player) (as : List PlayStep)
    (hphase : u.circuit.world.phase c = .opened)
    (hactive : u.circuit.world.st.activeConn = some c) (hv : (player s c).Valid u as)
    (hkeep : (player s c).Each (KeepsTurn s c) u as) :
    (player s c).trace (struck s) u as ++ ((player s c).exec u as).typing =
      u.typing ++ (player s c).trace wanted u as :=
  (player s c).exec_flow
    (fun u => u.circuit.world.phase c = .opened ∧ u.circuit.world.st.activeConn = some c)
    (KeepsTurn s c) Player.typing wanted (struck s)
    (fun _ _ hu hen hkeep => ⟨⟨player_phase hu.1 hen, hkeep.1⟩, typing_next hu.1 hu.2 hen hkeep⟩)
    u as ⟨hphase, hactive⟩ hv hkeep

namespace Sample

-- A page that shows its player the turn.
def typist : Player :=
  ⟨⟨⟨playing, fun _ => .opened, true⟩, [], [], 1⟩, ⟨true, false, 2, 2, true, 0⟩⟩

-- A letter, a digit with shift, an arrow key and a step of the camera.
def keystrokes : List PlayStep :=
  [.hand (.key ⟨81, 113, false, false, false⟩), .hand (.key ⟨53, 37, true, false, false⟩),
    .hand (.key ⟨38, 0, false, false, false⟩), .hand (.key ⟨87, 119, false, false, false⟩),
    .net .deliver, .net .deliver, .net .deliver, .net .deliver,
    .net (.other (.update (game 64) df))]

end Sample

-- The arrow key is dropped, and the step of the camera is no key.
theorem keystrokes_reach_game_sample :
    (player Sample.endpoint 0).trace (struck Sample.endpoint) Sample.typist Sample.keystrokes =
      [(true, 113), (false, 113), (true, Keycode.lshift), (true, 53), (false, 53),
        (false, Keycode.lshift)] := by
  have hall := keystrokes_reach_game Sample.endpoint 0 Sample.typist Sample.keystrokes rfl rfl
    ⟨rfl, rfl, rfl, rfl, ⟨⟨_, _, rfl, rfl, rfl⟩, nofun⟩, ⟨⟨_, _, rfl, rfl, rfl⟩, nofun⟩,
      ⟨⟨_, _, rfl, rfl, rfl⟩, nofun⟩, ⟨⟨_, _, rfl, rfl, rfl⟩, nofun⟩, ⟨⟨trivial, id⟩, nofun⟩, trivial⟩
    (by
      have hgesture : ∀ (u : Player) (g : Gesture),
          (Player.next Sample.endpoint 0 u (.hand g)).circuit.world.st.activeConn = some 0 →
            KeepsTurn Sample.endpoint 0 u (.hand g) := fun u g h => ⟨h, nofun⟩
      have hdeliver : ∀ (u : Player) (payload : Bytes),
          (Player.next Sample.endpoint 0 u (.net .deliver)).circuit.world.st.activeConn = some 0 →
          u.circuit.up.head? = some payload →
          (∀ jsKey charCode jsmods, parseMessage payload = .keyEvent jsKey charCode jsmods →
            eventKey jsKey charCode ≠ Key.escape) →
            KeepsTurn Sample.endpoint 0 u (.net .deliver) := by
        intro u payload hturn hup hkey
        refine ⟨hturn, fun payload' rest jsKey charCode jsmods _ hup' hp => ?_⟩
        rw [hup', List.head?_cons] at hup
        obtain rfl := Option.some.inj hup
        simp [isSafeKey, hkey jsKey charCode jsmods hp]
      have hcode : ∀ (j ch mods : UInt8), eventKey j ch ≠ Key.escape →
          ∀ jsKey charCode jsmods, parseMessage [111, j, ch, mods] = .keyEvent jsKey charCode jsmods →
            eventKey jsKey charCode ≠ Key.escape := by
        rintro j ch mods hne jsKey charCode jsmods hp
        obtain ⟨rfl, rfl, -⟩ := Message.keyEvent.inj hp
        exact hne
      exact ⟨hgesture _ _ rfl, hgesture _ _ rfl, hgesture _ _ rfl, hgesture _ _ rfl,
        hdeliver _ [111, 0, 113, 0] rfl rfl (hcode _ _ _ (by decide)),
        hdeliver _ [111, 53, 0, 2] rfl rfl (hcode _ _ _ (by decide)),
        hdeliver _ [111, 38, 0, 0] rfl rfl (hcode _ _ _ (by decide)),
        hdeliver _ [117, 0, 246, 0] rfl rfl nofun, ⟨rfl, nofun⟩, trivial⟩)
  have hend : ((player Sample.endpoint 0).exec Sample.typist Sample.keystrokes).typing = [] := rfl
  have hwanted : (player Sample.endpoint 0).trace wanted Sample.typist Sample.keystrokes =
      [(true, 113), (false, 113), (true, Keycode.lshift), (true, 53), (false, 53),
        (false, Keycode.lshift)] := by decide
  rw [hend, List.append_nil, hwanted] at hall
  exact hall

end WebFort
