import WebFort.Server.Queue
import WebFort.Sample

namespace WebFort

open Library

-- A key press from the page on its way through the two tables, the one of
-- input.hpp and the one of wf_to_sdl_keycode.

namespace Keycode

def ret : Keycode := 13
def less : Keycode := 60
def greater : Keycode := 62
def delete : Keycode := 127
def f (n : Nat) : Keycode := scancode (57 + n)
def home : Keycode := scancode 74
def pageup : Keycode := scancode 75
def «end» : Keycode := scancode 77
def pagedown : Keycode := scancode 78
def right : Keycode := scancode 79
def left : Keycode := scancode 80
def down : Keycode := scancode 81
def up : Keycode := scancode 82
def numlock : Keycode := scancode 83
def kpDivide : Keycode := scancode 84
def kpMultiply : Keycode := scancode 85
def kpMinus : Keycode := scancode 86
def kpPlus : Keycode := scancode 87
-- The zero comes after the nine.
def kp (digit : Nat) : Keycode := scancode (if digit = 0 then 98 else 88 + digit)

end Keycode

-- The key codes mapInputCodeToSDL has a case for, each with what SDL2 calls
-- the key it names.
def namedKeys : List (Nat × Keycode) :=
  [(96, Keycode.kp 0), (97, Keycode.kp 1), (98, Keycode.kp 2), (99, Keycode.kp 3),
    (100, Keycode.kp 4), (101, Keycode.kp 5), (102, Keycode.kp 6), (103, Keycode.kp 7),
    (104, Keycode.kp 8), (105, Keycode.kp 9), (144, Keycode.numlock), (111, Keycode.kpDivide),
    (106, Keycode.kpMultiply), (109, Keycode.kpMinus), (107, Keycode.kpPlus),
    (33, Keycode.pageup), (34, Keycode.pagedown), (35, Keycode.end), (36, Keycode.home),
    (46, Keycode.delete), (112, Keycode.f 1), (113, Keycode.f 2), (114, Keycode.f 3),
    (115, Keycode.f 4), (116, Keycode.f 5), (117, Keycode.f 6), (118, Keycode.f 7),
    (119, Keycode.f 8), (120, Keycode.f 9), (121, Keycode.f 10), (122, Keycode.f 11),
    (123, Keycode.f 12), (37, Keycode.left), (39, Keycode.right), (38, Keycode.up),
    (40, Keycode.down), (188, Keycode.less), (190, Keycode.greater), (13, Keycode.ret),
    (27, Keycode.escape)]

-- A printable character, or one of the named keys.
def IsKey (jsKey charCode : UInt8) : Prop :=
  if charCode ≠ 0 then 0x20 ≤ charCode.toNat ∧ charCode.toNat ≤ 0x7E
  else jsKey.toNat ∈ namedKeys.map Prod.fst

instance (jsKey charCode : UInt8) : Decidable (IsKey jsKey charCode) :=
  inferInstanceAs (Decidable (if charCode ≠ 0 then _ else _))

-- The key a page names in a KeyEvent. A letter has the code of its small form.
def browserKeycode (jsKey charCode : UInt8) : Keycode :=
  if charCode ≠ 0 then toLowerAscii charCode.toNat
  else (namedKeys.lookup jsKey.toNat).getD 0

-- Return, escape, and what input.hpp calls K_LESS and K_GREATER.
def knownKeys : List Nat := [13, 27, 188, 190]

-- The second table knows the SDL::Key of the first one.
def Translates (jsKey charCode : UInt8) : Prop := charCode ≠ 0 ∨ jsKey.toNat ∈ knownKeys

theorem namedKeys_agree : ∀ p ∈ namedKeys,
    p.2 ≠ 0 ∧ namedKeys.lookup p.1 = some p.2 ∧
      (mapInputCodeToSDL p.1 ≠ Key.unknown ∧ mapInputCodeToSDL p.1 < Key.rshift) ∧
      wfToSdlKeycode (mapInputCodeToSDL p.1) 0 = if p.1 ∈ knownKeys then p.2 else 0 := by
  decide

theorem toLowerAscii_pos {c : Nat} (hc : 0 < c) : 0 < toLowerAscii c := by
  unfold toLowerAscii
  split <;> omega

section Tables

variable {jsKey charCode : UInt8}

-- The modifiers have the largest codes of SDL::Key.
theorem eventKey_known (hk : IsKey jsKey charCode) :
    eventKey jsKey charCode ≠ Key.unknown ∧ eventKey jsKey charCode < Key.rshift := by
  unfold IsKey at hk
  unfold eventKey
  by_cases hc : charCode = 0
  · rw [if_neg (not_not.mpr hc)] at hk ⊢
    obtain ⟨p, hp, hcode⟩ := List.mem_map.mp hk
    rw [← hcode]
    exact (namedKeys_agree p hp).2.2.1
  · rw [if_pos hc] at hk ⊢
    refine ⟨fun h => ?_, Nat.lt_of_le_of_lt hk.2 (by decide)⟩
    rw [h] at hk
    exact absurd hk.1 (by decide)

theorem keyEventKeys_key (hk : IsKey jsKey charCode) (jsmods : UInt8) :
    keyEventKeys (eventKey jsKey charCode) charCode jsmods =
      [⟨1, sdlMods jsmods, eventKey jsKey charCode, charCode.toNat⟩] := by
  obtain ⟨hne, hlt⟩ := eventKey_known hk
  have hmod : ∀ k : Nat, Key.rshift ≤ k → eventKey jsKey charCode ≠ k := by
    rintro k hle rfl
    exact absurd hlt (Nat.not_lt.mpr hle)
  rw [keyEventKeys_eq, simkey, if_neg (by decide), if_neg fun h => hne h.1, if_neg]
  simp only [not_or]
  refine ⟨hmod _ ?_, hmod _ ?_, hmod _ ?_, hmod _ ?_, hmod _ ?_, hmod _ ?_⟩ <;> decide

theorem browserKeycode_ne_zero (hk : IsKey jsKey charCode) : browserKeycode jsKey charCode ≠ 0 := by
  unfold IsKey at hk
  unfold browserKeycode
  by_cases hc : charCode = 0
  · rw [if_neg (not_not.mpr hc)] at hk ⊢
    obtain ⟨p, hp, hcode⟩ := List.mem_map.mp hk
    rw [← hcode, (namedKeys_agree p hp).2.1]
    exact (namedKeys_agree p hp).1
  · rw [if_pos hc] at hk ⊢
    exact Nat.ne_of_gt (toLowerAscii_pos (by omega))

-- What gets through both tables is the key of the page, the rest is dropped.
theorem wfToSdlKeycode_key (hk : IsKey jsKey charCode) :
    (Translates jsKey charCode →
      wfToSdlKeycode (eventKey jsKey charCode) charCode.toNat = browserKeycode jsKey charCode) ∧
    (¬Translates jsKey charCode →
      wfToSdlKeycode (eventKey jsKey charCode) charCode.toNat = 0) := by
  unfold IsKey at hk
  unfold Translates eventKey browserKeycode
  by_cases hc : charCode = 0
  · simp only [hc, ne_eq, not_true_eq_false, if_false, false_or] at hk ⊢
    obtain ⟨p, hp, hcode⟩ := List.mem_map.mp hk
    obtain ⟨-, hlookup, -, htable⟩ := namedKeys_agree p hp
    rw [← hcode, hlookup]
    refine ⟨fun h => ?_, fun h => ?_⟩
    · exact htable.trans (if_pos h)
    · exact htable.trans (if_neg h)
  · simp only [hc, ne_eq, not_false_eq_true, if_true, true_or] at hk ⊢
    refine ⟨fun _ => ?_, fun h => absurd trivial h⟩
    unfold wfToSdlKeycode
    rw [if_pos hk]

end Tables

-- Which key goes down or up.
abbrev KeyMove := Bool × Keycode

def keyMoves (evs : List SdlEvent) : List KeyMove :=
  evs.filterMap fun ev => match ev with
    | .key down sym _ => some (down, sym)
    | _ => none

theorem moves_append (a b : List SdlEvent) : keyMoves (a ++ b) = keyMoves a ++ keyMoves b :=
  List.filterMap_append

def KeyMove.apply (k : Keycode) (down : Bool) (m : KeyMove) : Bool := if m.2 = k then m.1 else down

-- Whether a key is left down after some moves.
def leftDown (k : Keycode) (ms : List KeyMove) : Bool := ms.foldl (KeyMove.apply k) false

-- The modifiers a KeyEvent asks for.
def modifiers (jsmods : UInt8) : List Keycode :=
  (if jsmods &&& 2 ≠ 0 then [Keycode.lshift] else []) ++
  (if jsmods &&& 4 ≠ 0 then [Keycode.lctrl] else []) ++
  (if jsmods &&& 1 ≠ 0 then [Keycode.lalt] else [])

-- A key goes down and up while its modifiers are held.
def stroke (held : List Keycode) (k : Keycode) : List KeyMove :=
  held.map (true, ·) ++ [(true, k), (false, k)] ++ held.reverse.map (false, ·)

-- The strokes a message of the active player asks for, if it passes the test
-- of the escape key.
def strokes (st : State) : Event → List KeyMove
  | .message hdl payload => match parseMessage payload with
    | .keyEvent jsKey charCode jsmods =>
        if st.activeConn = some hdl ∧ isSafeKey st hdl (eventKey jsKey charCode) then
          stroke (modifiers jsmods) (browserKeycode jsKey charCode)
        else []
    | _ => []
  | _ => []

def TranslatesKey (st : State) : Event → Prop
  | .message hdl payload => ∀ jsKey charCode jsmods,
      parseMessage payload = .keyEvent jsKey charCode jsmods → st.activeConn = some hdl →
      isSafeKey st hdl (eventKey jsKey charCode) = true → Translates jsKey charCode
  | _ => True

-- While the client has the turn and no flush happens, it presses keys only.
def Typing (s : Endpoint) (hdl : Handle) (st : State) (e : Event) : Prop :=
  ¬e.IsUpdate ∧ (handle s e st).state.activeConn = some hdl ∧
    ∀ payload jsKey charCode jsmods, e = .message hdl payload →
      parseMessage payload = .keyEvent jsKey charCode jsmods → IsKey jsKey charCode

section Strokes

theorem moves_pushKey (sym : Keycode) (mods : Nat) (down : Bool) (unicode : Nat) :
    keyMoves (wfPushSdlKey sym mods down unicode) = [(down, sym)] := by
  have htext : ∀ (c : Prop) [Decidable c],
      keyMoves (if c then [.textInput unicode] else []) = [] := by
    intro c _
    split <;> rfl
  exact congrArg ((down, sym) :: ·) (htext _)

-- The modifier keys of a bitmask, in the order they are pressed.
def heldKeys (sdlmods : Nat) : List Keycode :=
  (if sdlmods &&& kmodShift ≠ 0 then [Keycode.lshift] else []) ++
  (if sdlmods &&& kmodCtrl ≠ 0 then [Keycode.lctrl] else []) ++
  (if sdlmods &&& kmodAlt ≠ 0 then [Keycode.lalt] else [])

theorem moves_flushKey (ev : WFKeyEvent) :
    keyMoves (flushKey ev) =
      if wfToSdlKeycode ev.sym ev.unicode = 0 then []
      else stroke (heldKeys ev.sdlmods) (wfToSdlKeycode ev.sym ev.unicode) := by
  unfold flushKey
  simp only
  split
  · rfl
  · have hif : ∀ (c : Prop) [Decidable c] (k : Keycode) (down : Bool),
        keyMoves (if c then wfPushSdlKey k 0 down 0 else []) = (if c then [k] else []).map (down, ·) := by
      intro c _ k down
      split
      · exact moves_pushKey k 0 down 0
      · rfl
    have hrev : ∀ (c : Prop) [Decidable c] (k : Keycode),
        (if c then [k] else []).reverse = if c then [k] else [] := by
      intro c _ k
      split <;> rfl
    simp only [moves_append, modifierDowns, modifierUps, hif, moves_pushKey, stroke, heldKeys,
      List.map_append, List.reverse_append, hrev, List.append_assoc, List.cons_append,
      List.nil_append]

theorem heldKeys_sdlMods (jsmods : UInt8) : heldKeys (sdlMods jsmods) = modifiers jsmods := by
  have hmask : ∀ (alt shift ctrl : Prop) [Decidable alt] [Decidable shift] [Decidable ctrl],
      let m := (if alt then kmodAlt else 0) ||| (if shift then kmodShift else 0) |||
        (if ctrl then kmodCtrl else 0)
      (m &&& kmodShift ≠ 0 ↔ shift) ∧ (m &&& kmodCtrl ≠ 0 ↔ ctrl) ∧ (m &&& kmodAlt ≠ 0 ↔ alt) := by
    intro alt shift ctrl _ _ _
    by_cases ha : alt <;> by_cases hs : shift <;> by_cases hc : ctrl <;>
      simp [ha, hs, hc, kmodAlt, kmodShift, kmodCtrl]
  obtain ⟨hshift, hctrl, halt⟩ := hmask (jsmods &&& 1 ≠ 0) (jsmods &&& 2 ≠ 0) (jsmods &&& 4 ≠ 0)
  unfold heldKeys sdlMods modifiers
  simp only [hshift, hctrl, halt]

theorem foldl_downs {k : Keycode} (l : List Keycode) (down : Bool) (hk : k ∉ l) :
    (l.map (true, ·)).foldl (KeyMove.apply k) down = down := by
  induction l generalizing down with
  | nil => rfl
  | cons j l ih =>
      obtain ⟨hj, hl⟩ := not_or.mp (mt List.mem_cons.mpr hk)
      rw [List.map_cons, List.foldl_cons, KeyMove.apply, if_neg (Ne.symm hj)]
      exact ih down hl

theorem foldl_ups {k : Keycode} (l : List Keycode) (down : Bool) (hk : k ∈ l ∨ down = false) :
    (l.map (false, ·)).foldl (KeyMove.apply k) down = false := by
  induction l generalizing down with
  | nil => exact hk.resolve_left (by simp)
  | cons j l ih =>
      rw [List.map_cons, List.foldl_cons, KeyMove.apply]
      refine ih _ ?_
      by_cases hj : j = k
      · exact Or.inr (if_pos hj)
      · rw [if_neg hj]
        exact hk.imp_left fun h => (List.mem_cons.mp h).resolve_left (Ne.symm hj)

-- A stroke leaves every key up.
theorem leftDown_stroke (k : Keycode) (held : List Keycode) (sk : Keycode) :
    leftDown k (stroke held sk) = false := by
  unfold leftDown stroke
  rw [List.foldl_append, List.foldl_append]
  refine foldl_ups _ _ ?_
  by_cases hk : k ∈ held
  · exact Or.inl (List.mem_reverse.mpr hk)
  · right
    rw [foldl_downs held false hk]
    simp [KeyMove.apply]

theorem leftDown_append {k : Keycode} {a b : List KeyMove} (ha : leftDown k a = false) :
    leftDown k (a ++ b) = leftDown k b := by
  unfold leftDown at ha ⊢
  rw [List.foldl_append, ha]

theorem leftDown_flush (k : Keycode) (queue : List WFKeyEvent) :
    leftDown k (keyMoves (flushKeys queue)) = false := by
  induction queue with
  | nil => rfl
  | cons ev queue ih =>
      have hcons : flushKeys (ev :: queue) = flushKey ev ++ flushKeys queue := List.flatMap_cons
      have hev : leftDown k (keyMoves (flushKey ev)) = false := by
        rw [moves_flushKey]
        split
        · rfl
        · exact leftDown_stroke k _ _
      rw [hcons, moves_append, leftDown_append hev]
      exact ih

-- The one event a key of the page leaves in the queue.
theorem moves_keyEventKeys {jsKey charCode : UInt8} (hk : IsKey jsKey charCode) (jsmods : UInt8) :
    (Translates jsKey charCode →
      keyMoves (flushKeys (keyEventKeys (eventKey jsKey charCode) charCode jsmods)) =
        stroke (modifiers jsmods) (browserKeycode jsKey charCode)) ∧
    (¬Translates jsKey charCode →
      keyMoves (flushKeys (keyEventKeys (eventKey jsKey charCode) charCode jsmods)) = []) := by
  obtain ⟨hpass, hdrop⟩ := wfToSdlKeycode_key hk
  have hmoves : keyMoves (flushKeys
        [⟨1, sdlMods jsmods, eventKey jsKey charCode, charCode.toNat⟩]) =
      if wfToSdlKeycode (eventKey jsKey charCode) charCode.toNat = 0 then []
      else stroke (modifiers jsmods)
        (wfToSdlKeycode (eventKey jsKey charCode) charCode.toNat) := by
    rw [← heldKeys_sdlMods]
    exact (congrArg keyMoves (List.flatMap_singleton _ _)).trans (moves_flushKey _)
  rw [keyEventKeys_key hk, hmoves]
  refine ⟨fun htrans => ?_, fun htrans => ?_⟩
  · rw [hpass htrans, if_neg (browserKeycode_ne_zero hk)]
  · rw [if_pos (hdrop htrans)]

-- One event of the run, seen by a later flush.
theorem moves_typed {s : Endpoint} {hdl : Handle} {st : State} {e : Event}
    (hactive : st.activeConn = some hdl) (ht : Typing s hdl st e) :
    (TranslatesKey st e → keyMoves (flushKeys (typed st e)) = strokes st e) ∧
      (¬TranslatesKey st e → keyMoves (flushKeys (typed st e)) = [] ∧ strokes st e ≠ []) := by
  cases e with
  | message j payload =>
      by_cases hkey : ∃ jsKey charCode jsmods, parseMessage payload = .keyEvent jsKey charCode jsmods
      · obtain ⟨jsKey, charCode, jsmods, hp⟩ := hkey
        simp only [TranslatesKey, typed, strokes, hp, Message.keyEvent.injEq]
        by_cases hsafe : st.activeConn = some j ∧ isSafeKey st j (eventKey jsKey charCode) = true
        · have hj : j = hdl := Option.some.inj (hsafe.1.symm.trans hactive)
          subst hj
          have hk : IsKey jsKey charCode := ht.2.2 payload jsKey charCode jsmods rfl hp
          obtain ⟨hpass, hdrop⟩ := moves_keyEventKeys hk jsmods
          rw [if_pos ⟨hsafe.1, (eventKey_known hk).1, hsafe.2⟩, if_pos hsafe]
          refine ⟨fun h => ?_, fun h => ?_⟩
          · exact hpass (h jsKey charCode jsmods ⟨rfl, rfl, rfl⟩ hsafe.1 hsafe.2)
          · have htrans : ¬Translates jsKey charCode := by
              intro htrans
              refine h fun _ _ _ he _ _ => ?_
              obtain ⟨rfl, rfl, -⟩ := he
              exact htrans
            exact ⟨hdrop htrans, by simp [stroke]⟩
        · rw [if_neg hsafe, if_neg fun h => hsafe ⟨h.1, h.2.2⟩]
          refine ⟨fun _ => rfl, fun h => absurd (fun jsKey' charCode' _ he ha hs => ?_) h⟩
          obtain ⟨rfl, rfl, -⟩ := he
          exact absurd ⟨ha, hs⟩ hsafe
      · have htrans : TranslatesKey st (.message j payload) :=
          fun jsKey charCode jsmods hp => absurd ⟨jsKey, charCode, jsmods, hp⟩ hkey
        refine ⟨fun _ => ?_, fun h => absurd htrans h⟩
        rw [typed_of_no_key st j hkey]
        simp only [strokes]
        split
        · rename_i jsKey charCode jsmods hp
          exact absurd ⟨jsKey, charCode, jsmods, hp⟩ hkey
        · rfl
  | opened j => exact ⟨fun _ => rfl, fun h => absurd trivial h⟩
  | closed j => exact ⟨fun _ => rfl, fun h => absurd trivial h⟩
  | game g => exact ⟨fun _ => rfl, fun h => absurd trivial h⟩
  | update g df => exact ⟨fun _ => rfl, fun h => absurd trivial h⟩

end Strokes

section Run

variable {s : Endpoint} {hdl : Handle} {st : State} {es : List Event}

theorem typing_inputQueue (hactive : st.activeConn = some hdl)
    (hes : (plugin s).Each (Typing s hdl) st es) :
    ((plugin s).exec st es).inputQueue =
      st.inputQueue ++ (plugin s).trace typed st es := by
  induction es generalizing st with
  | nil => exact (List.append_nil _).symm
  | cons e es ih =>
      have hstay := hes.1.2.1
      have hno : handover s st e = [] := if_pos (hstay.trans hactive.symm)
      have hstep := handle_inputQueue s e st hes.1.1
      rw [hno, List.append_nil] at hstep
      have hrest := @ih (handle s e st).state hstay hes.2
      rw [hstep, List.append_assoc] at hrest
      exact hrest

theorem moves_trace (hactive : st.activeConn = some hdl)
    (hes : (plugin s).Each (Typing s hdl) st es) :
    ((plugin s).Each TranslatesKey st es →
      keyMoves (flushKeys ((plugin s).trace typed st es)) = (plugin s).trace strokes st es) ∧
    (keyMoves (flushKeys ((plugin s).trace typed st es))).length ≤
      ((plugin s).trace strokes st es).length ∧
    (¬(plugin s).Each TranslatesKey st es →
      (keyMoves (flushKeys ((plugin s).trace typed st es))).length <
        ((plugin s).trace strokes st es).length) := by
  induction es generalizing st with
  | nil => exact ⟨fun _ => rfl, Nat.le_refl _, fun h => absurd trivial h⟩
  | cons e es ih =>
      obtain ⟨hsame, hle, hlt⟩ := @ih (handle s e st).state hes.1.2.1 hes.2
      obtain ⟨hpass, hdrop⟩ := moves_typed hactive hes.1
      have hnext : (plugin s).next st e = (handle s e st).state := rfl
      simp only [Machine.trace, flushKeys_append, moves_append, List.length_append, hnext]
      by_cases he : TranslatesKey st e
      · rw [hpass he]
        refine ⟨fun h => congrArg (strokes st e ++ ·) (hsame h.2), ?_, fun h => ?_⟩
        · exact Nat.add_le_add_left hle _
        · exact Nat.add_lt_add_left (hlt fun hrest => h ⟨he, hrest⟩) _
      · obtain ⟨hnone, hsome⟩ := hdrop he
        have hpos := List.length_pos_iff.mpr hsome
        rw [hnone, List.length_nil]
        refine ⟨fun h => absurd h.1 he, ?_, fun _ => ?_⟩
        · omega
        · omega

end Run

-- The keys a client presses while it has the turn, at the flush after them:
-- all of them arrive in their order, each between its modifiers, and none is
-- left down, when the second table knows what the first one made of them.
theorem keys_arrive_iff {s : Endpoint} {hdl : Handle} {st : State} {es : List Event}
    (hactive : st.activeConn = some hdl) (hes : (plugin s).Each (Typing s hdl) st es) :
    let flushed := keyMoves (sdlEvents (flushInputQueue ((plugin s).exec st es)).out)
    (flushed = keyMoves (flushKeys st.inputQueue) ++ (plugin s).trace strokes st es ∧
        ∀ k, leftDown k flushed = false) ↔
      (plugin s).Each TranslatesKey st es := by
  obtain ⟨hsame, -, hlt⟩ := moves_trace hactive hes
  have hflush : keyMoves (sdlEvents (flushInputQueue ((plugin s).exec st es)).out) =
      keyMoves (flushKeys st.inputQueue) ++ keyMoves (flushKeys ((plugin s).trace typed st es)) := by
    rw [sdlEvents_flush, typing_inputQueue hactive hes, flushKeys_append, moves_append]
  have hup : ∀ k, leftDown k
      (keyMoves (sdlEvents (flushInputQueue ((plugin s).exec st es)).out)) = false := by
    intro k
    rw [sdlEvents_flush]
    exact leftDown_flush k _
  refine ⟨fun h => ?_, fun h => ⟨?_, hup⟩⟩
  · by_contra hno
    have heq := List.append_cancel_left (hflush.symm.trans h.1)
    have hless := hlt hno
    rw [heq] at hless
    exact Nat.lt_irrefl _ hless
  · rw [hflush, hsame h]

-- A capital letter.
theorem keys_arrive_iff_sample :
    keyMoves (sdlEvents (flushInputQueue ((plugin Sample.endpoint).exec Sample.playing
      [.message 0 [111, 0, 65, 2]])).out) =
      [(true, Keycode.lshift), (true, 97), (false, 97), (false, Keycode.lshift)] := by
  refine ((@keys_arrive_iff Sample.endpoint 0 Sample.playing [.message 0 [111, 0, 65, 2]] rfl
    ⟨⟨id, rfl, ?_⟩, trivial⟩).mpr ⟨?_, trivial⟩).1
  · rintro _ _ _ _ ⟨rfl⟩ ⟨rfl⟩
    decide
  · rintro _ _ _ ⟨rfl⟩ _ _
    exact Or.inl (by decide)

-- The arrow key is 38 in the page, SDL::K_UP after the first table, and
-- nothing after the second.
theorem arrow_key_is_dropped :
    let es : List Event := [.message 0 [111, 38, 0, 0]]
    let flushed := keyMoves
      (sdlEvents (flushInputQueue ((plugin Sample.endpoint).exec Sample.playing es)).out)
    (plugin Sample.endpoint).Each (Typing Sample.endpoint 0) Sample.playing es ∧
    (plugin Sample.endpoint).trace strokes Sample.playing es =
      [(true, Keycode.up), (false, Keycode.up)] ∧
    ¬(flushed = keyMoves (flushKeys Sample.playing.inputQueue) ++
        (plugin Sample.endpoint).trace strokes Sample.playing es) := by
  refine ⟨⟨⟨id, rfl, ?_⟩, trivial⟩, rfl, fun h => ?_⟩
  · rintro _ _ _ _ ⟨rfl⟩ ⟨rfl⟩
    decide
  · have hnone : ([] : List KeyMove) = [(true, Keycode.up), (false, Keycode.up)] := h
    exact absurd hnone (by simp)

end WebFort
