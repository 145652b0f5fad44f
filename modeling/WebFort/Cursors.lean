import WebFort.Turns
import WebFort.Server.Look
import WebFort.Update.Clients
import WebFort.Server.Packet
import WebFort.Library.History

namespace WebFort

open Library

-- The cursor a client has put on the map.
def Client.cursor (cl : Client) : Option (Int × Int) :=
  if cl.cursorActive then some (cl.cursorX, cl.cursorY) else none

def cursorOf (st : State) (c : Handle) : Option (Int × Int) := st.look Client.cursor c

-- The driver's own cursor is not one of these: the loop reads it from the
-- game.
theorem worldCursor_of_ne {st : State} {c : Handle} (cl : Client) (h : st.activeConn ≠ some c) :
    worldCursor st c cl = cl.cursor := if_neg h

def Event.Points (c : Handle) (x y : UInt8) : Event → Prop
  | .message j payload => j = c ∧ parseMessage payload = .cursorMove x y
  | _ => False

-- A cursorMove that puts the client's cursor on this tile of the map.
def Points (c : Handle) (pos : Int × Int) (st : State) (e : Event) : Prop :=
  st.activeConn ≠ some c ∧ ∃ x y cl, e.Points c x y ∧ st.clients.find? c = some cl ∧
    pos = (int32 ((viewport st cl).x + x.toNat), int32 ((viewport st cl).y + y.toNat))

-- The client did not point again, come or go, gain or lose the turn.
def KeepsCursor (s : Endpoint) (c : Handle) (st : State) (e : Event) : Prop :=
  (∀ x y, ¬e.Points c x y) ∧ ¬e.Ends c ∧
    (st.activeConn = some c ↔ (handle s e st).state.activeConn = some c)

section Writes

variable {c : Handle}

theorem cursorOf_dropCursor (conn : Option Handle) (st : State) :
    cursorOf (dropCursor conn st) c = if conn = some c then none else cursorOf st c := by
  cases conn with
  | none => rfl
  | some hdl =>
      by_cases hc : hdl = c
      · subst hc
        rw [if_pos rfl]
        unfold cursorOf State.look dropCursor
        rw [State.withRegistered_find?, if_pos rfl, Option.bind_map]
        cases st.clients.find? hdl <;> rfl
      · have hne : ¬some hdl = some c := fun h => hc (Option.some.inj h)
        rw [if_neg hne]
        exact look_withRegistered _ (Or.inl (Ne.symm hc))

-- Both the old holder of the turn and the new one lose their cursor.
theorem cursorOf_setActive (newc : Option Handle) (st : State) :
    cursorOf (setActive newc st).state c =
      if st.activeConn = newc then cursorOf st c
      else if st.activeConn = some c ∨ newc = some c then none else cursorOf st c := by
  by_cases h : st.activeConn = newc
  · rw [setActive_same h, if_pos h]
    rfl
  · have hmoved : cursorOf (setActive newc st).state c =
        cursorOf (dropCursor newc (dropCursor st.activeConn st)) c :=
      look_setActive newc st (fun _ _ _ => rfl) h
    rw [hmoved, if_neg h, cursorOf_dropCursor, cursorOf_dropCursor]
    by_cases hn : newc = some c
    · rw [if_pos hn, if_pos (Or.inr hn)]
    · rw [if_neg hn]
      simp only [hn, or_false]

end Writes

section Steps

variable {s : Endpoint} {c : Handle} {pos : Int × Int} {st : State} {e : Event}

-- Where a cursor after a step comes from.
def CursorStep (s : Endpoint) (c : Handle) (pos : Int × Int) (st : State) (e : Event) : Prop :=
  Points c pos st e ∨ (cursorOf st c = some pos ∧ KeepsCursor s c st e)

theorem CursorStep.of_same (hcursor : cursorOf (handle s e st).state c = cursorOf st c)
    (hact : (handle s e st).state.activeConn = st.activeConn) (hp : ∀ x y, ¬e.Points c x y)
    (he : ¬e.Ends c) (h : cursorOf (handle s e st).state c = some pos) :
    CursorStep s c pos st e :=
  Or.inr ⟨hcursor.symm.trans h, hp, he, by rw [hact]⟩

-- A move of the turn leaves a cursor to those it does not concern.
theorem CursorStep.of_setActive {newc : Option Handle}
    (hcursor : cursorOf (handle s e st).state c = cursorOf (setActive newc st).state c)
    (hact : (handle s e st).state.activeConn = newc) (hp : ∀ x y, ¬e.Points c x y)
    (he : ¬e.Ends c) (h : cursorOf (handle s e st).state c = some pos) :
    CursorStep s c pos st e := by
  rw [hcursor, cursorOf_setActive] at h
  refine Or.inr ⟨?_, hp, he, ?_⟩
  · split at h
    · exact h
    · split at h
      · cases h
      · exact h
  · rw [hact]
    split at h
    · rename_i hsame
      rw [hsame]
    · split at h
      · cases h
      · rename_i hother
        obtain ⟨hold, hnew⟩ := not_or.mp hother
        exact ⟨fun ha => absurd ha hold, fun ha => absurd ha hnew⟩

theorem cursorOf_turnPart (st : State) :
    cursorOf (turnPart st) c = cursorOf st c ∧ (turnPart st).activeConn = st.activeConn ∨
      cursorOf (turnPart st) c = cursorOf (setActive none st).state c ∧
        (turnPart st).activeConn = none := by
  obtain ⟨timedOut, h | h⟩ := turnPart_state st
  · exact Or.inl ⟨(congrArg (cursorOf · c) h).trans rfl, (congrArg State.activeConn h).trans rfl⟩
  · refine Or.inr ⟨?_, (congrArg State.activeConn h).trans (setActive_activeConn none _)⟩
    rw [h, cursorOf_setActive, cursorOf_setActive]
    rfl

theorem cursorOf_camMove (hdl : Handle) (dx dy dz : UInt8) (st : State) :
    cursorOf (camMove hdl dx dy dz st) c = cursorOf st c := by
  rcases camMove_state hdl st dx dy dz with ⟨x, y, z, h⟩ | h
  · rw [h]
    rfl
  · rw [h]
    exact look_withRegistered _ (Or.inr fun _ => rfl)

theorem cursorOf_cursorMove (hdl : Handle) (x y : UInt8) (st : State)
    (hc : hdl = c → st.activeConn = some c) :
    cursorOf (cursorMove hdl x y st) c = cursorOf st c := by
  unfold cursorMove
  split
  · rfl
  · rename_i hact
    refine look_withRegistered _ (Or.inl fun h => hact ?_)
    rw [← h]
    exact hc h.symm

theorem not_points {payload : Bytes} {m : Message} (c hdl : Handle)
    (hp : parseMessage payload = m) (hm : ∀ x y, m ≠ .cursorMove x y) (x y : UInt8) :
    ¬Event.Points c x y (.message hdl payload) := fun h => hm x y (hp.symm.trans h.2)

theorem cursor_message (hdl : Handle) (payload : Bytes)
    (hidle : st.activeConn = some c → cursorOf st c = none)
    (h : cursorOf (handle s (.message hdl payload) st).state c = some pos) :
    CursorStep s c pos st (.message hdl payload) := by
  have hact := onMessage_activeConn s hdl payload st
  have hstate : (handle s (.message hdl payload) st).state = (onMessage s hdl payload st).state := rfl
  cases hp : parseMessage payload with
  | keyEvent jsKey code jsmods =>
      refine .of_same ?_ (by rw [hp] at hact; exact hact) (not_points c hdl hp (by simp)) not_false h
      obtain ⟨evs, hk⟩ := keyEvent_state hdl st jsKey code jsmods
      rw [hstate, onMessage, hp]
      exact (congrArg (cursorOf · c) hk).trans rfl
  | mouseEvent ev =>
      refine .of_same ?_ (by rw [hp] at hact; exact hact) (not_points c hdl hp (by simp)) not_false h
      obtain ⟨evs, hm⟩ := mouseEvent_state hdl st ev
      rw [hstate, onMessage, hp]
      exact (congrArg (cursorOf · c) hm).trans rfl
  | refreshScreen =>
      refine .of_same ?_ (by rw [hp] at hact; exact hact) (not_points c hdl hp (by simp)) not_false h
      rw [hstate, onMessage, hp]
      exact look_withClient _ (Or.inr fun _ => rfl)
  | camMove dx dy dz =>
      refine .of_same ?_ (by rw [hp] at hact; exact hact) (not_points c hdl hp (by simp)) not_false h
      rw [hstate, onMessage, hp]
      exact cursorOf_camMove hdl dx dy dz st
  | cursorMove x y =>
      rw [hp] at hact
      rw [hstate, onMessage, hp] at h
      by_cases hc : hdl = c ∧ st.activeConn ≠ some c
      · obtain ⟨rfl, hother⟩ := hc
        refine Or.inl ⟨hother, x, y, ?_⟩
        simp only [Outcome.ok_state, cursorMove, if_neg hother, cursorOf, State.look,
          State.withRegistered_find?, if_true] at h
        cases hcl : st.clients.find? hdl with
        | none => simp [hcl] at h
        | some cl =>
            rw [hcl] at h
            exact ⟨cl, ⟨rfl, hp⟩, rfl, (Option.some.inj h).symm⟩
      · have hkept : cursorOf (cursorMove hdl x y st) c = cursorOf st c :=
          cursorOf_cursorMove hdl x y st fun hh => not_not.mp fun hother => hc ⟨hh, hother⟩
        have hold : cursorOf st c = some pos := hkept.symm.trans h
        refine Or.inr ⟨hold, fun x' y' hpts => hc ⟨hpts.1, fun ha => ?_⟩, not_false, ?_⟩
        · exact absurd ((hidle ha).symm.trans hold) (by simp)
        · rw [hstate, hact]
  | requestTurn =>
      have hpts := not_points c hdl hp (by simp)
      have hrequest : (handle s (.message hdl payload) st).state = (requestTurn hdl st).state := by
        rw [hstate, onMessage, hp]
      have hreq : ∀ newc : Option Handle, (requestTurn hdl st).state = (setActive newc st).state →
          CursorStep s c pos st (.message hdl payload) := by
        intro newc hset
        rw [hset] at hrequest
        exact .of_setActive (congrArg (cursorOf · c) hrequest)
          ((congrArg State.activeConn hrequest).trans (setActive_activeConn newc st))
          hpts not_false h
      by_cases hown : st.activeConn = some hdl
      · exact hreq none (by rw [requestTurn, if_pos hown])
      · by_cases hfree : st.activeConn = none
        · exact hreq (some hdl) (by rw [requestTurn, if_neg hown, if_pos hfree])
        · have hsame : (requestTurn hdl st).state = st := by
            rw [requestTurn, if_neg hown, if_neg hfree]
            rfl
          rw [hsame] at hrequest
          exact .of_same (congrArg (cursorOf · c) hrequest) (congrArg State.activeConn hrequest)
            hpts not_false h
  | update =>
      have hpts := not_points c hdl hp (by simp)
      have htock : (handle s (.message hdl payload) st).state = (tock s hdl st).state := by
        rw [hstate, onMessage, hp]
      rw [tock_state] at htock
      have hcursor : cursorOf (handle s (.message hdl payload) st).state c =
          cursorOf (turnPart st) c :=
        (congrArg (cursorOf · c) htock).trans (look_withClient _ (Or.inr fun _ => rfl))
      have hturn : (handle s (.message hdl payload) st).state.activeConn =
          (turnPart st).activeConn := (congrArg State.activeConn htock).trans rfl
      rcases cursorOf_turnPart (c := c) st with ⟨hc, ha⟩ | ⟨hc, ha⟩
      · exact .of_same (hcursor.trans hc) (hturn.trans ha) hpts not_false h
      · exact .of_setActive (hcursor.trans hc) (hturn.trans ha) hpts not_false h

theorem cursor_opened (hdl : Handle) (hnew : hdl = c → cursorOf st c = none)
    (h : cursorOf (handle s (.opened hdl) st).state c = some pos) :
    CursorStep s c pos st (.opened hdl) := by
  have hnot : hdl ≠ c := by
    rintro rfl
    rcases onOpen_state s hdl st with hs | hs
    · rw [show (handle s (.opened hdl) st).state = st from hs, hnew rfl] at h
      cases h
    · rw [show (handle s (.opened hdl) st).state = register s hdl st from hs, cursorOf,
        State.look, Registry.register_find?, if_pos rfl] at h
      cases h
  refine .of_same (look_congr ?_) (onOpen_activeConn s hdl st) (fun _ _ => not_false) hnot h
  exact onOpen_client s st (Ne.symm hnot)

theorem cursor_closed (hdl : Handle)
    (h : cursorOf (handle s (.closed hdl) st).state c = some pos) :
    CursorStep s c pos st (.closed hdl) := by
  have hstate : (handle s (.closed hdl) st).state = (onClose hdl st).state := rfl
  have hclosed : ∀ st' : State, (onClose hdl st).state = eraseClient hdl st' →
      ¬hdl = c ∧ cursorOf (handle s (.closed hdl) st).state c = cursorOf st' c ∧
        (handle s (.closed hdl) st).state.activeConn = st'.activeConn := by
    intro st' hend
    have herase : cursorOf (handle s (.closed hdl) st).state c = _ :=
      (congrArg (cursorOf · c) hend).trans (look_eraseClient hdl st')
    have hne : c ≠ hdl := by
      intro hc
      rw [if_pos hc] at herase
      cases herase.symm.trans h
    exact ⟨Ne.symm hne, herase.trans (if_neg hne), (congrArg State.activeConn hend).trans rfl⟩
  cases hcl : st.clients.find? hdl with
  | none =>
      obtain ⟨hne, hcursor, hact⟩ := hclosed st (congrArg Outcome.state (onClose_absent hcl))
      exact .of_same hcursor hact (fun _ _ => not_false) hne h
  | some cl =>
      obtain ⟨hne, hcursor, hact⟩ :=
        hclosed (deleteClient cl (releaseTurn hdl st)) (congrArg Outcome.state (onClose_registered hcl))
      by_cases hown : st.activeConn = some hdl
      · have hrel : releaseTurn hdl st = (setActive none st).state := if_pos hown
        rw [hrel] at hcursor hact
        exact .of_setActive hcursor (hact.trans (setActive_activeConn none st))
          (fun _ _ => not_false) hne h
      · have hrel : releaseTurn hdl st = st := if_neg hown
        rw [hrel] at hcursor hact
        exact .of_same hcursor hact (fun _ _ => not_false) hne h

theorem cursor_update (g : Game) (df : Df)
    (h : cursorOf (handle s (.update g df) st).state c = some pos) :
    CursorStep s c pos st (.update g df) := by
  have hu := pluginOnupdate_unticked df (st.atGame g)
  refine .of_same ?_ hu.activeConn (fun _ _ => not_false) not_false h
  have hlook := look_pluginOnupdate df (st.atGame g) (p := Client.cursor) (fun _ _ _ _ => rfl) c
  refine hlook.trans ?_
  split <;> rfl

theorem cursor_step (hidle : st.activeConn = some c → cursorOf st c = none)
    (hnew : e = .opened c → cursorOf st c = none)
    (h : cursorOf (handle s e st).state c = some pos) : CursorStep s c pos st e := by
  cases e with
  | opened hdl => exact cursor_opened hdl (fun hh => hnew (by rw [hh])) h
  | message hdl payload => exact cursor_message hdl payload hidle h
  | closed hdl => exact cursor_closed hdl h
  | game g => exact .of_same rfl rfl (fun _ _ => not_false) not_false h
  | update g df => exact cursor_update g df h

end Steps

section Runs

variable {s : Endpoint} {start : World} {es : List Event}

-- Cursors of the driver are off; all others were put where they are by their
-- client, and not disturbed since.
structure Tracked (s : Endpoint) (start : World) (es : List Event) (w : World) : Prop where
  registered : Registered w
  driver : ∀ c, w.st.activeConn = some c → cursorOf w.st c = none
  pointed : ∀ c pos, cursorOf w.st c = some pos →
    (server s).Since (fun w e => Points c pos w.st e) (fun w e => KeepsCursor s c w.st e) start es

theorem points_activeConn {c : Handle} {pos : Int × Int} {st : State} {e : Event}
    (h : Points c pos st e) : (handle s e st).state.activeConn ≠ some c := by
  obtain ⟨hact, x, y, cl, he, -, -⟩ := h
  cases e with
  | message j payload =>
      have hsame := onMessage_activeConn s j payload st
      rw [he.2] at hsame
      exact fun ha => hact (hsame.symm.trans ha)
  | opened _ => exact he.elim
  | closed _ => exact he.elim
  | game _ => exact he.elim
  | update _ _ => exact he.elim

theorem Tracked.step {e : Event} (h : Tracked s start es ((server s).exec start es))
    (hen : enabled ((server s).exec start es) e) :
    Tracked s start (es ++ [e]) (next s ((server s).exec start es) e) := by
  let w := (server s).exec start es
  have hstep : ∀ c pos, cursorOf (next s w e).st c = some pos → CursorStep s c pos w.st e := by
    intro c pos hc
    refine cursor_step (h.driver c) (fun he => ?_) hc
    subst he
    exact look_of_none (h.registered.absent hen)
  refine ⟨h.registered.step hen, fun c hact => ?_, fun c pos hc => ?_⟩
  · cases hc : cursorOf (next s w e).st c with
    | none => rfl
    | some pos =>
        rcases hstep c pos hc with hpts | ⟨hold, -, -, hturn⟩
        · exact absurd hact (points_activeConn hpts)
        · exact absurd ((h.driver c (hturn.mpr hact)).symm.trans hold) (by simp)
  · rcases hstep c pos hc with hpts | ⟨hold, hkeeps⟩
    · exact Machine.since_of_step hpts
    · exact (h.pointed c pos hold).step hkeeps

theorem Tracked.run (config : Config) (g : Game) (es : List Event)
    (hv : (server s).Valid (World.init config g) es) :
    Tracked s (World.init config g) es ((server s).exec (World.init config g) es) := by
  refine Machine.history_invariant (M := server s) (Tracked s (World.init config g)) ?_
    (fun es e h _ hen => h.step hen) es hv
  exact ⟨Registered.init config g, fun c hc => absurd hc (by simp [World.init, State.init]),
    fun c pos hc => absurd ((look_of_none rfl).symm.trans hc) (by simp)⟩

end Runs

-- One entry of a cursor packet, with the connection it is about.
structure CursorRecord where
  conn : Handle
  nick : Bytes
  x : UInt8
  y : UInt8
  color : UInt8

def CursorRecord.bytes (r : CursorRecord) : Bytes :=
  [nickLen r.nick] ++ nickField r.nick ++ [r.x, r.y, r.color]

-- The entries cursorLoop writes when `size` bytes are in the packet.
def cursorRecords (st : State) (hdl : Handle) (cl : Client) :
    List (Handle × Client) → Nat → UInt8 → List CursorRecord
  | [], _, _ => []
  | (h, c) :: rest, size, color =>
      if h = hdl then cursorRecords st hdl cl rest size (color + 1)
      else
        match visibleCursor st cl h c with
        | none => cursorRecords st hdl cl rest size (color + 1)
        | some (cx, cy) =>
            if 2 + size + (nickLen c.nick).toNat + 4 > 4096 then []
            else
              let r : CursorRecord := ⟨h, c.nick, leByte cx 0, leByte cy 0, color⟩
              r :: cursorRecords st hdl cl rest (size + r.bytes.length) (color + 1)

section Records

variable (st : State) (hdl : Handle) (cl : Client)

theorem cursorLoop_records (entries : List (Handle × Client)) (acc : CursorLoop) :
    let records := cursorRecords st hdl cl entries acc.bytes.length acc.colorIdx
    (cursorLoop st hdl cl entries acc).bytes = acc.bytes ++ records.flatMap CursorRecord.bytes ∧
      (cursorLoop st hdl cl entries acc).count = acc.count + UInt8.ofNat records.length := by
  induction entries generalizing acc with
  | nil => simp [cursorLoop, cursorRecords]
  | cons entry rest ih =>
      obtain ⟨h, c⟩ := entry
      unfold cursorLoop cursorRecords
      simp only
      split
      · exact ih _
      · cases visibleCursor st cl h c with
        | none => exact ih _
        | some pos =>
            simp only
            split
            · simp
            · let r : CursorRecord := ⟨h, c.nick, leByte pos.1 0, leByte pos.2 0, acc.colorIdx⟩
              let next : CursorLoop := ⟨acc.bytes ++ [nickLen c.nick] ++ nickField c.nick ++
                [leByte pos.1 0, leByte pos.2 0, acc.colorIdx], acc.count + 1, acc.colorIdx + 1⟩
              have hnext : next.bytes = acc.bytes ++ r.bytes := by
                simp [next, r, CursorRecord.bytes]
              have hlength : next.bytes.length = acc.bytes.length + r.bytes.length := by
                rw [hnext, List.length_append]
              obtain ⟨hbytes, hcount⟩ := ih next
              rw [hlength] at hbytes hcount
              refine ⟨hbytes.trans ?_, hcount.trans ?_⟩
              · rw [hnext, List.append_assoc, List.flatMap_cons]
              · rw [List.length_cons, UInt8.ofNat_add, UInt8.add_comm (UInt8.ofNat _),
                  ← UInt8.add_assoc]
                rfl

theorem cursorPacket_records :
    cursorPacket hdl st =
      let records := cursorRecords st hdl (st.getClient hdl) st.clients.entries 0 0
      [112, UInt8.ofNat records.length] ++ records.flatMap CursorRecord.bytes := by
  obtain ⟨hbytes, hcount⟩ :=
    cursorLoop_records st hdl (st.getClient hdl) st.clients.entries ⟨[], 0, 0⟩
  unfold cursorPacket
  simp only [hbytes, hcount]
  simp

theorem mem_cursorRecords {entries : List (Handle × Client)} {size : Nat} {color : UInt8}
    {r : CursorRecord} (hr : r ∈ cursorRecords st hdl cl entries size color) :
    ∃ c cx cy, (r.conn, c) ∈ entries ∧ r.nick = c.nick ∧
      visibleCursor st cl r.conn c = some (cx, cy) ∧ r.x = leByte cx 0 ∧ r.y = leByte cy 0 := by
  induction entries generalizing size color with
  | nil => exact absurd hr List.not_mem_nil
  | cons entry rest ih =>
      obtain ⟨h, c⟩ := entry
      have hrest : ∀ {size color}, r ∈ cursorRecords st hdl cl rest size color →
          ∃ c' cx cy, (r.conn, c') ∈ (h, c) :: rest ∧ r.nick = c'.nick ∧
            visibleCursor st cl r.conn c' = some (cx, cy) ∧ r.x = leByte cx 0 ∧
            r.y = leByte cy 0 := by
        intro size color hr
        obtain ⟨c', cx, cy, hmem, hrecord⟩ := ih hr
        exact ⟨c', cx, cy, List.mem_cons_of_mem _ hmem, hrecord⟩
      unfold cursorRecords at hr
      split at hr
      · exact hrest hr
      · cases hvisible : visibleCursor st cl h c with
        | none =>
            rw [hvisible] at hr
            exact hrest hr
        | some pos =>
            rw [hvisible] at hr
            simp only at hr
            split at hr
            · exact absurd hr List.not_mem_nil
            · rcases List.mem_cons.mp hr with rfl | hr
              · exact ⟨c, pos.1, pos.2, List.mem_cons_self, rfl, hvisible, rfl, rfl⟩
              · exact hrest hr

-- On a screen of up to 256 tiles a side nothing is cut off: the record and
-- the receiver's viewport give back the place on the map.
theorem visibleCursor_place {c : Client} {j : Handle} {cx cy : Int}
    (hx : st.game.gps.dimx ≤ 256) (hy : st.game.gps.dimy ≤ 256)
    (hv : visibleCursor st cl j c = some (cx, cy)) :
    worldCursor st j c = some (((leByte cx 0).toNat : Int) + (viewport st cl).x,
      ((leByte cy 0).toNat : Int) + (viewport st cl).y) := by
  obtain ⟨w, hw, hplace⟩ := Option.bind_eq_some_iff.mp hv
  simp only [Option.ite_none_left_eq_some, Option.some.injEq, Prod.mk.injEq] at hplace
  obtain ⟨hinside, rfl, rfl⟩ := hplace
  have hbyte := leByte_toNat (w.1 - (viewport st cl).x) 0
  have hbyte' := leByte_toNat (w.2 - (viewport st cl).y) 0
  rw [hw]
  refine congrArg some (Prod.ext ?_ ?_)
  · show w.1 = _ + _
    omega
  · show w.2 = _ + _
    omega

end Records

-- At the end of any run the driver's own flag is off; and whatever cursor
-- packet is built there, a record of anybody else is where that client last
-- pointed.
theorem no_ghost_cursors (s : Endpoint) (config : Config) (g : Game) (es : List Event)
    (hv : (server s).Valid (World.init config g) es) :
    let w := (server s).exec (World.init config g) es
    (∀ c cl, w.st.activeConn = some c → w.st.clients.find? c = some cl →
      cl.cursorActive = false) ∧
    ∀ hdl payload, enabled w (.message hdl payload) → parseMessage payload = .update →
      (s hdl).processor.takesBinary = true →
      let st := (handle s (.message hdl payload) w.st).state
      let records := cursorRecords st hdl (st.getClient hdl) st.clients.entries 0 0
      (∃ frame, sends hdl (handle s (.message hdl payload) w.st).out =
        [frame, [112, UInt8.ofNat records.length] ++ records.flatMap CursorRecord.bytes]) ∧
      ∀ r ∈ records, st.activeConn ≠ some r.conn → ∃ pos,
        (server s).Since (fun w e => Points r.conn pos w.st e)
          (fun w e => KeepsCursor s r.conn w.st e) (World.init config g)
          (es ++ [.message hdl payload]) ∧
        (st.game.gps.dimx ≤ 256 → st.game.gps.dimy ≤ 256 →
          pos = ((r.x.toNat : Int) + (viewport st (st.getClient hdl)).x,
            (r.y.toNat : Int) + (viewport st (st.getClient hdl)).y)) := by
  intro w
  have htracked := Tracked.run config g es hv
  constructor
  · intro c cl hact hcl
    have hnone := htracked.driver c hact
    have hcursor : cl.cursor = none := (look_of_find? hcl).symm.trans hnone
    simpa [Client.cursor] using hcursor
  intro hdl payload hen hp hb st records
  constructor
  · have htock : handle s (.message hdl payload) w.st = tock s hdl w.st := by
      show onMessage s hdl payload w.st = _
      unfold onMessage
      rw [hp]
    refine ⟨(tileLoop hdl w.st).bytes, ?_⟩
    have hpacket := cursorPacket_records (tock s hdl w.st).state hdl
    rw [htock, tock_sends, if_pos ⟨rfl, hb⟩, hpacket]
    simp only [records, st, htock]
  · intro r hr hother
    obtain ⟨c, cx, cy, hmem, -, hvisible, hx, hy⟩ := mem_cursorRecords st hdl _ hr
    have hfind := (OrdMap.mem_entries_iff _ _ _).mp hmem
    obtain ⟨pos, hpos, -⟩ := Option.bind_eq_some_iff.mp hvisible
    have hcursor : cursorOf st r.conn = some pos := by
      rw [worldCursor_of_ne c hother] at hpos
      exact (look_of_find? hfind).trans hpos
    refine ⟨pos, (htracked.step hen).pointed r.conn pos hcursor, fun hdx hdy => ?_⟩
    have hplace := visibleCursor_place st (st.getClient hdl) hdx hdy hvisible
    rw [hx, hy]
    exact Option.some.inj (hpos.symm.trans hplace)

namespace Sample

-- Client 1 points at the last tile of the screen.
def pointing : List Event := [.opened 0, .opened 1, .message 1 [114, 1, 1]]

end Sample

theorem no_ghost_cursors_sample :
    (server Sample.endpoint).Since (fun w e => Points 1 (1, 1) w.st e)
      (fun w e => KeepsCursor Sample.endpoint 1 w.st e)
      (World.init Sample.config (Sample.game 64)) (Sample.pointing ++ [.message 0 [110]]) := by
  have hrun := no_ghost_cursors Sample.endpoint Sample.config (Sample.game 64) Sample.pointing
    ⟨⟨rfl, rfl⟩, ⟨rfl, rfl⟩, ⟨rfl, rfl⟩, trivial⟩
  have hpacket := (hrun.2 0 [110] ⟨rfl, rfl⟩ rfl rfl).2
  obtain ⟨pos, hsince, hpos⟩ :=
    hpacket ⟨1, ascii "urist", 1, 1, 1⟩ (List.mem_of_mem_head? rfl) (by decide)
  rw [hpos (by decide) (by decide)] at hsince
  exact hsince

end WebFort
