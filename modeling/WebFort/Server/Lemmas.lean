import WebFort.Server.Frame

namespace WebFort

open Library

-- What an output list hands to one connection.
def sends (hdl : Handle) (out : List Out) : List Bytes :=
  out.filterMap fun o => match o with
    | .send h data => if h = hdl then some data else none
    | _ => none

@[simp] theorem sends_nil (hdl : Handle) : sends hdl [] = [] := rfl

theorem sends_append (hdl : Handle) (out rest : List Out) :
    sends hdl (out ++ rest) = sends hdl out ++ sends hdl rest := List.filterMap_append

def Processor.takesBinary (p : Processor) : Bool := (prepareDataFrame p .binary true).isNone

theorem takesBinary_iff (p : Processor) : p.takesBinary = true ↔ p ≠ .hybi00 := by
  cases p <;> decide

theorem send_of_takes {s : Endpoint} {hdl : Handle} (data : Bytes) (st : State)
    (h : (s hdl).processor.takesBinary = true) : send s hdl data st = .emit st (.send hdl data) := by
  have hn := Option.isNone_iff_eq_none.mp h
  simp only [send, hn]

theorem send_of_rejects {s : Endpoint} {hdl : Handle} (data : Bytes) (st : State)
    (h : (s hdl).processor.takesBinary = false) : send s hdl data st = .fail st := by
  have hs : ∃ e, prepareDataFrame (s hdl).processor .binary true = some e :=
    Option.isSome_iff_exists.mp (by simpa [Processor.takesBinary] using h)
  obtain ⟨e, he⟩ := hs
  simp only [send, he]

-- A new holder of the turn, in this order: the old one's cursor, the new
-- one's, its clock and tiles, the announcement, the SPACE key.
theorem setActive_same {newc : Option Handle} {st : State} (h : st.activeConn = newc) :
    setActive newc st = .ok st := if_pos h

@[simp] theorem dropCursor_activeConn (conn : Option Handle) (st : State) :
    (dropCursor conn st).activeConn = st.activeConn := by cases conn <;> rfl

@[simp] theorem dropCursor_inputQueue (conn : Option Handle) (st : State) :
    (dropCursor conn st).inputQueue = st.inputQueue := by cases conn <;> rfl

@[simp] theorem dropCursor_game (conn : Option Handle) (st : State) :
    (dropCursor conn st).game = st.game := by cases conn <;> rfl

@[simp] theorem pauseGame_activeConn (st : State) : (pauseGame st).activeConn = st.activeConn := by
  unfold pauseGame
  split <;> rfl

@[simp] theorem pauseGame_clients (st : State) : (pauseGame st).clients = st.clients := by
  unfold pauseGame
  split <;> rfl

@[simp] theorem pauseGame_nullClient (st : State) : (pauseGame st).nullClient = st.nullClient := by
  unfold pauseGame
  split <;> rfl

@[simp] theorem setActive_activeConn (newc : Option Handle) (st : State) :
    (setActive newc st).state.activeConn = newc := by
  by_cases h : st.activeConn = newc
  · rw [setActive_same h]
    exact h
  · simp only [setActive, if_neg h]
    cases newc with
    | none =>
        simp only [Outcome.ok_state, pauseGame_activeConn]
        split <;> rfl
    | some hdl =>
        simp only [Outcome.emit_state, pauseGame_activeConn]
        exact dropCursor_activeConn _ _

theorem dropCursor_state (conn : Option Handle) (st : State) :
    ∃ clients, dropCursor conn st = { st with clients := clients } := by
  cases conn with
  | none => exact ⟨_, rfl⟩
  | some hdl => exact ⟨_, rfl⟩

theorem pauseGame_state (st : State) :
    ∃ inputQueue, pauseGame st = { st with inputQueue := inputQueue } := by
  unfold pauseGame
  split
  · exact ⟨_, rfl⟩
  · exact ⟨_, rfl⟩

-- All that a change of the turn touches.
theorem setActive_state (newc : Option Handle) (st : State) :
    ∃ clients activeConn nullClient itime timedOut inputQueue, (setActive newc st).state =
      { st with
        clients := clients
        activeConn := activeConn
        nullClient := nullClient
        itime := itime
        timedOut := timedOut
        inputQueue := inputQueue } := by
  unfold setActive
  split
  · exact ⟨_, _, _, _, _, _, rfl⟩
  · obtain ⟨dropped, hdrop⟩ := dropCursor_state st.activeConn st
    simp only [hdrop]
    obtain ⟨both, hboth⟩ := dropCursor_state newc { st with clients := dropped, activeConn := newc }
    simp only [hboth]
    cases newc with
    | none =>
        obtain ⟨queue, hqueue⟩ := pauseGame_state (if st.config.autosaveWhileIdle = true then
          resetIdleTimer { st with clients := both, activeConn := none }
          else { st with clients := both, activeConn := none })
        refine ⟨both, none, st.nullClient, ?_⟩
        simp only [Outcome.ok_state, hqueue]
        split
        · exact ⟨_, _, _, rfl⟩
        · exact ⟨_, _, _, rfl⟩
    | some hdl =>
        obtain ⟨queue, hqueue⟩ := pauseGame_state
          (({ st with clients := both, activeConn := some hdl } : State).withClient hdl fun cl =>
            { cl.clearMod with atime := roundTimer { st with clients := both, activeConn := some hdl } })
        simp only [Outcome.emit_state, hqueue]
        exact ⟨_, _, _, _, _, _, rfl⟩

theorem setActive_threw (newc : Option Handle) (st : State) : (setActive newc st).threw = false := by
  unfold setActive
  split
  · rfl
  · cases newc <;> rfl

theorem setActive_none_out (st : State) : (setActive none st).out = [] := by
  unfold setActive
  split <;> rfl

theorem setActive_none_clients (st : State) :
    (setActive none st).state.clients = (dropCursor st.activeConn st).clients := by
  by_cases h : st.activeConn = none
  · rw [setActive_same h, h]
    rfl
  · simp only [setActive, if_neg h, Outcome.ok_state, pauseGame_clients]
    split <;> rfl

theorem setActive_some_clients {hdl : Handle} {st : State} (h : st.activeConn ≠ some hdl) :
    ∃ atime, (setActive (some hdl) st).state.clients =
      (dropCursor (some hdl) (dropCursor st.activeConn st)).clients.adjust hdl
        fun cl => { cl.clearMod with atime := atime } := by
  refine ⟨roundTimer (dropCursor (some hdl) { dropCursor st.activeConn st with
    activeConn := some hdl }), ?_⟩
  simp only [setActive, if_neg h, Outcome.emit_state, pauseGame_clients]
  rfl

theorem setActive_none_nullClient (st : State) :
    (setActive none st).state.nullClient = st.nullClient := by
  by_cases h : st.activeConn = none
  · rw [setActive_same h]
    rfl
  · simp only [setActive, if_neg h, Outcome.ok_state, pauseGame_nullClient]
    have hd : (dropCursor st.activeConn st).nullClient = st.nullClient := by
      cases st.activeConn <;> rfl
    split <;> exact hd

theorem dropCursor_getClient (conn : Option Handle) (st : State) (j : Handle) :
    ∃ b, (dropCursor conn st).getClient j = { st.getClient j with cursorActive := b } := by
  cases conn with
  | none => exact ⟨_, rfl⟩
  | some hdl =>
      unfold State.getClient
      simp only [dropCursor, State.withRegistered_find?]
      cases st.clients.find? j with
      | none => exact ⟨st.nullClient.cursorActive, by split <;> rfl⟩
      | some cl =>
          by_cases hj : j = hdl
          · exact ⟨false, by simp [hj]⟩
          · exact ⟨cl.cursorActive, by simp [hj]⟩

theorem idleTimer_threw (st : State) : (idleTimer st).threw = false := by
  unfold idleTimer
  split <;> rfl

theorem idleTimer_sends (hdl : Handle) (st : State) : sends hdl (idleTimer st).out = [] := by
  unfold idleTimer
  split <;> rfl

-- The idle timer touches its flag only.
theorem idleTimer_state (st : State) :
    ∃ b, (idleTimer st).state = { st with timedOut := b } := by
  unfold idleTimer
  split
  · exact ⟨true, rfl⟩
  · exact ⟨st.timedOut, rfl⟩

theorem expireTurn_threw (st : State) : (expireTurn st).threw = false := by
  unfold expireTurn
  split
  · exact setActive_threw none st
  · rfl

theorem expireTurn_out (st : State) : (expireTurn st).out = [] := by
  unfold expireTurn
  split
  · exact setActive_none_out st
  · rfl

-- The state tock reaches before it builds the packet.
def turnPart (st : State) : State := (expireTurn (idleTimer st).state).state

theorem turnPart_kept (st : State) : Kept nobodys nobodys st (turnPart st) :=
  (idleTimer_kept st).trans (expireTurn_kept _)

-- Besides the flag of the idle timer it may end the turn, and nothing else.
theorem turnPart_state (st : State) :
    ∃ timedOut, turnPart st = { st with timedOut := timedOut } ∨
      turnPart st = (setActive none { st with timedOut := timedOut }).state := by
  obtain ⟨timedOut, hidle⟩ := idleTimer_state st
  refine ⟨timedOut, ?_⟩
  unfold turnPart expireTurn
  rw [hidle]
  split
  · exact Or.inr rfl
  · exact Or.inl rfl

theorem turnPart_atlas (st : State) :
    (turnPart st).graphicsMode = st.graphicsMode ∧
      (turnPart st).atlasVersion = st.atlasVersion := by
  obtain ⟨timedOut, h | h⟩ := turnPart_state st
  · rw [h]
    exact ⟨rfl, rfl⟩
  · obtain ⟨_, _, _, _, _, _, hset⟩ := setActive_state none { st with timedOut := timedOut }
    rw [h, hset]
    exact ⟨rfl, rfl⟩

-- It moves no tile and no buffer of any client.
theorem turnPart_getClient (st : State) (j : Handle) :
    ∃ b, (turnPart st).getClient j = { st.getClient j with cursorActive := b } := by
  obtain ⟨timedOut, h | h⟩ := turnPart_state st
  · rw [h]
    exact ⟨_, rfl⟩
  · rw [h]
    obtain ⟨b, hb⟩ := dropCursor_getClient st.activeConn { st with timedOut := timedOut } j
    refine ⟨b, Eq.trans ?_ hb⟩
    unfold State.getClient
    rw [setActive_none_clients, setActive_none_nullClient]
    have hn : (dropCursor st.activeConn { st with timedOut := timedOut }).nullClient =
        st.nullClient := by cases st.activeConn <;> rfl
    rw [hn]

-- The packet of a tock and the marks it leaves.
def tileLoop (hdl : Handle) (st : State) : TileLoop :=
  tockPacket hdl (turnPart st) ((turnPart st).getClient hdl) st.getActive
    (getTimeLeft (idleTimer st).state).1

theorem sendUpdate_state (s : Endpoint) (hdl : Handle) (activeCl : Client) (timeLeft : Int)
    (st : State) :
    (sendUpdate s hdl activeCl timeLeft st).state = st.withClient hdl fun cl =>
      { cl with mod := (tockPacket hdl st (st.getClient hdl) activeCl timeLeft).mod } := by
  simp only [sendUpdate]
  cases h : (s hdl).processor.takesBinary with
  | false =>
      rw [send_of_rejects _ _ h, Outcome.andThen_of_threw _ rfl, Outcome.fail_state]
  | true =>
      rw [send_of_takes _ _ h, Outcome.andThen_of_ok _ rfl]
      exact send_state s hdl _ _

theorem tock_eq (s : Endpoint) (hdl : Handle) (st : State) :
    tock s hdl st =
      ⟨(sendUpdate s hdl st.getActive (getTimeLeft (idleTimer st).state).1 (turnPart st)).state,
        (idleTimer st).out ++
          (sendUpdate s hdl st.getActive (getTimeLeft (idleTimer st).state).1 (turnPart st)).out,
        (sendUpdate s hdl st.getActive (getTimeLeft (idleTimer st).state).1 (turnPart st)).threw⟩ := by
  unfold tock
  rw [Outcome.andThen_of_ok _ (idleTimer_threw st), Outcome.andThen_of_ok _ (expireTurn_threw _),
    expireTurn_out]
  rfl

theorem tock_state (s : Endpoint) (hdl : Handle) (st : State) :
    (tock s hdl st).state =
      (turnPart st).withClient hdl fun cl => { cl with mod := (tileLoop hdl st).mod } := by
  rw [tock_eq, sendUpdate_state]
  rfl

theorem tock_threw (s : Endpoint) (hdl : Handle) (st : State) :
    (tock s hdl st).threw = !(s hdl).processor.takesBinary := by
  rw [tock_eq]
  simp only [sendUpdate]
  cases h : (s hdl).processor.takesBinary with
  | false =>
      rw [send_of_rejects _ _ h, Outcome.andThen_of_threw _ rfl]
      rfl
  | true =>
      rw [send_of_takes _ _ h, Outcome.andThen_of_ok _ rfl, send_of_takes _ _ h]
      rfl

-- Both packets go to the client that asked, unless its processor takes text
-- only.
theorem tock_sends (s : Endpoint) (hdl j : Handle) (st : State) :
    sends j (tock s hdl st).out =
      if j = hdl ∧ (s hdl).processor.takesBinary = true then
        [(tileLoop hdl st).bytes, cursorPacket hdl (tock s hdl st).state]
      else [] := by
  rw [tock_state, tock_eq, sends_append, idleTimer_sends]
  simp only [sendUpdate]
  cases h : (s hdl).processor.takesBinary with
  | false =>
      rw [send_of_rejects _ _ h, Outcome.andThen_of_threw _ rfl]
      simp
  | true =>
      rw [send_of_takes _ _ h, Outcome.andThen_of_ok _ rfl, send_of_takes _ _ h]
      by_cases hj : j = hdl
      · subst hj
        simp [sends, tileLoop]
      · have hj' : hdl ≠ j := Ne.symm hj
        simp [sends, hj, hj']

end WebFort
