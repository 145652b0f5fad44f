import WebFort.Header

namespace WebFort

open Library

-- The fields of an update packet that are about the turn. The nick is sent
-- with its NUL.

def turnBit (data : Bytes) (mask : Nat) : Bool := (data.getD 2 0).toNat &&& mask ≠ 0

def packetNick (data : Bytes) : Bytes := (data.drop 17).take (data.getD 16 0).toNat

def packetTimeLeft (data : Bytes) : Int :=
  readInt32 (data.getD 4 0) (data.getD 5 0) (data.getD 6 0) (data.getD 7 0)

-- All of them tell the receiver about the turn as it stands in one state.
structure TellsTurn (hdl : Handle) (st : State) (data : Bytes) : Prop where
  active : turnBit data 1 = true ↔ st.activeConn = some hdl
  nobody : turnBit data 2 = true ↔ st.activeConn = none
  exclusive : ¬(turnBit data 1 = true ∧ turnBit data 2 = true)
  nick : packetNick data = (match st.activeConn with
    | none => WebFort.nobody
    | some c => (st.getClient c).nick) ++ [0]
  timeLeft : st.activeConn = none → packetTimeLeft data = -1

section Fields

variable (hdl : Handle) (st : State)

theorem packetNick_tileLoop :
    packetNick (tileLoop hdl st).bytes = nickField st.getActive.nick := by
  obtain ⟨tiles, hbytes⟩ := tileLoop_bytes hdl st
  let start := tockHeader hdl (turnPart st) ((turnPart st).getClient hdl)
    (getTimeLeft (idleTimer st).state).1
  have hdata : (tileLoop hdl st).bytes =
      (start ++ [nickLen st.getActive.nick]) ++ (nickField st.getActive.nick ++ tiles) := by
    rw [hbytes]
    exact List.append_assoc _ _ _
  have hlen : (start ++ [nickLen st.getActive.nick]).length = 17 := by
    rw [List.length_append, length_tockHeader]
    rfl
  have hsize : (tileLoop hdl st).bytes.getD 16 0 = nickLen st.getActive.nick := by
    rw [hbytes]
    exact tockStart_offset _ _ _ _ _ tiles
  unfold packetNick
  rw [hsize, hdata, List.drop_left' hlen, ← length_nickField, List.take_left']
  rfl

theorem turnBits_tileLoop :
    turnBit (tileLoop hdl st).bytes 1 = decide ((turnPart st).activeConn = some hdl) ∧
      turnBit (tileLoop hdl st).bytes 2 = decide ((turnPart st).activeConn = none) := by
  obtain ⟨tiles, hbytes⟩ := tileLoop_bytes hdl st
  have hbyte : (tileLoop hdl st).bytes.getD 2 0 = UInt8.ofNat (tockBits hdl (turnPart st)) := by
    rw [hbytes]
    rfl
  obtain ⟨hactive, hnobody, -⟩ :=
    bits_byte ((turnPart st).activeConn = some hdl) ((turnPart st).activeConn = none)
      (turnPart st).config.ingameTime (turnPart st).graphicsMode
      (Nat.mod_lt (turnPart st).atlasVersion (by decide : 0 < 16))
  unfold turnBit
  rw [hbyte]
  unfold tockBits
  simp only [decide_eq_true_eq] at hactive hnobody
  exact ⟨hactive, hnobody⟩

variable {st}

-- Nobody had the turn, or the clock of the turn has run out.
theorem timeLeft_tileLoop (h : (turnPart st).activeConn = none) :
    packetTimeLeft (tileLoop hdl st).bytes = -1 := by
  refine (readInt32_tileLoop hdl st).trans ?_
  rw [getTimeLeft_idleTimer]
  rw [turnPart_activeConn] at h
  unfold getTimeLeft at h ⊢
  split
  · rename_i hc
    rw [if_pos hc] at h
    simp only at h ⊢
    split
    · rename_i hplayed
      rw [if_pos hplayed] at h
      exact absurd h hc.2.1
    · rfl
  · rfl

end Fields

section Nicks

theorem nickField_full_iff (nick : Bytes) : nickField nick = nick ++ [0] ↔ nick.length ≤ 254 := by
  have hsize := nickLen_toNat nick
  constructor
  · intro h
    have hlen := congrArg List.length h
    rw [length_nickField, List.length_append, List.length_singleton] at hlen
    omega
  · intro h
    unfold nickField
    exact List.take_of_length_le (by rw [List.length_append, List.length_singleton]; omega)

-- What is cut off of a long nick takes the NUL with it.
theorem nickField_ne {nick other : Bytes} (hnul : 0 ∉ nick) (hne : nick ≠ other) :
    nickField nick ≠ other ++ [0] := by
  intro h
  by_cases hlen : nick.length ≤ 254
  · rw [(nickField_full_iff nick).mpr hlen] at h
    exact hne (List.append_cancel_right h)
  · have hsize := nickLen_toNat nick
    have htake : nickField nick = nick.take (nickLen nick).toNat := by
      unfold nickField
      exact List.take_append_of_le_length (by omega)
    have hmem : (0 : UInt8) ∈ nickField nick := h ▸ List.mem_append_right _ List.mem_cons_self
    rw [htake] at hmem
    exact hnul (List.mem_of_mem_take hmem)

structure Named (st : State) : Prop where
  client : ∀ j cl, st.clients.find? j = some cl → cl.nick ≠ nobody
  null : st.nullClient.nick = nobody

namespace Named

variable {st : State}

theorem handle (s : Endpoint) (e : Event) (h : Named st) : Named (handle s e st).state where
  client j cl hcl := by
    rcases nick_of_handle s e hcl with ⟨cl₀, hcl₀, hnick⟩ | ⟨hnick, hnot⟩
    · exact hnick ▸ h.client j cl₀ hcl₀
    · exact hnick ▸ hnot
  null := (nullNick_of_handle s e st).trans h.null

theorem run (s : Endpoint) (es : List Event) (h : Named st) : Named ((plugin s).exec st es) := by
  induction es generalizing st with
  | nil => exact h
  | cons e es ih => exact ih (h.handle s e)

theorem init (config : Config) (g : Game) : Named (State.init config g) where
  client _ _ h := by simp [State.init] at h
  null := rfl

theorem getActive_of_none (h : Named st) (hnone : st.activeConn = none) :
    st.getActive.nick = nobody := by
  unfold State.getActive
  rw [hnone]
  exact h.null

end Named

end Nicks

section Tock

variable (s : Endpoint) (hdl : Handle) (st : State)

theorem getClient_nick {st st' : State} (hr : SameRegistry st st') (c : Handle) :
    (st'.getClient c).nick = (st.getClient c).nick := by
  unfold State.getClient
  cases hcl : st'.clients.find? c with
  | none =>
      have hcl₀ : st.clients.find? c = none := by
        rw [Option.eq_none_iff_forall_ne_some]
        intro cl₀ hsome
        obtain ⟨cl, hcl', -⟩ := hr.find? hsome
        rw [hcl] at hcl'
        cases hcl'
      rw [hcl₀]
      exact hr.nullNick
  | some cl =>
      obtain ⟨cl₀, hcl₀, hs⟩ := hr.find?_back hcl
      rw [hcl₀]
      exact hs.nick

-- What the packet tells is compared with the state the tock leaves, which has
-- the turn as it was when the packet went out.
theorem tellsTurn_tock : TellsTurn hdl (tock s hdl st).state (tileLoop hdl st).bytes ↔
    nickField st.getActive.nick = (match (turnPart st).activeConn with
      | none => nobody
      | some c => (st.getClient c).nick) ++ [0] := by
  have hconn : (tock s hdl st).state.activeConn = (turnPart st).activeConn := by
    rw [tock_state]
    rfl
  have hsame : ∀ c, ((tock s hdl st).state.getClient c).nick = (st.getClient c).nick :=
    getClient_nick (tock_kept s hdl st).registry
  obtain ⟨hactive, hnobody⟩ := turnBits_tileLoop hdl st
  constructor
  · intro h
    have hnick := h.nick
    rw [packetNick_tileLoop, hconn] at hnick
    simpa only [hsame] using hnick
  · intro h
    refine ⟨?_, ?_, ?_, ?_, fun hnone => timeLeft_tileLoop hdl (hconn ▸ hnone)⟩
    · rw [hactive, hconn, decide_eq_true_eq]
    · rw [hnobody, hconn, decide_eq_true_eq]
    · rw [hactive, hnobody, decide_eq_true_eq, decide_eq_true_eq]
      rintro ⟨hsome, hnone⟩
      rw [hsome] at hnone
      cases hnone
    · rw [packetNick_tileLoop, hconn, h]
      simp only [hsame]

end Tock

theorem server_exec_st (s : Endpoint) (w : World) (es : List Event) :
    ((server s).exec w es).st = (plugin s).exec w.st es := by
  induction es generalizing w with
  | nil => rfl
  | cons e es ih => exact ih (next s w e)

-- A packet tells of one turn exactly when the turn does not end in its tock
-- and the nick of the player fits its length byte.
theorem turn_fields_iff (s : Endpoint) (config : Config) (g : Game) (es : List Event)
    (hdl : Handle) (payload : Bytes) (hv : (server s).Valid (World.init config g) es)
    (hp : parseMessage payload = .update) :
    let w := (server s).exec (World.init config g) es
    let sent := handle s (.message hdl payload) w.st
    ∀ data rest, sends hdl sent.out = data :: rest →
      (TellsTurn hdl sent.state data ↔
        ¬(w.st.activeConn ≠ none ∧ TurnOver w.st) ∧ w.st.getActive.nick.length ≤ 254) := by
  intro w sent data rest hdata
  have htock : sent = tock s hdl w.st := by
    show onMessage s hdl payload w.st = _
    unfold onMessage
    rw [hp]
  have hst : w.st = (plugin s).exec (State.init config g) es :=
    server_exec_st s (World.init config g) es
  have hnul : 0 ∉ w.st.getActive.nick := by
    rw [hst]
    exact ((NulFree.init config g).run s es).active
  have hnamed : Named w.st := by
    rw [hst]
    exact (Named.init config g).run s es
  have hregistered : Registered w := (Registered.init config g).run hv
  have hbytes : data = (tileLoop hdl w.st).bytes := by
    rw [htock, tock_sends] at hdata
    split at hdata
    · exact (List.cons.inj hdata).1.symm
    · cases hdata
  rw [htock, hbytes, tellsTurn_tock, turnPart_activeConn, ← getTimeLeft_snd]
  cases hover : (getTimeLeft w.st).2 with
  | true =>
      -- The nick of the player whose turn is over.
      obtain ⟨hactive, -⟩ := (getTimeLeft_snd w.st).mp hover
      obtain ⟨c, hc⟩ := Option.ne_none_iff_exists'.mp hactive
      obtain ⟨cl, hcl⟩ := hregistered.registry.active c hc
      have hnick : w.st.getActive.nick = cl.nick := by
        simp only [State.getActive, hc, State.getClient_of_find? hcl]
      have hne : w.st.getActive.nick ≠ nobody := hnick ▸ hnamed.client c cl hcl
      simpa using nickField_ne hnul hne
  | false =>
      have hplayer : (match w.st.activeConn with
          | none => nobody
          | some c => (w.st.getClient c).nick) = w.st.getActive.nick := by
        cases hc : w.st.activeConn with
        | none => exact (hnamed.getActive_of_none hc).symm
        | some c => simp only [State.getActive, hc]
      simp only [Bool.false_eq_true, if_false, hplayer, nickField_full_iff, not_false_eq_true,
        true_and]

namespace Sample

def seated : List Event := [.opened 0, .opened 1, .message 0 [116]]

-- Ten minutes of the default configuration go by.
def late : List Event := seated ++ [.game { game 64 with time := 600 }]

end Sample

theorem turn_fields_iff_sample :
    let w := (server Sample.endpoint).exec (World.init Sample.config (Sample.game 64)) Sample.seated
    let sent := handle Sample.endpoint (.message 1 [110]) w.st
    ∃ data rest, sends 1 sent.out = data :: rest ∧ TellsTurn 1 sent.state data := by
  intro w sent
  have hsends : sends 1 sent.out = [(tileLoop 1 w.st).bytes, cursorPacket 1 sent.state] :=
    (tock_sends _ _ _ _).trans (if_pos ⟨rfl, rfl⟩)
  have hkept : ¬(w.st.activeConn ≠ none ∧ TurnOver w.st) := by
    rw [← getTimeLeft_snd]
    decide
  refine ⟨_, _, hsends, ?_⟩
  exact (turn_fields_iff Sample.endpoint Sample.config (Sample.game 64) Sample.seated 1 [110]
    ⟨⟨rfl, rfl⟩, ⟨rfl, rfl⟩, ⟨rfl, rfl⟩, trivial⟩ rfl _ _ hsends).mpr ⟨hkept, by decide⟩

-- Nobody has the turn any more, and the packet says so beside the name of the
-- player who had it.
theorem expired_player_named :
    let w := (server Sample.endpoint).exec (World.init Sample.config (Sample.game 64)) Sample.late
    let sent := handle Sample.endpoint (.message 1 [110]) w.st
    ∃ data rest, sends 1 sent.out = data :: rest ∧
      (turnBit data 2 = true ∧ packetNick data = ascii "urist" ++ [0]) ∧
      ¬TellsTurn 1 sent.state data := by
  intro w sent
  have hsends : sends 1 sent.out = [(tileLoop 1 w.st).bytes, cursorPacket 1 sent.state] :=
    (tock_sends _ _ _ _).trans (if_pos ⟨rfl, rfl⟩)
  have hnick : packetNick (tileLoop 1 w.st).bytes = ascii "urist" ++ [0] := packetNick_tileLoop 1 w.st
  refine ⟨_, _, hsends, ⟨(turnBits_tileLoop 1 w.st).2, hnick⟩, fun h => ?_⟩
  have hnick' : packetNick (tileLoop 1 w.st).bytes = nobody ++ [0] := h.nick
  rw [hnick] at hnick'
  exact absurd hnick' (by decide)

end WebFort
