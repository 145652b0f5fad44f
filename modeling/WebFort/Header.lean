import WebFort.Token
import Mathlib.Data.List.TakeWhile
import Mathlib.Data.Nat.Bitwise

namespace WebFort

open Library

-- The first bytes of the update packet, as onMessage reads them.

structure Header where
  playerCount : Nat
  isActive : Bool
  isNoPlayer : Bool
  ingameTime : Bool
  graphicsMode : Bool
  atlasVersion : Nat
  isInMenu : Bool
  timeLeft : Int
  dimx : Nat
  dimy : Nat
  cam : Camera
  currentPlayer : List Nat
  deriving DecidableEq

-- Bit operations of the page give a signed 32-bit number.
def readInt32 (b0 b1 b2 b3 : UInt8) : Int :=
  int32 (b0.toNat ||| b1.toNat <<< 8 ||| b2.toNat <<< 16 ||| b3.toNat <<< 24 : Nat)

def readInt16 (lo hi : UInt8) : Int :=
  let raw := word lo hi
  if raw &&& 0x8000 ≠ 0 then raw - 0x10000 else raw

-- None where decodeURIComponent throws.
def readHeader (data : Bytes) : Option Header :=
  let byte (i : Nat) : UInt8 := data.getD i 0
  let bits := (byte 2).toNat
  (Percent.decode (activeNick data)).map fun player =>
    { playerCount := (byte 1).toNat &&& 127
      isActive := bits &&& 1 ≠ 0
      isNoPlayer := bits &&& 2 ≠ 0
      ingameTime := bits &&& 4 ≠ 0
      graphicsMode := bits &&& 8 ≠ 0
      atlasVersion := bits >>> 4 &&& 0x0F
      isInMenu := (byte 3).toNat &&& 1 ≠ 0
      timeLeft := readInt32 (byte 4) (byte 5) (byte 6) (byte 7)
      dimx := (byte 8).toNat
      dimy := (byte 9).toNat
      cam := ⟨readInt16 (byte 10) (byte 11), readInt16 (byte 12) (byte 13),
        readInt16 (byte 14) (byte 15)⟩
      currentPlayer := player }

def clampCam (c : Camera) : Camera := ⟨clamp16 c.x, clamp16 c.y, clamp16 c.z⟩

-- What the server has when a tock writes the header: the turn may have just
-- ended, the nick is that of the player it belonged to.
def serverHeader (hdl : Handle) (st : State) (player : List Nat) : Header :=
  let after := turnPart st
  { playerCount := after.clients.size
    isActive := after.activeConn = some hdl
    isNoPlayer := after.activeConn = none
    ingameTime := after.config.ingameTime
    graphicsMode := after.graphicsMode
    atlasVersion := after.atlasVersion % 16
    isInMenu := isMenu after.game
    timeLeft := (getTimeLeft (idleTimer st).state).1
    dimx := after.game.gps.dimx.toNat
    dimy := after.game.gps.dimy.toNat
    cam := clampCam (viewport after (after.getClient hdl))
    currentPlayer := player }

section Bytes

theorem count_byte (n : Nat) : (UInt8.ofNat n).toNat &&& 127 = n ↔ n < 128 := by
  have hmask : (UInt8.ofNat n).toNat &&& 127 = n % 256 % 128 := by
    rw [UInt8.toNat_ofNat']
    exact Nat.and_two_pow_sub_one_eq_mod (n % 256) 7
  rw [hmask]
  omega

theorem dim_byte {d : Int} (hpos : 0 < d) (hle : d ≤ 256) :
    (leByte d 0).toNat = d.toNat ↔ d < 256 := by
  have hbyte := leByte_toNat d 0
  omega

-- Bytes next to each other add up.
theorem or_shift {a b k : Nat} (ha : a < 2 ^ k) : a ||| b <<< k = a + b * 2 ^ k := by
  rw [Nat.or_comm, ← Nat.shiftLeft_add_eq_or_of_lt ha, Nat.shiftLeft_eq, Nat.add_comm]

theorem readInt32_le32 {t : Int} (hlo : -2 ^ 31 ≤ t) (hhi : t < 2 ^ 31) :
    readInt32 (leByte t 0) (leByte t 1) (leByte t 2) (leByte t 3) = t := by
  have h0 := leByte_toNat t 0
  have h1 := leByte_toNat t 1
  have h2 := leByte_toNat t 2
  have h3 := leByte_toNat t 3
  have hb0 := (leByte t 0).toNat_lt
  have hb1 := (leByte t 1).toNat_lt
  have hb2 := (leByte t 2).toNat_lt
  have hsum1 := or_shift (a := (leByte t 0).toNat) (b := (leByte t 1).toNat) (k := 8) (by omega)
  have hsum2 := or_shift (a := (leByte t 0).toNat + (leByte t 1).toNat * 2 ^ 8)
    (b := (leByte t 2).toNat) (k := 16) (by omega)
  have hsum3 := or_shift (a := (leByte t 0).toNat + (leByte t 1).toNat * 2 ^ 8 +
    (leByte t 2).toNat * 2 ^ 16) (b := (leByte t 3).toNat) (k := 24) (by omega)
  unfold readInt32 int32
  rw [hsum1, hsum2, hsum3, Int.bmod_eq_iff (by decide)]
  simp only [Int.reducePow] at h0 h1 h2 h3
  omega

theorem readInt16_le16 {v : Int} (hlo : -32768 ≤ v) (hhi : v ≤ 32767) :
    readInt16 (leByte v 0) (leByte v 1) = v := by
  have h0 := leByte_toNat v 0
  have h1 := leByte_toNat v 1
  have hb0 := (leByte v 0).toNat_lt
  have hb1 := (leByte v 1).toNat_lt
  have hraw : word (leByte v 0) (leByte v 1) =
      (leByte v 0).toNat + (leByte v 1).toNat * 2 ^ 8 := or_shift (by omega)
  have hsign : ∀ n : Nat, n < 65536 → (n &&& 0x8000 ≠ 0 ↔ 32768 ≤ n) := by
    intro n hn
    have hand : n &&& 2 ^ 15 = 2 ^ 15 * (n.testBit 15).toNat := by
      rw [Nat.and_comm, Nat.two_pow_and]
    have hbit : n.testBit 15 = decide (n / 2 ^ 15 % 2 = 1) := Nat.testBit_eq_decide_div_mod_eq
    have hmask : (0x8000 : Nat) = 2 ^ 15 := rfl
    rw [hmask, hand, hbit]
    by_cases h : n / 2 ^ 15 % 2 = 1
    · simp only [h, decide_true, Bool.toNat_true]
      omega
    · simp only [h, decide_false, Bool.toNat_false]
      omega
  unfold readInt16
  simp only [hraw]
  simp only [Int.reducePow] at h0 h1
  split
  · rename_i h
    have := (hsign _ (by omega)).mp h
    omega
  · rename_i h
    have := mt (hsign _ (by omega)).mpr h
    omega

theorem clamp16_bounds (v : Int) : -32768 ≤ clamp16 v ∧ clamp16 v ≤ 32767 := by
  unfold clamp16
  split
  · omega
  · split <;> omega

theorem bits_byte (a b c d : Bool) {v : Nat} (hv : v < 16) :
    let bits := (UInt8.ofNat ((if a then 1 else 0) ||| (if b then 2 else 0) |||
      (if c then 4 else 0) ||| (if d then 8 else 0) ||| v * 16)).toNat
    decide (bits &&& 1 ≠ 0) = a ∧ decide (bits &&& 2 ≠ 0) = b ∧ decide (bits &&& 4 ≠ 0) = c ∧
      decide (bits &&& 8 ≠ 0) = d ∧ bits >>> 4 &&& 0x0F = v := by
  revert a b c d v
  decide

end Bytes

section Nicks

-- The code units of a nick.
def units (nick : Bytes) : List Nat := nick.map UInt8.toNat

theorem takeWhile_of_no_nul {nick : Bytes} (h : 0 ∉ nick) (rest : Bytes) :
    (nick ++ 0 :: rest).takeWhile (· ≠ 0) = nick := by
  rw [List.takeWhile_append_of_pos]
  · simp
  · intro b hb
    simpa using fun h0 : b = 0 => h (h0 ▸ hb)

theorem wireNick_short {nick : Bytes} (h : 0 ∉ nick) (hlen : nick.length ≤ 254) :
    wireNick nick = nick := by
  have hsize : (nickLen nick).toNat = nick.length + 1 := by
    rw [nickLen_toNat]
    omega
  unfold wireNick nickField
  rw [hsize, List.take_of_length_le (by simp)]
  exact takeWhile_of_no_nul h []

-- A longer one loses its end.
theorem wireNick_long {nick : Bytes} (h : 0 ∉ nick) (hlen : 254 < nick.length) :
    ∃ rest, rest ≠ [] ∧ nick = wireNick nick ++ rest := by
  have hsize : (nickLen nick).toNat < nick.length := by
    rw [nickLen_toNat]
    omega
  have hwire : wireNick nick = nick.take (nickLen nick).toNat := by
    unfold wireNick nickField
    rw [List.take_append_of_le_length (Nat.le_of_lt hsize)]
    refine List.takeWhile_eq_self_iff.mpr fun b hb => ?_
    simpa using fun h0 : b = 0 => h (h0 ▸ List.mem_of_mem_take hb)
  refine ⟨nick.drop (nickLen nick).toNat, ?_, ?_⟩
  · simpa using hsize
  · rw [hwire, List.take_append_drop]

theorem decode_wireNick_iff {nick : Bytes} (h : 0 ∉ nick) :
    (∃ player, Percent.decode (units nick) = some player ∧
        Percent.decode (units (wireNick nick)) = some player) ↔
      nick.length ≤ 254 ∧ (Percent.decode (units nick)).isSome = true := by
  constructor
  · rintro ⟨player, hfull, hwire⟩
    refine ⟨?_, by rw [hfull]; rfl⟩
    by_contra hlen
    obtain ⟨rest, hrest, hnick⟩ := wireNick_long h (not_le.mp hlen)
    have hunits : units nick = units (wireNick nick) ++ units rest := by
      unfold units
      rw [← List.map_append, ← hnick]
    rw [hunits] at hfull
    exact hrest (List.map_eq_nil_iff.mp (Percent.decode_prefix hwire hfull))
  · rintro ⟨hlen, hsome⟩
    obtain ⟨player, hplayer⟩ := Option.isSome_iff_exists.mp hsome
    exact ⟨player, hplayer, by rw [wireNick_short h hlen, hplayer]⟩

-- A nick is a piece of a C string.
theorem splitLoop_no_nul (c : UInt8) (str cur : Bytes) (result : List Bytes) (hcur : 0 ∉ cur)
    (hresult : ∀ r ∈ result, 0 ∉ r) : ∀ r ∈ splitLoop c str cur result, 0 ∉ r := by
  have hend : ∀ cur : Bytes, 0 ∉ cur → ∀ result : List Bytes, (∀ r ∈ result, 0 ∉ r) →
      ∀ r ∈ result ++ [cur], 0 ∉ r := by
    intro cur hcur result hresult r hr
    rcases List.mem_append.mp hr with h | h
    · exact hresult r h
    · exact List.mem_singleton.mp h ▸ hcur
  induction str generalizing cur result with
  | nil => exact hend cur hcur result hresult
  | cons b str ih =>
      unfold splitLoop
      split
      · exact hend cur hcur result hresult
      · rename_i hb
        split
        · exact ih [] _ (by simp) (hend cur hcur result hresult)
        · refine ih _ result (fun h => ?_) hresult
          rcases List.mem_append.mp h with h | h
          · exact hcur h
          · exact hb (List.mem_singleton.mp h).symm

theorem pathNick_no_nul (s : Endpoint) (hdl : Handle) : 0 ∉ pathNick s hdl := by
  have hpieces := splitLoop_no_nul 47 ((s hdl).resource.drop 1) [] [] (by simp) (by simp)
  unfold pathNick path split
  cases hp : splitLoop 47 ((s hdl).resource.drop 1) [] [] with
  | nil => simp
  | cons first rest => exact hpieces first (by rw [hp]; exact List.mem_cons_self)

section Steps

variable (s : Endpoint) {st st' : State} {j : Handle} {cl : Client}

theorem nick_of_same (hr : SameRegistry st st') (h : st'.clients.find? j = some cl) :
    ∃ cl₀, st.clients.find? j = some cl₀ ∧ cl₀.nick = cl.nick := by
  obtain ⟨cl₀, hcl₀, hs⟩ := hr.find?_back h
  exact ⟨cl₀, hcl₀, hs.nick.symm⟩

theorem nick_of_erase {c : Handle} (h : (eraseClient c st).clients.find? j = some cl) :
    st.clients.find? j = some cl := by
  rw [Registry.erase_find?] at h
  split at h
  · cases h
  · exact h

theorem onClose_nicks (c : Handle) (st : State) :
    ∃ st', SameRegistry st st' ∧ (onClose c st).state.nullClient.nick = st'.nullClient.nick ∧
      (onClose c st).state.clients = (eraseClient c st').clients := by
  cases hcl : st.clients.find? c with
  | none =>
      have hst : (onClose c st).state = eraseClient c st := congrArg Outcome.state (onClose_absent hcl)
      exact ⟨st, SameRegistry.refl st, by rw [hst]; rfl, by rw [hst]⟩
  | some gone =>
      have hst : (onClose c st).state = eraseClient c (deleteClient gone (releaseTurn c st)) :=
        congrArg Outcome.state (onClose_registered hcl)
      exact ⟨releaseTurn c st, (releaseTurn_kept c st).registry, by rw [hst]; rfl, by rw [hst]; rfl⟩

-- The name of the null client is not given to anybody.
theorem onOpen_named (hdl : Handle) (st : State) :
    (onOpen s hdl st).state = st ∨
      ((onOpen s hdl st).state = register s hdl st ∧ pathNick s hdl ≠ nobody) := by
  rcases onOpen_inv s hdl st with ⟨-, code, reason, h⟩ | ⟨⟨-, -, hnick⟩, h⟩
  · exact Or.inl (by rw [h]; rfl)
  · exact Or.inr ⟨by rw [h, sendMapInfo_state], hnick⟩

-- Who is registered after a step was so before it, under the same nick, or has
-- just come in under the nick of its address.
theorem nick_of_handle (e : Event) (h : (handle s e st).state.clients.find? j = some cl) :
    (∃ cl₀, st.clients.find? j = some cl₀ ∧ cl₀.nick = cl.nick) ∨
      (cl.nick = pathNick s j ∧ pathNick s j ≠ nobody) := by
  cases e with
  | message hdl payload => exact Or.inl (nick_of_same (onMessage_kept s hdl payload st).registry h)
  | game g => exact Or.inl ⟨cl, h, rfl⟩
  | update g df =>
      have hreg := (pluginOnupdate_unticked df (st.atGame g)).registry
      obtain ⟨cl₀, hcl₀, hnick⟩ := nick_of_same hreg h
      exact Or.inl ⟨cl₀, hcl₀, hnick⟩
  | opened hdl =>
      have hopen : (onOpen s hdl st).state.clients.find? j = some cl := h
      rcases onOpen_named s hdl st with hst | ⟨hst, hnick⟩
      · exact Or.inl ⟨cl, by rwa [hst] at hopen, rfl⟩
      · rw [hst, Registry.register_find?] at hopen
        split at hopen
        · rename_i hj
          rw [hj, ← Option.some.inj hopen]
          exact Or.inr ⟨rfl, hnick⟩
        · exact Or.inl ⟨cl, hopen, rfl⟩
  | closed hdl =>
      obtain ⟨st', hr, -, hclients⟩ := onClose_nicks hdl st
      have hclose : (onClose hdl st).state.clients.find? j = some cl := h
      rw [hclients] at hclose
      exact Or.inl (nick_of_same hr (nick_of_erase hclose))

theorem nullNick_of_handle (e : Event) (st : State) :
    (handle s e st).state.nullClient.nick = st.nullClient.nick := by
  cases e with
  | message hdl payload => exact (onMessage_kept s hdl payload st).registry.nullNick
  | game g => rfl
  | update g df => exact (pluginOnupdate_unticked df (st.atGame g)).registry.nullNick
  | opened hdl =>
      show (onOpen s hdl st).state.nullClient.nick = _
      rcases onOpen_state s hdl st with hst | hst
      · rw [hst]
      · rw [hst]
        rfl
  | closed hdl =>
      obtain ⟨st', hr, hnull, -⟩ := onClose_nicks hdl st
      exact hnull.trans hr.nullNick

end Steps

structure NulFree (st : State) : Prop where
  client : ∀ j cl, st.clients.find? j = some cl → 0 ∉ cl.nick
  null : 0 ∉ st.nullClient.nick

namespace NulFree

variable {st : State}

theorem handle (s : Endpoint) (e : Event) (h : NulFree st) : NulFree (handle s e st).state where
  client j cl hcl := by
    rcases nick_of_handle s e hcl with ⟨cl₀, hcl₀, hnick⟩ | ⟨hnick, -⟩
    · exact hnick ▸ h.client j cl₀ hcl₀
    · exact hnick ▸ pathNick_no_nul s j
  null := by
    rw [nullNick_of_handle s e st]
    exact h.null

theorem run (s : Endpoint) (es : List Event) (h : NulFree st) :
    NulFree ((plugin s).exec st es) := by
  induction es generalizing st with
  | nil => exact h
  | cons e es ih => exact ih (h.handle s e)

theorem init (config : Config) (g : Game) : NulFree (State.init config g) where
  client _ _ h := by simp [State.init] at h
  null := (by decide : (0 : UInt8) ∉ nobody)

theorem active (h : NulFree st) : 0 ∉ st.getActive.nick := by
  unfold State.getActive
  split
  · exact h.null
  · unfold State.getClient
    cases hcl : st.clients.find? _ with
    | none => exact h.null
    | some cl => exact h.client _ cl hcl

end NulFree

end Nicks

section Packet

variable (hdl : Handle) (st : State)

theorem timeLeft_bounds : -2 ^ 31 ≤ (getTimeLeft st).1 ∧ (getTimeLeft st).1 < 2 ^ 31 := by
  unfold getTimeLeft
  split
  · simp only
    split
    · exact int32_bounds _
    · decide
  · decide

theorem readInt32_tileLoop :
    let data := (tileLoop hdl st).bytes
    readInt32 (data.getD 4 0) (data.getD 5 0) (data.getD 6 0) (data.getD 7 0) =
      (getTimeLeft (idleTimer st).state).1 := by
  intro data
  obtain ⟨tiles, hbytes⟩ := tileLoop_bytes hdl st
  obtain ⟨hlo, hhi⟩ := timeLeft_bounds (idleTimer st).state
  have hdata : data = (packetStart hdl st).bytes ++ tiles := hbytes
  rw [hdata]
  exact readInt32_le32 hlo hhi

-- All fields but three come back whatever their values.
theorem readHeader_tileLoop :
    readHeader (tileLoop hdl st).bytes =
      (Percent.decode (units (wireNick st.getActive.nick))).map fun player =>
        { serverHeader hdl st player with
          playerCount := (UInt8.ofNat st.clients.size).toNat &&& 127
          dimx := (leByte st.game.gps.dimx 0).toNat
          dimy := (leByte st.game.gps.dimy 0).toNat } := by
  obtain ⟨tiles, hbytes⟩ := tileLoop_bytes hdl st
  have hgame : (turnPart st).game = st.game := (turnPart_kept st).game
  have hsize : (turnPart st).clients.size = st.clients.size := (turnPart_kept st).registry.size
  have htime := readInt32_tileLoop hdl st
  have hcam : ∀ v, readInt16 (leByte (clamp16 v) 0) (leByte (clamp16 v) 1) = clamp16 v := fun v =>
    readInt16_le16 (clamp16_bounds v).1 (clamp16_bounds v).2
  have hnick : activeNick (tileLoop hdl st).bytes = units (wireNick st.getActive.nick) :=
    activeNick_tock hdl st
  obtain ⟨hactive, hnobody, hingame, hgraphics, hatlas⟩ :=
    bits_byte ((turnPart st).activeConn = some hdl) ((turnPart st).activeConn = none)
      (turnPart st).config.ingameTime (turnPart st).graphicsMode
      (Nat.mod_lt (turnPart st).atlasVersion (by decide : 0 < 16))
  let data := (packetStart hdl st).bytes ++ tiles
  let cam := viewport (turnPart st) ((turnPart st).getClient hdl)
  have h1 : data.getD 1 0 = UInt8.ofNat (turnPart st).clients.size := rfl
  have h2 : data.getD 2 0 = UInt8.ofNat (tockBits hdl (turnPart st)) := rfl
  have h3 : data.getD 3 0 = if isMenu (turnPart st).game then 1 else 0 := rfl
  have h8 : data.getD 8 0 = leByte (turnPart st).game.gps.dimx 0 := rfl
  have h9 : data.getD 9 0 = leByte (turnPart st).game.gps.dimy 0 := rfl
  have hx : readInt16 (data.getD 10 0) (data.getD 11 0) = clamp16 cam.x := hcam cam.x
  have hy : readInt16 (data.getD 12 0) (data.getD 13 0) = clamp16 cam.y := hcam cam.y
  have hz : readInt16 (data.getD 14 0) (data.getD 15 0) = clamp16 cam.z := hcam cam.z
  have hmenu : ∀ b : Bool, decide ((if b then (1 : UInt8) else 0).toNat &&& 1 ≠ 0) = b := by decide
  have hdata : (tileLoop hdl st).bytes = data := hbytes
  unfold readHeader
  rw [hdata] at htime
  rw [hnick, hdata]
  refine congrArg (Option.map · _) (funext fun player => ?_)
  simp only [h1, h2, h3, htime, h8, h9, hx, hy, hz, hmenu, serverHeader, Header.mk.injEq]
  rw [hsize, hgame]
  unfold tockBits
  simp only [decide_eq_true_eq] at hactive hnobody hingame hgraphics hatlas
  exact ⟨rfl, hactive, hnobody, hingame, hgraphics, hatlas, trivial, trivial, rfl, rfl, rfl, trivial⟩

end Packet

-- The header of a tock, on a screen of the size the capture accepts, is read
-- back as it was written when the count, the size and the nick fit their
-- bytes and the nick can be decoded at all.
theorem header_round_trip_iff (s : Endpoint) (config : Config) (g : Game) (es : List Event)
    (hdl : Handle) (hk : sizeOk ((plugin s).exec (State.init config g) es).game.gps = true)
    (hb : (s hdl).processor.takesBinary = true) :
    let st := (plugin s).exec (State.init config g) es
    (∃ data rest player, sends hdl (tock s hdl st).out = data :: rest ∧
        Percent.decode (units st.getActive.nick) = some player ∧
        readHeader data = some (serverHeader hdl st player)) ↔
      st.clients.size < 128 ∧ st.game.gps.dimx < 256 ∧ st.game.gps.dimy < 256 ∧
        st.getActive.nick.length ≤ 254 ∧
        (Percent.decode (units st.getActive.nick)).isSome = true := by
  intro st
  have hnul : 0 ∉ st.getActive.nick := ((NulFree.init config g).run s es).active
  have hsends : sends hdl (tock s hdl st).out =
      [(tileLoop hdl st).bytes, cursorPacket hdl (tock s hdl st).state] := by
    rw [tock_sends, if_pos ⟨rfl, hb⟩]
  obtain ⟨hx, hy, hx', hy'⟩ := (sizeOk_iff st.game.gps).mp hk
  have hgame : (turnPart st).game = st.game := (turnPart_kept st).game
  have hsize : (turnPart st).clients.size = st.clients.size := (turnPart_kept st).registry.size
  have hsame : ∀ player player', ({ serverHeader hdl st player with
        playerCount := (UInt8.ofNat st.clients.size).toNat &&& 127
        dimx := (leByte st.game.gps.dimx 0).toNat
        dimy := (leByte st.game.gps.dimy 0).toNat } : Header) = serverHeader hdl st player' ↔
      st.clients.size < 128 ∧ st.game.gps.dimx < 256 ∧ st.game.gps.dimy < 256 ∧
        player = player' := by
    intro player player'
    simp only [serverHeader, Header.mk.injEq, hgame, hsize, count_byte, dim_byte hx hx',
      dim_byte hy hy', true_and]
  rw [← decode_wireNick_iff hnul]
  constructor
  · rintro ⟨data, rest, player, hdata, hplayer, hread⟩
    obtain rfl := (List.cons.inj (hsends.symm.trans hdata)).1
    rw [readHeader_tileLoop hdl st] at hread
    obtain ⟨player', hwire, heq⟩ := Option.map_eq_some_iff.mp hread
    obtain ⟨hcount, hwidth, hheight, rfl⟩ := (hsame player' player).mp heq
    exact ⟨hcount, hwidth, hheight, player', hplayer, hwire⟩
  · rintro ⟨hcount, hwidth, hheight, player, hplayer, hwire⟩
    refine ⟨_, _, player, hsends, hplayer, ?_⟩
    rw [readHeader_tileLoop hdl st, hwire, Option.map_some,
      (hsame player player).mpr ⟨hcount, hwidth, hheight, rfl⟩]

theorem header_round_trip_iff_sample :
    let st := (plugin Sample.endpoint).exec (State.init Sample.config (Sample.game 64)) [.opened 0]
    ∃ data rest player, sends 0 (tock Sample.endpoint 0 st).out = data :: rest ∧
      Percent.decode (units st.getActive.nick) = some player ∧
      readHeader data = some (serverHeader 0 st player) :=
  (header_round_trip_iff Sample.endpoint Sample.config (Sample.game 64) [.opened 0] 0 rfl rfl).mpr
    ⟨by decide, by decide, by decide, by decide, by decide⟩

namespace Sample

-- The widest screen a capture takes.
def wide : Game := { game 64 with gps := { gps 64 with dimx := 256 } }

end Sample

-- 256 columns are sent as none.
theorem widest_screen_reads_zero :
    let st := (plugin Sample.endpoint).exec (State.init Sample.config Sample.wide) [.opened 0]
    sizeOk st.game.gps = true ∧
    ∀ data rest, sends 0 (tock Sample.endpoint 0 st).out = data :: rest →
      (∃ h, readHeader data = some h ∧ h.dimx = 0) ∧
      ∀ player, readHeader data ≠ some (serverHeader 0 st player) := by
  intro st
  refine ⟨rfl, fun data rest hdata => ?_⟩
  rw [tock_sends, if_pos ⟨rfl, rfl⟩] at hdata
  obtain rfl := (List.cons.inj hdata).1
  rw [readHeader_tileLoop]
  refine ⟨⟨_, rfl, rfl⟩, fun player hread => ?_⟩
  obtain ⟨player', -, heq⟩ := Option.map_eq_some_iff.mp hread
  have hzero : (0 : Nat) = 256 := congrArg Header.dimx heq
  exact absurd hzero (by decide)

end WebFort
