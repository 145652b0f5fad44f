import WebFort.Server.Packet
import WebFort.Turns
import WebFort.Sample

namespace WebFort

open Library

-- The update loop of one page: what is under way between page and server in
-- either direction, in order, and the timers that will send a request.
structure Circuit where
  world : World
  up : List Bytes
  down : List Bytes
  timers : Nat

def Circuit.init (config : Config) (g : Game) : Circuit := ⟨World.init config g, [], [], 0⟩

inductive Move
  -- The handshake ends: on_open here, onOpen on the page.
  | opened
  -- The server handles the next message of the page.
  | deliver
  -- The page handles the next packet.
  | receive (nextFrame : Int)
  -- A timer fires.
  | fire
  -- The player does something else on the page.
  | act (payload : Bytes)
  -- Anything that happens elsewhere.
  | other (e : Event)

-- The events of one connection.
def Event.Of (hdl : Handle) : Event → Prop
  | .opened j => j = hdl
  | .message j _ => j = hdl
  | .closed j => j = hdl
  | _ => False

section Loop

variable (s : Endpoint) (c : Handle)

def Circuit.enabled (k : Circuit) : Move → Prop
  | .opened => WebFort.enabled k.world (.opened c)
  | .deliver => ∃ payload rest, k.up = payload :: rest ∧
      WebFort.enabled k.world (.message c payload)
  | .receive _ => k.down ≠ []
  | .fire => k.timers ≠ 0
  | .act payload => k.world.phase c = .opened ∧ parseMessage payload ≠ .update
  | .other e => WebFort.enabled k.world e ∧ ¬e.Of c

-- The page has sent connect and update by the time it sees a packet.
def Circuit.next (k : Circuit) : Move → Circuit
  | .opened =>
      { world := WebFort.next s k.world (.opened c)
        up := [[115], [110]]
        down := sends c (handle s (.opened c) k.world.st).out
        timers := 0 }
  | .deliver =>
      match k.up with
      | [] => k
      | payload :: rest =>
          { k with
            world := WebFort.next s k.world (.message c payload)
            up := rest
            down := k.down ++ sends c (handle s (.message c payload) k.world.st).out }
  | .receive nextFrame =>
      match k.down with
      | [] => k
      | data :: rest =>
          match pageOnMessage nextFrame data with
          | .sent => { k with down := rest, up := k.up ++ [[110]] }
          | .scheduled => { k with down := rest, timers := k.timers + 1 }
          | .nothing => { k with down := rest }
          | .aborted => { k with down := rest }
  | .fire => { k with timers := k.timers - 1, up := k.up ++ [[110]] }
  | .act payload => { k with up := k.up ++ [payload] }
  | .other e =>
      { k with
        world := WebFort.next s k.world e
        down := k.down ++ sends c (handle s e k.world.st).out }

def circuit : Machine Circuit Move := ⟨Circuit.enabled c, Circuit.next s c⟩

end Loop

def asksUpdate (payload : Bytes) : Bool := parseMessage payload = .update

def isUpdatePacket (data : Bytes) : Bool := data.head? = some 110

-- The requests and the packets under way, and the pending timers.
def Circuit.tokens (k : Circuit) : Nat :=
  k.up.countP asksUpdate + k.down.countP isUpdatePacket + k.timers

-- The part of a nick that its one-byte length lets through.
def wireNick (nick : Bytes) : Bytes := (nickField nick).takeWhile (· ≠ 0)

def Readable (nick : Bytes) : Prop :=
  (Percent.decode ((wireNick nick).map UInt8.toNat)).isSome = true

-- A request is answered by a packet the page can read.
def Answered (s : Endpoint) (c : Handle) (k : Circuit) : Move → Prop
  | .deliver => ∀ payload rest, k.up = payload :: rest → parseMessage payload = .update →
      (s c).processor.takesBinary = true ∧ Readable k.world.st.getActive.nick
  | _ => True

section Packets

-- Whatever the screen, the tiles come after the nick.
theorem tockRow_bytes (src : Buffer) (dimy y : Nat) (xs : List Nat) (acc : TileLoop) :
    ∃ tiles, (tockRow src dimy y xs acc).bytes = acc.bytes ++ tiles := by
  induction xs generalizing acc with
  | nil => exact ⟨[], (List.append_nil _).symm⟩
  | cons x xs ih =>
      simp only [tockRow]
      split
      · exact ih acc
      · split
        · exact ⟨[], (List.append_nil _).symm⟩
        · obtain ⟨tiles, h⟩ := ih ⟨acc.bytes ++ tileRecord x y (src (Grid.index dimy x y)),
            Function.update acc.mod (Grid.index dimy x y) 1⟩
          exact ⟨tileRecord x y (src (Grid.index dimy x y)) ++ tiles, by
            rw [h, List.append_assoc]⟩

theorem tockTiles_bytes (src : Buffer) (dimx dimy : Nat) (acc : TileLoop) :
    ∃ tiles, (tockTiles src dimx dimy acc).bytes = acc.bytes ++ tiles := by
  unfold tockTiles
  induction List.range dimy generalizing acc with
  | nil => exact ⟨[], (List.append_nil _).symm⟩
  | cons y ys ih =>
      obtain ⟨row, hrow⟩ := tockRow_bytes src dimy y (List.range dimx) acc
      obtain ⟨tiles, htiles⟩ := ih (tockRow src dimy y (List.range dimx) acc)
      exact ⟨row ++ tiles, by rw [List.foldl_cons, htiles, hrow, List.append_assoc]⟩

theorem tileLoop_bytes (hdl : Handle) (st : State) :
    ∃ tiles, (tileLoop hdl st).bytes = (packetStart hdl st).bytes ++ tiles :=
  tockTiles_bytes _ _ _ _

-- The page reads what the length byte announces, and stops at a NUL.
theorem activeNick_of_field (start : Bytes) (nick tiles : Bytes) (hlen : start.length = 16) :
    activeNick (start ++ [nickLen nick] ++ nickField nick ++ tiles) =
      (wireNick nick).map UInt8.toNat := by
  have hsize : (start ++ [nickLen nick] ++ nickField nick ++ tiles).getD 16 0 = nickLen nick := by
    simp only [List.append_assoc, List.getD_eq_getElem?_getD]
    rw [List.getElem?_append_right (by omega), hlen]
    rfl
  have hbytes : ((List.range (nickLen nick).toNat).map fun i =>
      (start ++ [nickLen nick] ++ nickField nick ++ tiles)[17 + i]?) = (nickField nick).map some := by
    refine List.ext_getElem (by simp) fun i hi hi' => ?_
    have hfield : i < (nickField nick).length := by simpa using hi'
    have hpos : (start ++ [nickLen nick]).length = 17 := by simp [hlen]
    rw [List.getElem_map, List.getElem_map, List.getElem_range, List.append_assoc,
      List.getElem?_append_right (by omega), hpos, Nat.add_sub_cancel_left,
      List.getElem?_append_left hfield, List.getElem?_eq_getElem hfield]
  have hstop : ((fun o : Option UInt8 => decide (o ≠ some 0)) ∘ some) =
      fun b => decide (b ≠ 0) := by
    funext b
    simp
  unfold activeNick wireNick
  rw [hsize, hbytes, List.takeWhile_map, hstop, List.map_map]
  rfl

theorem activeNick_tock (hdl : Handle) (st : State) :
    activeNick (tileLoop hdl st).bytes = (wireNick st.getActive.nick).map UInt8.toNat := by
  obtain ⟨tiles, h⟩ := tileLoop_bytes hdl st
  rw [h]
  exact activeNick_of_field _ _ _ (length_tockHeader _ _ _ _)

theorem tileLoop_isUpdatePacket (hdl : Handle) (st : State) :
    (tileLoop hdl st).bytes.head? = some 110 := by
  obtain ⟨tiles, h⟩ := tileLoop_bytes hdl st
  rw [h]
  rfl

end Packets

-- No exception leaves onMessage for this packet.
def Legible (data : Bytes) : Prop := ∀ nextFrame, pageOnMessage nextFrame data ≠ .aborted

theorem legible_of_decode {data : Bytes} (h : (Percent.decode (activeNick data)).isSome = true) :
    Legible data := by
  intro nextFrame
  obtain ⟨units, hunits⟩ := Option.isSome_iff_exists.mp h
  unfold pageOnMessage
  rw [hunits]
  split
  · simp only
    split <;> simp
  · simp

theorem legible_of_head {data : Bytes} (h : isUpdatePacket data = false) : Legible data := by
  intro nextFrame
  unfold pageOnMessage
  rw [if_neg (of_decide_eq_false h)]
  simp

-- A packet the page can read is followed by one request, now or later.
theorem pageOnMessage_legible {data : Bytes} (h : Legible data) (nextFrame : Int) :
    pageOnMessage nextFrame data =
      if isUpdatePacket data then (if nextFrame < 4 then .sent else .scheduled) else .nothing := by
  have hl := h nextFrame
  unfold pageOnMessage isUpdatePacket at *
  by_cases hhead : data.head? = some 110
  · simp only [hhead, if_true] at hl ⊢
    split at hl
    · exact absurd rfl hl
    · simp
  · simp [hhead]

-- The connection has one token, and the page can read what is on its way.
def OneToken (c : Handle) (k : Circuit) : Prop :=
  k.world.phase c = .opened → k.tokens = 1 ∧ ∀ data ∈ k.down, Legible data

-- A plain nick of any length can be read.
theorem readable_of_no_percent {nick : Bytes} (h : 37 ∉ nick) : Readable nick := by
  have hwire : 37 ∉ (wireNick nick).map UInt8.toNat := by
    intro hmem
    obtain ⟨b, hb, hval⟩ := List.mem_map.mp hmem
    have hb' : b ∈ nick ++ [0] := List.mem_of_mem_take ((List.takeWhile_prefix _).subset hb)
    obtain rfl : b = 37 := UInt8.toNat_inj.mp hval
    rcases List.mem_append.mp hb' with hnick | hzero
    · exact h hnick
    · exact absurd (List.mem_singleton.mp hzero) (by decide)
  unfold Readable
  rw [Percent.decode_of_no_percent hwire]
  rfl

section Steps

variable {s : Endpoint} {c : Handle} {k : Circuit}

theorem onOpen_no_update (s : Endpoint) (c : Handle) (st : State) :
    ∀ data ∈ sends c (onOpen s c st).out, isUpdatePacket data = false := by
  have hinfo : ∀ st, ∀ data ∈ sends c (sendMapInfo s c st).out, isUpdatePacket data = false := by
    intro st data hdata
    unfold sendMapInfo at hdata
    split at hdata
    · simp [sends] at hdata
    · unfold send at hdata
      split at hdata
      · simp only [sends, Outcome.emit_out, List.filterMap_cons, if_true, List.filterMap_nil,
          List.mem_singleton] at hdata
        rw [hdata]
        rfl
      · simp [sends] at hdata
  intro data hdata
  rcases onOpen_inv s c st with ⟨-, code, reason, h⟩ | ⟨-, h⟩
  · rw [h] at hdata
    simp [sends] at hdata
  · rw [h] at hdata
    exact hinfo _ data hdata

theorem oneToken_opened : OneToken c (Circuit.next s c k .opened) := by
  intro _
  have hno := onOpen_no_update s c k.world.st
  have hcount : (sends c (handle s (.opened c) k.world.st).out).countP isUpdatePacket = 0 :=
    List.countP_eq_zero.mpr fun data hdata => by simp [hno data hdata]
  have hup : [[115], [110]].countP asksUpdate = 1 := by decide
  refine ⟨?_, fun data hdata => legible_of_head (hno data hdata)⟩
  simp only [Circuit.tokens, Circuit.next, hcount, hup]

theorem oneToken_deliver (hk : OneToken c k) {payload : Bytes} {rest : List Bytes}
    (hup : k.up = payload :: rest) (ha : Answered s c k .deliver) :
    OneToken c (Circuit.next s c k .deliver) := by
  have hnext : Circuit.next s c k .deliver =
      { k with
        world := WebFort.next s k.world (.message c payload)
        up := rest
        down := k.down ++ sends c (handle s (.message c payload) k.world.st).out } := by
    simp only [Circuit.next, hup]
  rw [hnext]
  intro hopen
  obtain ⟨htokens, hlegible⟩ := hk hopen
  simp only [Circuit.tokens, hup, List.countP_cons] at htokens
  by_cases hp : parseMessage payload = .update
  · obtain ⟨htakes, hread⟩ := ha payload rest hup hp
    have hsends : sends c (handle s (.message c payload) k.world.st).out =
        [(tileLoop c k.world.st).bytes, cursorPacket c (tock s c k.world.st).state] := by
      have htock := tock_sends s c c k.world.st
      rw [if_pos ⟨rfl, htakes⟩] at htock
      simp only [handle, onMessage, hp]
      exact htock
    have hcursor : isUpdatePacket (cursorPacket c (tock s c k.world.st).state) = false := rfl
    have hupdate : isUpdatePacket (tileLoop c k.world.st).bytes = true := by
      simp [isUpdatePacket, tileLoop_isUpdatePacket]
    refine ⟨?_, fun data hdata => ?_⟩
    · simp only [Circuit.tokens, hsends, List.countP_append, List.countP_cons, List.countP_nil,
        hcursor, hupdate, if_true, Bool.false_eq_true, if_false]
      simp only [asksUpdate, hp, decide_true, if_true] at htokens
      omega
    · rw [hsends] at hdata
      rcases List.mem_append.mp hdata with h | h
      · exact hlegible data h
      · rcases List.mem_cons.mp h with rfl | h
        · refine legible_of_decode ?_
          rw [activeNick_tock]
          exact hread
        · obtain rfl := List.mem_singleton.mp h
          exact legible_of_head hcursor
  · have hsends : sends c (handle s (.message c payload) k.world.st).out = [] :=
      onMessage_sends s c payload k.world.st fun h => hp h.2
    simp only [hsends, List.append_nil]
    refine ⟨?_, hlegible⟩
    simp only [asksUpdate, hp, decide_false, Bool.false_eq_true, if_false] at htokens
    simp only [Circuit.tokens]
    exact htokens

theorem oneToken_receive (hk : OneToken c k) (nextFrame : Int) :
    OneToken c (Circuit.next s c k (.receive nextFrame)) := by
  cases hdown : k.down with
  | nil =>
      simp only [Circuit.next, hdown]
      exact hk
  | cons data rest =>
      intro hopen
      have hphase : k.world.phase c = .opened := by
        simp only [Circuit.next, hdown] at hopen
        split at hopen <;> exact hopen
      obtain ⟨htokens, hlegible⟩ := hk hphase
      rw [hdown] at hlegible
      have hreact := pageOnMessage_legible (hlegible data List.mem_cons_self) nextFrame
      have hrest : ∀ d ∈ rest, Legible d := fun d hd => hlegible d (List.mem_cons_of_mem _ hd)
      have hask : ([[110]] : List Bytes).countP asksUpdate = 1 := by decide
      simp only [Circuit.tokens, hdown, List.countP_cons] at htokens
      simp only [Circuit.next, hdown, hreact]
      cases hupdate : isUpdatePacket data with
      | false =>
          refine ⟨?_, hrest⟩
          simpa [hupdate, Circuit.tokens] using htokens
      | true =>
          simp only [hupdate, if_true] at htokens ⊢
          split
          · rename_i hsoon
            split at hsoon
            · refine ⟨?_, hrest⟩
              simp only [Circuit.tokens, List.countP_append, hask]
              omega
            · cases hsoon
          · refine ⟨?_, hrest⟩
            simp only [Circuit.tokens]
            omega
          · rename_i hnothing
            split at hnothing <;> cases hnothing
          · rename_i habort
            split at habort <;> cases habort

theorem oneToken_fire (hk : OneToken c k) (ht : k.timers ≠ 0) :
    OneToken c (Circuit.next s c k .fire) := by
  intro hopen
  obtain ⟨htokens, hlegible⟩ := hk hopen
  have hask : ([[110]] : List Bytes).countP asksUpdate = 1 := by decide
  refine ⟨?_, hlegible⟩
  simp only [Circuit.tokens] at htokens
  simp only [Circuit.tokens, Circuit.next, List.countP_append, hask]
  omega

theorem oneToken_act (hk : OneToken c k) {payload : Bytes} (hp : parseMessage payload ≠ .update) :
    OneToken c (Circuit.next s c k (.act payload)) := by
  intro hopen
  obtain ⟨htokens, hlegible⟩ := hk hopen
  have hask : [payload].countP asksUpdate = 0 := by simp [asksUpdate, hp]
  refine ⟨?_, hlegible⟩
  simp only [Circuit.tokens] at htokens
  simp only [Circuit.tokens, Circuit.next, List.countP_append, hask]
  omega

theorem oneToken_other (hk : OneToken c k) {e : Event} (he : ¬e.Of c) :
    OneToken c (Circuit.next s c k (.other e)) := by
  have hsends : sends c (handle s e k.world.st).out = [] := by
    refine handle_sends s e k.world.st ?_ ?_
    · cases e with
      | message j payload => exact fun h => he h.1
      | opened _ => exact id
      | closed _ => exact id
      | game _ => exact id
      | update _ _ => exact id
    · cases e with
      | opened j => exact he
      | closed j => exact he
      | message _ _ => exact id
      | game _ => exact id
      | update _ _ => exact id
  have hphase : (WebFort.next s k.world e).phase c = k.world.phase c := by
    cases e with
    | opened j => exact Function.update_of_ne (Ne.symm he) _ _
    | closed j => exact Function.update_of_ne (Ne.symm he) _ _
    | message _ _ => rfl
    | game _ => rfl
    | update _ _ => rfl
  intro hopen
  obtain ⟨htokens, hlegible⟩ := hk (hphase.symm.trans hopen)
  simp only [Circuit.next, Circuit.tokens, hsends, List.append_nil]
  exact ⟨htokens, hlegible⟩

theorem oneToken_next (hk : OneToken c k) {m : Move} (hen : Circuit.enabled c k m)
    (ha : Answered s c k m) : OneToken c (Circuit.next s c k m) := by
  cases m with
  | opened => exact oneToken_opened
  | deliver =>
      obtain ⟨payload, rest, hup, -⟩ := hen
      exact oneToken_deliver hk hup ha
  | receive nextFrame => exact oneToken_receive hk nextFrame
  | fire => exact oneToken_fire hk hen
  | act payload => exact oneToken_act hk hen.2
  | other e => exact oneToken_other hk hen.2

end Steps

-- As long as the server answers with nicks the page can read, the loop of an
-- open connection keeps its one token, and no packet stops it.
theorem one_token_of_run (s : Endpoint) (c : Handle) (config : Config) (g : Game)
    (moves : List Move) (hv : (circuit s c).Valid (Circuit.init config g) moves)
    (ha : (circuit s c).Each (Answered s c) (Circuit.init config g) moves) :
    let k := (circuit s c).exec (Circuit.init config g) moves
    k.world.phase c = .opened → k.tokens = 1 ∧ ∀ data ∈ k.down, Legible data := by
  refine (circuit s c).exec_invariant_each (OneToken c) (Answered s c)
    (fun k m hk hen ha => oneToken_next hk hen ha) (Circuit.init config g) moves ?_ hv ha
  intro hopen
  exact absurd hopen (by simp [Circuit.init, World.init])

-- Nobody plays, and the second round is waiting for its timer.
theorem one_token_of_run_sample :
    ((circuit Sample.endpoint 0).exec (Circuit.init Sample.config (Sample.game 64))
      [.opened, .deliver, .deliver, .receive 40]).tokens = 1 := by
  have hnobody : ∀ st : State, st.getActive.nick = nobody → Readable st.getActive.nick :=
    fun st h => h ▸ readable_of_no_percent (by decide)
  refine (one_token_of_run Sample.endpoint 0 Sample.config (Sample.game 64) _ ?_ ?_ rfl).1
  · exact ⟨⟨rfl, rfl⟩, ⟨[115], [[110]], rfl, rfl, rfl⟩, ⟨[110], [], rfl, rfl, rfl⟩, List.cons_ne_nil _ _, trivial⟩
  · exact ⟨trivial, fun _ _ _ _ => ⟨rfl, hnobody _ rfl⟩, fun _ _ _ _ => ⟨rfl, hnobody _ rfl⟩, trivial,
      trivial⟩

-- A player whose nick is a single percent sign holds the turn.
theorem percent_nick_stops_page :
    let s : Endpoint := fun hdl =>
      if hdl = 0 then Sample.conn .hybi13 "/%" (by decide) else Sample.conn .hybi13 "/urist" (by decide)
    let moves : List Move := [.other (.opened 0), .other (.message 0 [116]), .opened, .deliver,
      .deliver, .receive 40]
    let k := (circuit s 1).exec (Circuit.init Sample.config (Sample.game 64)) moves
    (circuit s 1).Valid (Circuit.init Sample.config (Sample.game 64)) moves ∧
      k.world.phase 1 = .opened ∧ k.world.running = true ∧ k.tokens = 0 := by
  refine ⟨⟨⟨⟨rfl, rfl⟩, Nat.zero_ne_one⟩, ⟨⟨rfl, rfl⟩, Nat.zero_ne_one⟩, ⟨rfl, rfl⟩,
    ⟨[115], [[110]], rfl, rfl, rfl⟩, ⟨[110], [], rfl, rfl, rfl⟩, List.cons_ne_nil _ _, trivial⟩, rfl, rfl, ?_⟩
  decide

end WebFort
