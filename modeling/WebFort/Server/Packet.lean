import WebFort.Browser
import WebFort.Capture.Lemmas
import WebFort.Server.Lemmas

namespace WebFort

open Library

section TileLoop

variable (src : Buffer) (h : Nat)

-- One round of the two loops, without the test for a full packet.
def tileStep (acc : TileLoop) (p : Nat × Nat) : TileLoop :=
  let tile := Grid.index h p.1 p.2
  if acc.mod tile ≠ 0 then acc
  else ⟨acc.bytes ++ tileRecord p.1 p.2 (src tile), Function.update acc.mod tile 1⟩

theorem tileStep_of_sent {acc : TileLoop} {p : Nat × Nat}
    (hm : acc.mod (Grid.index h p.1 p.2) ≠ 0) : tileStep src h acc p = acc := if_pos hm

theorem tileStep_of_unsent {acc : TileLoop} {p : Nat × Nat}
    (hm : acc.mod (Grid.index h p.1 p.2) = 0) :
    tileStep src h acc p =
      ⟨acc.bytes ++ tileRecord p.1 p.2 (src (Grid.index h p.1 p.2)),
        Function.update acc.mod (Grid.index h p.1 p.2) 1⟩ := if_neg (not_not.mpr hm)

theorem length_tileStep (acc : TileLoop) (p : Nat × Nat) :
    (tileStep src h acc p).bytes.length ≤ acc.bytes.length + 9 := by
  by_cases hm : acc.mod (Grid.index h p.1 p.2) = 0
  · simp [tileStep_of_unsent src h hm, tileRecord]
  · simp [tileStep_of_sent src h hm]

theorem length_foldl_tileStep (ps : List (Nat × Nat)) (acc : TileLoop) :
    (ps.foldl (tileStep src h) acc).bytes.length ≤ acc.bytes.length + 9 * ps.length := by
  induction ps generalizing acc with
  | nil => simp
  | cons p ps ih =>
      have hps := ih (tileStep src h acc p)
      have hp := length_tileStep src h acc p
      simp only [List.foldl_cons, List.length_cons]
      omega

-- With room for the whole row the break is not taken.
theorem tockRow_eq_foldl (y : Nat) (xs : List Nat) (acc : TileLoop)
    (hroom : acc.bytes.length + 9 * xs.length ≤ bufSize) :
    tockRow src h y xs acc = (xs.map fun x => (x, y)).foldl (tileStep src h) acc := by
  induction xs generalizing acc with
  | nil => rfl
  | cons x xs ih =>
      have hlen := length_tileStep src h acc (x, y)
      have hfull : ¬acc.bytes.length + 9 > bufSize := by rw [List.length_cons] at hroom; omega
      have hrest := ih (tileStep src h acc (x, y)) (by rw [List.length_cons] at hroom; omega)
      rw [List.map_cons, List.foldl_cons, ← hrest]
      simp only [tockRow]
      by_cases hm : acc.mod (Grid.index h x y) = 0
      · rw [if_neg (not_not.mpr hm), if_neg hfull, tileStep_of_unsent src h hm]
      · rw [if_pos hm, tileStep_of_sent src h hm]

theorem tockTiles_eq_foldl (w : Nat) (acc : TileLoop)
    (hroom : acc.bytes.length + 9 * (w * h) ≤ bufSize) :
    tockTiles src w h acc = (Grid.rows w h).foldl (tileStep src h) acc := by
  unfold tockTiles Grid.rows
  rw [List.foldl_flatMap]
  have hrows : ∀ (ys : List Nat) (acc : TileLoop), acc.bytes.length + 9 * (w * ys.length) ≤ bufSize →
      ys.foldl (fun acc y => tockRow src h y (List.range w) acc) acc =
        ys.foldl (fun acc y => ((List.range w).map fun x => (x, y)).foldl (tileStep src h) acc) acc := by
    intro ys
    induction ys with
    | nil => exact fun _ _ => rfl
    | cons y ys ih =>
        intro acc hroom
        simp only [List.length_cons, Nat.mul_add, Nat.mul_one] at hroom
        have hrow := tockRow_eq_foldl src h y (List.range w) acc (by rw [List.length_range]; omega)
        have hlen := length_foldl_tileStep src h ((List.range w).map fun x => (x, y)) acc
        rw [List.length_map, List.length_range] at hlen
        simp only [List.foldl_cons]
        rw [hrow]
        exact ih _ (by omega)
  exact hrows (List.range h) acc (by rwa [List.length_range])

-- The tiles of a screen still to be sent, in the order of the loops.
def dirty (mod : Nat → UInt8) (w h : Nat) : List (Nat × Nat) :=
  (Grid.rows w h).filter fun p => mod (Grid.index h p.1 p.2) = 0

theorem mem_dirty {mod : Nat → UInt8} {w h : Nat} {p : Nat × Nat} :
    p ∈ dirty mod w h ↔ (p.1 < w ∧ p.2 < h) ∧ mod (Grid.index h p.1 p.2) = 0 := by
  simp [dirty, Grid.mem_rows]

theorem nodup_dirty (mod : Nat → UInt8) (w h : Nat) : (dirty mod w h).Nodup :=
  (Grid.nodup_rows w h).filter _

theorem length_dirty_le (mod : Nat → UInt8) (w h : Nat) : (dirty mod w h).length ≤ w * h := by
  rw [← Grid.length_rows w h]
  exact List.length_filter_le _ _

-- No tile comes up twice, so a mark set by the loop is not read again.
theorem foldl_tileStep (ps : List (Nat × Nat)) (acc : TileLoop)
    (hnd : (ps.map fun p => Grid.index h p.1 p.2).Nodup) :
    ps.foldl (tileStep src h) acc =
      ⟨acc.bytes ++ (ps.filter fun p => acc.mod (Grid.index h p.1 p.2) = 0).flatMap fun p =>
          tileRecord p.1 p.2 (src (Grid.index h p.1 p.2)),
        fun t => if t ∈ ps.map (fun p => Grid.index h p.1 p.2) ∧ acc.mod t = 0 then 1
          else acc.mod t⟩ := by
  induction ps generalizing acc with
  | nil => simp
  | cons p ps ih =>
      rw [List.map_cons, List.nodup_cons] at hnd
      rw [List.foldl_cons, ih _ hnd.2]
      by_cases hm : acc.mod (Grid.index h p.1 p.2) = 0
      · rw [tileStep_of_unsent src h hm]
        have hsame : ∀ q ∈ ps, Function.update acc.mod (Grid.index h p.1 p.2) 1
            (Grid.index h q.1 q.2) = acc.mod (Grid.index h q.1 q.2) := by
          intro q hq
          refine Function.update_of_ne (fun he => hnd.1 ?_) _ _
          exact List.mem_map.mpr ⟨q, hq, he⟩
        have hfilter : (ps.filter fun q => Function.update acc.mod (Grid.index h p.1 p.2) 1
              (Grid.index h q.1 q.2) = 0) =
            ps.filter fun q => acc.mod (Grid.index h q.1 q.2) = 0 := by
          refine List.filter_congr fun q hq => ?_
          rw [hsame q hq]
        congr 1
        · simp [hfilter, hm]
        · funext t
          by_cases ht : t = Grid.index h p.1 p.2
          · subst ht
            simp [hnd.1, hm]
          · simp only [List.map_cons, List.mem_cons, ht, false_or, Function.update_of_ne ht]
      · rw [tileStep_of_sent src h hm]
        congr 1
        · simp [hm]
        · funext t
          by_cases ht : t = Grid.index h p.1 p.2
          · subst ht
            simp only [hm, and_false, if_false]
          · simp only [List.map_cons, List.mem_cons, ht, false_or]

end TileLoop

section Packet

@[simp] theorem length_tockHeader (hdl : Handle) (st : State) (cl : Client) (timeLeft : Int) :
    (tockHeader hdl st cl timeLeft).length = 16 := by
  simp [tockHeader]

theorem nickLen_toNat (nick : Bytes) : (nickLen nick).toNat = (nick.length + 1) % 256 := by
  simp [nickLen]

@[simp] theorem length_nickField (nick : Bytes) :
    (nickField nick).length = (nickLen nick).toNat := by
  have hle : (nickLen nick).toNat ≤ nick.length + 1 := by
    rw [nickLen_toNat]
    exact Nat.mod_le _ _
  simp only [nickField, List.length_take, List.length_append, List.length_singleton]
  omega

theorem length_tockStart (hdl : Handle) (st : State) (cl activeCl : Client) (timeLeft : Int) :
    (tockStart hdl st cl activeCl timeLeft).bytes.length = 17 + (nickLen activeCl.nick).toNat := by
  simp only [tockStart, List.length_append, length_tockHeader, List.length_singleton,
    length_nickField]

-- The longest nick field and a full screen of 256 by 256 tiles leave room.
theorem tockStart_room (hdl : Handle) (st : State) (cl activeCl : Client) (timeLeft : Int)
    {gps : Gps} (hk : sizeOk gps = true) :
    (tockStart hdl st cl activeCl timeLeft).bytes.length + 9 * (gps.dimx.toNat * gps.dimy.toNat) ≤
      bufSize := by
  obtain ⟨-, -, hx, hy⟩ := (sizeOk_iff gps).mp hk
  have hnick := (nickLen activeCl.nick).toNat_lt
  have hmul : gps.dimx.toNat * gps.dimy.toNat ≤ 256 * 256 :=
    Nat.mul_le_mul (by omega) (by omega)
  rw [length_tockStart]
  unfold bufSize
  omega

theorem tockPacket_eq (hdl : Handle) (st : State) (cl activeCl : Client) (timeLeft : Int)
    (hk : sizeOk st.game.gps = true) :
    tockPacket hdl st cl activeCl timeLeft =
      ⟨(tockStart hdl st cl activeCl timeLeft).bytes ++
          (dirty cl.mod st.game.gps.dimx.toNat st.game.gps.dimy.toNat).flatMap fun p =>
            tileRecord p.1 p.2 (cl.ownSc (Grid.index st.game.gps.dimy.toNat p.1 p.2)),
        fun t => if t < st.game.gps.dimx.toNat * st.game.gps.dimy.toNat ∧ cl.mod t = 0 then 1
          else cl.mod t⟩ := by
  unfold tockPacket
  rw [tockTiles_eq_foldl _ _ _ _ (tockStart_room hdl st cl activeCl timeLeft hk),
    foldl_tileStep _ _ _ _ (Grid.nodup_rows_index _ _)]
  simp only [Grid.mem_rows_index]
  rfl

@[simp] theorem length_tileRecord (x y : Nat) (s : Cell) : (tileRecord x y s).length = 9 := rfl

-- The browser reads the records back one by one.
theorem renderUpdate_flatMap (c : Nat × Nat → Cell) (ps : List (Nat × Nat))
    (hps : ∀ p ∈ ps, p.1 < 256 ∧ p.2 < 256) :
    renderUpdate (ps.flatMap fun p => tileRecord p.1 p.2 (c p)) =
      ps.map fun p => some ⟨p.1, p.2, (c p).wire⟩ := by
  induction ps with
  | nil => rfl
  | cons p ps ih =>
      obtain ⟨hx, hy⟩ := hps p List.mem_cons_self
      rw [List.flatMap_cons, List.map_cons, ← ih fun q hq => hps q (List.mem_cons_of_mem _ hq)]
      simp [tileRecord, renderUpdate, Cell.wire, Nat.mod_eq_of_lt hx, Nat.mod_eq_of_lt hy]

-- Byte 16 tells where the tiles start.
theorem tockStart_offset (hdl : Handle) (st : State) (cl activeCl : Client) (timeLeft : Int)
    (tiles : Bytes) :
    (((tockStart hdl st cl activeCl timeLeft).bytes ++ tiles).getD 16 0) =
      nickLen activeCl.nick := by
  simp only [tockStart, List.append_assoc, List.getD_eq_getElem?_getD]
  rw [List.getElem?_append_right (by simp), length_tockHeader]
  rfl

theorem tileRecords_start (hdl : Handle) (st : State) (cl activeCl : Client) (timeLeft : Int)
    (tiles : Bytes) :
    tileRecords ((tockStart hdl st cl activeCl timeLeft).bytes ++ tiles) = renderUpdate tiles := by
  unfold tileRecords
  rw [tockStart_offset, List.drop_left' (length_tockStart hdl st cl activeCl timeLeft)]

theorem tileRecords_tiles (hdl : Handle) (st : State) (cl activeCl : Client) (timeLeft : Int)
    {w h : Nat} (hw : w ≤ 256) (hh : h ≤ 256) (mod : Nat → UInt8) (src : Buffer) :
    tileRecords ((tockStart hdl st cl activeCl timeLeft).bytes ++
        (dirty mod w h).flatMap fun p => tileRecord p.1 p.2 (src (Grid.index h p.1 p.2))) =
      (dirty mod w h).map fun p => some ⟨p.1, p.2, (src (Grid.index h p.1 p.2)).wire⟩ := by
  rw [tileRecords_start]
  refine renderUpdate_flatMap (fun p => src (Grid.index h p.1 p.2)) _ fun p hp => ?_
  obtain ⟨⟨hx, hy⟩, -⟩ := mem_dirty.mp hp
  exact ⟨by omega, by omega⟩

end Packet

section Tock

variable (hdl : Handle) (st : State)

def width (st : State) : Nat := st.game.gps.dimx.toNat

def height (st : State) : Nat := st.game.gps.dimy.toNat

-- The header and nick of the packet a tock builds in this state.
def packetStart : TileLoop :=
  tockStart hdl (turnPart st) ((turnPart st).getClient hdl) st.getActive
    (getTimeLeft (idleTimer st).state).1

variable {st}

-- The turn part moves neither the screen nor the tiles of the client.
theorem tileLoop_eq (hk : sizeOk st.game.gps = true) :
    tileLoop hdl st =
      ⟨(packetStart hdl st).bytes ++ (dirty (st.getClient hdl).mod (width st) (height st)).flatMap
          fun p => tileRecord p.1 p.2 ((st.getClient hdl).ownSc (Grid.index (height st) p.1 p.2)),
        fun t => if t < width st * height st ∧ (st.getClient hdl).mod t = 0 then 1
          else (st.getClient hdl).mod t⟩ := by
  have hgame : (turnPart st).game = st.game := (turnPart_kept st).game
  obtain ⟨b, hcl⟩ := turnPart_getClient st hdl
  have hsize : sizeOk (turnPart st).game.gps = true := by rwa [hgame]
  unfold tileLoop
  rw [tockPacket_eq hdl (turnPart st) _ _ _ hsize, hgame, hcl]
  unfold packetStart
  rw [hcl]
  rfl

theorem width_le (hk : sizeOk st.game.gps = true) : width st ≤ 256 ∧ height st ≤ 256 := by
  obtain ⟨-, -, hx, hy⟩ := (sizeOk_iff st.game.gps).mp hk
  unfold width height
  omega

theorem tileLoop_records (hk : sizeOk st.game.gps = true) :
    tileRecords (tileLoop hdl st).bytes =
      (dirty (st.getClient hdl).mod (width st) (height st)).map fun p =>
        some ⟨p.1, p.2, ((st.getClient hdl).ownSc (Grid.index (height st) p.1 p.2)).wire⟩ := by
  rw [tileLoop_eq hdl hk]
  exact tileRecords_tiles hdl _ _ _ _ (width_le hk).1 (width_le hk).2 _ _

theorem tileLoop_head (hk : sizeOk st.game.gps = true) :
    (tileLoop hdl st).bytes.head? = some 110 := by
  rw [tileLoop_eq hdl hk]
  rfl

theorem cursorPacket_head : (cursorPacket hdl st).head? = some 112 := rfl

-- What the browser of the client shows after a tock.
theorem receive_tock (s : Endpoint) (page : Page) (hk : sizeOk st.game.gps = true)
    (hb : (s hdl).processor.takesBinary = true) (p : Nat × Nat) :
    (sends hdl (tock s hdl st).out).foldl Page.receive page p =
      if p ∈ dirty (st.getClient hdl).mod (width st) (height st) then
        some ((st.getClient hdl).ownSc (Grid.index (height st) p.1 p.2)).wire
      else page p := by
  rw [tock_sends, if_pos ⟨rfl, hb⟩]
  simp only [List.foldl_cons, List.foldl_nil, Page.receive]
  rw [cursorPacket_head, tileLoop_head hdl hk, if_neg (by decide), if_pos rfl, tileLoop_records hdl hk,
    List.foldl_map]
  have hput := Grid.foldl_update_apply (fun q : Nat × Nat => q)
    (fun q => some ((st.getClient hdl).ownSc (Grid.index (height st) q.1 q.2)).wire)
    (fun q => some ((st.getClient hdl).ownSc (Grid.index (height st) q.1 q.2)).wire)
    (dirty (st.getClient hdl).mod (width st) (height st)) (fun _ _ => rfl) page p
  rw [List.map_id'] at hput
  refine hput.trans ?_
  congr

-- The tiles a tock marks, and the clients it leaves alone.
theorem tock_getClient (s : Endpoint) :
    ∃ b, (tock s hdl st).state.getClient hdl =
      { st.getClient hdl with cursorActive := b, mod := (tileLoop hdl st).mod } := by
  obtain ⟨b, hcl⟩ := turnPart_getClient st hdl
  refine ⟨b, ?_⟩
  rw [tock_state, State.getClient_withClient, hcl]

theorem tock_getClient_of_ne (s : Endpoint) {j : Handle} (hj : j ≠ hdl)
    (hr : st.registered j = true) :
    ∃ b, (tock s hdl st).state.getClient j = { st.getClient j with cursorActive := b } := by
  obtain ⟨b, hcl⟩ := turnPart_getClient st j
  refine ⟨b, ?_⟩
  obtain ⟨cl, hfind⟩ := (State.registered_iff st j).mp hr
  obtain ⟨cl', hfind', -⟩ := (turnPart_kept st).find? hfind
  rw [tock_state, ← hcl]
  unfold State.getClient
  rw [State.withClient_find?_of_ne _ _ hj, hfind']
  rfl

end Tock

end WebFort
