import WebFort.Server.Packet
import WebFort.System.Lemmas
import WebFort.Sample

namespace WebFort

open Library

-- Before each tile is looked at there is room for its record.
theorem tileLoop_room (hdl : Handle) {st : State} (hk : sizeOk st.game.gps = true)
    (seen rest : List (Nat × Nat)) (p : Nat × Nat)
    (hrows : Grid.rows (width st) (height st) = seen ++ p :: rest) :
    (seen.foldl (tileStep (st.getClient hdl).ownSc (height st)) (packetStart hdl st)).bytes.length
      + 9 ≤ bufSize := by
  have hseen := length_foldl_tileStep (st.getClient hdl).ownSc (height st) seen (packetStart hdl st)
  have hstart : (packetStart hdl st).bytes.length + 9 * (width st * height st) ≤ bufSize :=
    tockStart_room hdl _ _ _ _ hk
  have hlen := congrArg List.length hrows
  simp only [Grid.length_rows, List.length_append, List.length_cons] at hlen
  omega

-- Marks on the 256*256 tiles of the array; the screen lies inside.
theorem refreshed_run (s : Endpoint) {hdl : Handle} (es : List Event) (st : State)
    (hes : ∀ e ∈ es, ¬e.Asks hdl ∧ ¬e.Ends hdl) {cl : Client}
    (hcl : st.clients.find? hdl = some cl) (hm : ∀ t < 256 * 256, cl.mod t = 0) :
    ∃ cl', ((plugin s).exec st es).clients.find? hdl = some cl' ∧ ∀ t < 256 * 256, cl'.mod t = 0 := by
  induction es generalizing st cl with
  | nil => exact ⟨cl, hcl, hm⟩
  | cons e es ih =>
      obtain ⟨ha, he⟩ := hes e List.mem_cons_self
      obtain ⟨cl', hcl', hr⟩ := handle_remarked s e st hcl ha he
      refine ih _ (fun e he => hes e (List.mem_cons_of_mem _ he)) hcl' fun t ht => ?_
      by_contra hne
      exact hne ((hr t hne).trans (hm t ht))

theorem dirty_of_refreshed {mod : Nat → UInt8} {w h : Nat} (hw : w ≤ 256) (hh : h ≤ 256)
    (hm : ∀ t < 256 * 256, mod t = 0) : dirty mod w h = Grid.rows w h := by
  refine List.filter_eq_self.mpr fun p hp => ?_
  obtain ⟨hx, hy⟩ := Grid.mem_rows.mp hp
  have hlt := Grid.index_lt hx hy
  have hle : w * h ≤ 256 * 256 := Nat.mul_le_mul hw hh
  simp [hm _ (lt_of_lt_of_le hlt hle)]

theorem onMessage_refresh (s : Endpoint) (hdl : Handle) (payload : Bytes) (st : State)
    (hp : parseMessage payload = .refreshScreen) :
    (onMessage s hdl payload st).state = refreshScreen hdl st := by
  unfold onMessage
  rw [hp]
  rfl

-- The packet of a tock, read the way the page reads it, for any marks, any
-- cells and any nick.
theorem tock_frames_unsent_tiles (s : Endpoint) (hdl : Handle) (st : State)
    (hk : sizeOk st.game.gps = true) :
    ((s hdl).processor.takesBinary = true →
      sends hdl (tock s hdl st).out =
        [(tileLoop hdl st).bytes, cursorPacket hdl (tock s hdl st).state]) ∧
    tileRecords (tileLoop hdl st).bytes =
      (dirty (st.getClient hdl).mod (width st) (height st)).map (fun p =>
        some ⟨p.1, p.2, ((st.getClient hdl).ownSc (Grid.index (height st) p.1 p.2)).wire⟩) ∧
    (dirty (st.getClient hdl).mod (width st) (height st)).Nodup ∧
    (∀ x y, (x, y) ∈ dirty (st.getClient hdl).mod (width st) (height st) ↔
      (x < width st ∧ y < height st) ∧
        (st.getClient hdl).mod (Grid.index (height st) x y) = 0) ∧
    (tileLoop hdl st).bytes.length =
      17 + ((tileLoop hdl st).bytes.getD 16 0).toNat +
        9 * (dirty (st.getClient hdl).mod (width st) (height st)).length ∧
    (tileLoop hdl st).bytes.length ≤ bufSize ∧
    (∀ seen p rest, Grid.rows (width st) (height st) = seen ++ p :: rest →
      (seen.foldl (tileStep (st.getClient hdl).ownSc (height st))
        (packetStart hdl st)).bytes.length + 9 ≤ bufSize) ∧
    (∀ t, ((tock s hdl st).state.getClient hdl).mod t =
      if t < width st * height st ∧ (st.getClient hdl).mod t = 0 then 1
      else (st.getClient hdl).mod t) ∧
    (∀ t < width st * height st, ((tock s hdl st).state.getClient hdl).mod t ≠ 0) ∧
    (∀ j, j ≠ hdl → st.registered j = true →
      ((tock s hdl st).state.getClient j).mod = (st.getClient j).mod) ∧
    (∀ payload es, parseMessage payload = .refreshScreen → st.registered hdl = true →
      (∀ e ∈ es, ¬Event.Asks hdl e ∧ ¬Event.Ends hdl e) →
      ∀ later, later = (plugin s).exec (onMessage s hdl payload st).state es →
        sizeOk later.game.gps = true →
        tileRecords (tileLoop hdl later).bytes =
          (Grid.rows (width later) (height later)).map fun p =>
            some ⟨p.1, p.2,
              ((later.getClient hdl).ownSc (Grid.index (height later) p.1 p.2)).wire⟩) := by
  have hlen : (tileLoop hdl st).bytes.length = 17 + ((tileLoop hdl st).bytes.getD 16 0).toNat +
      9 * (dirty (st.getClient hdl).mod (width st) (height st)).length := by
    rw [tileLoop_eq hdl hk]
    simp only [packetStart]
    rw [tockStart_offset, List.length_append, length_tockStart]
    simp [List.length_flatMap, Nat.mul_comm]
  have hmarks : ∀ t, ((tock s hdl st).state.getClient hdl).mod t =
      if t < width st * height st ∧ (st.getClient hdl).mod t = 0 then 1
      else (st.getClient hdl).mod t := by
    intro t
    obtain ⟨b, hcl⟩ := @tock_getClient hdl st s
    rw [hcl, tileLoop_eq hdl hk]
  refine ⟨fun hb => ?_, tileLoop_records hdl hk, nodup_dirty _ _ _, fun x y => mem_dirty, hlen, ?_,
    fun seen p rest => tileLoop_room hdl hk seen rest p, hmarks, ?_, ?_, ?_⟩
  · rw [tock_sends, if_pos ⟨rfl, hb⟩]
  · have hnick := ((tileLoop hdl st).bytes.getD 16 0).toNat_lt
    have hdirty := length_dirty_le (st.getClient hdl).mod (width st) (height st)
    have hmul : width st * height st ≤ 256 * 256 := Nat.mul_le_mul (width_le hk).1 (width_le hk).2
    rw [hlen]
    unfold bufSize
    omega
  · intro t ht
    rw [hmarks t]
    by_cases hm : (st.getClient hdl).mod t = 0
    · rw [if_pos ⟨ht, hm⟩]
      decide
    · rw [if_neg fun h => hm h.2]
      exact hm
  · intro j hj hr
    obtain ⟨b, hcl⟩ := tock_getClient_of_ne hdl s hj hr
    rw [hcl]
  · rintro payload es hp hr hes later rfl hsize
    obtain ⟨cl, hcl⟩ := (State.registered_iff st hdl).mp hr
    have hfresh : (onMessage s hdl payload st).state.clients.find? hdl = some cl.clearMod := by
      rw [onMessage_refresh s hdl payload st hp]
      exact State.withClient_find?_self _ hcl
    obtain ⟨cl', hcl', hm⟩ := refreshed_run s es _ hes hfresh fun t ht => if_pos ht
    rw [tileLoop_records hdl hsize, State.getClient_of_find? hcl',
      dirty_of_refreshed (width_le hsize).1 (width_le hsize).2 hm]

theorem tock_frames_unsent_tiles_sample :
    tileRecords (tileLoop 0 Sample.watched).bytes =
      (dirty (Sample.watched.getClient 0).mod 2 2).map fun p =>
        some ⟨p.1, p.2, ((Sample.watched.getClient 0).ownSc (Grid.index 2 p.1 p.2)).wire⟩ :=
  (tock_frames_unsent_tiles Sample.endpoint 0 Sample.watched (by decide)).2.1

end WebFort
