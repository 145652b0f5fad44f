import WebFort.Cursors
import WebFort.Expiry
import WebFort.Library.Fit
import Mathlib.Data.List.Forall2

namespace WebFort

open Library

-- A cursor as the page draws it: its label, the tile and the color index.
structure DrawnCursor where
  pnick : List Nat
  cx : Nat
  cy : Nat
  cidx : Nat
  deriving DecidableEq

-- The loop that collects the label, in at most so many rounds.
def nickChars : Nat → Bytes → List Nat
  | 0, _ => []
  | _, [] => []
  | n + 1, b :: rest => if b = 0 then [] else b.toNat :: nickChars n rest

-- One round of the loop of onMessage over the packet from `offset` on, and the
-- rest it leaves. None where it reads past the end.
def readCursor : Bytes → Option (DrawnCursor × Bytes)
  | [] => none
  | nickLen :: rest =>
      match rest.drop nickLen.toNat with
      | cx :: cy :: cidx :: after =>
          some (⟨nickChars (nickLen.toNat - 1) rest, cx.toNat, cy.toNat, cidx.toNat⟩, after)
      | _ => none

def readCursors : Nat → Bytes → Option (List DrawnCursor × Bytes)
  | 0, data => some ([], data)
  | n + 1, data =>
      (readCursor data).bind fun (drawn, rest) =>
        (readCursors n rest).map fun (more, after) => (drawn :: more, after)

-- The cursors drawn for a packet, and what it has behind the last one.
def cursorsUpdate (data : Bytes) : Option (List DrawnCursor × Bytes) :=
  readCursors (data.getD 1 0).toNat (data.drop 2)

-- CURSOR_COLORS
def cursorColors : List RGB :=
  [⟨0xff, 0xff, 0xff⟩, ⟨0x00, 0xe5, 0xff⟩, ⟨0xff, 0xea, 0x00⟩, ⟨0xff, 0x40, 0xff⟩,
    ⟨0x40, 0xff, 0x80⟩]

def white : RGB := ⟨0xff, 0xff, 0xff⟩

def cursorColor (cidx : Nat) : Option RGB := cursorColors[cidx % cursorColors.length]?

-- Somebody else's cursor in the receiver's viewport, and how many clients come
-- before its client in the map.
structure ShownCursor where
  conn : Handle
  nick : Bytes
  cx : Int
  cy : Int
  place : Nat

-- Whether a client points at a tile, and at which one of the world. The
-- driver points with DF's mouse.
def pointing (st : State) (j : Handle) (cl : Client) : Prop :=
  if st.activeConn = some j then 0 ≤ st.game.gps.mouseX else cl.cursorActive = true

instance (st : State) (j : Handle) (cl : Client) : Decidable (pointing st j cl) :=
  inferInstanceAs (Decidable (ite _ _ _))

def pointedTile (st : State) (j : Handle) (cl : Client) : Int × Int :=
  if st.activeConn = some j then
    (st.game.windowX + st.game.gps.mouseX, st.game.windowY + st.game.gps.mouseY)
  else (cl.cursorX, cl.cursorY)

-- The tile of the world in the corner of a client's screen.
def screenCorner (st : State) (hdl : Handle) : Int × Int :=
  if (st.getClient hdl).hasOwnCam then ((st.getClient hdl).cam.x, (st.getClient hdl).cam.y)
  else (st.game.windowX, st.game.windowY)

-- A client of the map, with its place there, as the receiver is to see it.
def ShownCursor.ofEntry (st : State) (hdl : Handle) (entry : (Handle × Client) × Nat) :
    ShownCursor :=
  ⟨entry.1.1, entry.1.2.nick,
    (pointedTile st entry.1.1 entry.1.2).1 - (screenCorner st hdl).1,
    (pointedTile st entry.1.1 entry.1.2).2 - (screenCorner st hdl).2, entry.2⟩

-- Somebody else, who points at a tile of the receiver's screen.
def toBeShown (st : State) (hdl : Handle) (entry : (Handle × Client) × Nat) : Prop :=
  let c := ShownCursor.ofEntry st hdl entry
  entry.1.1 ≠ hdl ∧ pointing st entry.1.1 entry.1.2 ∧
    (0 ≤ c.cx ∧ c.cx < st.game.gps.dimx) ∧ 0 ≤ c.cy ∧ c.cy < st.game.gps.dimy

instance (st : State) (hdl : Handle) (entry : (Handle × Client) × Nat) :
    Decidable (toBeShown st hdl entry) := instDecidableAnd

-- All of them, in map order.
def shownCursors (st : State) (hdl : Handle) : List ShownCursor :=
  (st.clients.entries.zipIdx.filter (toBeShown st hdl)).map (ShownCursor.ofEntry st hdl)

namespace ShownCursor

def record (c : ShownCursor) : CursorRecord :=
  ⟨c.conn, c.nick, leByte c.cx 0, leByte c.cy 0, UInt8.ofNat c.place⟩

def size (c : ShownCursor) : Nat := c.record.bytes.length

end ShownCursor

-- The ones that have room in a packet of 4096 bytes.
def sentCursors (st : State) (hdl : Handle) : List ShownCursor :=
  takeFit ShownCursor.size (4096 - 2) (shownCursors st hdl)

section Writer

theorem length_record (c : ShownCursor) : c.size = (nickLen c.nick).toNat + 4 := by
  simp only [ShownCursor.size, ShownCursor.record, CursorRecord.bytes, List.length_append,
    List.length_cons, List.length_nil, length_nickField]
  omega

variable (st : State) (hdl : Handle) (cl : Client)

-- What the loop finds for an entry.
def shownCursor (st : State) (hdl : Handle) (cl : Client) (entry : (Handle × Client) × Nat) :
    Option ShownCursor :=
  if entry.1.1 = hdl then none
  else (visibleCursor st cl entry.1.1 entry.1.2).map fun (cx, cy) =>
    ⟨entry.1.1, entry.1.2.nick, cx, cy, entry.2⟩

theorem worldCursor_eq (j : Handle) (c : Client) :
    worldCursor st j c = if pointing st j c then some (pointedTile st j c) else none := by
  unfold worldCursor pointing pointedTile
  by_cases hdriver : st.activeConn = some j
  · simp only [if_pos hdriver, ge_iff_le]
  · simp only [if_neg hdriver]

theorem shownCursor_eq (entry : (Handle × Client) × Nat) :
    shownCursor st hdl (st.getClient hdl) entry =
      if toBeShown st hdl entry then some (ShownCursor.ofEntry st hdl entry) else none := by
  obtain ⟨⟨j, c⟩, n⟩ := entry
  have hcorner : ((viewport st (st.getClient hdl)).x, (viewport st (st.getClient hdl)).y) =
      screenCorner st hdl := by
    unfold viewport screenCorner
    split <;> rfl
  have hx : (viewport st (st.getClient hdl)).x = (screenCorner st hdl).1 := congrArg Prod.fst hcorner
  have hy : (viewport st (st.getClient hdl)).y = (screenCorner st hdl).2 := congrArg Prod.snd hcorner
  by_cases hself : j = hdl
  · have hnot : ¬toBeShown st hdl ((j, c), n) := fun h => h.1 hself
    rw [shownCursor, if_pos hself, if_neg hnot]
  · rw [shownCursor, if_neg hself, visibleCursor, worldCursor_eq, hx, hy]
    by_cases hpoints : pointing st j c
    · rw [if_pos hpoints, Option.bind_some]
      simp only
      by_cases hshown : toBeShown st hdl ((j, c), n)
      · have hin := hshown.2.2
        simp only [ShownCursor.ofEntry] at hin
        rw [if_pos hshown, if_neg (by omega)]
        rfl
      · rw [if_neg hshown, if_pos, Option.map_none]
        by_contra hin
        refine hshown ⟨hself, hpoints, ?_⟩
        simp only [ShownCursor.ofEntry]
        omega
    · have hnot : ¬toBeShown st hdl ((j, c), n) := fun h => hpoints h.2.1
      rw [if_neg hpoints, if_neg hnot]
      rfl

theorem shownCursors_eq : shownCursors st hdl =
    st.clients.entries.zipIdx.filterMap (shownCursor st hdl (st.getClient hdl)) := by
  have hentry := funext (shownCursor_eq st hdl)
  rw [shownCursors, hentry, ← List.filterMap_eq_map, List.filterMap_filter]
  refine List.filterMap_congr fun entry _ => ?_
  simp

-- The loop stops where the room runs out; what is skipped counts for the
-- color index only.
theorem cursorRecords_eq (entries : List (Handle × Client)) (size n : Nat) (hsize : size + 2 ≤ 4096) :
    cursorRecords st hdl cl entries size (UInt8.ofNat n) =
      (takeFit ShownCursor.size (4096 - 2 - size)
        ((entries.zipIdx n).filterMap (shownCursor st hdl cl))).map ShownCursor.record := by
  induction entries generalizing size n with
  | nil => rfl
  | cons entry rest ih =>
      obtain ⟨h, c⟩ := entry
      have hidx : UInt8.ofNat n + 1 = UInt8.ofNat (n + 1) := (UInt8.ofNat_add n 1).symm
      rw [List.zipIdx_cons, List.filterMap_cons]
      unfold cursorRecords shownCursor
      simp only [hidx]
      split
      · exact ih size (n + 1) hsize
      · cases visibleCursor st cl h c with
        | none => exact ih size (n + 1) hsize
        | some pos =>
            let shown : ShownCursor := ⟨h, c.nick, pos.1, pos.2, n⟩
            have hbytes : shown.size = (nickLen c.nick).toNat + 4 := length_record shown
            have hrest : ∀ size', size' = size + shown.size →
                4096 - 2 - size - shown.size = 4096 - 2 - size' := by omega
            simp only [Option.map_some, takeFit]
            by_cases hroom : shown.size ≤ 4096 - 2 - size
            · rw [if_neg (by omega), if_pos hroom, List.map_cons, hrest _ rfl]
              exact congrArg (shown.record :: ·) (ih (size + shown.size) (n + 1) (by omega))
            · rw [if_pos (by omega), if_neg hroom]
              rfl

theorem cursorPacket_eq : cursorPacket hdl st =
    [112, UInt8.ofNat (sentCursors st hdl).length] ++
      (sentCursors st hdl).flatMap fun c => c.record.bytes := by
  have hrecords : cursorRecords st hdl (st.getClient hdl) st.clients.entries 0 0 =
      (sentCursors st hdl).map ShownCursor.record := by
    rw [sentCursors, shownCursors_eq]
    exact cursorRecords_eq st hdl (st.getClient hdl) st.clients.entries 0 0 (by decide)
  rw [cursorPacket_records, hrecords]
  simp only [List.length_map, List.flatMap_map]

theorem length_cursorPacket : (cursorPacket hdl st).length ≤ 4096 := by
  have hfit : totalSize ShownCursor.size (sentCursors st hdl) ≤ 4096 - 2 := totalSize_takeFit_le _ _ _
  have hlen : ((sentCursors st hdl).flatMap fun c => c.record.bytes).length =
      totalSize ShownCursor.size (sentCursors st hdl) := length_flatMap_eq _ _
  rw [cursorPacket_eq, List.length_append, hlen]
  simp only [List.length_cons, List.length_nil]
  omega

theorem length_sentCursors_le : (sentCursors st hdl).length ≤ st.clients.size := by
  have hsent := (takeFit_initial ShownCursor.size (4096 - 2) (shownCursors st hdl)).length_le
  have hshown : (shownCursors st hdl).length ≤ st.clients.entries.zipIdx.length :=
    (List.length_map _).trans_le (List.length_filter_le _ _)
  rw [List.length_zipIdx] at hshown
  exact hsent.trans hshown

variable {st hdl}

-- What it takes to be in the list.
theorem mem_shownCursors {c : ShownCursor} (h : c ∈ shownCursors st hdl) :
    ∃ cl, st.clients.find? c.conn = some cl ∧ c.conn ≠ hdl ∧ c.nick = cl.nick ∧
      visibleCursor st (st.getClient hdl) c.conn cl = some (c.cx, c.cy) ∧
      c.place < st.clients.size := by
  rw [shownCursors_eq] at h
  obtain ⟨⟨⟨j, cl⟩, i⟩, hmem, hshown⟩ := List.mem_filterMap.mp h
  have hfind : st.clients.find? j = some cl :=
    (OrdMap.mem_entries_iff _ _ _).mp (List.fst_mem_of_mem_zipIdx hmem)
  unfold shownCursor at hshown
  split at hshown
  · cases hshown
  · rename_i hne
    obtain ⟨pos, hpos, rfl⟩ := Option.map_eq_some_iff.mp hshown
    exact ⟨cl, hfind, hne, rfl, hpos, List.snd_lt_of_mem_zipIdx hmem⟩

end Writer

section Reader

-- What the page makes of a record.
def CursorRecord.drawn (r : CursorRecord) : DrawnCursor :=
  ⟨nickChars ((nickLen r.nick).toNat - 1) (nickField r.nick), r.x.toNat, r.y.toNat, r.color.toNat⟩

theorem nickChars_append (n : Nat) (data rest : Bytes) (h : n ≤ data.length) :
    nickChars n (data ++ rest) = nickChars n data := by
  induction n generalizing data with
  | zero => cases data <;> rfl
  | succ n ih =>
      cases data with
      | nil => exact absurd h (by simp)
      | cons b data =>
          simp only [List.cons_append, nickChars]
          rw [ih data (by simpa using h)]

-- A nick that is not cut is read up to its NUL.
theorem nickChars_self {nick : Bytes} (h : 0 ∉ nick) : nickChars nick.length nick = units nick := by
  induction nick with
  | nil => rfl
  | cons b nick ih =>
      obtain ⟨hb, hnick⟩ := not_or.mp (mt List.mem_cons.mpr h)
      rw [List.length_cons, nickChars, if_neg (Ne.symm hb), ih hnick]
      rfl

theorem drawn_pnick {r : CursorRecord} (h : 0 ∉ r.nick) (hlen : r.nick.length ≤ 254) :
    r.drawn.pnick = units r.nick := by
  have hsize : (nickLen r.nick).toNat - 1 = r.nick.length := by
    rw [nickLen_toNat]
    omega
  show nickChars _ _ = _
  rw [hsize, (nickField_full_iff r.nick).mpr hlen, nickChars_append _ _ _ (Nat.le_refl _)]
  exact nickChars_self h

theorem readCursor_bytes (r : CursorRecord) (rest : Bytes) :
    readCursor (r.bytes ++ rest) = some (r.drawn, rest) := by
  have hbytes : r.bytes ++ rest =
      nickLen r.nick :: (nickField r.nick ++ ([r.x, r.y, r.color] ++ rest)) := by
    simp [CursorRecord.bytes]
  have hchars := nickChars_append ((nickLen r.nick).toNat - 1) (nickField r.nick)
    ([r.x, r.y, r.color] ++ rest) (by rw [length_nickField]; omega)
  rw [hbytes, readCursor, List.drop_left' (length_nickField r.nick)]
  simp only [List.cons_append, List.nil_append] at hchars ⊢
  rw [hchars]
  rfl

theorem readCursors_bytes (records : List CursorRecord) (rest : Bytes) :
    readCursors records.length (records.flatMap CursorRecord.bytes ++ rest) =
      some (records.map CursorRecord.drawn, rest) := by
  induction records with
  | nil => rfl
  | cons r records ih =>
      rw [List.flatMap_cons, List.append_assoc, List.length_cons, readCursors, readCursor_bytes,
        Option.bind_some]
      simp only [ih, Option.map_some, List.map_cons]

-- The count fits its byte, so the page reads the whole packet.
theorem cursorsUpdate_packet (st : State) (hdl : Handle) (hsize : st.clients.size ≤ 255) :
    cursorsUpdate (cursorPacket hdl st) =
      some ((sentCursors st hdl).map fun c => c.record.drawn, []) := by
  let records := (sentCursors st hdl).map ShownCursor.record
  have hlen : records.length = (sentCursors st hdl).length := List.length_map _
  have hcount : (UInt8.ofNat (sentCursors st hdl).length).toNat = records.length := by
    have hsent := length_sentCursors_le st hdl
    rw [hlen]
    exact UInt8.toNat_ofNat_of_lt' (by rw [UInt8.size]; omega)
  have hbytes : (sentCursors st hdl).flatMap (fun c => c.record.bytes) =
      records.flatMap CursorRecord.bytes ++ [] := by
    rw [List.flatMap_map, List.append_nil]
  have hread := readCursors_bytes records []
  rw [← hcount, ← hbytes] at hread
  rw [cursorPacket_eq]
  refine hread.trans ?_
  rw [List.map_map]
  rfl

end Reader

-- A cursor is drawn on its tile, under its color index and its name.
structure Draws (d : DrawnCursor) (c : ShownCursor) : Prop where
  cx : (d.cx : Int) = c.cx
  cy : (d.cy : Int) = c.cy
  cidx : d.cidx = c.place
  pnick : c.nick.length ≤ 254 → d.pnick = units c.nick

section Packet

variable {st : State} {hdl : Handle}

theorem visibleCursor_inside {cl c : Client} {j : Handle} {cx cy : Int}
    (h : visibleCursor st cl j c = some (cx, cy)) :
    (0 ≤ cx ∧ cx < st.game.gps.dimx) ∧ 0 ≤ cy ∧ cy < st.game.gps.dimy := by
  obtain ⟨w, -, hplace⟩ := Option.bind_eq_some_iff.mp h
  simp only [Option.ite_none_left_eq_some, Option.some.injEq, Prod.mk.injEq] at hplace
  obtain ⟨hinside, rfl, rfl⟩ := hplace
  omega

theorem draws_of_shown (hsize : st.clients.size ≤ 255)
    (hnul : ∀ j cl, st.clients.find? j = some cl → 0 ∉ cl.nick)
    (hx : st.game.gps.dimx ≤ 256) (hy : st.game.gps.dimy ≤ 256) {c : ShownCursor}
    (h : c ∈ shownCursors st hdl) : Draws c.record.drawn c := by
  obtain ⟨cl, hcl, -, hnick, hvisible, hplace⟩ := mem_shownCursors h
  obtain ⟨hcx, hcy⟩ := visibleCursor_inside hvisible
  refine ⟨(leByte_toNat c.cx 0).trans ?_, (leByte_toNat c.cy 0).trans ?_, ?_, fun hlen => ?_⟩
  · rw [pow_zero, Int.ediv_one]
    exact Int.emod_eq_of_lt hcx.1 (by omega)
  · rw [pow_zero, Int.ediv_one]
    exact Int.emod_eq_of_lt hcy.1 (by omega)
  · exact UInt8.toNat_ofNat_of_lt' (by rw [UInt8.size]; omega)
  · have hfree : 0 ∉ c.nick := by
      rw [hnick]
      exact hnul c.conn cl hcl
    exact drawn_pnick (r := c.record) hfree hlen

-- The second packet of a tock is built on the state it leaves.
theorem tock_packet {s : Endpoint} {before : State} {frame packet : Bytes}
    (h : sends hdl (tock s hdl before).out = [frame, packet]) :
    packet = cursorPacket hdl (tock s hdl before).state := by
  rw [tock_sends] at h
  split at h
  · exact (List.cons.inj (List.cons.inj h).2).1.symm
  · cases h

end Packet

-- The page reads a cursor packet to its end and draws the first of the cursors
-- to be shown, all of them when they have room in it.
theorem cursor_packet_round_trip (s : Endpoint) (hdl : Handle) (before : State)
    (hsize : before.clients.size ≤ 255)
    (hnul : ∀ j cl, before.clients.find? j = some cl → 0 ∉ cl.nick)
    (hx : before.game.gps.dimx ≤ 256) (hy : before.game.gps.dimy ≤ 256) (frame packet : Bytes)
    (hsent : sends hdl (tock s hdl before).out = [frame, packet]) :
    let st := (tock s hdl before).state
    let shown := shownCursors st hdl
    packet.head? = some 112 ∧ packet.length ≤ 4096 ∧
      ∃ drawn, cursorsUpdate packet = some (drawn, []) ∧ (packet.getD 1 0).toNat = drawn.length ∧
        List.Forall₂ Draws drawn (shown.take drawn.length) ∧
        (2 + totalSize ShownCursor.size shown ≤ 4096 → drawn.length = shown.length) := by
  intro st shown
  have hkept := tock_kept s hdl before
  have hsize' : st.clients.size ≤ 255 := hkept.registry.size.trans_le hsize
  have hgame : st.game = before.game := hkept.game
  have hnul' : ∀ j cl, st.clients.find? j = some cl → 0 ∉ cl.nick := by
    intro j cl hcl
    obtain ⟨cl₀, hcl₀, hnick⟩ := nick_of_same hkept.registry hcl
    exact hnick ▸ hnul j cl₀ hcl₀
  obtain ⟨rest, hprefix⟩ := takeFit_initial ShownCursor.size (4096 - 2) shown
  have hread := cursorsUpdate_packet st hdl hsize'
  have hsent_le := length_sentCursors_le st hdl
  have hpacket : packet = cursorPacket hdl st := tock_packet hsent
  rw [hpacket]
  refine ⟨cursorPacket_head hdl, length_cursorPacket st hdl, _, hread, ?_, ?_, fun hroom => ?_⟩
  · rw [cursorPacket_eq, List.length_map]
    exact UInt8.toNat_ofNat_of_lt' (by rw [UInt8.size]; omega)
  · have htake : shown.take (sentCursors st hdl).length = sentCursors st hdl := by
      rw [← hprefix]
      exact List.take_left
    rw [List.length_map, htake, List.forall₂_map_left_iff, List.forall₂_same]
    intro c hc
    have hshown : c ∈ shownCursors st hdl :=
      (takeFit_initial ShownCursor.size (4096 - 2) shown).subset hc
    exact draws_of_shown hsize' hnul' (hgame ▸ hx) (hgame ▸ hy) hshown
  · rw [List.length_map]
    have hfit : totalSize ShownCursor.size shown ≤ 4096 - 2 := by omega
    exact congrArg List.length (takeFit_of_le ShownCursor.size hfit)

namespace Sample

def pointed : State := (plugin endpoint).exec (State.init config (game 64)) pointing

end Sample

theorem cursor_packet_round_trip_sample :
    let st := (tock Sample.endpoint 0 Sample.pointed).state
    ∃ drawn, cursorsUpdate (cursorPacket 0 st) = some (drawn, []) ∧ drawn.length = 1 := by
  have hsends : sends 0 (tock Sample.endpoint 0 Sample.pointed).out =
      [(tileLoop 0 Sample.pointed).bytes, cursorPacket 0 (tock Sample.endpoint 0 Sample.pointed).state] :=
    (tock_sends _ _ _ _).trans (if_pos ⟨rfl, rfl⟩)
  have hnul : NulFree Sample.pointed := (NulFree.init _ _).run Sample.endpoint Sample.pointing
  obtain ⟨-, -, drawn, hread, -, -, hall⟩ := cursor_packet_round_trip Sample.endpoint 0 Sample.pointed
    (by decide) hnul.client (by decide) (by decide) _ _ hsends
  exact ⟨drawn, hread, hall (by decide)⟩

-- The driver is the one in white exactly when it is the first in the map,
-- round the byte, and no spectator shown is on a multiple of the colors.
theorem driver_color_iff (s : Endpoint) (hdl : Handle) (before : State) (frame packet : Bytes)
    (hsent : sends hdl (tock s hdl before).out = [frame, packet]) :
    let st := (tock s hdl before).state
    let records := cursorRecords st hdl (st.getClient hdl) st.clients.entries 0 0
    packet = [112, UInt8.ofNat records.length] ++ records.flatMap CursorRecord.bytes ∧
      ((∀ r ∈ records, if st.activeConn = some r.conn then r.color = 0
          else cursorColor r.color.toNat ≠ some white) ↔
        ∀ c ∈ sentCursors st hdl, if st.activeConn = some c.conn then c.place % 256 = 0
          else c.place % 256 % 5 ≠ 0) := by
  intro st records
  have hrecords : records = (sentCursors st hdl).map ShownCursor.record := by
    rw [sentCursors, shownCursors_eq]
    exact cursorRecords_eq st hdl (st.getClient hdl) st.clients.entries 0 0 (by decide)
  have hbyte : ∀ c : ShownCursor, c.record.color.toNat = c.place % 256 := fun c =>
    UInt8.toNat_ofNat'
  have hwhite : ∀ n, cursorColor n = some white ↔ n % 5 = 0 := by
    intro n
    have hn := Nat.mod_lt n (by decide : 0 < 5)
    show cursorColors[n % 5]? = _ ↔ _
    generalize n % 5 = k at hn ⊢
    revert k
    decide
  refine ⟨(tock_packet hsent).trans (cursorPacket_records st hdl), ?_⟩
  rw [hrecords, List.forall_mem_map]
  refine forall₂_congr fun c _ => ?_
  show (if st.activeConn = some c.conn then _ else _) ↔ _
  by_cases hdriver : st.activeConn = some c.conn
  · simp only [if_pos hdriver, ← hbyte c, ← UInt8.toNat_inj]
    rfl
  · simp only [if_neg hdriver, ne_eq, hwhite, hbyte c]

theorem driver_color_iff_sample :
    let st := (tock Sample.endpoint 0 Sample.pointed).state
    ∀ r ∈ cursorRecords st 0 (st.getClient 0) st.clients.entries 0 0,
      if st.activeConn = some r.conn then r.color = 0
      else cursorColor r.color.toNat ≠ some white := by
  have hsends : sends 0 (tock Sample.endpoint 0 Sample.pointed).out =
      [(tileLoop 0 Sample.pointed).bytes, cursorPacket 0 (tock Sample.endpoint 0 Sample.pointed).state] :=
    (tock_sends _ _ _ _).trans (if_pos ⟨rfl, rfl⟩)
  exact (driver_color_iff Sample.endpoint 0 Sample.pointed _ _ hsends).2.mpr (by decide)

namespace Sample

-- The first client of three watches and points, the second one plays.
def drivenSecond : State :=
  (plugin endpoint).exec (State.init config (game 64))
    [.opened 0, .opened 1, .opened 2, .message 1 [116], .message 0 [114, 1, 0],
      .game { game 64 with gps := { gps 64 with mouseX := 0, mouseY := 0 } }]

end Sample

-- The third one gets a spectator in white and a driver in another color.
theorem spectator_drawn_white :
    let sent := tock Sample.endpoint 2 Sample.drivenSecond
    let st := sent.state
    let records := cursorRecords st 2 (st.getClient 2) st.clients.entries 0 0
    sends 2 sent.out = [(tileLoop 2 Sample.drivenSecond).bytes,
      [112, UInt8.ofNat records.length] ++ records.flatMap CursorRecord.bytes] ∧
    st.activeConn = some 1 ∧ records.map (fun r => (r.conn, r.color)) = [(0, 0), (1, 1)] ∧
    ¬∀ r ∈ records, if st.activeConn = some r.conn then r.color = 0
      else cursorColor r.color.toNat ≠ some white := by
  intro sent st records
  have hsends : sends 2 sent.out = [(tileLoop 2 Sample.drivenSecond).bytes, cursorPacket 2 st] :=
    (tock_sends _ _ _ _).trans (if_pos ⟨rfl, rfl⟩)
  refine ⟨hsends.trans ?_, rfl, by decide, by decide⟩
  rw [cursorPacket_records]

end WebFort
