import WebFort.Library.Relay
import WebFort.Server.Packet
import WebFort.Update.Frames
import WebFort.Sample

namespace WebFort

open Library Library.Relay

-- One client between the two threads, tile by tile: the main thread writes
-- own_sc and clears mod, tock reads own_sc and sets mod.

-- A screen size that the capture accepts.
structure Size where
  w : Nat
  h : Nat
  w_ok : 0 < w ∧ w ≤ 256
  h_ok : 0 < h ∧ h ≤ 256

def Size.total (z : Size) : Nat := z.w * z.h

theorem Size.total_le (z : Size) : z.total ≤ 256 * 256 := Nat.mul_le_mul z.w_ok.2 z.h_ok.2

-- What one tick puts into own_sc, a copy of sc or a render of its own.
structure Capture where
  size : Size
  cells : Buffer

-- What the main thread compares the next capture with: sc_prev and its size,
-- for a client with its own camera own_sc_prev.
structure Seen where
  cells : Buffer
  dimx : Int
  dimy : Int

def Seen.after (p : Seen) (c : Capture) : Seen :=
  ⟨p.cells.copy c.cells c.size.total, c.size.w, c.size.h⟩

-- memcpy, or the loops of fill_screen_buffer
def copySteps (c : Capture) : List (Write Nat Cell) :=
  (List.range c.size.total).map fun t => .store t (c.cells t)

-- The tiles whose eight bytes differ.
def differing (p : Seen) (c : Capture) : List Nat :=
  (List.range c.size.total).filter fun t => c.cells t ≠ p.cells t

-- The entries of mod.
@[irreducible] def allTiles : List Nat := List.range (256 * 256)

theorem mem_allTiles {t : Nat} : t ∈ allTiles ↔ t < 256 * 256 := by
  unfold allTiles
  exact List.mem_range

def Seen.resized (p : Seen) (c : Capture) : Bool :=
  (c.size.w : Int) ≠ p.dimx || (c.size.h : Int) ≠ p.dimy

-- capture_screen_buffer for a client that shares the viewport, where another
-- size is answered by memset of the whole array, and the per-client pass for
-- one that has its own.
def markSteps (own : Bool) (p : Seen) (c : Capture) : List (Write Nat Cell) :=
  (if !own && p.resized c then allTiles else differing p c).map .clear

def mainSteps (own : Bool) : Seen → List Capture → List (Write Nat Cell)
  | _, [] => []
  | p, c :: cs => copySteps c ++ (markSteps own p c ++ mainSteps own (p.after c) cs)

-- The tiles in the order of the loops of tock.
def tockSteps (z : Size) : List Nat := (Grid.rows z.w z.h).map fun p => Grid.index z.h p.1 p.2

-- The other three components are what the page was last sent of each tile
-- and the programs.
def Client.relay (cl : Client) (page : Nat → Option Cell) (writer : List (Write Nat Cell))
    (reader : List Nat) : Relay Nat Cell :=
  { cells := cl.ownSc
    clean := fun t => cl.mod t ≠ 0
    sent := page
    writer := writer
    reader := reader
    held := none }

def State.seen (st : State) (cl : Client) : Seen :=
  if cl.hasOwnCam then ⟨cl.ownScPrev, st.scPrevDimx, st.scPrevDimy⟩
  else ⟨st.scPrev, st.scPrevDimx, st.scPrevDimy⟩

def race (st : State) (cl : Client) (page : Nat → Option Cell) (cs : List Capture)
    (tocks : List Size) : Relay Nat Cell :=
  cl.relay page (mainSteps cl.hasOwnCam (st.seen cl) cs) (tocks.flatMap tockSteps)

section Alone

-- Without the other thread the steps add up to what the functions do.

variable (cl : Client) (page : Nat → Option Cell) (later : List (Write Nat Cell))
  (reader : List Nat)

theorem clean_markChanged (mod : Nat → UInt8) (c : Capture) (p : Seen) :
    (fun t => decide (mod t ≠ 0) && t ∉ differing p c) =
      fun t => decide (markChanged mod c.cells p.cells c.size.total t ≠ 0) := by
  funext t
  simp only [markChanged, differing, List.mem_filter, List.mem_range, decide_eq_true_eq]
  by_cases h : t < c.size.total ∧ c.cells t ≠ p.cells t
  · simp [h]
  · simp [h]

theorem clean_clearMod :
    (fun t => decide (cl.mod t ≠ 0) && t ∉ allTiles) =
      fun t => decide (cl.clearMod.mod t ≠ 0) := by
  funext t
  simp only [Client.clearMod, mem_allTiles]
  split
  · rename_i ht
    simp [ht]
  · rename_i ht
    simp [ht]

theorem exec_copySteps (c : Capture) :
    threads.exec (cl.relay page (copySteps c ++ later) reader)
        (List.replicate c.size.total .writer) =
      { cl with ownSc := cl.ownSc.copy c.cells c.size.total }.relay page later reader := by
  have h := exec_stores (cl.relay page (copySteps c ++ later) reader) later c.cells
    (List.range c.size.total) rfl
  rw [List.length_range] at h
  rw [h]
  simp only [Client.relay, List.mem_range]
  rfl

theorem exec_differing (p : Seen) (c : Capture) :
    threads.exec (cl.relay page ((differing p c).map .clear ++ later) reader)
        (List.replicate (differing p c).length .writer) =
      { cl with mod := markChanged cl.mod c.cells p.cells c.size.total }.relay page later reader := by
  rw [exec_clears _ later (differing p c) rfl]
  simp only [Client.relay, clean_markChanged]

theorem exec_wipe :
    threads.exec (cl.relay page (allTiles.map .clear ++ later) reader)
        (List.replicate allTiles.length .writer) = cl.clearMod.relay page later reader := by
  have hsc : cl.clearMod.ownSc = cl.ownSc := rfl
  rw [exec_clears _ later allTiles rfl]
  simp only [Client.relay, clean_clearMod, hsc]

theorem length_captureSteps (own : Bool) (p : Seen) (c : Capture) :
    (copySteps c ++ markSteps own p c).length = c.size.total + (markSteps own p c).length := by
  simp [copySteps]

theorem exec_share (p : Seen) (c : Capture) (hown : cl.hasOwnCam = false) :
    threads.exec (cl.relay page (copySteps c ++ (markSteps false p c ++ later)) reader)
        (List.replicate (copySteps c ++ markSteps false p c).length .writer) =
      (cl.share c.cells p.cells (p.resized c) c.size.total).relay page later reader := by
  rw [length_captureSteps, List.replicate_add, Machine.exec_append, exec_copySteps]
  unfold markSteps Client.share
  rw [List.length_map]
  simp only [Bool.not_false, Bool.true_and, hown, Bool.false_eq_true, if_false]
  by_cases hr : p.resized c = true
  · rw [if_pos hr, if_pos hr]
    exact exec_wipe { cl with ownSc := cl.ownSc.copy c.cells c.size.total } page later reader
  · rw [if_neg hr, if_neg hr]
    exact exec_differing { cl with ownSc := cl.ownSc.copy c.cells c.size.total } page later reader p c

theorem exec_pass (p : Seen) (c : Capture) (hp : p.cells = cl.ownScPrev) :
    threads.exec (cl.relay page (copySteps c ++ (markSteps true p c ++ later)) reader)
        (List.replicate (copySteps c ++ markSteps true p c).length .writer) =
      (Client.diffOwn c.size.total
        { cl with ownSc := cl.ownSc.copy c.cells c.size.total }).relay page later reader := by
  have hmod : markChanged cl.mod (cl.ownSc.copy c.cells c.size.total) cl.ownScPrev c.size.total =
      markChanged cl.mod c.cells p.cells c.size.total := by
    funext t
    by_cases ht : t < c.size.total
    · simp [markChanged, Buffer.copy, ht, hp]
    · simp [markChanged, ht]
  rw [length_captureSteps, List.replicate_add, Machine.exec_append, exec_copySteps]
  unfold markSteps Client.diffOwn
  simp only [Bool.not_true, Bool.false_and, Bool.false_eq_true, if_false, List.length_map, hmod]
  exact exec_differing _ page later reader p c

-- What tock appends to the packet of a tile is what the page is sent of it.
theorem exec_tock (writer : List (Write Nat Cell)) (z : Size) (rest : List Nat) (bytes : Bytes)
    (hroom : bytes.length + 9 * (z.w * z.h) ≤ bufSize) :
    let packet := tockTiles cl.ownSc z.w z.h ⟨bytes, cl.mod⟩
    packet.bytes = bytes ++ (dirty cl.mod z.w z.h).flatMap (fun p =>
      tileRecord p.1 p.2 (cl.ownSc (Grid.index z.h p.1 p.2))) ∧
    threads.exec (cl.relay page writer (tockSteps z ++ rest))
        (lookSteps (fun t => cl.mod t ≠ 0) (tockSteps z)) =
      { cl with mod := packet.mod }.relay
        (fun t => if t ∈ tockSteps z ∧ cl.mod t = 0 then some (cl.ownSc t) else page t)
        writer rest := by
  have hloop : tockTiles cl.ownSc z.w z.h ⟨bytes, cl.mod⟩ = _ :=
    (tockTiles_eq_foldl cl.ownSc z.h z.w ⟨bytes, cl.mod⟩ hroom).trans
      (foldl_tileStep cl.ownSc z.h (Grid.rows z.w z.h) ⟨bytes, cl.mod⟩ (Grid.nodup_rows_index z.w z.h))
  have hsteps : (Grid.rows z.w z.h).map (fun p => Grid.index z.h p.1 p.2) = tockSteps z := rfl
  rw [hloop, hsteps]
  refine ⟨rfl, ?_⟩
  have hlook := exec_looks (cl.relay page writer (tockSteps z ++ rest)) (tockSteps z) rest
    (Grid.nodup_rows_index z.w z.h) rfl rfl
  refine hlook.trans ?_
  unfold Client.relay
  congr 1
  · funext t
    by_cases ht : t ∈ tockSteps z
    · by_cases hm : cl.mod t = 0
      · simp [ht, hm]
      · simp [ht, hm]
    · simp [ht]
  · funext t
    simp

end Alone

section Functions

variable {st : State} {hdl : Handle} {cl : Client}

def screenSize (gps : Gps) (hk : sizeOk gps = true) : Size where
  w := gps.dimx.toNat
  h := gps.dimy.toNat
  w_ok := by
    have h := (sizeOk_iff gps).mp hk
    omega
  h_ok := by
    have h := (sizeOk_iff gps).mp hk
    omega

theorem resized_screenSize (hk : sizeOk st.game.gps = true) (cells : Buffer)
    (hown : cl.hasOwnCam = false) :
    (st.seen cl).resized ⟨screenSize st.game.gps hk, cells⟩ =
      (st.game.gps.dimx ≠ st.scPrevDimx || st.game.gps.dimy ≠ st.scPrevDimy) := by
  have h := (sizeOk_iff st.game.gps).mp hk
  have hx : (st.game.gps.dimx.toNat : Int) = st.game.gps.dimx := Int.toNat_of_nonneg (by omega)
  have hy : (st.game.gps.dimy.toNat : Int) = st.game.gps.dimy := Int.toNat_of_nonneg (by omega)
  simp [Seen.resized, State.seen, hown, screenSize, hx, hy]

-- The client after capture_screen_buffer.
theorem exec_capture (page : Nat → Option Cell) (later : List (Write Nat Cell)) (reader : List Nat)
    {screen : Nat → Glyph} (hs : st.game.gps.screen = some screen)
    (hk : sizeOk st.game.gps = true) (hcl : st.clients.find? hdl = some cl)
    (hown : cl.hasOwnCam = false) :
    let c : Capture := ⟨screenSize st.game.gps hk, (fillScreenBuffer st.game st.sc).2⟩
    (captureScreenBuffer st).clients.find? hdl =
      some (cl.share c.cells st.scPrev ((st.seen cl).resized c) c.size.total) ∧
    threads.exec (cl.relay page (copySteps c ++ (markSteps false (st.seen cl) c ++ later)) reader)
        (List.replicate (copySteps c ++ markSteps false (st.seen cl) c).length .writer) =
      (cl.share c.cells st.scPrev ((st.seen cl).resized c) c.size.total).relay page later reader := by
  have hseen : (st.seen cl).cells = st.scPrev := by simp [State.seen, hown]
  refine ⟨?_, ?_⟩
  · rw [captureScreenBuffer_ready hs hk, resized_screenSize hk _ hown,
      fillScreenBuffer_ready st.game st.sc screen hs hk, Size.total]
    simp only [OrdMap.find?_mapVals, hcl, Option.map_some, screenSize, total_eq _ hk]
  · rw [← hseen]
    exact exec_share cl page later reader (st.seen cl) _ hown

-- The client after its pass, whatever the pass has drawn.
theorem exec_renderPass (df : Df) (sc : Buffer) (mouseTile : Int × Int) (save : Camera) (g : Game)
    (page : Nat → Option Cell) (later : List (Write Nat Cell)) (reader : List Nat)
    (hk : sizeOk g.gps = true) (hown : cl.hasOwnCam = true) :
    ∃ c : Capture, c.size = screenSize g.gps hk ∧
      threads.exec (cl.relay page (copySteps c ++ (markSteps true (st.seen cl) c ++ later)) reader)
          (List.replicate (copySteps c ++ markSteps true (st.seen cl) c).length .writer) =
        (renderPass df sc mouseTile save (total g.gps) hdl cl g).1.relay page later reader := by
  have hseen : (st.seen cl).cells = cl.ownScPrev := by simp [State.seen, hown]
  have htotal : (screenSize g.gps hk).total = total g.gps := (total_eq g.gps hk).symm
  unfold renderPass
  rw [if_neg (by simp [hown])]
  by_cases hcam : cl.cam = save
  · rw [if_pos hcam]
    refine ⟨⟨screenSize g.gps hk, sc⟩, rfl, ?_⟩
    rw [exec_pass cl page later reader (st.seen cl) _ hseen, htotal]
  · rw [if_neg hcam]
    let drawn := drawFor (df.render hdl) mouseTile save cl.cam g
    obtain ⟨hx, hy⟩ := drawFor_dims mouseTile save (df.render hdl) cl.cam g
    have hdrawn : total drawn.gps = total g.gps := by
      unfold total
      rw [hx, hy]
    -- the fill writes the first tiles or none
    have hcopy : cl.ownSc.copy (fillScreenBuffer drawn cl.ownSc).2 (total g.gps) =
        (fillScreenBuffer drawn cl.ownSc).2 := by
      rcases ready_or_not drawn.gps with ⟨screen, hs, hk'⟩ | h
      · rw [fillScreenBuffer_ready drawn cl.ownSc screen hs hk', hdrawn]
        funext t
        by_cases ht : t < total g.gps
        · simp [Buffer.copy, ht]
        · simp [Buffer.copy, ht]
      · rw [fillScreenBuffer_not_ready drawn cl.ownSc h]
        funext t
        simp [Buffer.copy]
    refine ⟨⟨screenSize g.gps hk, (fillScreenBuffer drawn cl.ownSc).2⟩, rfl, ?_⟩
    rw [exec_pass cl page later reader (st.seen cl) _ hseen, htotal, hcopy]
    rfl

end Functions

section Program

variable {i : Nat}

theorem mem_markSteps {own : Bool} {p : Seen} {c : Capture} (hi : i < c.size.total)
    (hne : c.cells i ≠ p.cells i) : .clear i ∈ markSteps own p c := by
  unfold markSteps
  refine List.mem_map.mpr ⟨i, ?_, rfl⟩
  split
  · exact mem_allTiles.mpr (Nat.lt_of_lt_of_le hi c.size.total_le)
  · exact List.mem_filter.mpr ⟨List.mem_range.mpr hi, by simpa using hne⟩

-- Where the buffer is what the main thread compares with.
theorem announced_mainSteps (own : Bool) (p : Seen) (cs : List Capture) :
    Announced i (p.cells i) (mainSteps own p cs) := by
  induction cs generalizing p with
  | nil => trivial
  | cons c cs ih =>
      refine announced_stores c.cells (List.range c.size.total) _ (fun hi hne => ?_) ?_
      · exact List.mem_append_left _ (mem_markSteps (List.mem_range.mp hi) hne)
      · have hnext := ih (p.after c)
        simp only [List.mem_range]
        exact (announced_clears _ _).mpr hnext

theorem lateAnnounced_mainSteps (own : Bool) (p : Seen) (cs : List Capture) :
    LateAnnounced i (mainSteps own p cs) := by
  induction cs generalizing p with
  | nil => trivial
  | cons c cs ih =>
      refine lateAnnounced_stores c.cells (List.range c.size.total) _ (fun hi => ?_) fun _ => ?_
      · have hnext := announced_mainSteps (i := i) own (p.after c) cs
        have hcell : (p.after c).cells i = c.cells i := if_pos (List.mem_range.mp hi)
        rw [hcell] at hnext
        exact (announced_clears _ _).mpr hnext
      · exact (lateAnnounced_clears _ _).mpr (ih (p.after c))

end Program

-- Captures and tocks of one client interleaved in any way, from any state in
-- which what is marked was sent as it is.
theorem race_loses_nothing_iff (st : State) (cl : Client) (page : Nat → Option Cell)
    (cs : List Capture) (tocks : List Size) (es : List Thread)
    (hpage : ∀ t, cl.mod t ≠ 0 → page t = some (cl.ownSc t))
    (hdone : (threads.exec (race st cl page cs tocks) es).Done) :
    (threads.exec (race st cl page cs tocks) es).UpToDate ↔
      threads.Each Timely (race st cl page cs tocks) es := by
  have htidy : (race st cl page cs tocks).Tidy := by
    intro i
    refine Or.inr ⟨lateAnnounced_mainSteps cl.hasOwnCam (st.seen cl) cs, fun h => ?_⟩
    cases h
  have hsettled : (race st cl page cs tocks).Settled := by
    intro i hi
    exact Or.inl (hpage i (by simpa [race, Client.relay] using hi))
  exact upToDate_iff_timely htidy hsettled hdone

namespace Sample

-- The active player before its first frame, and a screen of one tile.
def player : Client := { Client.new 1 with hasOwnCam := true }

def onlyTile : Size := ⟨1, 1, by decide, by decide⟩

def drawn : Capture := ⟨onlyTile, fun _ => { Cell.zero with ch := 64 }⟩

end Sample

-- The first tock is over when the tick begins.
theorem race_loses_nothing_iff_sample :
    (threads.exec (race Sample.start Sample.player (fun _ => none) [Sample.drawn] [Sample.onlyTile])
      [.reader, .reader, .writer, .writer]).UpToDate := by
  refine (race_loses_nothing_iff Sample.start Sample.player (fun _ => none) [Sample.drawn]
    [Sample.onlyTile] [.reader, .reader, .writer, .writer] (fun _ h => absurd rfl h)
    ⟨rfl, rfl, rfl⟩).mpr ⟨?_, ?_, ?_, ?_, trivial⟩
  · intro i h
    cases h
  · intro i h
    cases h
    exact Or.inl rfl
  · intro i a rest h _
    cases h
    exact Or.inr List.mem_cons_self
  · intro i a rest h
    cases h

-- The tick falls between the bytes tock reads and the mark it sets.
theorem late_mark_loses_update :
    let s := race Sample.start Sample.player (fun _ => none) [Sample.drawn] [Sample.onlyTile]
    let es : List Thread := [.reader, .writer, .writer, .reader]
    (∀ t, Sample.player.mod t ≠ 0 → (none : Option Cell) = some (Sample.player.ownSc t)) ∧
    (threads.exec s es).Done ∧ ¬(threads.exec s es).UpToDate := by
  refine ⟨fun _ h => absurd rfl h, ⟨rfl, rfl, rfl⟩, fun h => ?_⟩
  have hsent : some Cell.zero = some { Cell.zero with ch := 64 } := h 0 rfl
  exact absurd hsent (by decide)

end WebFort
