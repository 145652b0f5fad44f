import WebFort.Server.Packet
import WebFort.Update.Frames
import WebFort.Sample
import Mathlib.Data.Finset.Card

namespace WebFort

open Library

-- The arrays with an entry for each tile: mod of a client has 256*256 bytes,
-- the others have eight bytes a tile.
inductive TileArray
  | sc
  | scPrev
  | ownSc
  | ownScPrev
  | mod
  deriving DecidableEq

structure Access where
  array : TileArray
  tile : Nat
  deriving DecidableEq

def arrayTiles : Nat := 256 * 256

def Access.InRange (a : Access) : Prop := a.tile < arrayTiles

section Accesses

-- memcpy, or a loop over the first tiles
def touch (array : TileArray) (n : Nat) : List Access := (List.range n).map fun t => ⟨array, t⟩

-- The bytes of mod cleared because eight bytes of a tile differ.
def touchChanged (cur prev : Buffer) (n : Nat) : List Access :=
  ((List.range n).filter fun t => cur t ≠ prev t).map fun t => ⟨.mod, t⟩

def fillAccesses (gps : Gps) (dst : TileArray) : List Access :=
  match gps.screen with
  | none => []
  | some _ =>
      if sizeOk gps then
        (Grid.columns gps.dimx.toNat gps.dimy.toNat).map fun p =>
          ⟨dst, Grid.index gps.dimy.toNat p.1 p.2⟩
      else []

def shareAccesses (sc scPrev : Buffer) (dimsChanged : Bool) (total : Nat) (cl : Client) :
    List Access :=
  if cl.hasOwnCam then []
  else
    touch .ownSc total ++ touch .sc total ++
      if dimsChanged then touch .mod arrayTiles
      else touch .sc total ++ touch .scPrev total ++ touchChanged sc scPrev total

def captureAccesses (st : State) : List Access :=
  match st.game.gps.screen with
  | none => []
  | some _ =>
      if sizeOk st.game.gps then
        let dimsChanged : Bool :=
          st.game.gps.dimx ≠ st.scPrevDimx || st.game.gps.dimy ≠ st.scPrevDimy
        let sc := (fillScreenBuffer st.game st.sc).2
        let total := total st.game.gps
        fillAccesses st.game.gps .sc ++
          (st.clients.entries.flatMap fun e =>
            shareAccesses sc st.scPrev dimsChanged total e.2) ++
          touch .scPrev total ++ touch .sc total
      else []

-- const int total = gps->dimx * gps->dimy, without any bound on the sizes.
def passTotal (gps : Gps) : Int := int32 (gps.dimx * gps.dimy)

def passAccesses (df : Df) (sc : Buffer) (mouseTile : Int × Int) (save : Camera) (total : Nat)
    (hdl : Handle) (cl : Client) (g : Game) : List Access :=
  if !cl.hasOwnCam then []
  else
    (if cl.cam = save then touch .ownSc total ++ touch .sc total else fillAccesses g.gps .ownSc) ++
      touch .ownSc total ++ touch .ownScPrev total ++
      touchChanged (renderPass df sc mouseTile save total hdl cl g).1.ownSc cl.ownScPrev total

def passesAccesses (df : Df) (sc : Buffer) (mouseTile : Int × Int) (save : Camera) (total : Nat) :
    List (Handle × Client) → Game → List Access
  | [], _ => []
  | e :: rest, g =>
      passAccesses df sc mouseTile save total e.1 e.2 g ++
        passesAccesses df sc mouseTile save total rest
          (renderPass df sc mouseTile save total e.1 e.2 g).2

def renderAccesses (df : Df) (st : State) : List Access :=
  if passTotal st.game.gps > 0 then
    passesAccesses df st.sc (st.mouseTileX, st.mouseTileY) st.game.window
      (passTotal st.game.gps).toNat st.clients.entries st.game
  else []

-- The inner loop of tock, as tockRow goes through it.
def rowAccesses (src : Buffer) (dimy y : Nat) : List Nat → TileLoop → List Access
  | [], _ => []
  | x :: xs, acc =>
      let tile := Grid.index dimy x y
      ⟨.mod, tile⟩ ::
        if acc.mod tile ≠ 0 then rowAccesses src dimy y xs acc
        else if acc.bytes.length + 9 > bufSize then []
        else ⟨.ownSc, tile⟩ :: ⟨.mod, tile⟩ :: rowAccesses src dimy y xs
          ⟨acc.bytes ++ tileRecord x y (src tile), Function.update acc.mod tile 1⟩

def rowsAccesses (src : Buffer) (dimx dimy : Nat) : List Nat → TileLoop → List Access
  | [], _ => []
  | y :: ys, acc =>
      rowAccesses src dimy y (List.range dimx) acc ++
        rowsAccesses src dimx dimy ys (tockRow src dimy y (List.range dimx) acc)

def packetAccesses (hdl : Handle) (st : State) (cl activeCl : Client) (timeLeft : Int) :
    List Access :=
  rowsAccesses cl.ownSc st.game.gps.dimx.toNat st.game.gps.dimy.toNat
    (List.range st.game.gps.dimy.toNat) (tockStart hdl st cl activeCl timeLeft)

def tockAccesses (hdl : Handle) (st : State) : List Access :=
  packetAccesses hdl (turnPart st) ((turnPart st).getClient hdl) st.getActive
    (getTimeLeft (idleTimer st).state).1

def updateAccesses (df : Df) (st : State) : List Access :=
  let ready := (applyInput df st).state
  captureAccesses ready ++ renderAccesses df (captureScreenBuffer ready)

def accesses (st : State) : Event → List Access
  | .update g df => updateAccesses df (st.atGame g)
  | .message hdl payload => if parseMessage payload = .update then tockAccesses hdl st else []
  | _ => []

end Accesses

section Capture

variable {a : Access} {n m : Nat}

theorem touch_inRange {array : TileArray} (h : n ≤ arrayTiles) (ha : a ∈ touch array n) :
    a.InRange := by
  obtain ⟨t, ht, rfl⟩ := List.mem_map.mp ha
  exact Nat.lt_of_lt_of_le (List.mem_range.mp ht) h

theorem touchChanged_inRange {cur prev : Buffer} (h : n ≤ arrayTiles)
    (ha : a ∈ touchChanged cur prev n) : a.InRange := by
  obtain ⟨t, ht, rfl⟩ := List.mem_map.mp ha
  exact Nat.lt_of_lt_of_le (List.mem_range.mp (List.mem_filter.mp ht).1) h

theorem fillAccesses_inRange {gps : Gps} {dst : TileArray} (ha : a ∈ fillAccesses gps dst) :
    a.InRange := by
  unfold fillAccesses at ha
  split at ha
  · cases ha
  · split at ha
    · rename_i hk
      obtain ⟨p, hp, rfl⟩ := List.mem_map.mp ha
      obtain ⟨hx, hy⟩ := Grid.mem_columns.mp hp
      have hlt := Grid.index_lt hx hy
      rw [← total_eq gps hk] at hlt
      exact Nat.lt_of_lt_of_le hlt (total_bounds hk).2
    · cases ha

theorem shareAccesses_inRange {sc scPrev : Buffer} {dimsChanged : Bool} {cl : Client}
    (h : n ≤ arrayTiles) (ha : a ∈ shareAccesses sc scPrev dimsChanged n cl) : a.InRange := by
  unfold shareAccesses at ha
  split at ha
  · cases ha
  · split at ha
    · simp only [List.mem_append] at ha
      rcases ha with (ha | ha) | ha
      · exact touch_inRange h ha
      · exact touch_inRange h ha
      · exact touch_inRange (Nat.le_refl _) ha
    · simp only [List.mem_append] at ha
      rcases ha with (ha | ha) | (ha | ha) | ha
      · exact touch_inRange h ha
      · exact touch_inRange h ha
      · exact touch_inRange h ha
      · exact touch_inRange h ha
      · exact touchChanged_inRange h ha

-- The guard of capture_screen_buffer covers everything behind it.
theorem captureAccesses_inRange {st : State} (ha : a ∈ captureAccesses st) : a.InRange := by
  unfold captureAccesses at ha
  split at ha
  · cases ha
  · split at ha
    · rename_i hk
      have htotal : total st.game.gps ≤ arrayTiles := (total_bounds hk).2
      simp only [List.mem_append, List.mem_flatMap] at ha
      rcases ha with ((ha | ⟨e, -, ha⟩) | ha) | ha
      · exact fillAccesses_inRange ha
      · exact shareAccesses_inRange htotal ha
      · exact touch_inRange htotal ha
      · exact touch_inRange htotal ha
    · cases ha

end Capture

section Written

variable {t n : Nat}

theorem mem_touch {array array' : TileArray} :
    ⟨array, t⟩ ∈ touch array' n ↔ array = array' ∧ t < n := by
  simp only [touch, List.mem_map, List.mem_range, Access.mk.injEq]
  exact ⟨fun ⟨u, hu, harray, htile⟩ => ⟨harray.symm, htile ▸ hu⟩,
    fun ⟨harray, ht⟩ => ⟨t, ht, harray.symm, rfl⟩⟩

theorem mem_touchChanged {array : TileArray} {cur prev : Buffer} :
    ⟨array, t⟩ ∈ touchChanged cur prev n ↔ array = .mod ∧ t < n ∧ cur t ≠ prev t := by
  simp only [touchChanged, List.mem_map, List.mem_filter, List.mem_range, Access.mk.injEq,
    decide_eq_true_eq]
  exact ⟨fun ⟨u, hu, harray, htile⟩ => ⟨harray.symm, htile ▸ hu⟩,
    fun ⟨harray, ht⟩ => ⟨t, ht, harray.symm, rfl⟩⟩

theorem copy_written {dst src : Buffer} (h : dst.copy src n t ≠ dst t) : t < n := by
  by_contra ht
  exact h (by simp [Buffer.copy, ht])

theorem markChanged_written {mod : Nat → UInt8} {cur prev : Buffer}
    (h : markChanged mod cur prev n t ≠ mod t) : t < n ∧ cur t ≠ prev t := by
  by_contra ht
  exact h (if_neg ht)

-- These are the accesses of the functions: an entry that changes is among
-- them, and one that is among them has been set.
theorem share_written {sc scPrev : Buffer} {dimsChanged : Bool} {cl : Client} :
    ((cl.share sc scPrev dimsChanged n).ownSc t ≠ cl.ownSc t →
        ⟨.ownSc, t⟩ ∈ shareAccesses sc scPrev dimsChanged n cl) ∧
      ((cl.share sc scPrev dimsChanged n).mod t ≠ cl.mod t →
        ⟨.mod, t⟩ ∈ shareAccesses sc scPrev dimsChanged n cl) := by
  unfold Client.share shareAccesses
  cases cl.hasOwnCam with
  | true => simp
  | false =>
      cases dimsChanged with
      | true =>
          simp only [Bool.false_eq_true, if_false, if_true, List.mem_append, mem_touch, true_and]
          refine ⟨fun h => Or.inl (Or.inl (copy_written h)), fun h => Or.inr ?_⟩
          by_contra ht
          exact h (if_neg ht)
      | false =>
          simp only [Bool.false_eq_true, if_false, List.mem_append, mem_touch, mem_touchChanged,
            true_and]
          exact ⟨fun h => Or.inl (Or.inl (copy_written h)),
            fun h => Or.inr (Or.inr (markChanged_written h))⟩

theorem share_listed {sc scPrev : Buffer} {dimsChanged : Bool} {cl : Client} :
    (⟨.ownSc, t⟩ ∈ shareAccesses sc scPrev dimsChanged n cl →
        (cl.share sc scPrev dimsChanged n).ownSc t = sc t) ∧
      (⟨.mod, t⟩ ∈ shareAccesses sc scPrev dimsChanged n cl →
        (cl.share sc scPrev dimsChanged n).mod t = 0) := by
  unfold Client.share shareAccesses
  cases cl.hasOwnCam with
  | true => simp
  | false =>
      cases dimsChanged with
      | true =>
          simp only [Bool.false_eq_true, if_false, if_true, List.mem_append, mem_touch,
            reduceCtorEq, false_and, or_false, false_or, true_and]
          exact ⟨fun ht => if_pos ht, fun ht => if_pos ht⟩
      | false =>
          simp only [Bool.false_eq_true, if_false, List.mem_append, mem_touch, mem_touchChanged,
            reduceCtorEq, false_and, or_false, false_or, true_and]
          exact ⟨fun ht => if_pos ht, fun ht => if_pos ht⟩

theorem mem_fillAccesses {gps : Gps} {array dst : TileArray} :
    ⟨array, t⟩ ∈ fillAccesses gps dst ↔
      array = dst ∧ gps.screen.isSome ∧ sizeOk gps = true ∧ t < total gps := by
  unfold fillAccesses
  cases gps.screen with
  | none => simp
  | some screen =>
      by_cases hk : sizeOk gps = true
      · have hcolumns : (∃ p ∈ Grid.columns gps.dimx.toNat gps.dimy.toNat,
            Grid.index gps.dimy.toNat p.1 p.2 = t) ↔ t < total gps := by
          rw [total_eq gps hk]
          constructor
          · rintro ⟨p, hp, rfl⟩
            exact Grid.index_lt (Grid.mem_columns.mp hp).1 (Grid.mem_columns.mp hp).2
          · intro ht
            obtain ⟨x, y, hx, hy, hindex⟩ := Grid.exists_index ht
            exact ⟨(x, y), Grid.mem_columns.mpr ⟨hx, hy⟩, hindex.symm⟩
        rw [if_pos hk, ← hcolumns]
        simp only [List.mem_map, Access.mk.injEq, Option.isSome_some, hk, true_and]
        exact ⟨fun ⟨p, hp, harray, htile⟩ => ⟨harray.symm, p, hp, htile⟩,
          fun ⟨harray, p, hp, htile⟩ => ⟨p, hp, harray.symm, htile⟩⟩
      · simp [hk]

-- The two screens of the server. Where nothing is drawn nothing is accessed.
theorem capture_written {st : State} :
    ((captureScreenBuffer st).sc t ≠ st.sc t → ⟨.sc, t⟩ ∈ captureAccesses st) ∧
      ((captureScreenBuffer st).scPrev t ≠ st.scPrev t → ⟨.scPrev, t⟩ ∈ captureAccesses st) := by
  rcases ready_or_not st.game.gps with ⟨screen, hs, hk⟩ | h
  · rw [captureScreenBuffer_ready hs hk]
    unfold captureAccesses
    simp only [hs, hk, if_true, List.mem_append]
    exact ⟨fun h => Or.inr (mem_touch.mpr ⟨rfl, copy_written h⟩),
      fun h => Or.inl (Or.inr (mem_touch.mpr ⟨rfl, copy_written h⟩))⟩
  · rw [captureScreenBuffer_not_ready h]
    exact ⟨fun h => absurd rfl h, fun h => absurd rfl h⟩

theorem renderPass_written (df : Df) (sc : Buffer) (mouseTile : Int × Int) (save : Camera)
    (hdl : Handle) (cl : Client) (g : Game)
    (h : (renderPass df sc mouseTile save n hdl cl g).1.mod t ≠ cl.mod t) :
    ⟨.mod, t⟩ ∈ passAccesses df sc mouseTile save n hdl cl g := by
  cases hown : cl.hasOwnCam with
  | false =>
      rw [renderPass_shared _ _ _ _ _ hdl g hown] at h
      exact absurd rfl h
  | true =>
      obtain ⟨own, hr⟩ := renderPass_own df sc mouseTile save n hdl g hown
      unfold passAccesses
      rw [hr] at h ⊢
      simp only [hown, Bool.not_true, Bool.false_eq_true, if_false, List.mem_append,
        mem_touchChanged, true_and]
      exact Or.inr (markChanged_written h)

theorem renderPass_listed (df : Df) (sc : Buffer) (mouseTile : Int × Int) (save : Camera)
    (hdl : Handle) (cl : Client) (g : Game) :
    (⟨.mod, t⟩ ∈ passAccesses df sc mouseTile save n hdl cl g →
        (renderPass df sc mouseTile save n hdl cl g).1.mod t = 0) ∧
      (⟨.ownScPrev, t⟩ ∈ passAccesses df sc mouseTile save n hdl cl g →
        (renderPass df sc mouseTile save n hdl cl g).1.ownScPrev t =
          (renderPass df sc mouseTile save n hdl cl g).1.ownSc t) := by
  cases hown : cl.hasOwnCam with
  | false => simp [passAccesses, hown]
  | true =>
      have hframe : ∀ array, array ≠ TileArray.ownSc → array ≠ TileArray.sc → ⟨array, t⟩ ∉
          if cl.cam = save then touch .ownSc n ++ touch .sc n else fillAccesses g.gps .ownSc := by
        intro array hown hsc
        split
        · simp [mem_touch, hown, hsc]
        · simp [mem_fillAccesses, hown]
      obtain ⟨own, hr⟩ := renderPass_own df sc mouseTile save n hdl g hown
      unfold passAccesses
      simp only [hr, hown, Bool.not_true, Bool.false_eq_true, if_false, List.mem_append, mem_touch,
        mem_touchChanged, hframe .mod (by decide) (by decide),
        hframe .ownScPrev (by decide) (by decide), reduceCtorEq, false_and, or_false, false_or,
        true_and]
      exact ⟨fun ht => if_pos ht, fun ht => if_pos ht⟩

section Row

variable {src : Buffer} {h y x : Nat} {xs : List Nat} {acc : TileLoop}

def TileLoop.sent (src : Buffer) (h y x : Nat) (acc : TileLoop) : TileLoop :=
  ⟨acc.bytes ++ tileRecord x y (src (Grid.index h x y)),
    Function.update acc.mod (Grid.index h x y) 1⟩

-- What the inner loop does about a tile, and what it accesses for it.
inductive RowStep (src : Buffer) (h y x : Nat) (xs : List Nat) (acc : TileLoop) : Prop
  | skip (marked : acc.mod (Grid.index h x y) ≠ 0)
      (row : tockRow src h y (x :: xs) acc = tockRow src h y xs acc)
      (accesses : rowAccesses src h y (x :: xs) acc =
        ⟨.mod, Grid.index h x y⟩ :: rowAccesses src h y xs acc)
  | full (unmarked : acc.mod (Grid.index h x y) = 0) (stops : acc.bytes.length + 9 > bufSize)
      (row : tockRow src h y (x :: xs) acc = acc)
      (accesses : rowAccesses src h y (x :: xs) acc = [⟨.mod, Grid.index h x y⟩])
  | send (unmarked : acc.mod (Grid.index h x y) = 0) (room : ¬acc.bytes.length + 9 > bufSize)
      (row : tockRow src h y (x :: xs) acc = tockRow src h y xs (acc.sent src h y x))
      (accesses : rowAccesses src h y (x :: xs) acc = ⟨.mod, Grid.index h x y⟩ ::
        ⟨.ownSc, Grid.index h x y⟩ :: ⟨.mod, Grid.index h x y⟩ ::
          rowAccesses src h y xs (acc.sent src h y x))

theorem rowStep (src : Buffer) (h y x : Nat) (xs : List Nat) (acc : TileLoop) :
    RowStep src h y x xs acc := by
  by_cases hm : acc.mod (Grid.index h x y) = 0
  · by_cases hfull : acc.bytes.length + 9 > bufSize
    · refine .full hm hfull ?_ ?_
      · simp only [tockRow, if_neg (not_not.mpr hm), if_pos hfull]
      · simp only [rowAccesses, if_neg (not_not.mpr hm), if_pos hfull]
    · refine .send hm hfull ?_ ?_
      · simp only [tockRow, if_neg (not_not.mpr hm), if_neg hfull, TileLoop.sent]
      · simp only [rowAccesses, if_neg (not_not.mpr hm), if_neg hfull, TileLoop.sent]
  · refine .skip hm ?_ ?_
    · simp only [tockRow, ne_eq, hm, not_false_eq_true, if_true]
    · simp only [rowAccesses, ne_eq, hm, not_false_eq_true, if_true]

theorem TileLoop.sent_mod (ht : t ≠ Grid.index h x y) : (acc.sent src h y x).mod t = acc.mod t :=
  Function.update_of_ne ht _ _

theorem TileLoop.sent_mod_self : (acc.sent src h y x).mod (Grid.index h x y) = 1 :=
  Function.update_self _ _ _

-- No tile is taken back; a packet that is full stays so.
def TileLoop.Done (acc : TileLoop) (t : Nat) : Prop :=
  acc.mod t ≠ 0 ∨ acc.bytes.length + 9 > bufSize

theorem TileLoop.sent_done (hd : acc.Done t ∨ t = Grid.index h x y) :
    (acc.sent src h y x).Done t := by
  by_cases ht : t = Grid.index h x y
  · rw [ht]
    exact Or.inl (by rw [sent_mod_self]; decide)
  · rcases hd.resolve_right ht with hm | hfull
    · exact Or.inl (by rwa [sent_mod ht])
    · refine Or.inr ?_
      simp only [sent, List.length_append]
      omega

theorem tockRow_done (hd : acc.Done t) : (tockRow src h y xs acc).Done t := by
  induction xs generalizing acc with
  | nil => exact hd
  | cons x xs ih =>
      cases rowStep src h y x xs acc with
      | skip _ row _ =>
          rw [row]
          exact ih hd
      | full _ _ row _ =>
          rw [row]
          exact hd
      | send _ _ row _ =>
          rw [row]
          exact ih (TileLoop.sent_done (Or.inl hd))

-- A tile whose mark is looked at is sent by then unless the packet is full.
theorem tockRow_listed (ha : ⟨.mod, t⟩ ∈ rowAccesses src h y xs acc) :
    (tockRow src h y xs acc).Done t := by
  induction xs generalizing acc with
  | nil => cases ha
  | cons x xs ih =>
      cases rowStep src h y x xs acc with
      | skip marked row accesses =>
          rw [accesses] at ha
          rw [row]
          rcases List.mem_cons.mp ha with hfirst | ha
          · obtain ⟨-, rfl⟩ := Access.mk.inj hfirst
            exact tockRow_done (Or.inl marked)
          · exact ih ha
      | full _ stops row _ =>
          rw [row]
          exact Or.inr stops
      | send _ _ row accesses =>
          rw [accesses] at ha
          rw [row]
          by_cases ht : t = Grid.index h x y
          · exact tockRow_done (TileLoop.sent_done (Or.inr ht))
          · exact ih (by simpa [ht] using ha)

theorem tockRow_kept (hm : acc.mod t ≠ 0) : (tockRow src h y xs acc).mod t = acc.mod t := by
  induction xs generalizing acc with
  | nil => rfl
  | cons x xs ih =>
      cases rowStep src h y x xs acc with
      | skip _ row _ =>
          rw [row]
          exact ih hm
      | full _ _ row _ => rw [row]
      | send unmarked _ row _ =>
          have hsame : (acc.sent src h y x).mod t = acc.mod t :=
            TileLoop.sent_mod fun ht => hm (ht ▸ unmarked)
          rw [row, ih (by rwa [hsame]), hsame]

theorem mod_of_ownSc (ha : ⟨.ownSc, t⟩ ∈ rowAccesses src h y xs acc) :
    ⟨.mod, t⟩ ∈ rowAccesses src h y xs acc := by
  induction xs generalizing acc with
  | nil => cases ha
  | cons x xs ih =>
      cases rowStep src h y x xs acc with
      | skip _ _ accesses =>
          rw [accesses] at ha ⊢
          exact List.mem_cons_of_mem _ (ih (by simpa using ha))
      | full _ _ _ accesses => simp [accesses] at ha
      | send _ _ _ accesses =>
          rw [accesses] at ha ⊢
          by_cases ht : t = Grid.index h x y
          · rw [ht]
            exact List.mem_cons_self
          · have hmod : ⟨.mod, t⟩ ∈ rowAccesses src h y xs (acc.sent src h y x) :=
              ih (by simpa [ht] using ha)
            simp [hmod]

-- The cells that are read are those of the tiles that are sent.
theorem tockRow_sent_iff :
    ⟨.ownSc, t⟩ ∈ rowAccesses src h y xs acc ↔ (tockRow src h y xs acc).mod t ≠ acc.mod t := by
  induction xs generalizing acc with
  | nil => simp [rowAccesses, tockRow]
  | cons x xs ih =>
      cases rowStep src h y x xs acc with
      | skip _ row accesses =>
          rw [row, accesses, ← ih]
          simp
      | full _ _ row accesses => simp [row, accesses]
      | send unmarked _ row accesses =>
          rw [row, accesses]
          by_cases ht : t = Grid.index h x y
          · have hone : (acc.sent src h y x).mod t = 1 := by rw [ht, TileLoop.sent_mod_self]
            rw [tockRow_kept (by rw [hone]; decide), hone, ht, unmarked]
            simp
          · have hsame : (acc.sent src h y x).mod t = acc.mod t := TileLoop.sent_mod ht
            rw [← hsame, ← ih]
            simp [ht]

end Row

theorem rows_mod_of_ownSc (src : Buffer) (w h : Nat) (ys : List Nat) (acc : TileLoop)
    (ha : ⟨.ownSc, t⟩ ∈ rowsAccesses src w h ys acc) :
    ⟨.mod, t⟩ ∈ rowsAccesses src w h ys acc := by
  induction ys generalizing acc with
  | nil => cases ha
  | cons y ys ih =>
      rcases List.mem_append.mp ha with ha | ha
      · exact List.mem_append_left _ (mod_of_ownSc ha)
      · exact List.mem_append_right _ (ih _ ha)

theorem rows_listed (src : Buffer) (w h : Nat) (ys : List Nat) (acc : TileLoop) :
    (acc.Done t ∨ ⟨.mod, t⟩ ∈ rowsAccesses src w h ys acc) →
      (ys.foldl (fun acc y => tockRow src h y (List.range w) acc) acc).Done t := by
  induction ys generalizing acc with
  | nil => simp [rowsAccesses]
  | cons y ys ih =>
      simp only [rowsAccesses, List.mem_append, List.foldl_cons]
      rintro (hd | ha | ha)
      · exact ih _ (Or.inl (tockRow_done hd))
      · exact ih _ (Or.inl (tockRow_listed ha))
      · exact ih _ (Or.inr ha)

theorem rows_kept (src : Buffer) (w h : Nat) (ys : List Nat) (acc : TileLoop)
    (hm : acc.mod t ≠ 0) :
    (ys.foldl (fun acc y => tockRow src h y (List.range w) acc) acc).mod t = acc.mod t := by
  induction ys generalizing acc with
  | nil => rfl
  | cons y ys ih =>
      have hrow : (tockRow src h y (List.range w) acc).mod t = acc.mod t := tockRow_kept hm
      rw [List.foldl_cons, ih _ (by rw [hrow]; exact hm), hrow]

theorem rows_sent_iff (src : Buffer) (w h : Nat) (ys : List Nat) (acc : TileLoop) :
    ⟨.ownSc, t⟩ ∈ rowsAccesses src w h ys acc ↔
      (ys.foldl (fun acc y => tockRow src h y (List.range w) acc) acc).mod t ≠ acc.mod t := by
  induction ys generalizing acc with
  | nil => simp [rowsAccesses]
  | cons y ys ih =>
      simp only [rowsAccesses, List.mem_append, List.foldl_cons, ih, tockRow_sent_iff]
      by_cases hm : acc.mod t = 0
      · by_cases hrow : (tockRow src h y (List.range w) acc).mod t = 0
        · rw [hrow, hm]
          simp
        · rw [rows_kept src w h ys _ hrow]
          simp
      · rw [tockRow_kept hm]
        simp

-- The packet of tock: what is read of own_sc is what is sent, and where mod
-- is looked at the tile has been sent by the end of the packet.
theorem tock_sent_iff (hdl : Handle) (st : State) :
    ⟨.ownSc, t⟩ ∈ tockAccesses hdl st ↔
      (tileLoop hdl st).mod t ≠ ((turnPart st).getClient hdl).mod t :=
  rows_sent_iff _ _ _ _ _

theorem tock_written (hdl : Handle) (st : State)
    (hw : (tileLoop hdl st).mod t ≠ ((turnPart st).getClient hdl).mod t) :
    ⟨.mod, t⟩ ∈ tockAccesses hdl st :=
  rows_mod_of_ownSc _ _ _ _ _ ((tock_sent_iff hdl st).mpr hw)

theorem tock_listed (hdl : Handle) (st : State) (ha : ⟨.mod, t⟩ ∈ tockAccesses hdl st) :
    (tileLoop hdl st).Done t :=
  rows_listed _ _ _ _ _ (Or.inr ha)

end Written

section Passes

variable (df : Df) (sc : Buffer) (mouseTile : Int × Int) (save : Camera) (n : Nat)

theorem passAccesses_inRange_iff (hdl : Handle) (cl : Client) (g : Game) :
    (∀ a ∈ passAccesses df sc mouseTile save n hdl cl g, a.InRange) ↔
      (cl.hasOwnCam = true → n ≤ arrayTiles) := by
  unfold passAccesses
  cases hown : cl.hasOwnCam with
  | false => simp
  | true =>
      simp only [Bool.not_true, Bool.false_eq_true, if_false, List.mem_append, true_implies]
      constructor
      · intro hall
        by_contra hlarge
        have hpast : (⟨.ownSc, arrayTiles⟩ : Access) ∈ touch .ownSc n :=
          List.mem_map.mpr ⟨arrayTiles, List.mem_range.mpr (by omega), rfl⟩
        exact Nat.lt_irrefl _ (hall _ (Or.inl (Or.inl (Or.inr hpast))))
      · rintro hn a (((ha | ha) | ha) | ha)
        · split at ha
          · rcases List.mem_append.mp ha with ha | ha
            · exact touch_inRange hn ha
            · exact touch_inRange hn ha
          · exact fillAccesses_inRange ha
        · exact touch_inRange hn ha
        · exact touch_inRange hn ha
        · exact touchChanged_inRange hn ha

theorem passesAccesses_inRange_iff (es : List (Handle × Client)) (g : Game) :
    (∀ a ∈ passesAccesses df sc mouseTile save n es g, a.InRange) ↔
      ∀ e ∈ es, e.2.hasOwnCam = true → n ≤ arrayTiles := by
  induction es generalizing g with
  | nil => simp [passesAccesses]
  | cons e es ih =>
      simp only [passesAccesses, List.forall_mem_append, List.forall_mem_cons, ih,
        passAccesses_inRange_iff]

end Passes

-- The loop of plugin_onupdate has no guard of its own.
def PassFits (st : State) : Prop :=
  ∀ hdl cl, st.clients.find? hdl = some cl → cl.hasOwnCam = true → passTotal st.game.gps ≤ 256 * 256

theorem renderAccesses_inRange_iff (df : Df) (st : State) :
    (∀ a ∈ renderAccesses df st, a.InRange) ↔ PassFits st := by
  unfold renderAccesses PassFits
  split
  · rename_i hpos
    have hle : (passTotal st.game.gps).toNat ≤ arrayTiles ↔ passTotal st.game.gps ≤ 256 * 256 := by
      unfold arrayTiles
      omega
    rw [passesAccesses_inRange_iff, hle]
    exact ⟨fun h hdl cl hcl => h (hdl, cl) ((st.clients.mem_entries_iff hdl cl).mpr hcl),
      fun h e he => h e.1 e.2 ((st.clients.mem_entries_iff e.1 e.2).mp he)⟩
  · simp only [List.not_mem_nil, false_implies, implies_true, true_iff]
    intro hdl cl _ _
    omega

section Packet

-- The tiles of the arrays that are still to be sent.
def unsent (mod : Nat → UInt8) : Nat := {t ∈ Finset.range arrayTiles | mod t = 0}.card

theorem unsent_le (mod : Nat → UInt8) : unsent mod ≤ arrayTiles := by
  have hle := Finset.card_filter_le (Finset.range arrayTiles) fun t => mod t = 0
  rwa [Finset.card_range] at hle

theorem unsent_update {mod : Nat → UInt8} {t : Nat} (ht : t < arrayTiles) (hm : mod t = 0) :
    unsent (Function.update mod t 1) + 1 = unsent mod := by
  have hmem : t ∈ {u ∈ Finset.range arrayTiles | mod u = 0} := by simp [ht, hm]
  have herase : {u ∈ Finset.range arrayTiles | Function.update mod t 1 u = 0} =
      {u ∈ Finset.range arrayTiles | mod u = 0}.erase t := by
    ext u
    by_cases hu : u = t
    · simp [hu]
    · simp [hu]
  unfold unsent
  rw [herase]
  exact Finset.card_erase_add_one hmem

-- Room for every tile of the arrays that is still to be sent.
def TileLoop.Roomy (acc : TileLoop) : Prop := acc.bytes.length + 9 * unsent acc.mod ≤ bufSize

variable (src : Buffer) (h y : Nat)

theorem TileLoop.Roomy.sent {acc : TileLoop} {x : Nat} (hroom : acc.Roomy)
    (ht : Grid.index h x y < arrayTiles) (hm : acc.mod (Grid.index h x y) = 0) :
    ¬acc.bytes.length + 9 > bufSize ∧ (acc.sent src h y x).Roomy := by
  have hone := unsent_update ht hm
  unfold Roomy at hroom ⊢
  simp only [TileLoop.sent, List.length_append, length_tileRecord]
  omega

-- As long as it stays in range the loop runs to its end.
theorem rowAccesses_complete (xs : List Nat) (acc : TileLoop) (hroom : acc.Roomy)
    (hin : ∀ a ∈ rowAccesses src h y xs acc, a.InRange) :
    (∀ x ∈ xs, ⟨.mod, Grid.index h x y⟩ ∈ rowAccesses src h y xs acc) ∧
      (tockRow src h y xs acc).Roomy := by
  induction xs generalizing acc with
  | nil => exact ⟨by simp, hroom⟩
  | cons x xs ih =>
      have ht : Grid.index h x y < arrayTiles := hin _ List.mem_cons_self
      cases rowStep src h y x xs acc with
      | skip _ row accesses =>
          rw [accesses] at hin ⊢
          rw [row]
          obtain ⟨hall, hrest⟩ := ih acc hroom fun a ha => hin a (List.mem_cons_of_mem _ ha)
          refine ⟨fun z hz => ?_, hrest⟩
          rcases List.mem_cons.mp hz with rfl | hz
          · exact List.mem_cons_self
          · exact List.mem_cons_of_mem _ (hall z hz)
      | full unmarked stops _ _ => exact absurd stops (hroom.sent src h y ht unmarked).1
      | send unmarked _ row accesses =>
          rw [accesses] at hin ⊢
          rw [row]
          obtain ⟨hall, hrest⟩ := ih _ (hroom.sent src h y ht unmarked).2 fun a ha =>
            hin a (by simp [ha])
          refine ⟨fun z hz => ?_, hrest⟩
          rcases List.mem_cons.mp hz with rfl | hz
          · exact List.mem_cons_self
          · simp [hall z hz]

theorem rowsAccesses_complete (w : Nat) (ys : List Nat) (acc : TileLoop) (hroom : acc.Roomy)
    (hin : ∀ a ∈ rowsAccesses src w h ys acc, a.InRange) :
    ∀ x < w, ∀ y ∈ ys, ⟨.mod, Grid.index h x y⟩ ∈ rowsAccesses src w h ys acc := by
  induction ys generalizing acc with
  | nil => simp
  | cons y ys ih =>
      simp only [rowsAccesses, List.forall_mem_append] at hin
      obtain ⟨hall, hrest⟩ := rowAccesses_complete src h y (List.range w) acc hroom hin.1
      intro x hx z hz
      rcases List.mem_cons.mp hz with rfl | hz
      · exact List.mem_append_left _ (hall x (List.mem_range.mpr hx))
      · exact List.mem_append_right _ (ih _ hrest hin.2 x hx z hz)

theorem rowAccesses_lt {w : Nat} (hy : y < h) (xs : List Nat) (hxs : ∀ x ∈ xs, x < w)
    (acc : TileLoop) : ∀ a ∈ rowAccesses src h y xs acc, a.tile < w * h := by
  induction xs generalizing acc with
  | nil => simp [rowAccesses]
  | cons x xs ih =>
      have hx := Grid.index_lt (hxs x List.mem_cons_self) hy
      have hrest := fun acc => ih (fun x hx => hxs x (List.mem_cons_of_mem _ hx)) acc
      cases rowStep src h y x xs acc with
      | skip _ _ accesses =>
          rw [accesses, List.forall_mem_cons]
          exact ⟨hx, hrest acc⟩
      | full _ _ _ accesses =>
          rw [accesses, List.forall_mem_cons]
          exact ⟨hx, List.forall_mem_nil _⟩
      | send _ _ _ accesses =>
          simp only [accesses, List.forall_mem_cons]
          exact ⟨hx, hx, hx, hrest _⟩

theorem rowsAccesses_lt (w : Nat) (ys : List Nat) (hys : ∀ y ∈ ys, y < h) (acc : TileLoop) :
    ∀ a ∈ rowsAccesses src w h ys acc, a.tile < w * h := by
  induction ys generalizing acc with
  | nil => simp [rowsAccesses]
  | cons y ys ih =>
      simp only [rowsAccesses, List.forall_mem_append]
      exact ⟨rowAccesses_lt src h y (hys y List.mem_cons_self) _ (fun x => List.mem_range.mp) acc,
        ih (fun y hy => hys y (List.mem_cons_of_mem _ hy)) _⟩

-- The loops stay in the arrays exactly when the screen fits: a full packet
-- cannot end them before.
theorem rowsAccesses_inRange_iff (w : Nat) (acc : TileLoop) (hroom : acc.Roomy) :
    (∀ a ∈ rowsAccesses src w h (List.range h) acc, a.InRange) ↔ w * h ≤ arrayTiles := by
  constructor
  · intro hin
    by_contra hlarge
    obtain ⟨x, y, hx, hy, hindex⟩ := Grid.exists_index (Nat.lt_of_not_le hlarge)
    have hpast := rowsAccesses_complete src h w _ acc hroom hin x hx y (List.mem_range.mpr hy)
    have hlt : Grid.index h x y < arrayTiles := hin _ hpast
    omega
  · intro hfits a ha
    exact Nat.lt_of_lt_of_le (rowsAccesses_lt src h w _ (fun y => List.mem_range.mp) acc a ha) hfits

end Packet

-- The two loops of tock have no guard either.
def PacketFits (gps : Gps) : Prop :=
  gps.dimx ≤ 0 ∨ gps.dimy ≤ 0 ∨ gps.dimx * gps.dimy ≤ 256 * 256

instance (gps : Gps) : Decidable (PacketFits gps) := inferInstanceAs (Decidable (_ ∨ _ ∨ _))

theorem packetFits_iff (gps : Gps) :
    PacketFits gps ↔ gps.dimx.toNat * gps.dimy.toNat ≤ arrayTiles := by
  unfold PacketFits arrayTiles
  by_cases hx : gps.dimx ≤ 0
  · simp [hx, Int.toNat_of_nonpos hx]
  · by_cases hy : gps.dimy ≤ 0
    · simp [hy, Int.toNat_of_nonpos hy]
    · have hm : ((gps.dimx.toNat * gps.dimy.toNat : Nat) : Int) = gps.dimx * gps.dimy := by
        rw [Int.natCast_mul, Int.toNat_of_nonneg (by omega), Int.toNat_of_nonneg (by omega)]
      omega

theorem tockStart_roomy (hdl : Handle) (st : State) (cl activeCl : Client) (timeLeft : Int) :
    (tockStart hdl st cl activeCl timeLeft).Roomy := by
  have hnick := (nickLen activeCl.nick).toNat_lt
  have hle := unsent_le (tockStart hdl st cl activeCl timeLeft).mod
  unfold TileLoop.Roomy
  rw [length_tockStart]
  unfold arrayTiles at hle
  unfold bufSize
  omega

theorem tockAccesses_inRange_iff (hdl : Handle) (st : State) :
    (∀ a ∈ tockAccesses hdl st, a.InRange) ↔ PacketFits st.game.gps := by
  unfold tockAccesses packetAccesses
  rw [rowsAccesses_inRange_iff _ _ _ _ (tockStart_roomy ..), packetFits_iff,
    (turnPart_kept st).game]

-- The sizes with which the unguarded loops stay in the arrays.
def Fits (st : State) : Event → Prop
  | .update g df => PassFits (captureScreenBuffer (applyInput df (st.atGame g)).state)
  | .message _ payload => parseMessage payload = .update → PacketFits st.game.gps
  | _ => True

theorem updateAccesses_inRange_iff (df : Df) (st : State) :
    (∀ a ∈ updateAccesses df st, a.InRange) ↔
      PassFits (captureScreenBuffer (applyInput df st).state) := by
  simp only [updateAccesses, List.forall_mem_append, renderAccesses_inRange_iff]
  exact and_iff_right fun a => captureAccesses_inRange

theorem tiles_in_range_iff (st : State) (e : Event) :
    (∀ a ∈ accesses st e, a.InRange) ↔ Fits st e := by
  cases e with
  | update g df => exact updateAccesses_inRange_iff df (st.atGame g)
  | message hdl payload =>
      simp only [accesses, Fits]
      by_cases hp : parseMessage payload = .update
      · simp [hp, tockAccesses_inRange_iff]
      · simp [hp]
  | _ => simp [accesses, Fits]

-- 300 by 300 tiles, which the capture refuses: both loops run past the end.
theorem large_screen_leaves_arrays :
    let large : Game := { Sample.game 64 with gps := { Sample.gps 64 with dimx := 300, dimy := 300 } }
    let st := (plugin Sample.endpoint).exec Sample.start [.opened 0, .message 0 [117, 1, 0, 0]]
    (¬∀ a ∈ accesses (st.atGame large) (.message 0 [110]), a.InRange) ∧
      ¬∀ a ∈ accesses st (.update large Sample.df), a.InRange := by
  intro large st
  constructor
  · have hp : parseMessage [110] = .update := rfl
    simp only [accesses, hp, if_true, tockAccesses_inRange_iff]
    decide
  · simp only [accesses, updateAccesses_inRange_iff]
    intro h
    have hle := h 0 _ rfl rfl
    exact absurd hle (by decide)

end WebFort
