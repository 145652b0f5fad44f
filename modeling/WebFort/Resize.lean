import WebFort.OwnCamera
import WebFort.Header

namespace WebFort

open Library

def tilew : Nat := 16

def tileh : Nat := 16

-- The canvas of the page, in pixels, and what the last packets have drawn.
structure Canvas where
  width : Nat
  height : Nat
  page : Page

-- Setting the size of a canvas clears it. A dimension of no tiles is not a
-- size.
def Canvas.resize (c : Canvas) (newDimx newDimy : UInt8) : Canvas :=
  let neww := newDimx.toNat * tilew
  let newh := newDimy.toNat * tileh
  if 0 < neww ∧ 0 < newh ∧ (c.width ≠ neww ∨ c.height ≠ newh) then ⟨neww, newh, Page.blank⟩ else c

-- As a page, the canvas has what was delivered, whatever the nick.
def Canvas.receive (c : Canvas) (data : Bytes) : Canvas :=
  if data.head? = some 110 then
    let c := c.resize (data.getD 8 0) (data.getD 9 0)
    { c with page := c.page.receive data }
  else c

-- The plugin and the canvas of one client.
structure Watcher where
  st : State
  canvas : Canvas

def watch (s : Endpoint) (hdl : Handle) (v : Watcher) (e : Event) : Watcher :=
  { st := (handle s e v.st).state
    canvas := (sends hdl (handle s e v.st).out).foldl Canvas.receive v.canvas }

-- Events that leave a client and its marks alone, on a screen of one size. A
-- refresh, a camera move or a new turn would have everything sent again.
def quiet (s : Endpoint) (hdl : Handle) (w h : Nat) : Machine Watcher Event where
  enabled v e := ¬e.IsUpdate ∧ ¬e.Ends hdl ∧ ¬e.Asks hdl ∧ e.Sized w h ∧
    marks (handle s e v.st).state hdl = marks v.st hdl
  next := watch s hdl

-- A tile that goes through an update without being due again. The shared
-- frame is compared in its size as well, an own one in its cells only.
def KeptThrough (df : Df) (st : State) (hdl : Handle) (cl : Client) (t : Nat) : Prop :=
  if cl.hasOwnCam = true ∨ st.activeConn = some hdl then
    KeepsMark st hdl cl (pictureFor df st hdl) t
  else
    cl.mod t ≠ 0 ∧ ((captured df st).gps.screen = none ∨
      ((captured df st).gps.dimx = st.scPrevDimx ∧ (captured df st).gps.dimy = st.scPrevDimy) ∧
        pictureFor df st hdl t = st.scPrev t)

section Update

variable {df : Df} {st : State} {hdl : Handle} {cl : Client} {w h : Nat}

theorem share_mod {sc scPrev : Buffer} {changed : Bool} {t : Nat} (hown : cl.hasOwnCam = false)
    (ht : t < w * h) (harray : t < 256 * 256) :
    (cl.share sc scPrev changed (w * h)).mod t ≠ 0 ↔
      cl.mod t ≠ 0 ∧ changed = false ∧ sc t = scPrev t := by
  unfold Client.share
  rw [if_neg (by simp [hown])]
  cases changed with
  | true =>
      refine iff_of_false (fun hne => hne (if_pos harray)) fun hk => ?_
      cases hk.2.1
  | false =>
      simp only [Bool.false_eq_true, if_false, true_and]
      exact markChanged_ne_zero_iff _ _ _ ht

-- What an update does to the marks of a client, in both kinds of diff.
theorem update_mod (hw : 1 ≤ w ∧ w ≤ 256) (hh : 1 ≤ h ∧ h ≤ 256)
    (hcl : st.clients.find? hdl = some cl) (hcap : (captured df st).HasSize w h) :
    ∃ cl', (pluginOnupdate df st).state.clients.find? hdl = some cl' ∧
      cl'.ownSc = pictureFor df st hdl ∧
      ∀ x < w, ∀ y < h, cl'.mod (Grid.index h x y) ≠ 0 ↔
        KeptThrough df st hdl cl (Grid.index h x y) := by
  have hpicture : ∀ {cl'}, (pluginOnupdate df st).state.clients.find? hdl = some cl' →
      cl'.ownSc = pictureFor df st hdl := by
    intro cl' hfind
    unfold pictureFor
    rw [State.getClient_of_find? hfind]
  by_cases hown : cl.hasOwnCam = true ∨ st.activeConn = some hdl
  · obtain ⟨own, hfind⟩ := pluginOnupdate_taken hcl hown (pos_of_hasSize hcap hw.1 hh.1)
    rw [total_of_hasSize hcap] at hfind
    refine ⟨_, hfind, hpicture hfind, fun x hx y hy => ?_⟩
    have hpic : own = pictureFor df st hdl := hpicture hfind
    unfold KeptThrough
    rw [if_pos hown, ← hpic]
    exact diffOwn_taken_mod hw.2 hh.2 hx hy
  · obtain ⟨hshared, hact⟩ := not_or.mp hown
    have hcam : cl.hasOwnCam = false := Bool.eq_false_iff.mpr hshared
    have hk : sizeOk (captured df st).gps = true := sizeOk_of_hasSize hcap hw hh
    rcases ready_or_not (captured df st).gps with ⟨screen, hscr, -⟩ | hnot
    · have hfind := pluginOnupdate_shared hcl hcam hact hscr hk
      rw [total_of_hasSize hcap] at hfind
      refine ⟨_, hfind, hpicture hfind, fun x hx y hy => ?_⟩
      have ht := Grid.index_lt hx hy
      have hcell : pictureFor df st hdl (Grid.index h x y) =
          (pluginOnupdate df st).state.sc (Grid.index h x y) := by
        rw [← hpicture hfind]
        unfold Client.share
        rw [if_neg (by simp [hcam])]
        simp only
        split <;> exact if_pos ht
      unfold KeptThrough
      rw [if_neg hown, share_mod hcam ht (index_lt_array hw.2 hh.2 hx hy), hcell, hscr]
      simp only [reduceCtorEq, false_or, Bool.or_eq_false_iff, decide_eq_false_iff_not, ne_eq,
        not_not]
    · have hnone : (captured df st).gps.screen = none :=
        hnot.resolve_right fun h => absurd (hk.symm.trans h) (by decide)
      have hfind := pluginOnupdate_shared_not_ready hcl hcam hact hnot
      refine ⟨_, hfind, hpicture hfind, fun x hx y hy => ?_⟩
      unfold KeptThrough
      rw [if_neg hown, and_iff_left (Or.inl hnone)]

end Update

section Runs

variable {s : Endpoint} {hdl : Handle} {w h : Nat} {v : Watcher}

theorem watch_canvas_of_not_asks {e : Event} (ha : ¬e.Asks hdl) (he : ¬e.Ends hdl) :
    (watch s hdl v e).canvas = v.canvas := by
  simp only [watch, handle_sends s e v.st ha he, List.foldl_nil]

theorem leByte_cast (n : Nat) : leByte n 0 = UInt8.ofNat n := by
  have hbyte := leByte_toNat n 0
  rw [pow_zero, Int.ediv_one] at hbyte
  refine UInt8.toNat_inj.mp ?_
  rw [UInt8.toNat_ofNat']
  omega

-- The canvas a tock draws on, and what it leaves of it.
theorem watch_tock (hsize : v.st.game.HasSize w h) (hw : 1 ≤ w ∧ w ≤ 256) (hh : 1 ≤ h ∧ h ≤ 256)
    (hb : (s hdl).processor.takesBinary = true) {payload : Bytes}
    (hp : parseMessage payload = .update) {x y : Nat} (hx : x < w) (hy : y < h) :
    (watch s hdl v (.message hdl payload)).canvas.page (x, y) =
      if (v.st.getClient hdl).mod (Grid.index h x y) = 0 then
        some ((v.st.getClient hdl).ownSc (Grid.index h x y)).wire
      else (v.canvas.resize (UInt8.ofNat w) (UInt8.ofNat h)).page (x, y) := by
  have hk : sizeOk v.st.game.gps = true := sizeOk_of_hasSize hsize hw hh
  have hwidth : width v.st = w := by simp [width, hsize.1]
  have hheight : height v.st = h := by simp [height, hsize.2]
  have htock : handle s (.message hdl payload) v.st = tock s hdl v.st := by
    simp only [handle, onMessage, hp]
  have hgame : (turnPart v.st).game = v.st.game := (turnPart_kept v.st).game
  obtain ⟨tiles, hbytes⟩ := tileLoop_bytes hdl v.st
  have hdimx : (tileLoop hdl v.st).bytes.getD 8 0 = UInt8.ofNat w := by
    rw [hbytes, ← leByte_cast, ← hsize.1, ← hgame]
    rfl
  have hdimy : (tileLoop hdl v.st).bytes.getD 9 0 = UInt8.ofNat h := by
    rw [hbytes, ← leByte_cast, ← hsize.2, ← hgame]
    rfl
  have hsends := tock_sends s hdl hdl v.st
  rw [if_pos ⟨rfl, hb⟩] at hsends
  -- The cursor packet draws on a canvas of its own.
  have hcanvas : (watch s hdl v (.message hdl payload)).canvas.page =
      (sends hdl (tock s hdl v.st).out).foldl Page.receive
        (v.canvas.resize (UInt8.ofNat w) (UInt8.ofNat h)).page := by
    unfold watch
    simp only [htock, hsends, List.foldl_cons, List.foldl_nil, Canvas.receive, Page.receive,
      cursorPacket_head, tileLoop_head hdl hk, hdimx, hdimy]
    rfl
  rw [hcanvas, receive_tock hdl s _ hk hb, hwidth, hheight]
  simp only [mem_dirty, hx, hy, true_and]

-- Until the client asks, its page is not told anything and its tiles stay as
-- they are.
theorem quiet_run {es : List Event} {cl : Client} (hsize : v.st.game.HasSize w h)
    (hcl : v.st.clients.find? hdl = some cl) (hes : (quiet s hdl w h).Valid v es) :
    let u := (quiet s hdl w h).exec v es
    u.st.game.HasSize w h ∧ u.canvas = v.canvas ∧
      (u.st.getClient hdl).mod = cl.mod ∧ (u.st.getClient hdl).ownSc = cl.ownSc := by
  induction es generalizing v cl with
  | nil =>
      have hget := State.getClient_of_find? hcl
      exact ⟨hsize, rfl, congrArg Client.mod hget, congrArg Client.ownSc hget⟩
  | cons e es ih =>
      obtain ⟨⟨hu, he, ha, hsized, hmarks⟩, hrest⟩ := hes
      obtain ⟨-, cl', hcl', hk⟩ := handle_client s e v.st hcl hu he
      rw [marks_of_find? hcl', marks_of_find? hcl] at hmarks
      obtain ⟨hsize', hcanvas, hmod, hsc⟩ :=
        ih (v := watch s hdl v e) (handle_hasSize s hsize hsized) hcl' hrest
      exact ⟨hsize', hcanvas.trans (watch_canvas_of_not_asks ha he),
        hmod.trans (Option.some.inj hmarks), hsc.trans hk.ownSc⟩

end Runs

-- DF has a screen of the given size, whatever its size was and whatever the
-- client was told before. After the next update and the next tock the client
-- has every tile of it exactly when the tiles that go through the update
-- without being due were sent on a canvas of this size as they are drawn now.
theorem resize_reaches_iff (s : Endpoint) (hdl : Handle) (w h : Nat) (v : Watcher) (g : Game)
    (df : Df) (es : List Event) (payload : Bytes) (hw : 1 ≤ w ∧ w ≤ 256) (hh : 1 ≤ h ∧ h ≤ 256)
    (hb : (s hdl).processor.takesBinary = true) (hp : parseMessage payload = .update)
    (hg : g.HasSize w h) (hdf : df.KeepsSize) (cl : Client)
    (hcl : v.st.clients.find? hdl = some cl)
    (hes : (quiet s hdl w h).Valid (watch s hdl v (.update g df)) es) :
    let st := v.st.atGame g
    let picture := pictureFor df st hdl
    let u := (quiet s hdl w h).exec (watch s hdl v (.update g df)) es
    let last := watch s hdl u (.message hdl payload)
    (∀ x < w, ∀ y < h, last.canvas.page (x, y) = some (picture (Grid.index h x y)).wire) ↔
      ∀ x < w, ∀ y < h, KeptThrough df st hdl cl (Grid.index h x y) →
        (v.canvas.resize (UInt8.ofNat w) (UInt8.ofNat h)).page (x, y) =
          some (picture (Grid.index h x y)).wire := by
  intro st picture u last
  have hcap : (captured df st).HasSize w h := captured_hasSize hdf hg
  have hclient : st.clients.find? hdl = some cl := hcl
  obtain ⟨cl', hfind, hpicture, hkept⟩ := update_mod hw hh hclient hcap
  have hcanvas : (watch s hdl v (.update g df)).canvas = v.canvas :=
    watch_canvas_of_not_asks (e := .update g df) id id
  obtain ⟨hsize, hsame, hmod, hsc⟩ :=
    quiet_run (v := watch s hdl v (.update g df)) (pluginOnupdate_hasSize hdf hg) hfind hes
  refine forall₂_congr fun x hx => forall₂_congr fun y hy => ?_
  have htile := watch_tock hsize hw hh hb hp hx hy
  rw [hsame, hcanvas, hmod, hsc, hpicture] at htile
  show (watch s hdl u (.message hdl payload)).canvas.page (x, y) = _ ↔ _
  rw [htile, ← hkept x hx y hy]
  split
  · rename_i hzero
    exact iff_of_true rfl fun hne => absurd hzero hne
  · rename_i hne
    exact ⟨fun hshown _ => hshown, fun hshown => hshown hne⟩

namespace Sample

-- All tiles of the screen show one character.
def screenOf (w h : Nat) : Game := { game 64 with gps := { gps 64 with dimx := w, dimy := h } }

-- A client that has been sent the frame of a screen of 1 by 2.
def tall (es : List Event) : Watcher :=
  (es ++ [Event.update (screenOf 1 2) df, Event.message 0 [110]]).foldl (watch endpoint 0)
    ⟨State.init config (screenOf 1 2), ⟨300, 150, Page.blank⟩⟩

end Sample

theorem resize_reaches_iff_sample :
    let v := Sample.tall [.opened 0]
    let last := watch Sample.endpoint 0 (watch Sample.endpoint 0 v (.update (Sample.screenOf 2 1)
      Sample.df)) (.message 0 [110])
    ∀ x < 2, ∀ y < 1, last.canvas.page (x, y) =
      some (pictureFor Sample.df (v.st.atGame (Sample.screenOf 2 1)) 0 (Grid.index 1 x y)).wire := by
  intro v last
  obtain ⟨cl, hcl, hcam⟩ := Option.map_eq_some_iff.mp
    (by decide : (v.st.clients.find? 0).map Client.hasOwnCam = some false)
  have hact : v.st.activeConn ≠ some 0 := by decide
  have hscreen : (captured Sample.df (v.st.atGame (Sample.screenOf 2 1))).gps.screen.isSome = true := by
    decide
  have hdimx : (captured Sample.df (v.st.atGame (Sample.screenOf 2 1))).gps.dimx ≠
      v.st.scPrevDimx := by decide
  have hreaches := resize_reaches_iff Sample.endpoint 0 2 1 v (Sample.screenOf 2 1) Sample.df []
    [110] (by decide) (by decide) rfl rfl ⟨rfl, rfl⟩ (fun _ _ _ => ⟨rfl, rfl⟩) cl hcl
    (Machine.valid_nil _ _)
  simp only [Machine.exec_nil] at hreaches
  clear_value v
  refine hreaches.mpr fun x _ y _ hk => ?_
  unfold KeptThrough at hk
  rw [if_neg (by rw [hcam]; exact fun h => h.elim (by decide) hact)] at hk
  rcases hk.2 with hnone | ⟨⟨hsame, -⟩, -⟩
  · rw [hnone] at hscreen
    cases hscreen
  · exact absurd hsame hdimx

-- The same for a client with a camera of its own: after the screen has become
-- one of 2 by 1, its canvas is empty.
theorem resized_canvas_stays_empty :
    let v := Sample.tall [.opened 0, .message 0 [117, 0, 0, 0]]
    let last := watch Sample.endpoint 0 (watch Sample.endpoint 0 v (.update (Sample.screenOf 2 1)
      Sample.df)) (.message 0 [110])
    (v.canvas.width, v.canvas.height) = (16, 32) ∧
      (last.canvas.width, last.canvas.height) = (32, 16) ∧
      ∀ x < 2, ∀ y < 1, last.canvas.page (x, y) = none := by
  decide

end WebFort
