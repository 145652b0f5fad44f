import WebFort.Library.Mirror
import WebFort.Server.Packet
import WebFort.System.Lemmas
import WebFort.Sample

namespace WebFort

open Library

-- The plugin and the page of one client. What the client is sent arrives in
-- order and at once.
structure Viewer where
  st : State
  page : Page

def view (s : Endpoint) (hdl : Handle) (v : Viewer) (e : Event) : Viewer :=
  { st := (handle s e v.st).state
    page := (sends hdl (handle s e v.st).out).foldl Page.receive v.page }

def ownCamera (hdl : Handle) (st : State) : Option Bool :=
  (st.clients.find? hdl).map Client.hasOwnCam

-- A screen of one size, and a client that stays and keeps its kind of camera.
def viewing (s : Endpoint) (hdl : Handle) (w h : Nat) : Machine Viewer Event where
  enabled v e := ¬e.Ends hdl ∧ e.Sized w h ∧
    ownCamera hdl (view s hdl v e).st = ownCamera hdl v.st
  next := view s hdl

-- The page mirrors own_sc; mod marks the tiles already sent.
def mirror (w h : Nat) (cl : Client) (page : Page) : Mirror (Nat × Nat) Cell WireCell where
  cells p := cl.ownSc (Grid.index h p.1 p.2)
  clean p := (p.1 < w ∧ p.2 < h) ∧ cl.mod (Grid.index h p.1 p.2) ≠ 0
  remote := page

-- Every marked tile was last sent with what own_sc holds now.
def Coherent (w h : Nat) (hdl : Handle) (v : Viewer) : Prop :=
  ∃ cl, v.st.clients.find? hdl = some cl ∧ (mirror w h cl v.page).Coherent Cell.wire

def Client.Synchronised (w h : Nat) (st : State) (cl : Client) : Prop :=
  if cl.hasOwnCam then ∀ t < w * h, cl.ownSc t = cl.ownScPrev t
  else (∀ t < w * h, cl.ownSc t = st.sc t ∧ st.sc t = st.scPrev t) ∧
    st.scPrevDimx = w ∧ st.scPrevDimy = h

def Synchronised (w h : Nat) (hdl : Handle) (st : State) : Prop :=
  ∃ cl, st.clients.find? hdl = some cl ∧ cl.Synchronised w h st

section Steps

variable {w h : Nat} {cl cl' : Client} {page : Page}

theorem mirror_redraw
    (hr : ∀ t < w * h, cl'.mod t ≠ 0 → cl.mod t ≠ 0 ∧ cl'.ownSc t = cl.ownSc t) :
    Mirror.Redraw (mirror w h cl page) (mirror w h cl' page) where
  remote := rfl
  clean := by
    rintro p ⟨hp, hm⟩
    obtain ⟨hm', hcell⟩ := hr _ (Grid.index_lt hp.1 hp.2) hm
    exact ⟨⟨hp, hm'⟩, hcell⟩

theorem mirror_redraw_of_remarked (hm : Client.Remarked cl cl') (hsc : cl'.ownSc = cl.ownSc) :
    Mirror.Redraw (mirror w h cl page) (mirror w h cl' page) := by
  refine mirror_redraw fun t _ ht => ⟨?_, congrFun hsc t⟩
  rwa [← hm t ht]

-- Capture of a shared client: the marks that survive are those of tiles equal
-- in sc and sc_prev, and own_sc was sc.
theorem share_redraw {sc scPrev : Buffer} (hown : cl.hasOwnCam = false)
    (hsync : ∀ t < w * h, cl.ownSc t = scPrev t) :
    Mirror.Redraw (mirror w h cl page) (mirror w h (cl.share sc scPrev false (w * h)) page) := by
  refine mirror_redraw fun t ht hm => ?_
  simp only [Client.share, hown, Bool.false_eq_true, if_false] at hm ⊢
  obtain ⟨hmark, heq⟩ := (markChanged_ne_zero_iff _ _ _ ht).mp hm
  have hcopy : cl.ownSc.copy sc (w * h) t = sc t := if_pos ht
  refine ⟨hmark, ?_⟩
  rw [hcopy, heq, hsync t ht]

-- The pass of an own camera: the diff is against the frame own_sc held.
theorem diffOwn_redraw {own : Buffer} (hsync : ∀ t < w * h, cl.ownSc t = cl.ownScPrev t) :
    Mirror.Redraw (mirror w h cl page)
      (mirror w h (Client.diffOwn (w * h) { cl with ownSc := own }) page) := by
  refine mirror_redraw fun t ht hm => ?_
  obtain ⟨hmark, heq⟩ := (markChanged_ne_zero_iff _ _ _ ht).mp hm
  exact ⟨hmark, heq.trans (hsync t ht).symm⟩

end Steps

-- The invariant of a run.
structure Steady (w h : Nat) (hdl : Handle) (v : Viewer) (cl : Client) : Prop where
  size : v.st.game.HasSize w h
  client : v.st.clients.find? hdl = some cl
  sync : cl.Synchronised w h v.st
  coherent : (mirror w h cl v.page).Coherent Cell.wire

section Preservation

variable {s : Endpoint} {hdl : Handle} {w h : Nat} {v : Viewer} {cl : Client}

theorem ownCamera_of_find? {st : State} (hcl : st.clients.find? hdl = some cl) :
    ownCamera hdl st = some cl.hasOwnCam := by
  simp [ownCamera, hcl]

-- The active player gets an own camera at every tick.
theorem ownCamera_active {st : State} {df : Df} (hcl : st.clients.find? hdl = some cl)
    (hact : st.activeConn = some hdl)
    (hpos : (captured df st).gps.dimx * (captured df st).gps.dimy > 0) :
    ownCamera hdl (pluginOnupdate df st).state = some true := by
  obtain ⟨cl', own, -, hcam, hfind⟩ := pluginOnupdate_own hcl (Or.inr hact) hpos
  rw [ownCamera_of_find? hfind]
  exact congrArg some hcam

theorem view_page_of_not_asks {e : Event} (ha : ¬e.Asks hdl) (he : ¬e.Ends hdl) :
    (view s hdl v e).page = v.page := by
  simp only [view, handle_sends s e v.st ha he, List.foldl_nil]

-- Handlers of other clients, refreshes, camera moves, turn changes, and DF.
theorem mirror_other (hcl : v.st.clients.find? hdl = some cl) {e : Event} (hu : ¬e.IsUpdate)
    (ha : ¬e.Asks hdl) (he : ¬e.Ends hdl) :
    ∃ cl', (view s hdl v e).st.clients.find? hdl = some cl' ∧ cl'.ownSc = cl.ownSc ∧
      cl'.ownScPrev = cl.ownScPrev ∧
      Mirror.Redraw (mirror w h cl v.page) (mirror w h cl' (view s hdl v e).page) := by
  obtain ⟨-, cl', hcl', hk⟩ := handle_client s e v.st hcl hu he
  refine ⟨cl', hcl', hk.ownSc, hk.ownScPrev, ?_⟩
  rw [view_page_of_not_asks ha he]
  exact mirror_redraw_of_remarked (hk.mod ha) hk.ownSc

theorem Steady.other (hv : Steady w h hdl v cl) {e : Event} (hu : ¬e.IsUpdate)
    (ha : ¬e.Asks hdl) (he : ¬e.Ends hdl) (hsize : e.Sized w h)
    (hown : ownCamera hdl (view s hdl v e).st = ownCamera hdl v.st) :
    ∃ cl', Steady w h hdl (view s hdl v e) cl' := by
  obtain ⟨hscreen, -⟩ := handle_client s e v.st hv.client hu he
  obtain ⟨cl', hcl', hsc, hprev, hredraw⟩ := mirror_other (w := w) (h := h) hv.client hu ha he
  have hflag : cl'.hasOwnCam = cl.hasOwnCam := by
    rw [ownCamera_of_find? hv.client, ownCamera_of_find? hcl'] at hown
    exact Option.some.inj hown
  refine ⟨cl', handle_hasSize s hv.size hsize, hcl', ?_, hv.coherent.redraw hredraw⟩
  have hs := hv.sync
  unfold Client.Synchronised at hs ⊢
  simp only [view]
  rw [hflag, hsc, hprev, hscreen.sc, hscreen.scPrev, hscreen.scPrevDimx, hscreen.scPrevDimy]
  exact hs

-- A tock, on the client and on its page.
theorem tock_tile (hk : sizeOk v.st.game.gps = true) (hcl : v.st.clients.find? hdl = some cl)
    (hb : (s hdl).processor.takesBinary = true) {payload : Bytes}
    (hp : parseMessage payload = .update) :
    ∃ cl', (view s hdl v (.message hdl payload)).st.clients.find? hdl = some cl' ∧
      cl'.ownSc = cl.ownSc ∧ cl'.hasOwnCam = cl.hasOwnCam ∧
      ∀ x y, x < width v.st → y < height v.st →
        cl'.mod (Grid.index (height v.st) x y) =
            (if cl.mod (Grid.index (height v.st) x y) = 0 then 1
              else cl.mod (Grid.index (height v.st) x y)) ∧
          (view s hdl v (.message hdl payload)).page (x, y) =
            if cl.mod (Grid.index (height v.st) x y) = 0 then
              some (cl.ownSc (Grid.index (height v.st) x y)).wire
            else v.page (x, y) := by
  have htock : handle s (.message hdl payload) v.st = tock s hdl v.st := by
    simp only [handle, onMessage, hp]
  have hget := State.getClient_of_find? hcl
  obtain ⟨cl', hcl', -⟩ := (tock_kept s hdl v.st).find? hcl
  obtain ⟨b, hmark⟩ := @tock_getClient hdl v.st s
  rw [State.getClient_of_find? hcl', hget, tileLoop_eq hdl hk, hget] at hmark
  simp only [view, htock]
  refine ⟨cl', hcl', by rw [hmark], by rw [hmark], ?_⟩
  intro x y hx hy
  refine ⟨?_, ?_⟩
  · rw [hmark]
    simp only [Grid.index_lt hx hy, true_and]
  · have hpage := receive_tock hdl s v.page hk hb (x, y)
    rw [hget] at hpage
    rw [hpage]
    simp only [mem_dirty, hx, hy, true_and]

-- A tock sends the unmarked tiles of the screen and marks them.
theorem tock_send (hsize : v.st.game.HasSize w h) (hcl : v.st.clients.find? hdl = some cl)
    (hw : 1 ≤ w ∧ w ≤ 256) (hh : 1 ≤ h ∧ h ≤ 256) (hb : (s hdl).processor.takesBinary = true)
    {payload : Bytes} (hp : parseMessage payload = .update) :
    ∃ cl', (view s hdl v (.message hdl payload)).st.clients.find? hdl = some cl' ∧
      Mirror.Send Cell.wire (fun p => p.1 < w ∧ p.2 < h) (mirror w h cl v.page)
        (mirror w h cl' (view s hdl v (.message hdl payload)).page) := by
  have hk : sizeOk v.st.game.gps = true := sizeOk_of_hasSize hsize hw hh
  have hwidth : width v.st = w := by simp [width, hsize.1]
  have hheight : height v.st = h := by simp [height, hsize.2]
  obtain ⟨cl', hcl', hown, -, htile⟩ := tock_tile hk hcl hb hp
  rw [hwidth, hheight] at htile
  refine ⟨cl', hcl', ?_, ?_, ?_, ?_⟩
  · show (fun p : Nat × Nat => cl'.ownSc (Grid.index h p.1 p.2)) = _
    rw [hown]
    rfl
  · intro p hp hm
    have hmod : cl.mod (Grid.index h p.1 p.2) = 0 := by_contra fun hne => hm ⟨hp, hne⟩
    exact (htile p.1 p.2 hp.1 hp.2).2.trans (if_pos hmod)
  · rintro p ⟨hp, hm⟩
    obtain ⟨hmark, hpage⟩ := htile p.1 p.2 hp.1 hp.2
    rw [if_neg hm] at hmark hpage
    exact ⟨⟨hp, hmark ▸ hm⟩, hpage⟩
  · exact fun p hm => Or.inr hm.1

theorem Steady.tock (hv : Steady w h hdl v cl) (hw : 1 ≤ w ∧ w ≤ 256) (hh : 1 ≤ h ∧ h ≤ 256)
    (hb : (s hdl).processor.takesBinary = true) {payload : Bytes}
    (hp : parseMessage payload = .update)
    (hown : ownCamera hdl (view s hdl v (.message hdl payload)).st = ownCamera hdl v.st) :
    ∃ cl', Steady w h hdl (view s hdl v (.message hdl payload)) cl' := by
  obtain ⟨cl', hcl', hsend⟩ := tock_send hv.size hv.client hw hh hb hp
  obtain ⟨hscreen, cl'', hcl'', hk⟩ :=
    handle_client s (.message hdl payload) v.st hv.client (fun h => h.elim) fun h => h.elim
  obtain rfl : cl'' = cl' := Option.some.inj (hcl''.symm.trans hcl')
  have hflag : cl''.hasOwnCam = cl.hasOwnCam := by
    rw [ownCamera_of_find? hv.client, ownCamera_of_find? hcl'] at hown
    exact Option.some.inj hown
  refine ⟨cl'', handle_hasSize s (e := .message hdl payload) hv.size trivial, hcl', ?_,
    hv.coherent.send hsend⟩
  have hs := hv.sync
  unfold Client.Synchronised at hs ⊢
  simp only [view]
  rw [hflag, hk.ownSc, hk.ownScPrev, hscreen.sc, hscreen.scPrev, hscreen.scPrevDimx,
    hscreen.scPrevDimy]
  exact hs

-- A tick of a client that shares the frame.
theorem Steady.updateShared (hv : Steady w h hdl v cl) {g : Game} {df : Df} (hg : g.HasSize w h) (hdf : df.KeepsSize)
    (hcam : cl.hasOwnCam = false) (hact : v.st.activeConn ≠ some hdl) :
    ∃ cl', Steady w h hdl (view s hdl v (.update g df)) cl' := by
  have hpage : (view s hdl v (.update g df)).page = v.page :=
    view_page_of_not_asks (e := .update g df) id id
  have hsize : (pluginOnupdate df (v.st.atGame g)).state.game.HasSize w h :=
    pluginOnupdate_hasSize hdf hg
  have hcap : (captured df (v.st.atGame g)).HasSize w h := captured_hasSize hdf hg
  have hs := hv.sync
  simp only [Client.Synchronised, hcam, Bool.false_eq_true, if_false] at hs
  obtain ⟨hcells, hx, hy⟩ := hs
  have hclient : (v.st.atGame g).clients.find? hdl = some cl := hv.client
  rcases ready_or_not (captured df (v.st.atGame g)).gps with ⟨screen, hscr, hk⟩ | hnot
  · have hcl' := pluginOnupdate_shared hclient hcam hact hscr hk
    obtain ⟨hsc, hprev, hx', hy'⟩ := pluginOnupdate_ready hscr hk
    have hsame : ((captured df (v.st.atGame g)).gps.dimx ≠ (v.st.atGame g).scPrevDimx ||
        (captured df (v.st.atGame g)).gps.dimy ≠ (v.st.atGame g).scPrevDimy) = false := by
      have hx'' : (v.st.atGame g).scPrevDimx = w := hx
      have hy'' : (v.st.atGame g).scPrevDimy = h := hy
      rw [hcap.1, hcap.2, hx'', hy'']
      simp
    rw [total_of_hasSize hcap] at hcl' hsc hprev
    rw [hsame] at hcl'
    rw [hcap.1] at hx'
    rw [hcap.2] at hy'
    refine ⟨_, hsize, hcl', ?_, ?_⟩
    · simp only [Client.Synchronised, Client.share, hcam, Bool.false_eq_true, if_false]
      refine ⟨fun t ht => ⟨if_pos ht, ?_⟩, hx', hy'⟩
      exact ((congrFun hprev t).trans (if_pos ht)).symm
    · rw [hpage]
      refine hv.coherent.redraw (share_redraw hcam fun t ht => ?_)
      exact (hcells t ht).1.trans (hcells t ht).2
  · have hcl' := pluginOnupdate_shared_not_ready hclient hcam hact hnot
    have hsame := pluginOnupdate_not_ready hnot
    refine ⟨cl, hsize, hcl', ?_, by rw [hpage]; exact hv.coherent⟩
    simp only [Client.Synchronised, hcam, Bool.false_eq_true, if_false, view, handle]
    rw [hsame.sc, hsame.scPrev, hsame.scPrevDimx, hsame.scPrevDimy]
    exact ⟨hcells, hx, hy⟩

-- A tick of a client with an own camera.
theorem Steady.updateOwn (hv : Steady w h hdl v cl) (hw : 1 ≤ w ∧ w ≤ 256)
    (hh : 1 ≤ h ∧ h ≤ 256) {g : Game} {df : Df} (hg : g.HasSize w h) (hdf : df.KeepsSize)
    (hcam : cl.hasOwnCam = true) :
    ∃ cl', Steady w h hdl (view s hdl v (.update g df)) cl' := by
  have hpage : (view s hdl v (.update g df)).page = v.page :=
    view_page_of_not_asks (e := .update g df) id id
  have hcap : (captured df (v.st.atGame g)).HasSize w h := captured_hasSize hdf hg
  have hpos := pos_of_hasSize hcap hw.1 hh.1
  have hs := hv.sync
  simp only [Client.Synchronised, hcam, if_true] at hs
  have hclient : (v.st.atGame g).clients.find? hdl = some cl := hv.client
  obtain ⟨cl', own, hk, ho, hfind⟩ := pluginOnupdate_own hclient (Or.inl hcam) hpos
  rw [total_of_hasSize hcap] at hfind
  refine ⟨_, pluginOnupdate_hasSize hdf hg, hfind, ?_, ?_⟩
  · simp only [Client.Synchronised, Client.diffOwn, ho, if_true]
    exact fun t ht => (if_pos ht).symm
  · rw [hpage]
    have hfirst : Mirror.Redraw (mirror w h cl v.page) (mirror w h cl' v.page) :=
      mirror_redraw_of_remarked (hk.mod not_false) hk.ownSc
    refine hv.coherent.redraw (hfirst.trans (diffOwn_redraw fun t ht => ?_))
    rw [hk.ownSc, hk.ownScPrev]
    exact hs t ht

theorem Steady.step (hv : Steady w h hdl v cl) (hw : 1 ≤ w ∧ w ≤ 256) (hh : 1 ≤ h ∧ h ≤ 256)
    (hb : (s hdl).processor.takesBinary = true) {e : Event}
    (hen : (viewing s hdl w h).enabled v e) :
    ∃ cl', Steady w h hdl (view s hdl v e) cl' := by
  obtain ⟨he, hsize, hown⟩ := hen
  by_cases ha : e.Asks hdl
  · obtain ⟨payload, rfl, hp⟩ := ha.exists
    exact hv.tock hw hh hb hp hown
  · by_cases hu : e.IsUpdate
    · obtain ⟨g, df, rfl⟩ := hu.exists
      cases hcam : cl.hasOwnCam with
      | true => exact hv.updateOwn hw hh hsize.1 hsize.2 hcam
      | false =>
          apply hv.updateShared hsize.1 hsize.2 hcam
          intro hact
          have hclient : (v.st.atGame g).clients.find? hdl = some cl := hv.client
          have hcap : (captured df (v.st.atGame g)).HasSize w h := captured_hasSize hsize.2 hsize.1
          have hafter : ownCamera hdl (view s hdl v (.update g df)).st = some true :=
            ownCamera_active hclient hact (pos_of_hasSize hcap hw.1 hh.1)
          rw [hafter, ownCamera_of_find? hv.client, hcam] at hown
          exact absurd (Option.some.inj hown) (by decide)
    · exact hv.other hu ha he hsize hown

end Preservation

-- Every run from a synchronised and coherent state ends in one, and one more
-- tock brings the page up to own_sc.
theorem coherent_of_run (s : Endpoint) (hdl : Handle) (w h : Nat) (v : Viewer) (es : List Event)
    (hw : 1 ≤ w ∧ w ≤ 256) (hh : 1 ≤ h ∧ h ≤ 256) (hb : (s hdl).processor.takesBinary = true)
    (hsize : v.st.game.HasSize w h) (hsync : Synchronised w h hdl v.st)
    (hcoh : Coherent w h hdl v) (hrun : (viewing s hdl w h).Valid v es) :
    Coherent w h hdl ((viewing s hdl w h).exec v es) ∧
    Synchronised w h hdl ((viewing s hdl w h).exec v es).st ∧
    ∀ payload, parseMessage payload = .update →
      ∃ cl, (view s hdl ((viewing s hdl w h).exec v es) (.message hdl payload)).st.clients.find? hdl
          = some cl ∧
        ∀ x y, x < w → y < h →
          (view s hdl ((viewing s hdl w h).exec v es) (.message hdl payload)).page (x, y) =
            some (cl.ownSc (Grid.index h x y)).wire := by
  obtain ⟨cl, hcl, hs⟩ := hsync
  obtain ⟨cl₂, hcl₂, hc⟩ := hcoh
  obtain rfl : cl = cl₂ := Option.some.inj (hcl.symm.trans hcl₂)
  have hend : ∃ cl, Steady w h hdl ((viewing s hdl w h).exec v es) cl :=
    (viewing s hdl w h).exec_invariant (fun v => ∃ cl, Steady w h hdl v cl)
      (fun v e hv hen => hv.choose_spec.step hw hh hb hen) v es ⟨cl, hsize, hcl, hs, hc⟩ hrun
  obtain ⟨cl', hend⟩ := hend
  refine ⟨⟨cl', hend.client, hend.coherent⟩, ⟨cl', hend.client, hend.sync⟩, fun payload hp => ?_⟩
  obtain ⟨cl'', hcl'', hsend⟩ := tock_send (s := s) hend.size hend.client hw hh hb hp
  have hshown := hend.coherent.shown_of_send hsend
  exact ⟨cl'', hcl'', fun x y hx hy => hshown (x, y) ⟨hx, hy⟩⟩

-- A tock, a tick that changes every tile, and the tock after it.
theorem coherent_of_run_sample :
    ∃ cl, (view Sample.endpoint 0 ((viewing Sample.endpoint 0 2 2).exec ⟨Sample.watched, Page.blank⟩
          [.message 0 [110], .update (Sample.game 65) Sample.df]) (.message 0 [110])).st.clients.find? 0
        = some cl ∧
      ∀ x y, x < 2 → y < 2 →
        (view Sample.endpoint 0 ((viewing Sample.endpoint 0 2 2).exec ⟨Sample.watched, Page.blank⟩
          [.message 0 [110], .update (Sample.game 65) Sample.df]) (.message 0 [110])).page (x, y) =
            some (cl.ownSc (Grid.index 2 x y)).wire := by
  have hcl : Sample.watched.clients.find? 0 = some (Sample.watched.getClient 0) := rfl
  have hsync : (Sample.watched.getClient 0).Synchronised 2 2 Sample.watched := by
    unfold Client.Synchronised
    decide
  have hmod : ∀ x < 2, ∀ y < 2, (Sample.watched.getClient 0).mod (Grid.index 2 x y) = 0 := by decide
  exact (coherent_of_run Sample.endpoint 0 2 2 ⟨Sample.watched, Page.blank⟩
    [.message 0 [110], .update (Sample.game 65) Sample.df] (by decide) (by decide) (by decide)
    ⟨rfl, rfl⟩ ⟨_, hcl, hsync⟩ ⟨_, hcl, fun p hp => absurd (hmod p.1 hp.1.1 p.2 hp.1.2) hp.2⟩
    ⟨⟨id, trivial, rfl⟩, ⟨id, ⟨⟨rfl, rfl⟩, fun _ _ _ => ⟨rfl, rfl⟩⟩, rfl⟩, trivial⟩).2.2 [110] rfl

end WebFort
