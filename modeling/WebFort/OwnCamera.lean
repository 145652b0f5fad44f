import WebFort.Coherence
import WebFort.Server.Marks

namespace WebFort

open Library

-- From one update to the next: a client that stays, on a screen of one size.
def meantime (s : Endpoint) (hdl : Handle) (w h : Nat) : Machine Viewer Event where
  enabled _ e := ¬e.IsUpdate ∧ ¬e.Ends hdl ∧ e.Sized w h
  next := view s hdl

def Event.IsTock : Event → Prop
  | .message _ payload => parseMessage payload = .update
  | _ => False

-- The picture an update draws for a client.
def pictureFor (df : Df) (st : State) (hdl : Handle) : Buffer :=
  ((pluginOnupdate df st).state.getClient hdl).ownSc

-- A tile that counts as unchanged in the update of an own camera.
structure KeepsMark (st : State) (hdl : Handle) (cl : Client) (picture : Buffer) (t : Nat) :
    Prop where
  marked : cl.mod t ≠ 0
  undrained : ¬Drains hdl st
  same : picture t = cl.ownScPrev t

section Update

variable {w h : Nat} {hdl : Handle} {st : State} {cl : Client}

theorem taken_mod {t : Nat} (ht : t < 256 * 256) :
    (cl.taken st hdl).mod t ≠ 0 ↔ cl.mod t ≠ 0 ∧ ¬Drains hdl st := by
  have hmod : (cl.taken st hdl).mod = (cl.drained st hdl).mod := by
    unfold Client.taken
    split <;> rfl
  rw [hmod]
  unfold Client.drained
  split
  · rename_i hd
    refine iff_of_false (fun hne => hne (if_pos ht)) fun hk => hk.2 hd
  · rename_i hd
    rw [and_iff_left hd]

theorem index_lt_array (hw : w ≤ 256) (hh : h ≤ 256) {x y : Nat} (hx : x < w) (hy : y < h) :
    Grid.index h x y < 256 * 256 :=
  (Grid.index_lt hx hy).trans_le (Nat.mul_le_mul hw hh)

theorem diffOwn_taken_mod (hw : w ≤ 256) (hh : h ≤ 256) {picture : Buffer} {x y : Nat}
    (hx : x < w) (hy : y < h) :
    (Client.diffOwn (w * h) { cl.taken st hdl with ownSc := picture }).mod (Grid.index h x y) ≠ 0 ↔
      KeepsMark st hdl cl picture (Grid.index h x y) := by
  have hprev : (cl.taken st hdl).ownScPrev = cl.ownScPrev := (cl.taken_kept st hdl).ownScPrev
  show markChanged (cl.taken st hdl).mod picture (cl.taken st hdl).ownScPrev (w * h) _ ≠ 0 ↔ _
  rw [hprev, markChanged_ne_zero_iff _ _ _ (Grid.index_lt hx hy),
    taken_mod (index_lt_array hw hh hx hy)]
  exact ⟨fun hm => ⟨hm.1.1, hm.1.2, hm.2⟩, fun hk => ⟨⟨hk.marked, hk.undrained⟩, hk.same⟩⟩

-- The pass of an own camera spoils the marks where it takes a tile for
-- unchanged that was last sent as something else.
theorem taken_coherent_iff (hw : w ≤ 256) (hh : h ≤ 256) {page : Page} {picture : Buffer}
    (hc : (mirror w h cl page).Coherent Cell.wire) :
    (mirror w h (Client.diffOwn (w * h) { cl.taken st hdl with ownSc := picture }) page).Coherent
        Cell.wire ↔
      ∀ x < w, ∀ y < h, KeepsMark st hdl cl picture (Grid.index h x y) →
        (cl.ownSc (Grid.index h x y)).wire = (picture (Grid.index h x y)).wire := by
  constructor
  · intro hafter x hx y hy hk
    have hnew := hafter (x, y) ⟨⟨hx, hy⟩, (diffOwn_taken_mod hw hh hx hy).mpr hk⟩
    have hold := hc (x, y) ⟨⟨hx, hy⟩, hk.marked⟩
    exact Option.some.inj (hold.symm.trans hnew)
  · rintro hkept ⟨x, y⟩ ⟨⟨hx, hy⟩, hm⟩
    have hk := (diffOwn_taken_mod hw hh hx hy).mp hm
    have hold := hc (x, y) ⟨⟨hx, hy⟩, hk.marked⟩
    exact hold.trans (congrArg some (hkept x hx y hy hk))

end Update

section Runs

variable {s : Endpoint} {hdl : Handle} {w h : Nat} {v : Viewer} {cl : Client}

-- A client on a screen of the given size.
structure Present (w h : Nat) (hdl : Handle) (v : Viewer) (cl : Client) : Prop where
  size : v.st.game.HasSize w h
  client : v.st.clients.find? hdl = some cl

theorem Present.coherent_iff (hv : Present w h hdl v cl) :
    Coherent w h hdl v ↔ (mirror w h cl v.page).Coherent Cell.wire := by
  constructor
  · rintro ⟨cl', hcl', hc⟩
    obtain rfl : cl' = cl := Option.some.inj (hcl'.symm.trans hv.client)
    exact hc
  · exact fun hc => ⟨cl, hv.client, hc⟩

theorem Present.step (hv : Present w h hdl v cl) {e : Event}
    (hen : (meantime s hdl w h).enabled v e) : ∃ cl', Present w h hdl (view s hdl v e) cl' := by
  obtain ⟨hu, he, hsize⟩ := hen
  obtain ⟨-, cl', hcl', -⟩ := handle_client s e v.st hv.client hu he
  exact ⟨cl', handle_hasSize s hv.size hsize, hcl'⟩

-- Without an update nothing is drawn, so all marks stay right.
theorem Present.coherent_step (hv : Present w h hdl v cl) (hw : 1 ≤ w ∧ w ≤ 256)
    (hh : 1 ≤ h ∧ h ≤ 256) (hb : (s hdl).processor.takesBinary = true) {e : Event}
    (hen : (meantime s hdl w h).enabled v e) (hc : Coherent w h hdl v) :
    Coherent w h hdl (view s hdl v e) := by
  obtain ⟨hu, he, -⟩ := hen
  rw [hv.coherent_iff] at hc
  by_cases ha : e.Asks hdl
  · obtain ⟨payload, rfl, hp⟩ := ha.exists
    obtain ⟨cl', hcl', hsend⟩ := tock_send hv.size hv.client hw hh hb hp
    exact ⟨cl', hcl', hc.send hsend⟩
  · obtain ⟨cl', hcl', -, -, hredraw⟩ := mirror_other (w := w) (h := h) hv.client hu ha he
    exact ⟨cl', hcl', hc.redraw hredraw⟩

theorem meantime_run (hw : 1 ≤ w ∧ w ≤ 256) (hh : 1 ≤ h ∧ h ≤ 256)
    (hb : (s hdl).processor.takesBinary = true) {es : List Event} (hsize : v.st.game.HasSize w h)
    (hc : Coherent w h hdl v) (hes : (meantime s hdl w h).Valid v es) :
    (∃ cl, Present w h hdl ((meantime s hdl w h).exec v es) cl) ∧
      Coherent w h hdl ((meantime s hdl w h).exec v es) := by
  obtain ⟨cl, hcl, -⟩ := id hc
  refine (meantime s hdl w h).exec_invariant
    (fun v => (∃ cl, Present w h hdl v cl) ∧ Coherent w h hdl v) ?_ v es
    ⟨⟨cl, hsize, hcl⟩, hc⟩ hes
  rintro v e ⟨⟨cl, hv⟩, hc⟩ hen
  exact ⟨hv.step hen, hv.coherent_step hw hh hb hen hc⟩

theorem Event.IsTock.exists {e : Event} (h : e.IsTock) :
    ∃ j payload, e = .message j payload ∧ parseMessage payload = .update := by
  cases e with
  | message j payload => exact ⟨j, payload, rfl, h⟩
  | opened _ => exact h.elim
  | closed _ => exact h.elim
  | game _ => exact h.elim
  | update _ _ => exact h.elim

-- A tock neither repairs nor spoils anything, whoever asks for it.
theorem Present.tock_coherent_iff (hv : Present w h hdl v cl) (hw : 1 ≤ w ∧ w ≤ 256)
    (hh : 1 ≤ h ∧ h ≤ 256) (hb : (s hdl).processor.takesBinary = true) {e : Event}
    (he : e.IsTock) : Coherent w h hdl (view s hdl v e) ↔ Coherent w h hdl v := by
  obtain ⟨j, payload, rfl, hp⟩ := he.exists
  by_cases hj : j = hdl
  · subst hj
    obtain ⟨cl', hcl', hsend⟩ := tock_send hv.size hv.client hw hh hb hp
    have hv' : Present w h j (view s j v (.message j payload)) cl' :=
      ⟨handle_hasSize s (e := .message j payload) hv.size trivial, hcl'⟩
    rw [hv'.coherent_iff, hv.coherent_iff]
    exact hsend.coherent_iff
  · have ha : ¬(Event.message j payload).Asks hdl := fun h => hj h.1
    obtain ⟨cl', hcl', hsc, -, hredraw⟩ :=
      mirror_other (s := s) (w := w) (h := h) (e := .message j payload) hv.client id ha id
    have hmarks : marks (view s hdl v (.message j payload)).st hdl = marks v.st hdl := by
      have htock : (view s hdl v (.message j payload)).st = (tock s j v.st).state := by
        simp only [view, handle, onMessage, hp]
      rw [htock]
      exact tock_marks s (Ne.symm hj)
    rw [marks_of_find? hcl', marks_of_find? hv.client] at hmarks
    have hsame : mirror w h cl' (view s hdl v (.message j payload)).page = mirror w h cl v.page := by
      unfold mirror
      rw [Option.some.inj hmarks, hsc]
      exact congrArg (Mirror.mk _ _) hredraw.remote
    have hv' : Present w h hdl (view s hdl v (.message j payload)) cl' :=
      ⟨handle_hasSize s (e := .message j payload) hv.size trivial, hcl'⟩
    rw [hv'.coherent_iff, hv.coherent_iff, hsame]

theorem tocks_coherent_iff (hw : 1 ≤ w ∧ w ≤ 256) (hh : 1 ≤ h ∧ h ≤ 256)
    (hb : (s hdl).processor.takesBinary = true) {tocks : List Event}
    (htocks : ∀ e ∈ tocks, e.IsTock) (hv : Present w h hdl v cl) :
    Coherent w h hdl ((meantime s hdl w h).exec v tocks) ↔ Coherent w h hdl v := by
  induction tocks generalizing v cl with
  | nil => exact Iff.rfl
  | cons e tocks ih =>
      obtain ⟨he, hrest⟩ := List.forall_mem_cons.mp htocks
      obtain ⟨j, payload, rfl, -⟩ := he.exists
      obtain ⟨cl', hv'⟩ := hv.step (s := s) (e := .message j payload) ⟨id, id, trivial⟩
      exact (ih hrest hv').trans (hv.tock_coherent_iff hw hh hb he)

end Runs

-- A client was coherent, some time passed, and an update finds it with a
-- camera of its own or with the turn. However tocks fall around that update,
-- the client is still coherent exactly when no tile keeps its mark there that
-- was last sent as something else.
theorem own_camera_coherent_iff (s : Endpoint) (hdl : Handle) (w h : Nat) (v : Viewer)
    (es tocks : List Event) (g : Game) (df : Df) (hw : 1 ≤ w ∧ w ≤ 256) (hh : 1 ≤ h ∧ h ≤ 256)
    (hb : (s hdl).processor.takesBinary = true) (hsize : v.st.game.HasSize w h)
    (hcoh : Coherent w h hdl v) (hes : (meantime s hdl w h).Valid v es)
    (hg : g.HasSize w h) (hdf : df.KeepsSize) (htocks : ∀ e ∈ tocks, e.IsTock) :
    let u := (meantime s hdl w h).exec v es
    let last := (meantime s hdl w h).exec (view s hdl u (.update g df)) tocks
    ∀ cl, u.st.clients.find? hdl = some cl →
      cl.hasOwnCam = true ∨ u.st.activeConn = some hdl →
      let picture := pictureFor df (u.st.atGame g) hdl
      (Coherent w h hdl last ↔
        ∀ x < w, ∀ y < h, KeepsMark (u.st.atGame g) hdl cl picture (Grid.index h x y) →
          (cl.ownSc (Grid.index h x y)).wire = (picture (Grid.index h x y)).wire) := by
  intro u last cl hcl hown picture
  obtain ⟨⟨cl₀, hu⟩, hc⟩ := meantime_run hw hh hb hsize hcoh hes
  obtain rfl : cl₀ = cl := Option.some.inj (hu.client.symm.trans hcl)
  have hcap : (captured df (u.st.atGame g)).HasSize w h := captured_hasSize hdf hg
  have hclient : (u.st.atGame g).clients.find? hdl = some cl₀ := hcl
  obtain ⟨own, hfind⟩ := pluginOnupdate_taken hclient hown (pos_of_hasSize hcap hw.1 hh.1)
  rw [total_of_hasSize hcap] at hfind
  have hpicture : picture = own := by
    show ((pluginOnupdate df (u.st.atGame g)).state.getClient hdl).ownSc = own
    rw [State.getClient_of_find? hfind]
    rfl
  have hpage : (view s hdl u (.update g df)).page = u.page :=
    view_page_of_not_asks (e := .update g df) id id
  have hafter : Present w h hdl (view s hdl u (.update g df)) _ :=
    ⟨pluginOnupdate_hasSize hdf hg, hfind⟩
  rw [tocks_coherent_iff hw hh hb htocks hafter, hafter.coherent_iff, hpage, hpicture]
  exact taken_coherent_iff hw.2 hh.2 (hu.coherent_iff.mp hc)

namespace Sample

-- A screen with one tile of the map in the middle, all of it showing one
-- glyph: a floor, or the black of unexplored ground.
def mapScreen (gl : Glyph) : Game :=
  { game 64 with
    gps := { gps 64 with dimx := 3, dimy := 3, screen := some fun _ => gl }
    menuWidth := (3, 3) }

def floor : Game := mapScreen ⟨43, ⟨255, 255, 255⟩, ⟨0, 0, 0⟩⟩

def unexplored : Game := mapScreen ⟨0, ⟨0, 0, 0⟩, ⟨0, 0, 0⟩⟩

-- The spectator has been sent its first frame.
def shown : Viewer :=
  view endpoint 0
    ⟨(plugin endpoint).exec (State.init config floor) [.opened 0, .update floor df], Page.blank⟩
    (.message 0 [110])

-- It moves its camera, and a tock comes before the next update.
def moved : List Event := [.message 0 [117, 0, 0, 0], .message 0 [110]]

theorem shown_coherent : Coherent 3 3 0 shown := by
  refine ⟨shown.st.getClient 0, rfl, ?_⟩
  have hpage : ∀ x < 3, ∀ y < 3,
      shown.page (x, y) = some ((shown.st.getClient 0).ownSc (Grid.index 3 x y)).wire := by decide
  exact fun p hp => hpage p.1 hp.1.1 p.2 hp.1.2

end Sample

theorem own_camera_coherent_iff_sample :
    Coherent 3 3 0 (view Sample.endpoint 0
      ((meantime Sample.endpoint 0 3 3).exec Sample.shown Sample.moved)
      (.update Sample.floor Sample.df)) := by
  let u := (meantime Sample.endpoint 0 3 3).exec Sample.shown Sample.moved
  refine (own_camera_coherent_iff Sample.endpoint 0 3 3 Sample.shown Sample.moved []
    Sample.floor Sample.df (by decide) (by decide) rfl ⟨rfl, rfl⟩ Sample.shown_coherent
    ⟨⟨id, id, trivial⟩, ⟨id, id, trivial⟩, trivial⟩ ⟨rfl, rfl⟩ (fun _ _ _ => ⟨rfl, rfl⟩)
    (fun _ h => absurd h List.not_mem_nil) (u.st.getClient 0) rfl (Or.inl rfl)).mpr ?_
  have hdrawn : ∀ x < 3, ∀ y < 3,
      pictureFor Sample.df (u.st.atGame Sample.floor) 0 (Grid.index 3 x y) ≠
        (u.st.getClient 0).ownScPrev (Grid.index 3 x y) := by decide
  exact fun x hx y hy hk => absurd hk.same (hdrawn x hx y hy)

-- Where nothing is drawn the page keeps the last picture of the shared
-- camera.
theorem unexplored_tile_not_sent :
    let u := (meantime Sample.endpoint 0 3 3).exec Sample.shown Sample.moved
    let after := view Sample.endpoint 0 u (.update Sample.unexplored Sample.df)
    let last := view Sample.endpoint 0 after (.message 0 [110])
    (ownCamera 0 Sample.shown.st = some false ∧ Coherent 3 3 0 Sample.shown) ∧
    (u.page (1, 1) = last.page (1, 1) ∧
      last.page (1, 1) ≠ some ((last.st.getClient 0).ownSc (Grid.index 3 1 1)).wire) ∧
    ¬Coherent 3 3 0 after := by
  intro u after last
  refine ⟨⟨rfl, Sample.shown_coherent⟩, by decide, ?_⟩
  rintro ⟨cl, hcl, hc⟩
  have hclient : cl = after.st.getClient 0 := Option.some.inj (hcl.symm.trans rfl)
  subst hclient
  have hmiddle := hc (1, 1) ⟨⟨by decide, by decide⟩, by decide⟩
  exact absurd hmiddle (by decide)

end WebFort
