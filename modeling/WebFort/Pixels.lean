import WebFort.Display
import WebFort.Tiles

namespace WebFort

open Library

-- The plugin and the canvas of one client.
structure Onlooker where
  st : State
  display : Display

inductive Happening
  | server (e : Event)
  | atlas (a : Sprites)

def Happening.IsTock (hdl : Handle) : Happening → Prop
  | .server e => e.Asks hdl
  | .atlas _ => False

-- What the next packet is drawn with.
def Onlooker.look (v : Onlooker) : Option Sprites := lookOf v.st.graphicsMode v.display.atlas

section Machine

variable (C : Context) (sheets : Sheets) (s : Endpoint) (hdl : Handle)

def Onlooker.next (v : Onlooker) : Happening → Onlooker
  | .server e =>
      { st := (handle s e v.st).state
        display := (sends hdl (handle s e v.st).out).foldl (Display.receive C sheets) v.display }
  | .atlas a => { v with display := { v.display with atlas := some a } }

-- A screen of one size, a client that stays and keeps its kind of camera, and
-- nicks the page can read.
def onlooking (w h : Nat) : Machine Onlooker Happening where
  enabled v m :=
    match m with
    | .server e =>
        (¬e.Ends hdl ∧ e.Sized w h ∧
          ownCamera hdl (handle s e v.st).state = ownCamera hdl v.st) ∧
        (e.Asks hdl → Readable v.st.getActive.nick)
    | .atlas _ => True
  next := Onlooker.next C sheets s hdl

-- The canvas has the size of the screen, and the tile is drawn as the cell
-- says, with a look that satisfies P.
def TileShown (P : Option Sprites → Prop) (w h : Nat) (d : Display) (x y : Nat) (c : WireCell) :
    Prop :=
  (d.width = w * tilew ∧ d.height = h * tileh) ∧
    ∃ look, P look ∧ ∀ px < tilew, ∀ py < tileh,
      d.pixel (x * tilew + px) (y * tileh + py) = tilePicture C sheets look c px py

end Machine

section Packet

variable (hdl : Handle) {st : State} {w h : Nat}

theorem tileLoop_dims (hsize : st.game.HasSize w h) :
    (tileLoop hdl st).bytes.getD 8 0 = UInt8.ofNat w ∧
      (tileLoop hdl st).bytes.getD 9 0 = UInt8.ofNat h := by
  obtain ⟨tiles, hbytes⟩ := tileLoop_bytes hdl st
  have hgame : (turnPart st).game = st.game := (turnPart_kept st).game
  rw [hbytes, ← leByte_cast w, ← leByte_cast h, ← hsize.1, ← hsize.2, ← hgame]
  exact ⟨rfl, rfl⟩

theorem tileLoop_graphics : graphicsBit (tileLoop hdl st).bytes = st.graphicsMode := by
  obtain ⟨tiles, hbytes⟩ := tileLoop_bytes hdl st
  obtain ⟨-, -, -, hgraphics, -⟩ := bits_byte ((turnPart st).activeConn = some hdl)
    ((turnPart st).activeConn = none) (turnPart st).config.ingameTime (turnPart st).graphicsMode
    (Nat.mod_lt (turnPart st).atlasVersion (by decide : 0 < 16))
  have hbyte : (tileLoop hdl st).bytes.getD 2 0 = UInt8.ofNat (tockBits hdl (turnPart st)) := by
    rw [hbytes]
    rfl
  unfold graphicsBit
  rw [hbyte, ← (turnPart_atlas st).1, ← hgraphics]
  unfold tockBits
  simp only [decide_eq_true_eq]

theorem tileLoop_decodes (hread : Readable st.getActive.nick) :
    (Percent.decode (activeNick (tileLoop hdl st).bytes)).isSome = true := by
  rw [activeNick_tock]
  exact hread

theorem packetTiles_tileLoop (hk : sizeOk st.game.gps = true) :
    packetTiles (tileLoop hdl st).bytes =
      (dirty (st.getClient hdl).mod (width st) (height st)).map fun p =>
        ⟨p.1, p.2, ((st.getClient hdl).ownSc (Grid.index (height st) p.1 p.2)).wire⟩ := by
  unfold packetTiles
  rw [tileLoop_records hdl hk, List.filterMap_map]
  exact congrFun List.filterMap_eq_map _

theorem tileLoop_unrepeated (hk : sizeOk st.game.gps = true) (look : Option Sprites) :
    Unrepeated look (packetTiles (tileLoop hdl st).bytes) := by
  refine unrepeated_of_nodup ?_
  rw [packetTiles_tileLoop hdl hk, List.map_map]
  exact (nodup_dirty _ _ _).map fun p q hpq => hpq

-- A canvas of another size is cleared before a tile is drawn.
theorem scene_tock (hsize : st.game.HasSize w h) (hw : 1 ≤ w ∧ w ≤ 255) (hh : 1 ≤ h ∧ h ≤ 255)
    (hread : Readable st.getActive.nick) (v : Scene) :
    let v' := v.receive (tileLoop hdl st).bytes
    (v'.width = w * tilew ∧ v'.height = h * tileh) ∧
    v'.atlas = lookOf st.graphicsMode v.atlas ∧
    ∀ k : Nat × Nat, v'.tile k =
      if k ∈ dirty (st.getClient hdl).mod w h then
        some (((st.getClient hdl).ownSc (Grid.index h k.1 k.2)).wire, v'.atlas)
      else if v.width = w * tilew ∧ v.height = h * tileh then v.tile k
      else none := by
  intro v'
  have hk : sizeOk st.game.gps = true := sizeOk_of_hasSize hsize (by omega) (by omega)
  have hwidth : width st = w := by simp [width, hsize.1]
  have hheight : height st = h := by simp [height, hsize.2]
  obtain ⟨hdimx, hdimy⟩ := tileLoop_dims hdl hsize
  have hx : (UInt8.ofNat w).toNat = w := by rw [UInt8.toNat_ofNat']; omega
  have hy : (UInt8.ofNat h).toNat = h := by rw [UInt8.toNat_ofNat']; omega
  let sized := Scene.resize { v with atlas := lookOf st.graphicsMode v.atlas } (UInt8.ofNat w)
    (UInt8.ofNat h)
  have hv' : v' = sized.draw (packetTiles (tileLoop hdl st).bytes) := by
    show Scene.receive v _ = _
    unfold Scene.receive
    rw [if_pos (tileLoop_head hdl hk), tileLoop_graphics, hdimx, hdimy]
    exact if_pos (tileLoop_decodes hdl hread)
  have hsized : (sized.width = w * tilew ∧ sized.height = h * tileh) ∧
      sized.atlas = lookOf st.graphicsMode v.atlas ∧ ∀ k, sized.tile k =
        if v.width = w * tilew ∧ v.height = h * tileh then v.tile k else none := by
    have hpos : 0 < w * tilew ∧ 0 < h * tileh := by
      unfold tilew tileh
      omega
    simp only [sized, Scene.resize, hx, hy]
    by_cases hsame : v.width = w * tilew ∧ v.height = h * tileh
    · rw [if_neg (by rintro ⟨-, -, hne | hne⟩; exacts [hne hsame.1, hne hsame.2])]
      exact ⟨hsame, rfl, fun k => (if_pos hsame).symm⟩
    · rw [if_pos ⟨hpos.1, hpos.2, by by_contra hno; exact hsame (by omega)⟩]
      exact ⟨⟨rfl, rfl⟩, rfl, fun k => (if_neg hsame).symm⟩
  obtain ⟨hdims, hatlas, htile⟩ := hsized
  rw [hv']
  refine ⟨hdims, hatlas, fun k => ?_⟩
  have hput := Grid.foldl_update_apply (fun q : Nat × Nat => q)
    (fun q => some (((st.getClient hdl).ownSc (Grid.index h q.1 q.2)).wire, sized.atlas))
    (fun q => some (((st.getClient hdl).ownSc (Grid.index h q.1 q.2)).wire, sized.atlas))
    (dirty (st.getClient hdl).mod w h) (fun _ _ => rfl) sized.tile k
  rw [List.map_id'] at hput
  rw [← htile k, packetTiles_tileLoop hdl hk, hwidth, hheight]
  unfold Scene.draw
  rw [List.foldl_map]
  refine hput.trans ?_
  congr

end Packet

-- Every tile the page was told of is in the scene, and the canvas has its
-- size.
def Agrees (P : Option Sprites → Prop) (w h : Nat) (v : Scene) (page : Page) : Prop :=
  ∀ x < w, ∀ y < h, ∀ c, page (x, y) = some c →
    (v.width = w * tilew ∧ v.height = h * tileh) ∧ ∃ look, P look ∧ v.tile (x, y) = some (c, look)

-- The invariant of a run, with the scene and the page as ghosts.
structure Pictured (C : Context) (sheets : Sheets) (hdl : Handle) (P : Option Sprites → Prop)
    (w h : Nat) (v : Onlooker) (scene : Scene) (page : Page) (cl : Client) : Prop where
  shows : v.display.Shows C sheets scene
  agrees : Agrees P w h scene page
  steady : Steady w h hdl ⟨v.st, page⟩ cl

section Steps

variable {C : Context} {sheets : Sheets} {s : Endpoint} {hdl : Handle} {P : Option Sprites → Prop}
  {w h : Nat} {v : Onlooker} {scene : Scene} {page : Page} {cl : Client}

theorem Agrees.tock {st : State} (ha : Agrees P w h scene page) (hsize : st.game.HasSize w h)
    (hw : 1 ≤ w ∧ w ≤ 255) (hh : 1 ≤ h ∧ h ≤ 255) (hb : (s hdl).processor.takesBinary = true)
    (hread : Readable st.getActive.nick) (hP : P (lookOf st.graphicsMode scene.atlas)) :
    Agrees P w h (scene.receive (tileLoop hdl st).bytes)
      ((sends hdl (tock s hdl st).out).foldl Page.receive page) := by
  have hk : sizeOk st.game.gps = true := sizeOk_of_hasSize hsize (by omega) (by omega)
  have hwidth : width st = w := by simp [width, hsize.1]
  have hheight : height st = h := by simp [height, hsize.2]
  obtain ⟨hdims, hatlas, htile⟩ := scene_tock hdl hsize hw hh hread scene
  intro x hx y hy c hc
  rw [receive_tock hdl s page hk hb, hwidth, hheight] at hc
  refine ⟨hdims, ?_⟩
  rw [htile (x, y)]
  by_cases hd : (x, y) ∈ dirty (st.getClient hdl).mod w h
  · rw [if_pos hd] at hc ⊢
    obtain rfl := Option.some.inj hc
    exact ⟨_, hatlas ▸ hP, rfl⟩
  · rw [if_neg hd] at hc ⊢
    obtain ⟨hsame, look, hlook, htold⟩ := ha x hx y hy c hc
    rw [if_pos hsame]
    exact ⟨look, hlook, htold⟩

-- The cursor packet draws on a canvas of its own.
theorem display_tock {st : State} (d : Display) (hb : (s hdl).processor.takesBinary = true) :
    (sends hdl (tock s hdl st).out).foldl (Display.receive C sheets) d =
      d.receive C sheets (tileLoop hdl st).bytes := by
  have hsends := tock_sends s hdl hdl st
  rw [if_pos ⟨rfl, hb⟩] at hsends
  rw [hsends, List.foldl_cons, List.foldl_cons, List.foldl_nil]
  generalize d.receive C sheets (tileLoop hdl st).bytes = d'
  unfold Display.receive
  rw [cursorPacket_head]
  exact if_neg (by decide)

theorem Display.Shows.tock (hv : v.display.Shows C sheets scene) (hb : (s hdl).processor.takesBinary = true)
    (hk : sizeOk v.st.game.gps = true) {payload : Bytes} (hp : parseMessage payload = .update) :
    (v.next C sheets s hdl (.server (.message hdl payload))).display.Shows C sheets
      (scene.receive (tileLoop hdl v.st).bytes) := by
  have htock : handle s (.message hdl payload) v.st = WebFort.tock s hdl v.st := by
    simp only [handle, onMessage, hp]
  simp only [Onlooker.next, htock]
  rw [display_tock v.display hb]
  exact hv.next (i := .packet (tileLoop hdl v.st).bytes) (tileLoop_unrepeated hdl hk _)

theorem Pictured.tock (hv : Pictured C sheets hdl P w h v scene page cl) (hw : 1 ≤ w ∧ w ≤ 255)
    (hh : 1 ≤ h ∧ h ≤ 255) (hb : (s hdl).processor.takesBinary = true)
    (hread : Readable v.st.getActive.nick) (hP : P v.look) {payload : Bytes}
    (hp : parseMessage payload = .update)
    (hown : ownCamera hdl (handle s (.message hdl payload) v.st).state = ownCamera hdl v.st) :
    ∃ scene' page' cl', Pictured C sheets hdl P w h
      (v.next C sheets s hdl (.server (.message hdl payload))) scene' page' cl' := by
  have hsize : v.st.game.HasSize w h := hv.steady.size
  have hk : sizeOk v.st.game.gps = true := sizeOk_of_hasSize hsize (by omega) (by omega)
  have htock : handle s (.message hdl payload) v.st = WebFort.tock s hdl v.st := by
    simp only [handle, onMessage, hp]
  obtain ⟨cl', hsteady⟩ := hv.steady.tock (by omega) (by omega) hb hp hown
  have hlook : P (lookOf v.st.graphicsMode scene.atlas) := by
    rw [← hv.shows.atlas]
    exact hP
  refine ⟨scene.receive (tileLoop hdl v.st).bytes, _, cl', hv.shows.tock hb hk hp, ?_, hsteady⟩
  simp only [htock]
  exact hv.agrees.tock hsize hw hh hb hread hlook

theorem Pictured.next (hv : Pictured C sheets hdl P w h v scene page cl) (hw : 1 ≤ w ∧ w ≤ 255)
    (hh : 1 ≤ h ∧ h ≤ 255) (hb : (s hdl).processor.takesBinary = true) {m : Happening}
    (hen : (onlooking C sheets s hdl w h).enabled v m) (hP : m.IsTock hdl → P v.look) :
    ∃ scene' page' cl', Pictured C sheets hdl P w h (v.next C sheets s hdl m) scene' page' cl' := by
  cases m with
  | atlas a =>
      exact ⟨{ scene with atlas := some a }, page, cl, hv.shows.next (i := .atlas a) trivial,
        hv.agrees, hv.steady⟩
  | server e =>
      obtain ⟨⟨he, hsized, hown⟩, hread⟩ := hen
      by_cases ha : e.Asks hdl
      · obtain ⟨payload, rfl, hp⟩ := ha.exists
        exact hv.tock hw hh hb (hread ha) (hP ha) hp hown
      · obtain ⟨cl', hsteady⟩ := hv.steady.step (s := s) (e := e) (by omega) (by omega) hb
          ⟨he, hsized, hown⟩
        have hpage : (view s hdl ⟨v.st, page⟩ e).page = page := view_page_of_not_asks ha he
        have hsends := handle_sends s e v.st ha he
        refine ⟨scene, page, cl', ?_, hv.agrees, ?_⟩
        · simp only [Onlooker.next, hsends, List.foldl_nil]
          exact hv.shows
        · rw [← hpage]
          exact hsteady

theorem Pictured.shown (hv : Pictured C sheets hdl P w h v scene page cl) {x y : Nat} (hx : x < w)
    (hy : y < h) (hmod : cl.mod (Grid.index h x y) ≠ 0) :
    TileShown C sheets P w h v.display x y (cl.ownSc (Grid.index h x y)).wire := by
  have hpage := hv.steady.coherent (x, y) ⟨⟨hx, hy⟩, hmod⟩
  obtain ⟨⟨hwidth, hheight⟩, look, hlook, htile⟩ := hv.agrees x hx y hy _ hpage
  exact ⟨⟨hv.shows.width.trans hwidth, hv.shows.height.trans hheight⟩, look, hlook,
    hv.shows.tile (x, y) _ look htile⟩

end Steps

-- Every run in which the page draws with looks that satisfy P leaves the marked
-- tiles of the client in its canvas, pixel by pixel, and one more tock brings
-- all of them up to own_sc.
theorem pixels_of_run (C : Context) (sheets : Sheets) (s : Endpoint) (hdl : Handle)
    (P : Option Sprites → Prop) (w h : Nat) (v : Onlooker) (ms : List Happening)
    (hw : 1 ≤ w ∧ w ≤ 255) (hh : 1 ≤ h ∧ h ≤ 255) (hb : (s hdl).processor.takesBinary = true)
    (hsize : v.st.game.HasSize w h) (hsync : Synchronised w h hdl v.st)
    (hshown : ∀ cl, v.st.clients.find? hdl = some cl → ∀ x < w, ∀ y < h,
      cl.mod (Grid.index h x y) ≠ 0 →
        TileShown C sheets P w h v.display x y (cl.ownSc (Grid.index h x y)).wire)
    (hrun : (onlooking C sheets s hdl w h).Valid v ms)
    (hP : (onlooking C sheets s hdl w h).Each (fun v m => m.IsTock hdl → P v.look) v ms) :
    let u := (onlooking C sheets s hdl w h).exec v ms
    (∃ cl, u.st.clients.find? hdl = some cl ∧ ∀ x < w, ∀ y < h,
      cl.mod (Grid.index h x y) ≠ 0 →
        TileShown C sheets P w h u.display x y (cl.ownSc (Grid.index h x y)).wire) ∧
    ∀ payload, parseMessage payload = .update → Readable u.st.getActive.nick → P u.look →
      let last := u.next C sheets s hdl (.server (.message hdl payload))
      ∃ cl, last.st.clients.find? hdl = some cl ∧ ∀ x < w, ∀ y < h,
        TileShown C sheets P w h last.display x y (cl.ownSc (Grid.index h x y)).wire := by
  intro u
  obtain ⟨cl, hcl, hs⟩ := hsync
  have hstart : ∃ scene page cl, Pictured C sheets hdl P w h v scene page cl := by
    -- The ghosts hold what the marked tiles show, and nothing else.
    have hlook : ∀ k : Nat × Nat, ∃ look, (k.1 < w ∧ k.2 < h) ∧
        cl.mod (Grid.index h k.1 k.2) ≠ 0 → P look ∧ ∀ px < tilew, ∀ py < tileh,
          v.display.pixel (k.1 * tilew + px) (k.2 * tileh + py) =
            tilePicture C sheets look (cl.ownSc (Grid.index h k.1 k.2)).wire px py := by
      intro k
      by_cases hk : (k.1 < w ∧ k.2 < h) ∧ cl.mod (Grid.index h k.1 k.2) ≠ 0
      · obtain ⟨-, look, hlook⟩ := hshown cl hcl k.1 hk.1.1 k.2 hk.1.2 hk.2
        exact ⟨look, fun _ => hlook⟩
      · exact ⟨none, fun h => absurd h hk⟩
    choose look hlook using hlook
    let marked (k : Nat × Nat) : Prop := (k.1 < w ∧ k.2 < h) ∧ cl.mod (Grid.index h k.1 k.2) ≠ 0
    let wire (k : Nat × Nat) : WireCell := (cl.ownSc (Grid.index h k.1 k.2)).wire
    let page : Page := fun k => if marked k then some (wire k) else none
    let scene : Scene := ⟨v.display.width, v.display.height,
      fun k => if marked k then some (wire k, look k) else none, v.display.atlas⟩
    refine ⟨scene, page, cl, ⟨rfl, rfl, rfl, ?_⟩, ?_, hsize, hcl, hs, ?_⟩
    · intro k c look' hk
      by_cases hmarked : marked k
      · obtain ⟨rfl, rfl⟩ := Prod.mk.inj (Option.some.inj ((if_pos hmarked).symm.trans hk))
        exact (hlook k hmarked).2
      · exact (Option.some_ne_none _ (hk.symm.trans (if_neg hmarked))).elim
    · intro x hx y hy c hc
      by_cases hmarked : marked (x, y)
      · obtain rfl := Option.some.inj ((if_pos hmarked).symm.trans hc)
        exact ⟨(hshown cl hcl x hx y hy hmarked.2).1, look (x, y), (hlook _ hmarked).1,
          if_pos hmarked⟩
      · exact (Option.some_ne_none _ (hc.symm.trans (if_neg hmarked))).elim
    · exact fun k hk => if_pos hk
  have hend : ∃ scene page cl, Pictured C sheets hdl P w h u scene page cl :=
    (onlooking C sheets s hdl w h).exec_invariant_each
      (fun v => ∃ scene page cl, Pictured C sheets hdl P w h v scene page cl)
      (fun v m => m.IsTock hdl → P v.look)
      (fun v m hv hen hP => by
        obtain ⟨scene, page, cl, hv⟩ := hv
        exact hv.next hw hh hb hen hP) v ms hstart hrun hP
  obtain ⟨scene, page, cl', hend⟩ := hend
  refine ⟨⟨cl', hend.steady.client, fun x hx y hy hmod => hend.shown hx hy hmod⟩, ?_⟩
  intro payload hp hread hlook last
  have hk : sizeOk u.st.game.gps = true := sizeOk_of_hasSize hend.steady.size (by omega) (by omega)
  have htock : handle s (.message hdl payload) u.st = tock s hdl u.st := by
    simp only [handle, onMessage, hp]
  obtain ⟨cl'', hcl'', hsend⟩ := tock_send (s := s) (v := ⟨u.st, page⟩) hend.steady.size
    hend.steady.client (by omega) (by omega) hb hp
  have hpage := hend.steady.coherent.shown_of_send hsend
  have hshows := hend.shows.tock hb hk hp
  have hagrees : Agrees P w h (scene.receive (tileLoop hdl u.st).bytes)
      (view s hdl ⟨u.st, page⟩ (.message hdl payload)).page := by
    simp only [view, htock]
    exact hend.agrees.tock hend.steady.size hw hh hb hread (hend.shows.atlas ▸ hlook)
  refine ⟨cl'', hcl'', fun x hx y hy => ?_⟩
  obtain ⟨⟨hwidth, hheight⟩, look, hPlook, htile⟩ :=
    hagrees x hx y hy _ (hpage (x, y) ⟨hx, hy⟩)
  exact ⟨⟨hshows.width.trans hwidth, hshows.height.trans hheight⟩, look, hPlook,
    hshows.tile (x, y) _ look htile⟩

-- A tock, a tick that changes every tile, and the tock after it, in curses mode.
theorem pixels_of_run_sample :
    let u := (onlooking Sample.context Sample.sheets Sample.endpoint 0 2 2).exec
      ⟨Sample.watched, Sample.firstCanvas⟩
      [.server (.message 0 [110]), .server (.update (Sample.game 65) Sample.df)]
    let last := u.next Sample.context Sample.sheets Sample.endpoint 0 (.server (.message 0 [110]))
    ∃ cl, last.st.clients.find? 0 = some cl ∧ ∀ x < 2, ∀ y < 2,
      TileShown Sample.context Sample.sheets (· = none) 2 2 last.display x y
        (cl.ownSc (Grid.index 2 x y)).wire := by
  have hcl : Sample.watched.clients.find? 0 = some (Sample.watched.getClient 0) := rfl
  have hsync : (Sample.watched.getClient 0).Synchronised 2 2 Sample.watched := by
    unfold Client.Synchronised
    decide
  have hmod : ∀ x < 2, ∀ y < 2, (Sample.watched.getClient 0).mod (Grid.index 2 x y) = 0 := by decide
  have hnobody : ∀ st : State, st.getActive.nick = nobody → Readable st.getActive.nick :=
    fun st h => h ▸ readable_of_no_percent (by decide)
  refine (pixels_of_run Sample.context Sample.sheets Sample.endpoint 0 (· = none) 2 2
    ⟨Sample.watched, Sample.firstCanvas⟩ _ (by decide) (by decide) (by decide) ⟨rfl, rfl⟩
    ⟨_, hcl, hsync⟩ ?_ ?_ ?_).2 [110] rfl (hnobody _ rfl) rfl
  · intro cl hfind x hx y hy hne
    obtain rfl := Option.some.inj (hcl.symm.trans hfind)
    exact absurd (hmod x hx y hy) hne
  · exact ⟨⟨⟨id, trivial, rfl⟩, fun _ => hnobody _ rfl⟩,
      ⟨⟨id, ⟨⟨rfl, rfl⟩, fun _ _ _ => ⟨rfl, rfl⟩⟩, rfl⟩, fun h => h.elim⟩, trivial⟩
  · exact ⟨fun _ => rfl, fun h => h.elim, trivial⟩

section Ascii

variable {C : Context} {colors : Nat → RGB} {ts tt : Picture} {c : WireCell} {px py : Nat}

-- What a glyph is made of, in the sheet of its kind.
def Drawn.ink (ts tt : Picture) (d : Drawn) (px py : Nat) : RGBA :=
  (if d.text then tt else ts).ink d.ch px py

-- A pixel of a glyph in a colour, by its place on an empty canvas.
def tinted (C : Context) (color : RGB) (ink : RGBA) : RGBA :=
  let q := C.blend ink .clear
  if q.r = 255 ∧ q.g = 0 ∧ q.b = 255 then { q with a := 0 }
  else ⟨tint q.r color.r, tint q.g color.g, tint q.b color.b, q.a⟩

-- A pixel of a tile that shows a glyph in two colours. Where the sheet is
-- translucent, it is up to the canvas how the two mix.
structure GlyphPixel (C : Context) (colors : Nat → RGB) (ts tt : Picture) (d : Drawn)
    (px py : Nat) (v : RGBA) : Prop where
  block : d.ch = 255 → v = (colors d.fg).solid
  back : d.ch ≠ 255 →
    (d.ink ts tt px py).Clear ∨ (d.ink ts tt px py).Solid ∧ (d.ink ts tt px py).Keyed →
      v = (colors d.bg).solid
  front : d.ch ≠ 255 → (d.ink ts tt px py).Solid → ¬(d.ink ts tt px py).Keyed →
    v = ⟨tint (d.ink ts tt px py).r (colors d.fg).r, tint (d.ink ts tt px py).g (colors d.fg).g,
      tint (d.ink ts tt px py).b (colors d.fg).b, 255⟩
  mixed : d.ch ≠ 255 → ¬(d.ink ts tt px py).Clear → ¬(d.ink ts tt px py).Solid →
    v = C.blend (C.store (tinted C (colors d.fg) (d.ink ts tt px py))) (colors d.bg).solid

theorem sheet_back (hw : ts.w ≤ 256) (hh : ts.h ≤ 256) {bg : Nat} (hbg : bg < 16) (hx : px < tilew)
    (hy : py < tileh) :
    C.block (colorize C colors ts) (bgRect bg) tilew tileh px py = (colors bg).solid := by
  have hglyph : colorize C colors ts (glyphX 255 + bg % 4 * 256 + px)
      (glyphY 255 + bg / 4 * 256 + py) = _ :=
    colorize_glyph hw hh (by decide) hbg hx hy
  rw [if_pos rfl] at hglyph
  refine (C.block_self _ (bgRect bg) hx hy).trans (Eq.trans ?_ hglyph)
  congr 1
  · simp only [bgRect, glyphX, zoneW, tilew]
    omega
  · simp only [bgRect, glyphY, zoneH, tileh]
    omega

theorem tilePicture_glyph (hw : ts.w ≤ 256) (hh : ts.h ≤ 256) (hw' : tt.w ≤ 256)
    (hh' : tt.h ≤ 256) {look : Option Sprites} (hpath : spritePath look c = none)
    (hfg : c.fg.toNat < 16) (hx : px < tilew) (hy : py < tileh) :
    GlyphPixel C colors ts tt c.drawn px py
      (tilePicture C (initSheets C colors ts tt hw hh) look c px py) := by
  let sheet := if c.bgFlags &&& 64 ≠ 0 then tt else ts
  have hch : c.ch.toNat < 256 := c.ch.toNat_lt
  have hsw : sheet.w ≤ 256 := by
    simp only [sheet]
    split <;> assumption
  have hsh : sheet.h ≤ 256 := by
    simp only [sheet]
    split <;> assumption
  have hsheet : (if c.bgFlags &&& 64 ≠ 0 then colorize C colors tt else colorize C colors ts) =
      colorize C colors sheet := by
    simp only [sheet]
    split <;> rfl
  have hink : c.drawn.ink ts tt px py = sheet.ink c.ch.toNat px py := by
    simp only [Drawn.ink, WireCell.drawn, sheet, decide_eq_true_eq]
  have hpicture : tilePicture C (initSheets C colors ts tt hw hh) look c px py =
      C.blend (colorize C colors sheet (glyphX c.ch.toNat + c.fg.toNat % 4 * 256 + px)
        (glyphY c.ch.toNat + c.fg.toNat / 4 * 256 + py)) (colors c.drawn.bg).solid := by
    have hglyph := C.block_self (colorize C colors sheet) (glyphRect c.ch.toNat c.fg.toNat) hx hy
    have hback : C.block (colorize C colors ts) (bgRect (c.bgFlags.toNat % tilew)) tilew tileh px py =
        _ := sheet_back hw hh (Nat.mod_lt _ (by decide : 0 < 16)) hx hy
    unfold tilePicture initSheets
    simp only [hpath, hsheet]
    rw [hback]
    exact congrArg (fun p => C.blend p (colors c.drawn.bg).solid) hglyph
  rw [hpicture]
  constructor
  case block =>
    intro hlast
    have hcolor : colorize C colors sheet _ _ = _ := colorize_glyph hsw hsh hch hfg hx hy
    rw [hcolor, if_pos (show c.ch.toNat = 255 from hlast)]
    exact C.blend_of_solid _ _ (RGB.solid_solid _)
  case back =>
    rw [hink]
    intro hlast hspot
    exact C.blend_of_clear _ _ (colorize_clear hsw hsh hch hfg hx hy hlast hspot)
  case front =>
    rw [hink]
    intro hlast hsolid hkey
    rw [colorize_tinted hsw hsh hch hfg hx hy hlast hsolid hkey]
    exact C.blend_of_solid _ _ rfl
  case mixed =>
    rw [hink]
    intro hlast _ _
    have hcolor : colorize C colors sheet _ _ = _ := colorize_glyph hsw hsh hch hfg hx hy
    rw [hcolor, if_neg (show c.ch.toNat ≠ 255 from hlast)]
    rfl

end Ascii

section Waiting

variable {C : Context} {sheets : Sheets} {s : Endpoint} {hdl : Handle} {st : State} {g : Game}
  {screen : Nat → Glyph} {p : Nat × Nat}

-- What a tock draws of a tile that waits to be sent.
theorem waiting_pixels (hwait : Waiting s hdl st g screen p) (hwide : width st ≤ 255)
    (htall : height st ≤ 255) (hread : Readable st.getActive.nick) (d : Display) :
    let d' := (sends hdl (tock s hdl st).out).foldl (Display.receive C sheets) d
    (d'.width = width st * tilew ∧ d'.height = height st * tileh) ∧
    ∃ c : WireCell, Shows g screen p c.drawn ∧ ∀ px < tilew, ∀ py < tileh,
      d'.pixel (p.1 * tilew + px) (p.2 * tileh + py) =
        tilePicture C sheets (lookOf st.graphicsMode d.atlas) c px py := by
  intro d'
  have hk : sizeOk st.game.gps = true :=
    (sizeOk_congr hwait.sameSize.1 hwait.sameSize.2).trans hwait.size
  obtain ⟨hposx, hposy, -, -⟩ := (sizeOk_iff st.game.gps).mp hk
  have hsize : st.game.HasSize (width st) (height st) := by
    unfold Game.HasSize width height
    omega
  have hone : 1 ≤ width st ∧ 1 ≤ height st := by
    unfold width height
    omega
  let wire := (tileCell g screen p.1 p.2 (Grid.index g.gps.dimy.toNat p.1 p.2)).wire
  have hdirty : p ∈ dirty (st.getClient hdl).mod (width st) (height st) :=
    mem_dirty.mpr ⟨hwait.inside, hwait.unsent⟩
  have hwire : ((st.getClient hdl).ownSc (Grid.index (height st) p.1 p.2)).wire = wire := by
    have hrecord := waiting_record hwait Page.blank
    unfold pageAfterTock at hrecord
    rw [receive_tock hdl s Page.blank hk hwait.binary, if_pos hdirty] at hrecord
    exact Option.some.inj hrecord
  let blank : Scene := ⟨d.width, d.height, fun _ => none, d.atlas⟩
  have hblank : d.Shows C sheets blank :=
    ⟨rfl, rfl, rfl, fun k c look hk => (Option.some_ne_none _ hk.symm).elim⟩
  have hd' : d' = d.receive C sheets (tileLoop hdl st).bytes := display_tock d hwait.binary
  have hshows := hblank.next (i := .packet (tileLoop hdl st).bytes) (tileLoop_unrepeated hdl hk _)
  obtain ⟨⟨hdimx, hdimy⟩, hatlas, htile⟩ := scene_tock hdl hsize ⟨hone.1, hwide⟩
    ⟨hone.2, htall⟩ hread blank
  have htold := htile p
  rw [if_pos hdirty, hwire, hatlas] at htold
  rw [hd']
  exact ⟨⟨hshows.width.trans hdimx, hshows.height.trans hdimy⟩, wire, tileCell_shows g screen p,
    hshows.tile p wire _ htold⟩

theorem fg_lt {c : WireCell} (h : Shows g screen p c.drawn) : c.fg.toNat < 16 := by
  obtain ⟨gl, hl, hch, hargmin, hbg⟩ := h.layer
  exact hargmin.lt

end Waiting

-- In curses mode a captured tile reaches the canvas as DF shows it: its glyph,
-- in the nearest colours that can be sent.
theorem ascii_fidelity (C : Context) (colors : Nat → RGB) (ts tt : Picture) (hw : ts.w ≤ 256)
    (hh : ts.h ≤ 256) (hw' : tt.w ≤ 256) (hh' : tt.h ≤ 256) {s : Endpoint} {hdl : Handle}
    {st : State} {g : Game} {screen : Nat → Glyph} {p : Nat × Nat}
    (hwait : Waiting s hdl st g screen p) (hwide : width st ≤ 255) (htall : height st ≤ 255)
    (hread : Readable st.getActive.nick) (hmode : st.graphicsMode = false) (d : Display) :
    let d' := (sends hdl (tock s hdl st).out).foldl
      (Display.receive C (initSheets C colors ts tt hw hh)) d
    (d'.width = width st * tilew ∧ d'.height = height st * tileh) ∧
    ∃ drawn, Shows g screen p drawn ∧ ∀ px < tilew, ∀ py < tileh,
      GlyphPixel C colors ts tt drawn px py (d'.pixel (p.1 * tilew + px) (p.2 * tileh + py)) := by
  intro d'
  obtain ⟨hsize, c, hshows, hpixel⟩ := waiting_pixels hwait hwide htall hread d
  refine ⟨hsize, c.drawn, hshows, fun px hx py hy => ?_⟩
  have hcurses := hpixel px hx py hy
  rw [hmode] at hcurses
  exact Eq.subst hcurses.symm (tilePicture_glyph hw hh hw' hh' rfl (fg_lt hshows) hx hy)

theorem ascii_fidelity_sample :
    ∃ drawn, Shows (Sample.glyphGame 65) (fun _ => ⟨32, ⟨255, 255, 255⟩, ⟨0, 0, 0⟩⟩) (1, 1) drawn ∧
      GlyphPixel Sample.context Sample.palette Sample.greySheet Sample.greySheet drawn 3 5
        (((sends 0 (tock Sample.endpoint 0 (Sample.glyphView 65)).out).foldl
          (Display.receive Sample.context Sample.sheets) Sample.firstCanvas).pixel (16 + 3) (16 + 5)) := by
  obtain ⟨-, drawn, hshows, hpixel⟩ := ascii_fidelity Sample.context Sample.palette Sample.greySheet
    Sample.greySheet (by decide) (by decide) (by decide) (by decide) (Sample.glyphView_waiting 65)
    (by decide) (by decide) (readable_of_no_percent (by decide)) rfl Sample.firstCanvas
  exact ⟨drawn, hshows, hpixel 3 (by decide) 5 (by decide)⟩

end WebFort
