import WebFort.Coherence
import WebFort.FirstFrame.Frames
import WebFort.Loop
import WebFort.Server.Marks
import Mathlib.Data.List.Induction

namespace WebFort

open Library

-- The client stays, moves no camera of its own and does not get the turn.
def Watches (s : Endpoint) (hdl : Handle) (st : State) (e : Event) : Prop :=
  ¬e.Moves hdl ∧ ¬e.Ends hdl ∧ (handle s e st).state.activeConn ≠ some hdl

def watching (s : Endpoint) (hdl : Handle) : Machine Viewer Event where
  enabled v e := Screened s v.st e ∧ Watches s hdl v.st e
  next := view s hdl

-- No tick of the run has captured anything.
def Uncaptured (s : Endpoint) (hdl : Handle) (v : Viewer) (es : List Event) : Prop :=
  (watching s hdl).Each (fun v e => ¬Captures v.st e) v es

-- The client was answered while own_sc was still the zeroed buffer of its
-- constructor, and the mark this left on the tile is still there.
def Stale (s : Endpoint) (hdl : Handle) (t : Nat) (v : Viewer) (es : List Event) : Prop :=
  ∃ before payload after, es = before ++ .message hdl payload :: after ∧
    parseMessage payload = .update ∧ Uncaptured s hdl v before ∧
    (watching s hdl).Each (fun v e => ¬Unmarks hdl t v.st e) ((watching s hdl).exec v before)
      (.message hdl payload :: after)

-- A newcomer on whose page nothing is drawn yet.
def joined (s : Endpoint) (hdl : Handle) (st : State) : Viewer :=
  view s hdl ⟨st, Page.blank⟩ (.opened hdl)

-- The page has the global frame on every tile of the screen.
def Viewer.ShowsFrame (v : Viewer) : Prop :=
  ∀ x y, x < width v.st → y < height v.st →
    v.page (x, y) = some (v.st.sc (Grid.index (height v.st) x y)).wire

section Runs

variable {s : Endpoint} {hdl : Handle} {t : Nat} {v : Viewer} {es : List Event} {e : Event}

theorem uncaptured_concat :
    Uncaptured s hdl v (es ++ [e]) ↔
      Uncaptured s hdl v es ∧ ¬Captures ((watching s hdl).exec v es).st e := by
  unfold Uncaptured
  rw [Machine.each_append]
  exact and_congr_right fun _ => and_iff_left trivial

theorem stale_concat :
    Stale s hdl t v (es ++ [e]) ↔
      (Stale s hdl t v es ∧ ¬Unmarks hdl t ((watching s hdl).exec v es).st e) ∨
        (e.Asks hdl ∧ Uncaptured s hdl v es) := by
  constructor
  · rintro ⟨before, payload, after, he, hp, hb, ha⟩
    rcases List.eq_nil_or_concat after with rfl | ⟨after, last, rfl⟩
    · obtain ⟨rfl, hlast⟩ := List.append_inj' he rfl
      obtain rfl := List.singleton_inj.mp hlast
      exact Or.inr ⟨⟨rfl, hp⟩, hb⟩
    · have hsplit : es ++ [e] = (before ++ .message hdl payload :: after) ++ [last] := by
        simpa using he
      obtain ⟨rfl, hlast⟩ := List.append_inj' hsplit rfl
      obtain rfl := List.singleton_inj.mp hlast
      rw [List.concat_eq_append, ← List.cons_append, Machine.each_append] at ha
      rw [Machine.exec_append]
      exact Or.inl ⟨⟨before, payload, after, rfl, hp, hb, ha.1⟩, ha.2.1⟩
  · rintro (⟨⟨before, payload, after, rfl, hp, hb, ha⟩, hu⟩ | ⟨hask, hb⟩)
    · refine ⟨before, payload, after ++ [e], by simp, hp, hb, ?_⟩
      rw [← List.cons_append, Machine.each_append]
      rw [Machine.exec_append] at hu
      exact ⟨ha, hu, trivial⟩
    · obtain ⟨payload, rfl, hp⟩ := hask.exists
      refine ⟨es, payload, [], rfl, hp, hb, fun h => ?_, trivial⟩
      exact absurd (hp.symm.trans h.2) (by simp)

end Runs

-- One tile of a newcomer, before the first capture and after it, with a
-- stale mark and without.
structure TileAt (fresh stale : Prop) (mod : UInt8) (own sc : Cell) (shown : Option WireCell) :
    Prop where
  zero : fresh → own = Cell.zero
  shared : ¬fresh → own = sc
  marked : stale → mod ≠ 0
  kept : stale → shown = some Cell.zero.wire
  unmarked : fresh → ¬stale → mod = 0
  sent : ¬fresh → ¬stale → mod ≠ 0 → shown = some sc.wire

namespace TileAt

variable {fresh stale : Prop} {mod : UInt8} {own sc : Cell} {shown : Option WireCell}

theorem refreshed (h : TileAt fresh stale mod own sc shown) :
    TileAt fresh False 0 own sc shown where
  zero := h.zero
  shared := h.shared
  marked := False.elim
  kept := False.elim
  unmarked _ _ := rfl
  sent _ _ hm := absurd rfl hm

-- A tock sends an unmarked tile and marks it.
theorem answered (h : TileAt fresh stale mod own sc shown) {mod' : UInt8}
    (hmod : mod' = if mod = 0 then 1 else mod) :
    TileAt fresh (stale ∨ fresh) mod' own sc (if mod = 0 then some own.wire else shown) := by
  have hne : mod' ≠ 0 := by
    rw [hmod]
    split
    · decide
    · assumption
  refine ⟨h.zero, h.shared, fun _ => hne, ?_, ?_, ?_⟩
  · intro hor
    by_cases hst : stale
    · rw [if_neg (h.marked hst)]
      exact h.kept hst
    · have hf : fresh := hor.resolve_left hst
      rw [if_pos (h.unmarked hf hst), h.zero hf]
  · exact fun hf hn => absurd (Or.inr hf) hn
  · intro hf hn _
    split
    · rw [h.shared hf]
    · rename_i hm
      exact h.sent hf (fun hst => hn (Or.inl hst)) hm

-- A capture that changes neither the size nor this tile.
theorem captured_same (h : TileAt fresh stale mod own sc shown) :
    TileAt False stale mod sc sc shown where
  zero := False.elim
  shared _ := rfl
  marked := h.marked
  kept := h.kept
  unmarked := False.elim
  sent _ hst hm := by
    by_cases hf : fresh
    · exact absurd (h.unmarked hf hst) hm
    · exact h.sent hf hst hm

theorem captured_redrawn (sc : Cell) (shown : Option WireCell) : TileAt False False 0 sc sc shown where
  zero := False.elim
  shared _ := rfl
  marked := False.elim
  kept := False.elim
  unmarked := False.elim
  sent _ _ hm := absurd rfl hm

-- What a tock leaves on the page.
theorem shown_after (h : TileAt fresh stale mod own sc shown) :
    (if mod = 0 then some own.wire else shown) = some sc.wire ↔
      (fresh ∨ stale → sc.wire = Cell.zero.wire) := by
  by_cases hst : stale
  · rw [if_neg (h.marked hst), h.kept hst]
    exact ⟨fun he _ => (Option.some.inj he).symm, fun he => congrArg some (he (Or.inr hst)).symm⟩
  · by_cases hf : fresh
    · rw [if_pos (h.unmarked hf hst), h.zero hf]
      exact ⟨fun he _ => (Option.some.inj he).symm, fun he => congrArg some (he (Or.inl hf)).symm⟩
    · refine ⟨fun _ hor => absurd hor (not_or.mpr ⟨hf, hst⟩), fun _ => ?_⟩
      split
      · rw [h.shared hf]
      · exact h.sent hf hst ‹_›

end TileAt

-- A client between its on_open and the end of a run.
structure Newcomer (hdl : Handle) (fresh : Prop) (stale : Nat → Prop) (v : Viewer) (cl : Client) :
    Prop where
  framed : Framed v.st
  client : v.st.clients.find? hdl = some cl
  shared : cl.hasOwnCam = false
  tile : ∀ x y, x < width v.st → y < height v.st →
    TileAt fresh (stale (Grid.index (height v.st) x y)) (cl.mod (Grid.index (height v.st) x y))
      (cl.ownSc (Grid.index (height v.st) x y)) (v.st.sc (Grid.index (height v.st) x y))
      (v.page (x, y))

section Preservation

variable {s : Endpoint} {hdl : Handle} {v : Viewer} {cl : Client} {fresh : Prop}
  {stale : Nat → Prop}

-- Tile by tile, where the screen keeps its size.
theorem Newcomer.of_tiles (hn : Newcomer hdl fresh stale v cl) {e : Event} {cl' : Client}
    {fresh' : Prop} {stale' : Nat → Prop} (hscr : Screened s v.st e) (hc : ¬Captures v.st e)
    (hcl : (view s hdl v e).st.clients.find? hdl = some cl') (hcam : cl'.hasOwnCam = cl.hasOwnCam)
    (hown : cl'.ownSc = cl.ownSc)
    (htile : ∀ x y, x < width v.st → y < height v.st → ∀ t, t = Grid.index (height v.st) x y →
      TileAt fresh (stale t) (cl.mod t) (cl.ownSc t) (v.st.sc t) (v.page (x, y)) →
        TileAt fresh' (stale' t) (cl'.mod t) (cl.ownSc t) (v.st.sc t)
          ((view s hdl v e).page (x, y))) :
    Newcomer hdl fresh' stale' (view s hdl v e) cl' := by
  have hs := handle_screen s hc
  obtain ⟨hx, hy⟩ := hscr.resolve_left hc
  have hwidth : width (view s hdl v e).st = width v.st := congrArg Int.toNat hx
  have hheight : height (view s hdl v e).st = height v.st := congrArg Int.toNat hy
  have hsc : (view s hdl v e).st.sc = v.st.sc := hs.sc
  refine ⟨hn.framed.step hscr, hcl, hcam.trans hn.shared, ?_⟩
  rw [hwidth, hheight, hsc, hown]
  exact fun x y hx hy => htile x y hx hy _ rfl (hn.tile x y hx hy)

theorem TileAt.congr {fresh' stale stale' : Prop} {mod : UInt8} {own sc : Cell}
    {shown : Option WireCell} (h : TileAt fresh stale mod own sc shown) (hf : fresh ↔ fresh')
    (hs : stale ↔ stale') : TileAt fresh' stale' mod own sc shown := by
  rwa [← propext hf, ← propext hs]

theorem Newcomer.asked (hn : Newcomer hdl fresh stale v cl)
    (hb : (s hdl).processor.takesBinary = true) {payload : Bytes}
    (hp : parseMessage payload = .update) (hscr : Screened s v.st (.message hdl payload)) :
    ∃ cl', Newcomer hdl fresh (fun t => stale t ∨ fresh) (view s hdl v (.message hdl payload)) cl' := by
  obtain ⟨cl', hcl', hown, hcam, htile⟩ := tock_tile hn.framed.size hn.client hb hp
  refine ⟨cl', hn.of_tiles hscr id hcl' hcam hown ?_⟩
  rintro x y hx hy t rfl h
  obtain ⟨hmod, hpage⟩ := htile x y hx hy
  rw [hpage]
  exact h.answered hmod

theorem Newcomer.refreshed (hn : Newcomer hdl fresh stale v cl) {payload : Bytes}
    (hp : parseMessage payload = .refreshScreen) (hscr : Screened s v.st (.message hdl payload)) :
    ∃ cl', Newcomer hdl fresh (fun _ => False) (view s hdl v (.message hdl payload)) cl' := by
  have hstate : (view s hdl v (.message hdl payload)).st = refreshScreen hdl v.st := by
    simp only [view, handle, onMessage, hp, Outcome.ok_state]
  have hcl' : (view s hdl v (.message hdl payload)).st.clients.find? hdl = some cl.clearMod := by
    rw [hstate]
    exact State.withClient_find?_self _ hn.client
  refine ⟨cl.clearMod, hn.of_tiles hscr id hcl' rfl rfl ?_⟩
  rintro x y hx hy t rfl h
  have hpage : (view s hdl v (.message hdl payload)).page = v.page :=
    view_page_of_not_asks (fun ha => absurd (ha.2.symm.trans hp) (by simp)) id
  have hbound : Grid.index (height v.st) x y < 256 * 256 := by
    obtain ⟨hw, hh⟩ := width_le hn.framed.size
    exact lt_of_lt_of_le (Grid.index_lt hx hy) (Nat.mul_le_mul hw hh)
  have hmod : cl.clearMod.mod (Grid.index (height v.st) x y) = 0 := if_pos hbound
  rw [hpage, hmod]
  exact h.refreshed

-- The marks of a client that shares the frame survive every other handler.
theorem Newcomer.other (hn : Newcomer hdl fresh stale v cl) {e : Event}
    (hu : ¬e.IsUpdate) (ha : ¬e.Asks hdl) (hr : ∀ t, ¬Unmarks hdl t v.st e)
    (hscr : Screened s v.st e) (hw : Watches s hdl v.st e) :
    ∃ cl', Newcomer hdl fresh stale (view s hdl v e) cl' := by
  obtain ⟨hmoves, hends, hact⟩ := hw
  obtain ⟨-, cl', hcl', hk⟩ := handle_client s e v.st hn.client hu hends
  have hmarks : marks (handle s e v.st).state hdl = marks v.st hdl := by
    cases e with
    | opened j => exact onOpen_marks s (Ne.symm hends)
    | message j payload =>
        refine onMessage_marks s payload hact fun hj => ⟨?_, ?_, ?_⟩
        · exact fun hp => ha ⟨hj.symm, hp⟩
        · exact fun hp => hr 0 ⟨hj.symm, hp⟩
        · exact fun dx dy dz hp => hmoves ⟨hj.symm, dx, dy, dz, hp⟩
    | closed j => exact onClose_marks (Ne.symm hends)
    | game g => rfl
    | update g df => exact absurd trivial hu
  rw [marks_of_find? hcl', marks_of_find? hn.client] at hmarks
  refine ⟨cl', hn.of_tiles hscr (mt Captures.isUpdate hu) hcl' (hk.hasOwnCam hmoves) hk.ownSc ?_⟩
  intro x y hx hy t _ h
  rw [view_page_of_not_asks ha hends, Option.some.inj hmarks]
  exact h

theorem Newcomer.tick (hn : Newcomer hdl fresh stale v cl) {g : Game} {df : Df} {f : Buffer}
    (hf : drawn df (v.st.atGame g) = some f) (hact : (v.st.atGame g).activeConn ≠ some hdl) :
    ∃ cl', Newcomer hdl False (fun t => stale t ∧ ¬Unmarks hdl t v.st (.update g df))
      (view s hdl v (.update g df)) cl' := by
  have hpage : (view s hdl v (.update g df)).page = v.page :=
    view_page_of_not_asks (e := .update g df) id id
  obtain ⟨screen, hscr, hk, -⟩ := drawn_eq_some.mp hf
  obtain ⟨hgx, hgy⟩ := pluginOnupdate_dims df (v.st.atGame g)
  obtain ⟨hpos, hlen⟩ := total_bounds hk
  have hclient : (v.st.atGame g).clients.find? hdl = some cl := hn.client
  have hcl' := pluginOnupdate_shared hclient hn.shared hact hscr hk
  have hwidth : width (view s hdl v (.update g df)).st =
      (captured df (v.st.atGame g)).gps.dimx.toNat := congrArg Int.toNat hgx
  have hheight : height (view s hdl v (.update g df)).st =
      (captured df (v.st.atGame g)).gps.dimy.toNat := congrArg Int.toNat hgy
  refine ⟨_, hn.framed.tick hf, hcl', (cl.share_tile _ hn.shared hpos hlen).1, fun x y hx hy => ?_⟩
  generalize ht : Grid.index (height (view s hdl v (.update g df)).st) x y = t
  have htotal : t < total (captured df (v.st.atGame g)).gps := by
    rw [total_eq _ hk, ← ht, ← hwidth, ← hheight]
    exact Grid.index_lt hx hy
  obtain ⟨-, hown, hmod⟩ := cl.share_tile _ hn.shared htotal hlen
  rw [hpage, hown, hmod]
  by_cases hu : Unmarks hdl t v.st (.update g df)
  · rw [if_pos ((unmarks_iff hf htotal).mp hu)]
    exact (TileAt.captured_redrawn _ _).congr Iff.rfl (iff_of_false id fun h => h.2 hu)
  · rw [if_neg (mt (unmarks_iff hf htotal).mpr hu)]
    obtain ⟨hsx, hsy, hcell⟩ := hn.framed.same hf htotal hu
    have hw : width (view s hdl v (.update g df)).st = width v.st :=
      hwidth.trans (congrArg Int.toNat hsx)
    have hh : height (view s hdl v (.update g df)).st = height v.st :=
      hheight.trans (congrArg Int.toNat hsy)
    have hold := hn.tile x y (hw ▸ hx) (hh ▸ hy)
    rw [← hh, ht, ← hcell] at hold
    exact hold.captured_same.congr Iff.rfl (iff_self_and.mpr fun _ => hu)

-- A tick without a screen to capture.
theorem Newcomer.idle (hn : Newcomer hdl fresh stale v cl) {g : Game} {df : Df}
    (hf : drawn df (v.st.atGame g) = none) (hact : (v.st.atGame g).activeConn ≠ some hdl)
    (hscr : Screened s v.st (.update g df)) :
    Newcomer hdl fresh stale (view s hdl v (.update g df)) cl := by
  have hclient : (v.st.atGame g).clients.find? hdl = some cl := hn.client
  have hcl' := pluginOnupdate_shared_not_ready hclient hn.shared hact (drawn_eq_none.mp hf)
  apply hn.of_tiles hscr (not_not.mpr hf) hcl' rfl rfl
  intro x y _ _ t _ h
  rw [view_page_of_not_asks (e := .update g df) id id]
  exact h

theorem Newcomer.congr {fresh' : Prop} {stale' : Nat → Prop} (hn : Newcomer hdl fresh stale v cl)
    (hf : fresh ↔ fresh') (hs : ∀ t, stale t ↔ stale' t) : Newcomer hdl fresh' stale' v cl :=
  { hn with tile := fun x y hx hy => (hn.tile x y hx hy).congr hf (hs _) }

theorem Newcomer.updated (hn : Newcomer hdl fresh stale v cl) {g : Game} {df : Df}
    (hscr : Screened s v.st (.update g df)) (hact : (v.st.atGame g).activeConn ≠ some hdl) :
    ∃ cl', Newcomer hdl (fresh ∧ ¬Captures v.st (.update g df))
      (fun t => stale t ∧ ¬Unmarks hdl t v.st (.update g df)) (view s hdl v (.update g df)) cl' := by
  cases hf : drawn df (v.st.atGame g) with
  | none =>
      have hcap : ¬Captures v.st (.update g df) := fun h => h hf
      have hkeep : ∀ t, ¬Unmarks hdl t v.st (.update g df) := by
        rintro t ⟨f, hf', -⟩
        exact absurd (hf.symm.trans hf') (by simp)
      have hidle := hn.idle hf hact hscr
      exact ⟨cl, hidle.congr (iff_self_and.mpr fun _ => hcap) fun t => iff_self_and.mpr fun _ => hkeep t⟩
  | some f =>
      have hcap : Captures v.st (.update g df) := fun h => absurd (hf.symm.trans h) (by simp)
      obtain ⟨cl', htick⟩ := hn.tick (s := s) hf hact
      exact ⟨cl', htick.congr (iff_of_false id fun h => h.2 hcap) fun t => Iff.rfl⟩

theorem Newcomer.handled (hn : Newcomer hdl fresh stale v cl) {e : Event} (hu : ¬e.IsUpdate)
    (ha : ¬e.Asks hdl) (hscr : Screened s v.st e) (hw : Watches s hdl v.st e) :
    ∃ cl', Newcomer hdl (fresh ∧ ¬Captures v.st e) (fun t => stale t ∧ ¬Unmarks hdl t v.st e)
      (view s hdl v e) cl' := by
  have hfresh : fresh ↔ fresh ∧ ¬Captures v.st e :=
    iff_self_and.mpr fun _ => mt Captures.isUpdate hu
  by_cases hr : ∃ t, Unmarks hdl t v.st e
  · obtain ⟨t, ht⟩ := hr
    obtain ⟨payload, rfl, hp⟩ := ht.refreshes hu
    obtain ⟨cl', h⟩ := hn.refreshed hp hscr
    exact ⟨cl', h.congr hfresh fun t => iff_of_false id fun h => h.2 ⟨rfl, hp⟩⟩
  · have hkeep : ∀ t, ¬Unmarks hdl t v.st e := not_exists.mp hr
    obtain ⟨cl', h⟩ := hn.other hu ha hkeep hscr hw
    exact ⟨cl', h.congr hfresh fun t => iff_self_and.mpr fun _ => hkeep t⟩

theorem Newcomer.step (hn : Newcomer hdl fresh stale v cl)
    (hb : (s hdl).processor.takesBinary = true) {e : Event} (hen : (watching s hdl).enabled v e) :
    ∃ cl', Newcomer hdl (fresh ∧ ¬Captures v.st e)
      (fun t => (stale t ∧ ¬Unmarks hdl t v.st e) ∨ (e.Asks hdl ∧ fresh)) (view s hdl v e) cl' := by
  obtain ⟨hscr, hw⟩ := hen
  by_cases ha : e.Asks hdl
  · have hask := ha
    obtain ⟨payload, rfl, hp⟩ := ha.exists
    have hkeep : ∀ t, ¬Unmarks hdl t v.st (.message hdl payload) :=
      fun t h => absurd (hp.symm.trans h.2) (by simp)
    obtain ⟨cl', h⟩ := hn.asked hb hp hscr
    refine ⟨cl', h.congr (iff_self_and.mpr fun _ => id) fun t => ?_⟩
    exact or_congr (iff_self_and.mpr fun _ => hkeep t) (iff_and_self.mpr fun _ => hask)
  · suffices h : ∃ cl', Newcomer hdl (fresh ∧ ¬Captures v.st e)
        (fun t => stale t ∧ ¬Unmarks hdl t v.st e) (view s hdl v e) cl' by
      obtain ⟨cl', h⟩ := h
      exact ⟨cl', h.congr Iff.rfl fun t => (or_iff_left fun h => ha h.1).symm⟩
    by_cases hu : e.IsUpdate
    · obtain ⟨g, df, rfl⟩ := hu.exists
      apply hn.updated hscr
      rw [← (pluginOnupdate_unticked df (v.st.atGame g)).activeConn]
      exact hw.2.2
    · exact hn.handled hu ha hscr hw

theorem Newcomer.run (hb : (s hdl).processor.takesBinary = true)
    (hn : Newcomer hdl True (fun _ => False) v cl) (es : List Event)
    (hv : (watching s hdl).Valid v es) :
    ∃ cl', Newcomer hdl (Uncaptured s hdl v es) (fun t => Stale s hdl t v es)
      ((watching s hdl).exec v es) cl' := by
  induction es using List.reverseRecOn with
  | nil =>
      refine ⟨cl, hn.congr (iff_of_true trivial trivial) fun t => iff_of_false id ?_⟩
      rintro ⟨before, payload, after, he, -⟩
      simp at he
  | append_singleton es e ih =>
      obtain ⟨hes, he, -⟩ := (Machine.valid_append _ _ _ _).mp hv
      obtain ⟨cl', h⟩ := ih hes
      obtain ⟨cl'', h⟩ := h.step hb he
      rw [Machine.exec_append]
      exact ⟨cl'', h.congr uncaptured_concat.symm fun t => stale_concat.symm⟩

theorem newcomer_joined {st : State} (hst : Framed st) (hadm : admits s hdl st) :
    ∃ cl, Newcomer hdl True (fun _ => False) (joined s hdl st) cl := by
  have hstate : (joined s hdl st).st = register s hdl st := onOpen_admitted hadm
  have hcl : (joined s hdl st).st.clients.find? hdl = some (openClient s hdl st) := by
    rw [hstate, register, OrdMap.find?_insert, if_pos rfl]
  refine ⟨_, ?_, hcl, rfl, fun x y _ _ => ?_⟩
  · rw [hstate]
    exact { hst with }
  · exact ⟨fun _ => rfl, fun h => absurd trivial h, False.elim, False.elim, fun _ _ => rfl,
      fun h => absurd trivial h⟩

end Preservation

-- Where the page of a newcomer is not the frame: on tiles nothing has drawn
-- since it was handed the zero cells of its constructor.
theorem first_frame_iff (s : Endpoint) (config : Config) (g : Game) (hdl : Handle)
    (pre es : List Event) (payload : Bytes) (st : State) (v : Viewer)
    (hb : (s hdl).processor.takesBinary = true) (hk : sizeOk g.gps = true)
    (hpre : (screened s).Valid (State.init config g) pre)
    (hst : st = (screened s).exec (State.init config g) pre) (hadm : admits s hdl st)
    (hes : (watching s hdl).Valid (joined s hdl st) es)
    (hv : v = (watching s hdl).exec (joined s hdl st) es) (hp : parseMessage payload = .update) :
    (view s hdl v (.message hdl payload)).ShowsFrame ↔
      ∀ x y, x < width v.st → y < height v.st →
        Uncaptured s hdl (joined s hdl st) es ∨
            Stale s hdl (Grid.index (height v.st) x y) (joined s hdl st) es →
          (v.st.sc (Grid.index (height v.st) x y)).wire = Cell.zero.wire := by
  have hframed : Framed st := by
    rw [hst]
    exact (screened s).exec_invariant Framed (fun _ _ h hscr => h.step hscr) _ pre
      (Framed.init config hk) hpre
  obtain ⟨cl, hjoin⟩ := newcomer_joined (s := s) hframed hadm
  obtain ⟨cl', hn⟩ := hjoin.run hb es hes
  rw [← hv] at hn
  obtain ⟨cl'', -, -, -, htile⟩ := tock_tile hn.framed.size hn.client hb hp
  have hkept := onMessage_kept s hdl payload v.st
  have hwidth : width (view s hdl v (.message hdl payload)).st = width v.st :=
    congrArg (fun g : Game => g.gps.dimx.toNat) hkept.game
  have hheight : height (view s hdl v (.message hdl payload)).st = height v.st :=
    congrArg (fun g : Game => g.gps.dimy.toNat) hkept.game
  have hsc : (view s hdl v (.message hdl payload)).st.sc = v.st.sc := hkept.sc
  unfold Viewer.ShowsFrame
  rw [hwidth, hheight, hsc]
  refine forall_congr' fun x => forall_congr' fun y => forall_congr' fun hx =>
    forall_congr' fun hy => ?_
  rw [(htile x y hx hy).2]
  exact (hn.tile x y hx hy).shown_after

-- A client that asks for its first update after a tick.
theorem first_frame_iff_sample :
    (view Sample.endpoint 1 ((watching Sample.endpoint 1).exec (joined Sample.endpoint 1 Sample.watched)
      [.update (Sample.game 64) Sample.df]) (.message 1 [110])).ShowsFrame := by
  refine (first_frame_iff Sample.endpoint Sample.config (Sample.game 64) 1
    [.opened 0, .update (Sample.game 64) Sample.df] [.update (Sample.game 64) Sample.df] [110]
    Sample.watched _ (by decide) (by decide) ?_ rfl ?_ ?_ rfl rfl).mpr ?_
  · exact ⟨Or.inr ⟨rfl, rfl⟩, Or.inr ⟨rfl, rfl⟩, trivial⟩
  · exact ⟨by decide, by decide, by decide⟩
  · exact ⟨⟨Or.inr ⟨rfl, rfl⟩, ⟨id, id, by decide⟩⟩, trivial⟩
  · rintro x y - - (hfresh | ⟨before, payload, after, he, -⟩)
    · exact absurd (fun h => nomatch h) hfresh.1
    · cases before with
      | nil => exact nomatch he
      | cons b before => cases before <;> exact nomatch he

-- A fortress at rest: the second client is answered, DF ticks, and the answer
-- to its next request leaves the zero cell where the frame has an @.
theorem early_request_keeps_zero_cells :
    let es : List Event := [.opened 0, .update (Sample.game 64) Sample.df, .opened 1,
      .message 1 [110], .update (Sample.game 64) Sample.df]
    let v := (watching Sample.endpoint 1).exec ⟨Sample.start, Page.blank⟩ es
    (server Sample.endpoint).Valid (World.init Sample.config (Sample.game 64))
      (es ++ [.message 1 [110]]) ∧
    (view Sample.endpoint 1 v (.message 1 [110])).page (0, 0) = some Cell.zero.wire ∧
    ((view Sample.endpoint 1 v (.message 1 [110])).st.sc 0).ch = 64 ∧
    ¬(view Sample.endpoint 1 v (.message 1 [110])).ShowsFrame :=
  ⟨⟨⟨rfl, rfl⟩, trivial, ⟨rfl, rfl⟩, ⟨rfl, rfl⟩, trivial, ⟨rfl, rfl⟩, trivial⟩, rfl, rfl,
    fun h => absurd (h 0 0 (by decide) (by decide)) (by decide)⟩

end WebFort
