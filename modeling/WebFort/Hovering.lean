import WebFort.CursorPacket
import WebFort.Pointer

namespace WebFort

open Library

-- The cursor of a client that watches, from the mouse on its page to the
-- canvas of everybody else.

-- The tile a gesture shows to the others.
def Gesture.hovers (p : Controls) : Gesture → List (Int × Int)
  | .mousemove now px py =>
      if now - p.lastMouseSend < 16 ∨ p.active then [] else [canvasToTile p px py]
  | _ => []

-- The same of a message.
def messageHovers (payload : Bytes) : List (Int × Int) :=
  match parseMessage payload with
  | .cursorMove x y => [(x.toNat, y.toNat)]
  | _ => []

-- A tile of a screen that shows the map from `base` on.
def onMap (base : Camera) (tile : Int × Int) : Int × Int :=
  (int32 (base.x + tile.1), int32 (base.y + tile.2))

def baseOf (st : State) (c : Handle) : Camera := viewport st (st.getClient c)

section Gestures

variable {p : Controls}

def Controls.Fits (p : Controls) : Prop := p.dimx ≤ 256 ∧ p.dimy ≤ 256

-- The size of the screen comes as two bytes.
theorem Controls.Fits.onMessage (hp : p.Fits) (data : Bytes) : (p.onMessage data).Fits := by
  have hx : (data.getD 8 0).toNat ≤ 256 := Nat.le_of_lt (data.getD 8 0).toNat_lt
  have hy : (data.getD 9 0).toNat ≤ 256 := Nat.le_of_lt (data.getD 9 0).toNat_lt
  unfold Controls.onMessage
  split
  · by_cases hpos : 0 < (data.getD 8 0).toNat
    · simp only [if_pos hpos]
      split
      · exact ⟨hx, hy⟩
      · exact ⟨hx, hy⟩
    · simp only [if_neg hpos]
      split
      · exact hp
      · exact hp
  · exact hp

theorem Controls.Fits.after (hp : p.Fits) (g : Gesture) : (g.after p).Fits := by
  cases g with
  | mousemove now px py =>
      simp only [Gesture.after]
      split
      · exact hp
      · exact hp
  | key _ => exact hp
  | mousedown _ _ _ => exact hp
  | mouseup _ _ _ => exact hp
  | wheel _ _ _ => exact hp
  | click => exact hp

theorem hovers_onkeydown (k : KeyStroke) : (onkeydown p k).1.flatMap messageHovers = [] := by
  unfold onkeydown
  split
  · rfl
  · split
    · split
      · rfl
      · exact List.flatMap_singleton _ _
    · rfl

theorem hovers_onkeypress (k : KeyStroke) : (onkeypress p k).flatMap messageHovers = [] := by
  obtain ⟨dx, dy, dz, hsent⟩ := onkeypress_eq (p := p) (k := k)
  rw [hsent]
  split
  · exact List.flatMap_singleton _ _
  · split
    · exact List.flatMap_singleton _ _
    · rfl

-- The byte of a coordinate loses nothing.
theorem canvasToTile_bytes (hp : p.Fits) (px py : Int) :
    (((leByte (canvasToTile p px py).1 0).toNat : Int), ((leByte (canvasToTile p px py).2 0).toNat : Int)) =
      canvasToTile p px py := by
  obtain ⟨hx, hy⟩ := hp
  have hbx := leByte_toNat (canvasToTile p px py).1 0
  have hby := leByte_toNat (canvasToTile p px py).2 0
  unfold canvasToTile at hbx hby ⊢
  apply Prod.ext
  · show (_ : Int) = max 0 (min ((p.dimx : Int) - 1) px)
    omega
  · show (_ : Int) = max 0 (min ((p.dimy : Int) - 1) py)
    omega

-- A gesture says where it points.
theorem gesture_hovers (hp : p.Fits) (g : Gesture) :
    (g.sends p).flatMap messageHovers = g.hovers p := by
  have hmouse : ∀ (type : WFMouseType) (tile : Int × Int) (button : UInt8),
      [sendMouseEvent type tile button].flatMap messageHovers = [] :=
    fun _ _ _ => List.flatMap_singleton _ _
  cases g with
  | key k =>
      simp only [Gesture.sends, keystroke, Gesture.hovers, List.flatMap_append, hovers_onkeydown,
        List.nil_append]
      split
      · rfl
      · exact hovers_onkeypress k
  | mousemove now px py =>
      simp only [Gesture.sends, Gesture.hovers]
      by_cases hsoon : now - p.lastMouseSend < 16
      · rw [if_pos hsoon, if_pos (Or.inl hsoon)]
        rfl
      · rw [if_neg hsoon, ← List.singleton_append, List.flatMap_append, hmouse, List.nil_append]
        cases hactive : p.active with
        | true =>
            rw [if_pos (Or.inr rfl)]
            rfl
        | false =>
            have hnot : ¬(now - p.lastMouseSend < 16 ∨ false = true) := by simpa using hsoon
            rw [if_neg hnot]
            exact congrArg (fun tile => [tile]) (canvasToTile_bytes hp px py)
  | mousedown button px py => exact hmouse _ _ _
  | mouseup button px py => exact hmouse _ _ _
  | wheel deltaY px py =>
      simp only [Gesture.sends, Gesture.hovers]
      split
      · exact hmouse _ _ _
      · exact List.flatMap_singleton _ _
  | click =>
      simp only [Gesture.sends, Gesture.hovers]
      split
      · exact List.flatMap_singleton _ _
      · rfl

end Gestures

section Server

variable {s : Endpoint} {c hdl : Handle} {st : State}

-- Moves of the turn between others.
theorem cursorOf_setActive_others {newc : Option Handle} (hold : st.activeConn ≠ some c)
    (hnew : newc ≠ some c) : cursorOf (setActive newc st).state c = cursorOf st c := by
  rw [cursorOf_setActive]
  split
  · rfl
  · exact if_neg (by simp [hold, hnew])

theorem cursorOf_requestTurn (hnot : st.activeConn ≠ some c) (hother : hdl ≠ c) :
    cursorOf (requestTurn hdl st).state c = cursorOf st c := by
  unfold requestTurn
  split
  · exact cursorOf_setActive_others hnot (by simp)
  · split
    · exact cursorOf_setActive_others hnot (by simpa using hother)
    · rfl

theorem cursorOf_turnPart_others (hnot : st.activeConn ≠ some c) :
    cursorOf (turnPart st) c = cursorOf st c := by
  rcases cursorOf_turnPart (c := c) st with ⟨hsame, -⟩ | ⟨hset, -⟩
  · exact hsame
  · exact hset.trans (cursorOf_setActive_others hnot (by simp))

theorem cursorOf_tock (hnot : st.activeConn ≠ some c) :
    cursorOf (tock s hdl st).state c = cursorOf st c := by
  rw [tock_state]
  refine Eq.trans ?_ (cursorOf_turnPart_others hnot)
  exact look_withClient _ (Or.inr fun _ => rfl)

-- A client that has not the turn puts its cursor where it says.
theorem cursorOf_cursorMove_own (x y : UInt8) (hnot : st.activeConn ≠ some c) {cl : Client}
    (hcl : st.clients.find? c = some cl) :
    cursorOf (cursorMove c x y st) c = some (onMap (baseOf st c) (x.toNat, y.toNat)) := by
  have hbase : baseOf st c = viewport st cl := by
    unfold baseOf State.getClient
    rw [hcl]
    rfl
  rw [hbase]
  unfold cursorMove
  rw [if_neg hnot]
  unfold cursorOf State.look
  rw [State.withRegistered_find?, if_pos rfl, hcl]
  rfl

theorem cursorOf_message (payload : Bytes) (hnot : st.activeConn ≠ some c) {cl : Client}
    (hcl : st.clients.find? c = some cl)
    (hask : hdl = c → parseMessage payload ≠ .requestTurn) :
    cursorOf (handle s (.message hdl payload) st).state c =
      if hdl = c then
        ((messageHovers payload).map (onMap (baseOf st c))).foldl (fun _ place => some place)
          (cursorOf st c)
      else cursorOf st c := by
  have hsame : cursorOf (handle s (.message hdl payload) st).state c = cursorOf st c →
      messageHovers payload = [] → cursorOf (handle s (.message hdl payload) st).state c =
        if hdl = c then
          ((messageHovers payload).map (onMap (baseOf st c))).foldl (fun _ place => some place)
            (cursorOf st c)
        else cursorOf st c := by
    intro hsame hnone
    rw [hsame, hnone]
    exact (ite_self _).symm
  unfold messageHovers at hsame ⊢
  simp only [handle, onMessage] at hsame ⊢
  cases hp : parseMessage payload with
  | keyEvent jsKey code jsmods =>
      rw [hp] at hsame
      refine hsame ?_ rfl
      obtain ⟨evs, hk⟩ := keyEvent_state hdl st jsKey code jsmods
      show cursorOf (keyEvent hdl jsKey code jsmods st) c = _
      rw [hk]
      rfl
  | mouseEvent ev =>
      rw [hp] at hsame
      refine hsame ?_ rfl
      obtain ⟨evs, hm⟩ := mouseEvent_state hdl st ev
      show cursorOf (mouseEvent hdl ev st) c = _
      rw [hm]
      rfl
  | refreshScreen =>
      rw [hp] at hsame
      exact hsame (look_withClient _ (Or.inr fun _ => rfl)) rfl
  | camMove dx dy dz =>
      rw [hp] at hsame
      exact hsame (cursorOf_camMove hdl dx dy dz st) rfl
  | requestTurn =>
      rw [hp] at hsame
      exact hsame (cursorOf_requestTurn hnot fun h => hask h hp) rfl
  | update =>
      rw [hp] at hsame
      exact hsame (cursorOf_tock hnot) rfl
  | cursorMove x y =>
      by_cases hc : hdl = c
      · subst hc
        rw [if_pos rfl]
        exact cursorOf_cursorMove_own x y hnot hcl
      · rw [if_neg hc]
        exact cursorOf_cursorMove hdl x y st fun h => absurd h hc

-- Nobody else moves the cursor.
theorem cursorOf_others {e : Event} (hnot : st.activeConn ≠ some c) (he : ¬e.Of c)
    {cl : Client} (hcl : st.clients.find? c = some cl) :
    cursorOf (handle s e st).state c = cursorOf st c := by
  cases e with
  | opened hdl => exact look_congr (onOpen_client s st fun h => he h.symm)
  | message hdl payload =>
      have hother : hdl ≠ c := fun h => he h
      exact (cursorOf_message payload hnot hcl fun h => absurd h hother).trans (if_neg hother)
  | closed hdl =>
      have hother : c ≠ hdl := fun h => he h.symm
      have herase : ∀ st', cursorOf (eraseClient hdl st') c = cursorOf st' c := fun st' =>
        (look_eraseClient hdl st').trans (if_neg hother)
      show cursorOf (onClose hdl st).state c = _
      cases hgone : st.clients.find? hdl with
      | none =>
          rw [onClose_absent hgone]
          exact herase st
      | some gone =>
          rw [onClose_registered hgone]
          refine (herase _).trans ?_
          show cursorOf (releaseTurn hdl st) c = _
          unfold releaseTurn
          split
          · exact cursorOf_setActive_others hnot (by simp)
          · rfl
  | game g => rfl
  | update g df =>
      have hlook := look_pluginOnupdate df (st.atGame g) (p := Client.cursor) (fun _ _ _ _ => rfl) c
      exact hlook.trans (if_neg hnot)

end Server

-- A cursorMove as it reaches the server.
structure Landing where
  base : Camera
  tile : Int × Int
  deriving DecidableEq

def Landing.place (l : Landing) : Int × Int := onMap l.base l.tile

def landings (c : Handle) (u : Player) : PlayStep → List Landing
  | .net .deliver => (u.circuit.up.take 1).flatMap fun payload =>
      (messageHovers payload).map fun tile => ⟨baseOf u.circuit.world.st c, tile⟩
  | _ => []

-- The tiles the mouse was moved to.
def hovered (u : Player) : PlayStep → List (Int × Int)
  | .hand g => g.hovers u.ctl
  | .net _ => []

def Player.hovering (u : Player) : List (Int × Int) := u.circuit.up.flatMap messageHovers

-- A player who does not ask for the turn.
structure Bystander (c : Handle) (u : Player) : Prop where
  registered : Registered u.circuit.world
  phase : u.circuit.world.phase c = .opened
  watching : u.circuit.world.st.activeConn ≠ some c
  quiet : ∀ payload ∈ u.circuit.up, parseMessage payload ≠ .requestTurn
  fits : u.ctl.Fits

def NoClick (_ : Player) (a : PlayStep) : Prop := a ≠ .hand .click

section Steps

variable {s : Endpoint} {c : Handle} {u : Player}

theorem Bystander.of_request (hu : Bystander c u) {k : Circuit} {ctl : Controls}
    (hworld : k.world = u.circuit.world)
    (hup : ∀ payload ∈ k.up, payload ∈ u.circuit.up ∨ payload = [110]) (hfits : ctl.Fits) :
    Bystander c ⟨k, ctl⟩ := by
  have hrequest : parseMessage [110] ≠ .requestTurn := by decide
  refine ⟨hworld ▸ hu.registered, hworld ▸ hu.phase, hworld ▸ hu.watching, fun payload hp => ?_,
    hfits⟩
  rcases hup payload hp with hp | rfl
  · exact hu.quiet payload hp
  · exact hrequest

-- Only an own request gives the turn.
theorem Bystander.still (hu : Bystander c u) {e : Event}
    (hquiet : ∀ payload, e = .message c payload → parseMessage payload ≠ .requestTurn) :
    (WebFort.next s u.circuit.world e).st.activeConn ≠ some c := by
  intro hturn
  obtain ⟨payload, he, hask⟩ := request_before_turn hu.registered hu.watching hturn
  exact hquiet payload he hask

theorem Bystander.next (hu : Bystander c u) {a : PlayStep} (hen : (player s c).enabled u a)
    (hkeep : NoClick u a) : Bystander c ((player s c).next u a) := by
  have hphase := player_phase hu.phase hen
  cases a with
  | hand g =>
      refine ⟨hu.registered, hphase, hu.watching, fun payload hp => ?_, hu.fits.after g⟩
      rcases List.mem_append.mp hp with hp | hp
      · exact hu.quiet payload hp
      · intro hask
        have hmeans := sends_means hp
        rw [hask] at hmeans
        cases hmeans with
        | turn _ => exact hkeep rfl
  | net m =>
      cases m with
      | opened =>
          have hfresh : u.circuit.world.phase c = .fresh := hen.1.2
          exact absurd (hu.phase.symm.trans hfresh) (by decide)
      | deliver =>
          obtain ⟨payload, rest, hup, hevent⟩ := hen.1
          have hquiet : ∀ d ∈ payload :: rest, parseMessage d ≠ .requestTurn := hup ▸ hu.quiet
          have hstill : (WebFort.next s u.circuit.world (.message c payload)).st.activeConn ≠ some c :=
            hu.still fun d hd => by
              obtain ⟨-, rfl⟩ := Event.message.inj hd
              exact hquiet payload List.mem_cons_self
          simp only [player, Player.next, Circuit.next, hup] at hphase ⊢
          exact ⟨hu.registered.step hevent, hphase, hstill,
            fun d hd => hquiet d (List.mem_cons_of_mem _ hd), hu.fits⟩
      | receive nextFrame =>
          cases hdown : u.circuit.down with
          | nil => exact absurd hdown hen.1
          | cons data rest =>
              have hfits := hu.fits.onMessage data
              simp only [player, Player.next, Circuit.next, hdown]
              split
              · refine hu.of_request rfl (fun payload hp => ?_) hfits
                exact (List.mem_append.mp hp).imp_right List.mem_singleton.mp
              · exact hu.of_request rfl (fun payload hp => Or.inl hp) hfits
              · exact hu.of_request rfl (fun payload hp => Or.inl hp) hfits
              · exact hu.of_request rfl (fun payload hp => Or.inl hp) hfits
      | fire =>
          refine hu.of_request rfl (fun payload hp => ?_) hu.fits
          exact (List.mem_append.mp hp).imp_right List.mem_singleton.mp
      | act payload => exact absurd rfl (hen.2 payload)
      | other e =>
          have hstill : (WebFort.next s u.circuit.world e).st.activeConn ≠ some c :=
            hu.still fun payload he => absurd (he ▸ rfl) hen.1.2
          exact ⟨hu.registered.step hen.1.1, hphase, hstill, hu.quiet, hu.fits⟩

-- What is under way arrives in order, and a gesture puts its tile behind it.
theorem hovering_next (hu : Bystander c u) {a : PlayStep} (hen : (player s c).enabled u a) :
    (landings c u a).map Landing.tile ++ ((player s c).next u a).hovering =
      u.hovering ++ hovered u a := by
  have hrequest : messageHovers [110] = [] := rfl
  cases a with
  | hand g =>
      simp only [landings, hovered, player, Player.next, Player.hovering, List.map_nil,
        List.nil_append, List.flatMap_append, gesture_hovers hu.fits]
  | net m =>
      simp only [hovered, List.append_nil]
      cases m with
      | opened =>
          have hfresh : u.circuit.world.phase c = .fresh := hen.1.2
          exact absurd (hu.phase.symm.trans hfresh) (by decide)
      | deliver =>
          obtain ⟨payload, rest, hup, -⟩ := hen.1
          have hmap : ((messageHovers payload).map fun tile =>
              (⟨baseOf u.circuit.world.st c, tile⟩ : Landing)).map Landing.tile =
              messageHovers payload := by
            rw [List.map_map]
            exact List.map_id _
          simp only [landings, player, Player.next, Circuit.next, hup, Player.hovering,
            List.take_succ_cons, List.take_zero, List.flatMap_cons, List.flatMap_nil, List.append_nil,
            hmap]
      | receive nextFrame =>
          cases hdown : u.circuit.down with
          | nil => exact absurd hdown hen.1
          | cons data rest =>
              simp only [landings, player, Player.next, Player.hovering, Circuit.next, hdown,
                List.map_nil, List.nil_append]
              split <;> simp only [List.flatMap_append, List.flatMap_singleton, hrequest,
                List.append_nil]
      | fire =>
          simp only [landings, player, Player.next, Player.hovering, Circuit.next, List.map_nil,
            List.nil_append, List.flatMap_append, List.flatMap_singleton, hrequest, List.append_nil]
      | act payload => exact absurd rfl (hen.2 payload)
      | other e => rfl

-- The server keeps the place of the last one.
theorem cursorOf_next (hu : Bystander c u) {a : PlayStep} (hen : (player s c).enabled u a) :
    cursorOf ((player s c).next u a).circuit.world.st c =
      (landings c u a).foldl (fun _ l => some l.place) (cursorOf u.circuit.world.st c) := by
  obtain ⟨cl, hcl⟩ := (hu.registered.phase c).mp hu.phase
  cases a with
  | hand g => rfl
  | net m =>
      cases m with
      | opened =>
          have hfresh : u.circuit.world.phase c = .fresh := hen.1.2
          exact absurd (hu.phase.symm.trans hfresh) (by decide)
      | deliver =>
          obtain ⟨payload, rest, hup, -⟩ := hen.1
          have hquiet : parseMessage payload ≠ .requestTurn :=
            hu.quiet payload (by rw [hup]; exact List.mem_cons_self)
          have hcursor : cursorOf (handle s (.message c payload) u.circuit.world.st).state c =
              ((messageHovers payload).map (onMap (baseOf u.circuit.world.st c))).foldl
                (fun _ place => some place) (cursorOf u.circuit.world.st c) :=
            (cursorOf_message payload hu.watching hcl fun _ => hquiet).trans (if_pos rfl)
          rw [List.foldl_map] at hcursor
          simp only [landings, player, Player.next, Circuit.next, hup, List.take_succ_cons,
            List.take_zero, List.flatMap_cons, List.flatMap_nil, List.append_nil, List.foldl_map]
          exact hcursor
      | receive nextFrame =>
          cases hdown : u.circuit.down with
          | nil => exact absurd hdown hen.1
          | cons data rest =>
              simp only [landings, player, Player.next, Circuit.next, hdown, List.foldl_nil]
              split <;> rfl
      | fire => rfl
      | act payload => exact absurd rfl (hen.2 payload)
      | other e => exact cursorOf_others hu.watching hen.1.2 hcl

end Steps

theorem foldl_some {α β : Type} (f : α → β) (l : List α) (b : Option β) :
    l.foldl (fun _ x => some (f x)) b = (l.getLast?.map f).or b := by
  induction l generalizing b with
  | nil => rfl
  | cons x l ih =>
      rw [List.foldl_cons, ih, List.getLast?_cons]
      cases l.getLast? with
      | none => rfl
      | some y => rfl

section Viewers

variable {s : Endpoint} {c v : Handle} {st : State}

-- A place of the map on a screen that shows it from `base` on.
def InView (g : Game) (base : Camera) (place : Int × Int) : Prop :=
  (0 ≤ place.1 - base.x ∧ place.1 - base.x < g.gps.dimx) ∧
    0 ≤ place.2 - base.y ∧ place.2 - base.y < g.gps.dimy

theorem visibleCursor_iff {cl viewer : Client} (hidle : st.activeConn ≠ some c)
    (hcl : st.clients.find? c = some cl) (tile : Int × Int) :
    visibleCursor st viewer c cl = some tile ↔
      ∃ place, cursorOf st c = some place ∧ InView st.game (viewport st viewer) place ∧
        tile = (place.1 - (viewport st viewer).x, place.2 - (viewport st viewer).y) := by
  have hworld : worldCursor st c cl = cursorOf st c :=
    (worldCursor_of_ne cl hidle).trans (look_of_find? hcl).symm
  unfold visibleCursor
  rw [hworld, Option.bind_eq_some_iff]
  refine exists_congr fun place => and_congr_right fun _ => ?_
  simp only [Option.ite_none_left_eq_some, Option.some.injEq, InView]
  constructor
  · rintro ⟨hin, rfl⟩
    exact ⟨by omega, rfl⟩
  · rintro ⟨hin, rfl⟩
    exact ⟨by omega, rfl⟩

-- What a page draws of a client that watches.
theorem drawn_of_sent (hidle : st.activeConn ≠ some c) (hx : st.game.gps.dimx ≤ 256)
    (hy : st.game.gps.dimy ≤ 256) {k : ShownCursor} (hk : k ∈ sentCursors st v)
    (hconn : k.conn = c) :
    ∃ place, cursorOf st c = some place ∧ InView st.game (baseOf st v) place ∧
      ((k.record.drawn.cx : Int), (k.record.drawn.cy : Int)) =
        (place.1 - (baseOf st v).x, place.2 - (baseOf st v).y) := by
  have hshown : k ∈ shownCursors st v := (takeFit_initial ShownCursor.size (4096 - 2) _).subset hk
  obtain ⟨cl, hcl, -, -, hvisible, -⟩ := mem_shownCursors hshown
  subst hconn
  obtain ⟨place, hplace, hin, htile⟩ := (visibleCursor_iff hidle hcl _).mp hvisible
  obtain ⟨hcx, hcy⟩ := Prod.mk.inj htile
  refine ⟨place, hplace, hin, Prod.ext ?_ ?_⟩
  · have hbyte := leByte_toNat k.cx 0
    show ((leByte k.cx 0).toNat : Int) = place.1 - (viewport st (st.getClient v)).x
    have hwide := hin.1
    omega
  · have hbyte := leByte_toNat k.cy 0
    show ((leByte k.cy 0).toNat : Int) = place.2 - (viewport st (st.getClient v)).y
    have hwide := hin.2
    omega

theorem exists_sent (hidle : st.activeConn ≠ some c) (hne : c ≠ v) {place : Int × Int}
    (hplace : cursorOf st c = some place) (hin : InView st.game (baseOf st v) place)
    (hroom : 2 + totalSize ShownCursor.size (shownCursors st v) ≤ 4096) :
    ∃ k ∈ sentCursors st v, k.conn = c := by
  have hreg : ∃ cl, st.clients.find? c = some cl := by
    cases hcl : st.clients.find? c with
    | none => exact absurd ((look_of_none hcl).symm.trans hplace) (by simp)
    | some cl => exact ⟨cl, rfl⟩
  obtain ⟨cl, hcl⟩ := hreg
  have hvisible : visibleCursor st (st.getClient v) c cl =
      some (place.1 - (baseOf st v).x, place.2 - (baseOf st v).y) :=
    (visibleCursor_iff hidle hcl _).mpr ⟨place, hplace, hin, rfl⟩
  have hmem := (OrdMap.mem_entries_iff st.clients c cl).mpr hcl
  obtain ⟨i, hi, hget⟩ := List.getElem_of_mem hmem
  have hzip : ((c, cl), i) ∈ st.clients.entries.zipIdx := by
    apply List.mk_mem_zipIdx_iff_getElem?.mpr
    rw [List.getElem?_eq_getElem hi, hget]
  let k : ShownCursor :=
    ⟨c, cl.nick, place.1 - (baseOf st v).x, place.2 - (baseOf st v).y, i⟩
  have hshown : shownCursor st v (st.getClient v) ((c, cl), i) = some k := by
    unfold shownCursor
    rw [if_neg hne, hvisible]
    rfl
  have hall : sentCursors st v = shownCursors st v := takeFit_of_le ShownCursor.size (by omega)
  refine ⟨k, ?_, rfl⟩
  rw [hall, shownCursors_eq]
  exact List.mem_filterMap.mpr ⟨_, hzip, hshown⟩

-- From the same viewport it is the tile it was on.
theorem onMap_tile {base : Camera} {tile : Int × Int}
    (hx : -2 ^ 31 ≤ base.x + tile.1 ∧ base.x + tile.1 < 2 ^ 31)
    (hy : -2 ^ 31 ≤ base.y + tile.2 ∧ base.y + tile.2 < 2 ^ 31) :
    ((onMap base tile).1 - base.x, (onMap base tile).2 - base.y) = tile := by
  apply Prod.ext
  · show int32 (base.x + tile.1) - base.x = tile.1
    rw [int32_of_bounds hx.1 hx.2]
    omega
  · show int32 (base.y + tile.2) - base.y = tile.2
    rw [int32_of_bounds hy.1 hy.2]
    omega

end Viewers

-- As long as a player does not ask for the turn, the tiles its mouse is moved
-- to reach the server once and in order, seen from its own viewport, and
-- everybody else who updates sees it at the last of them, from the other one's
-- viewport, if it is inside.
theorem others_see_pointer (s : Endpoint) (c : Handle) (u : Player) (as : List PlayStep)
    (hu : Bystander c u) (hv : (player s c).Valid u as) (hkeep : (player s c).Each NoClick u as) :
    let before := ((player s c).exec u as).circuit.world.st
    let landed := (player s c).trace (landings c) u as
    let last := (landed.getLast?.map Landing.place).or (cursorOf u.circuit.world.st c)
    landed.map Landing.tile ++ ((player s c).exec u as).hovering =
      u.hovering ++ (player s c).trace hovered u as ∧
    ∀ v, c ≠ v → (s v).processor.takesBinary = true → before.clients.size ≤ 255 →
      before.game.gps.dimx ≤ 256 → before.game.gps.dimy ≤ 256 →
      let st := (tock s v before).state
      ∃ frame packet, ∃ cursors : List ShownCursor, sends v (tock s v before).out = [frame, packet] ∧
        cursorsUpdate packet = some (cursors.map fun k => k.record.drawn, []) ∧
        (∀ k ∈ cursors, k.conn = c → ∃ place, last = some place ∧
          InView st.game (baseOf st v) place ∧
          ((k.record.drawn.cx : Int), (k.record.drawn.cy : Int)) =
            (place.1 - (baseOf st v).x, place.2 - (baseOf st v).y)) ∧
        (∀ place, last = some place → InView st.game (baseOf st v) place →
          2 + totalSize ShownCursor.size (shownCursors st v) ≤ 4096 → ∃ k ∈ cursors, k.conn = c) ∧
        ∀ k ∈ cursors, k.conn = c → ∀ l, landed.getLast? = some l → l.base = baseOf st v →
          -2 ^ 31 ≤ l.base.x + l.tile.1 ∧ l.base.x + l.tile.1 < 2 ^ 31 →
          -2 ^ 31 ≤ l.base.y + l.tile.2 ∧ l.base.y + l.tile.2 < 2 ^ 31 →
          ((k.record.drawn.cx : Int), (k.record.drawn.cy : Int)) = l.tile := by
  intro before landed last
  have hstep : ∀ u a, Bystander c u → (player s c).enabled u a → NoClick u a →
      Bystander c ((player s c).next u a) := fun _ _ hu hen hkeep => hu.next hen hkeep
  have hend : Bystander c ((player s c).exec u as) :=
    (player s c).exec_invariant_each (Bystander c) NoClick hstep u as hu hv hkeep
  have hlast : cursorOf before c = last := by
    have hfold := (player s c).exec_fold (Bystander c) NoClick
      (fun u => cursorOf u.circuit.world.st c) (fun _ l => some l.place) (landings c)
      (fun u a hu hen hkeep => ⟨hstep u a hu hen hkeep, cursorOf_next hu hen⟩) u as hu hv hkeep
    exact hfold.trans (foldl_some Landing.place landed _)
  refine ⟨?_, fun v hne hb hsize hx hy => ?_⟩
  · have hflow := (player s c).exec_flow (Bystander c) NoClick Player.hovering hovered
      (fun u a => (landings c u a).map Landing.tile)
      (fun u a hu hen hkeep => ⟨hstep u a hu hen hkeep, hovering_next hu hen⟩) u as hu hv hkeep
    rwa [Machine.trace_map] at hflow
  intro st
  have hkept := tock_kept s v before
  have hgame : st.game = before.game := hkept.game
  have hidle : st.activeConn ≠ some c := by
    show (tock s v before).state.activeConn ≠ some c
    rw [tock_activeConn]
    split
    · exact (Option.some_ne_none c).symm
    · exact hend.watching
  have hcursor : cursorOf st c = last := (cursorOf_tock hend.watching).trans hlast
  have hdrawn : ∀ k ∈ sentCursors st v, k.conn = c → ∃ place, last = some place ∧
      InView st.game (baseOf st v) place ∧ ((k.record.drawn.cx : Int), (k.record.drawn.cy : Int)) =
        (place.1 - (baseOf st v).x, place.2 - (baseOf st v).y) := by
    intro k hk hconn
    rw [← hcursor]
    exact drawn_of_sent hidle (hgame ▸ hx) (hgame ▸ hy) hk hconn
  refine ⟨_, _, sentCursors st v, (tock_sends s v v before).trans (if_pos ⟨rfl, hb⟩),
    cursorsUpdate_packet st v (hkept.registry.size.trans_le hsize), hdrawn,
    fun place hplace hin hroom => exists_sent hidle hne (hcursor.trans hplace) hin hroom,
    fun k hk hconn l hl hbase hwx hwy => ?_⟩
  obtain ⟨place, hplace, -, htile⟩ := hdrawn k hk hconn
  have hsame : l.place = place := by
    simp only [last, hl, Option.map_some, Option.some_or, Option.some.injEq] at hplace
    exact hplace
  rw [htile, ← hsame, ← hbase]
  exact onMap_tile hwx hwy

namespace Sample

-- Both watch. The page of client 0 has just been opened.
def lookingOn : Player :=
  ⟨⟨(server endpoint).exec (World.init config (game 64)) [.opened 0, .opened 1],
    [[115], [110]], [], 0⟩, Controls.initial⟩

def pointsAround : List PlayStep :=
  [.hand (.mousemove 20 0 1), .hand (.mousemove 30 7 7), .hand (.mousemove 40 1 1),
    .net .deliver, .net .deliver, .net .deliver, .net .deliver, .net .deliver, .net .deliver]

end Sample

-- The second of the moves comes too soon after the first one.
theorem others_see_pointer_sample :
    ∃ cursors : List ShownCursor,
      cursorsUpdate (cursorPacket 1 (tock Sample.endpoint 1
        ((player Sample.endpoint 0).exec Sample.lookingOn Sample.pointsAround).circuit.world.st).state) =
        some (cursors.map fun k => k.record.drawn, []) ∧
      ∀ k ∈ cursors, k.conn = 0 → ((k.record.drawn.cx : Int), (k.record.drawn.cy : Int)) = (1, 1) := by
  have hvalid : (server Sample.endpoint).Valid (World.init Sample.config (Sample.game 64))
      [.opened 0, .opened 1] := ⟨⟨rfl, rfl⟩, ⟨rfl, rfl⟩, trivial⟩
  have hregistered : Registered Sample.lookingOn.circuit.world :=
    (Registered.init Sample.config (Sample.game 64)).run hvalid
  have hrun := others_see_pointer Sample.endpoint 0 Sample.lookingOn Sample.pointsAround
    ⟨hregistered, rfl, by decide, by decide, by decide, by decide⟩ ?_ ?_
  · obtain ⟨frame, packet, cursors, hsends, hread, -, -, htile⟩ :=
      hrun.2 1 (by decide) rfl (by decide) (by decide) (by decide)
    have hpacket := tock_packet hsends
    refine ⟨cursors, hpacket ▸ hread, fun k hk hconn => ?_⟩
    exact htile k hk hconn ⟨⟨0, 0, 0⟩, (1, 1)⟩ (by decide) (by decide) (by decide) (by decide)
  · have hhand : ∀ (u : Player) (g : Gesture), u.circuit.world.phase 0 = .opened →
        (player Sample.endpoint 0).enabled u (.hand g) := fun _ _ hopen => hopen
    simp only [Sample.pointsAround, Machine.valid_cons]
    refine ⟨hhand _ _ (by decide), hhand _ _ (by decide), hhand _ _ (by decide), ?_⟩
    refine ⟨deliver_enabled (by decide) (by decide) (by decide), ?_⟩
    refine ⟨deliver_enabled (by decide) (by decide) (by decide), ?_⟩
    refine ⟨deliver_enabled (by decide) (by decide) (by decide), ?_⟩
    refine ⟨deliver_enabled (by decide) (by decide) (by decide), ?_⟩
    refine ⟨deliver_enabled (by decide) (by decide) (by decide), ?_⟩
    exact ⟨deliver_enabled (by decide) (by decide) (by decide), trivial⟩
  · exact (player Sample.endpoint 0).each_of_mem _ _ _ fun a ha u hclick => by
      rw [hclick] at ha
      simp [Sample.pointsAround] at ha

end WebFort
