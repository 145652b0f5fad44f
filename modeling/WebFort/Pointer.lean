import WebFort.Playing

namespace WebFort

open Library

-- The mouse of a player's page, from its canvas to the mouse queue.

def WFMouseEvent.OnTiles (w h : Nat) (ev : WFMouseEvent) : Prop :=
  ev.tileX.toNat < w ∧ ev.tileY.toNat < h

-- The mouse events the plugin takes from the page in a step.
def pointed (c : Handle) (u : Player) : PlayStep → List WFMouseEvent
  | .net .deliver => (u.circuit.up.take 1).flatMap fun payload =>
      clicked u.circuit.world.st (.message c payload)
  | _ => []

-- Nothing but the size of the screen is fixed.
def SizedStep (w h : Nat) (_ : Player) (a : PlayStep) : Prop :=
  ∀ e, a = .net (.other e) → e.Sized w h

-- Of the messages under way, those that the server handles while the client
-- has the turn, now or after a request that comes before them, point at tiles
-- of the screen.
def Aimed (w h : Nat) : Bool → List Bytes → Prop
  | _, [] => True
  | turn, payload :: rest =>
      (turn = true → ∀ ev, parseMessage payload = .mouseEvent ev → ev.OnTiles w h) ∧
        Aimed w h (turn || decide (parseMessage payload = .requestTurn)) rest

section Aimed

variable {w h : Nat} {turn : Bool} {up more : List Bytes}

theorem Aimed.weaken (ha : Aimed w h true up) : Aimed w h turn up := by
  induction up generalizing turn with
  | nil => exact trivial
  | cons payload rest ih => exact ⟨fun _ => ha.1 rfl, ih ha.2⟩

theorem Aimed.mono {turn' : Bool} (ha : Aimed w h turn up) (hle : turn' = true → turn = true) :
    Aimed w h turn' up := by
  cases turn with
  | true => exact ha.weaken
  | false =>
      have hfalse : turn' = false := by simpa using hle
      exact hfalse ▸ ha

theorem aimed_of_onTiles
    (hall : ∀ payload ∈ up, ∀ ev, parseMessage payload = .mouseEvent ev → ev.OnTiles w h) :
    Aimed w h turn up := by
  induction up generalizing turn with
  | nil => exact trivial
  | cons payload rest ih =>
      exact ⟨fun _ => hall payload List.mem_cons_self, ih fun d hd => hall d (List.mem_cons_of_mem _ hd)⟩

theorem Aimed.append (ha : Aimed w h turn up)
    (hmore : ∀ payload ∈ more, ∀ ev, parseMessage payload = .mouseEvent ev → ev.OnTiles w h) :
    Aimed w h turn (up ++ more) := by
  induction up generalizing turn with
  | nil => exact aimed_of_onTiles hmore
  | cons payload rest ih => exact ⟨ha.1, ih ha.2⟩

-- Who does not ask for the turn is not listened to.
theorem aimed_of_no_request (hno : ∀ payload ∈ up, parseMessage payload ≠ .requestTurn) :
    Aimed w h false up := by
  induction up with
  | nil => exact trivial
  | cons payload rest ih =>
      refine ⟨fun hturn => absurd hturn Bool.false_ne_true, ?_⟩
      rw [decide_eq_false (hno payload List.mem_cons_self)]
      exact ih fun d hd => hno d (List.mem_cons_of_mem _ hd)

end Aimed

-- The size the page was told is that of the screen, or it has not been told
-- any and cannot have asked for the turn.
structure Pointing (w h : Nat) (c : Handle) (u : Player) : Prop where
  registered : Registered u.circuit.world
  size : u.circuit.world.st.game.HasSize w h
  packets : ∀ data ∈ u.circuit.down, isUpdatePacket data = true →
    (data.getD 8 0).toNat = w ∧ (data.getD 9 0).toNat = h
  aimed : u.circuit.world.phase c = .opened →
    Aimed w h (decide (u.circuit.world.st.activeConn = some c)) u.circuit.up
  told : u.circuit.world.phase c = .opened → (u.ctl.dimx = w ∧ u.ctl.dimy = h) ∨
    (u.ctl.clickable = false ∧ u.circuit.world.st.activeConn ≠ some c ∧
      ∀ payload ∈ u.circuit.up, parseMessage payload ≠ .requestTurn)

section Steps

variable {s : Endpoint} {c : Handle} {w h : Nat} {u : Player}

theorem request_before_turn {world : World} (hw : Registered world)
    (hnot : world.st.activeConn ≠ some c) {e : Event}
    (hturn : (WebFort.next s world e).st.activeConn = some c) :
    ∃ payload, e = .message c payload ∧ parseMessage payload = .requestTurn := by
  cases hnow : world.st.activeConn with
  | none => exact next_takes_turn hnow hturn
  | some d =>
      have hne : (WebFort.next s world e).st.activeConn ≠ some d := by
        rintro hsame
        rw [hnow] at hnot
        exact hnot (hsame.symm.trans hturn)
      obtain ⟨hnone, -⟩ := next_leaves_turn hw hnow hne
      rw [hnone] at hturn
      cases hturn

theorem tock_dims (hw : w < 256) (hh : h < 256) {st : State} (hsize : st.game.HasSize w h) :
    ((tileLoop c st).bytes.getD 8 0).toNat = w ∧ ((tileLoop c st).bytes.getD 9 0).toNat = h := by
  obtain ⟨tiles, hbytes⟩ := tileLoop_bytes c st
  have hgame : (turnPart st).game = st.game := (turnPart_kept st).game
  have h8 : ((packetStart c st).bytes ++ tiles).getD 8 0 = leByte (turnPart st).game.gps.dimx 0 := rfl
  have h9 : ((packetStart c st).bytes ++ tiles).getD 9 0 = leByte (turnPart st).game.gps.dimy 0 := rfl
  rw [hbytes, h8, h9, hgame, hsize.1, hsize.2]
  have hx := leByte_toNat (w : Int) 0
  have hy := leByte_toNat (h : Int) 0
  omega

theorem onMessage_dims (hw : 0 < w) {p : Controls} {data : Bytes} (hdata : isUpdatePacket data = true)
    (hdims : (data.getD 8 0).toNat = w ∧ (data.getD 9 0).toNat = h) :
    (p.onMessage data).dimx = w ∧ (p.onMessage data).dimy = h := by
  have hhead : data.head? = some 110 := of_decide_eq_true hdata
  have hpos : 0 < (data.getD 8 0).toNat := hdims.1 ▸ hw
  unfold Controls.onMessage
  simp only [hhead, hpos, if_true]
  split <;> exact hdims

theorem onMessage_other {p : Controls} {data : Bytes} (hdata : isUpdatePacket data = false) :
    p.onMessage data = p := by
  unfold Controls.onMessage
  exact if_neg (of_decide_eq_false hdata)

-- A pointer anywhere is taken for the nearest tile of the screen.
theorem canvasToTile_onTiles (hw : 1 ≤ w ∧ w ≤ 256) (hh : 1 ≤ h ∧ h ≤ 256) {p : Controls}
    (hdims : p.dimx = w ∧ p.dimy = h) {ev : WFMouseEvent}
    (hev : ∃ px py, ev.tileX = leByte (canvasToTile p px py).1 0 ∧
      ev.tileY = leByte (canvasToTile p px py).2 0) : ev.OnTiles w h := by
  obtain ⟨px, py, hx, hy⟩ := hev
  have hbx := leByte_toNat (canvasToTile p px py).1 0
  have hby := leByte_toNat (canvasToTile p px py).2 0
  rw [← hx] at hbx
  rw [← hy] at hby
  unfold canvasToTile at hbx hby
  rw [hdims.1] at hbx
  rw [hdims.2] at hby
  simp only [pow_zero, Int.ediv_one] at hbx hby
  unfold WFMouseEvent.OnTiles
  omega

-- One more request of the loop.
theorem Pointing.request (hu : Pointing w h c u) {k : Circuit} {ctl : Controls}
    (hworld : k.world = u.circuit.world) (hup : k.up = u.circuit.up ++ [[110]])
    (hdown : ∀ data ∈ k.down, data ∈ u.circuit.down)
    (hctl : (ctl.dimx = w ∧ ctl.dimy = h) ∨ ctl = u.ctl) : Pointing w h c ⟨k, ctl⟩ := by
  have hrequest : parseMessage [110] = .update := rfl
  refine ⟨hworld ▸ hu.registered, hworld ▸ hu.size, fun data hd => hu.packets data (hdown data hd),
    fun hopen => ?_, fun hopen => ?_⟩
  · rw [hworld] at hopen ⊢
    rw [hup]
    refine (hu.aimed hopen).append fun payload hp ev hev => ?_
    rw [List.mem_singleton.mp hp, hrequest] at hev
    cases hev
  · rw [hworld] at hopen ⊢
    rcases hctl with hdims | rfl
    · exact Or.inl hdims
    · refine (hu.told hopen).imp_right ?_
      rintro ⟨hclick, hturn, hno⟩
      refine ⟨hclick, hturn, fun payload hp => ?_⟩
      rw [hup] at hp
      rcases List.mem_append.mp hp with hp | hp
      · exact hno payload hp
      · rw [List.mem_singleton.mp hp, hrequest]
        decide

-- A packet taken, and nothing sent.
theorem Pointing.quiet (hu : Pointing w h c u) {k : Circuit} {ctl : Controls}
    (hworld : k.world = u.circuit.world) (hup : k.up = u.circuit.up)
    (hdown : ∀ data ∈ k.down, data ∈ u.circuit.down)
    (hctl : (ctl.dimx = w ∧ ctl.dimy = h) ∨ ctl = u.ctl) : Pointing w h c ⟨k, ctl⟩ := by
  refine ⟨hworld ▸ hu.registered, hworld ▸ hu.size, fun data hd => hu.packets data (hdown data hd),
    fun hopen => ?_, fun hopen => ?_⟩
  · rw [hworld] at hopen ⊢
    exact hup ▸ hu.aimed hopen
  · rw [hworld] at hopen ⊢
    rcases hctl with hdims | rfl
    · exact Or.inl hdims
    · exact hup ▸ hu.told hopen

theorem Pointing.receive (hw : 0 < w) (hu : Pointing w h c u) (nextFrame : Int) :
    Pointing w h c ((player s c).next u (.net (.receive nextFrame))) := by
  cases hdown : u.circuit.down with
  | nil =>
      have hsame : (player s c).next u (.net (.receive nextFrame)) = u := by
        simp only [player, Player.next, Circuit.next, hdown]
      rwa [hsame]
  | cons data rest =>
      have hrest : ∀ d ∈ rest, d ∈ u.circuit.down := fun d hd => by
        rw [hdown]
        exact List.mem_cons_of_mem _ hd
      have hctl : ((u.ctl.onMessage data).dimx = w ∧ (u.ctl.onMessage data).dimy = h) ∨
          u.ctl.onMessage data = u.ctl := by
        cases hdata : isUpdatePacket data with
        | true =>
            have hin : data ∈ u.circuit.down := by rw [hdown]; exact List.mem_cons_self
            exact Or.inl (onMessage_dims hw hdata (hu.packets data hin hdata))
        | false => exact Or.inr (onMessage_other hdata)
      simp only [player, Player.next, Circuit.next, hdown]
      split
      · exact hu.request rfl rfl hrest hctl
      · exact hu.quiet rfl rfl hrest hctl
      · exact hu.quiet rfl rfl hrest hctl
      · exact hu.quiet rfl rfl hrest hctl

theorem Pointing.gesture (hw : 1 ≤ w ∧ w ≤ 256) (hh : 1 ≤ h ∧ h ≤ 256) (hu : Pointing w h c u)
    (g : Gesture) : Pointing w h c ((player s c).next u (.hand g)) := by
  have hafter : (g.after u.ctl).dimx = u.ctl.dimx ∧ (g.after u.ctl).dimy = u.ctl.dimy ∧
      (g.after u.ctl).clickable = u.ctl.clickable := by
    cases g with
    | mousemove now px py =>
        simp only [Gesture.after]
        split <;> exact ⟨rfl, rfl, rfl⟩
    | key _ => exact ⟨rfl, rfl, rfl⟩
    | mousedown _ _ _ => exact ⟨rfl, rfl, rfl⟩
    | mouseup _ _ _ => exact ⟨rfl, rfl, rfl⟩
    | wheel _ _ _ => exact ⟨rfl, rfl, rfl⟩
    | click => exact ⟨rfl, rfl, rfl⟩
  have hold : ∀ hopen : u.circuit.world.phase c = .opened,
      (u.ctl.dimx = w ∧ u.ctl.dimy = h) ∨ (u.ctl.clickable = false ∧
        u.circuit.world.st.activeConn ≠ some c ∧
        ∀ payload ∈ u.circuit.up ++ g.sends u.ctl, parseMessage payload ≠ .requestTurn) := by
    intro hopen
    refine (hu.told hopen).imp_right ?_
    rintro ⟨hclick, hturn, hno⟩
    refine ⟨hclick, hturn, fun payload hp => ?_⟩
    rcases List.mem_append.mp hp with hp | hp
    · exact hno payload hp
    · intro hask
      have hmeans := sends_means hp
      rw [hask] at hmeans
      cases hmeans with
      | turn h => exact absurd (hclick.symm.trans h) (by decide)
  refine ⟨hu.registered, hu.size, hu.packets, fun hopen => ?_, fun hopen => ?_⟩
  · show Aimed w h _ (u.circuit.up ++ g.sends u.ctl)
    rcases hold hopen with hdims | ⟨-, hturn, hno⟩
    · refine (hu.aimed hopen).append fun payload hp ev hev => ?_
      have hmeans := sends_means hp
      rw [hev] at hmeans
      cases hmeans with
      | mouse _ _ hpos => exact canvasToTile_onTiles hw hh hdims hpos
    · exact (aimed_of_no_request hno).mono fun h => absurd (of_decide_eq_true h) hturn
  · show ((g.after u.ctl).dimx = w ∧ (g.after u.ctl).dimy = h) ∨ ((g.after u.ctl).clickable = false ∧ _)
    rw [hafter.1, hafter.2.1, hafter.2.2]
    exact hold hopen

theorem packets_sent (hw : w < 256) (hh : h < 256) {st : State} (hsize : st.game.HasSize w h)
    {payload data : Bytes} (hd : data ∈ sends c (handle s (.message c payload) st).out)
    (hdata : isUpdatePacket data = true) :
    (data.getD 8 0).toNat = w ∧ (data.getD 9 0).toNat = h := by
  by_cases hask : parseMessage payload = .update
  · have htock := tock_sends s c c st
    simp only [handle, onMessage, hask, htock] at hd
    split at hd
    · rcases List.mem_cons.mp hd with rfl | hd
      · exact tock_dims hw hh hsize
      · rw [List.mem_singleton.mp hd] at hdata
        exact absurd hdata Bool.false_ne_true
    · exact absurd hd List.not_mem_nil
  · have hnone : sends c (handle s (.message c payload) st).out = [] :=
      onMessage_sends s c payload st fun h => hask h.2
    rw [hnone] at hd
    exact absurd hd List.not_mem_nil

theorem Pointing.deliver (hw : w < 256) (hh : h < 256) (hu : Pointing w h c u)
    (hen : Circuit.enabled c u.circuit .deliver) :
    Pointing w h c ((player s c).next u (.net .deliver)) := by
  obtain ⟨payload, rest, hup, hevent⟩ := hen
  have hphase : u.circuit.world.phase c = .opened := hevent.2
  have haimed := hu.aimed hphase
  rw [hup] at haimed
  simp only [player, Player.next, Circuit.next, hup]
  refine ⟨hu.registered.step hevent, handle_hasSize s (e := .message c payload) hu.size trivial, ?_,
    fun _ => haimed.2.mono fun hturn => ?_, fun _ => ?_⟩
  · intro data hd hdata
    rcases List.mem_append.mp hd with hd | hd
    · exact hu.packets data hd hdata
    · exact packets_sent hw hh hu.size hd hdata
  · rw [Bool.or_eq_true, decide_eq_true_eq, decide_eq_true_eq]
    by_cases hnow : u.circuit.world.st.activeConn = some c
    · exact Or.inl hnow
    · obtain ⟨payload', he, hask⟩ :=
        request_before_turn hu.registered hnow (of_decide_eq_true hturn)
      obtain ⟨-, rfl⟩ := Event.message.inj he
      exact Or.inr hask
  · refine (hu.told hphase).imp_right ?_
    rintro ⟨hclick, hturn, hno⟩
    refine ⟨hclick, fun hthen => ?_, fun d hd => hno d (by rw [hup]; exact List.mem_cons_of_mem _ hd)⟩
    obtain ⟨payload', he, hask⟩ := request_before_turn hu.registered hturn hthen
    obtain ⟨-, rfl⟩ := Event.message.inj he
    exact hno payload (by rw [hup]; exact List.mem_cons_self) hask

theorem Pointing.opened (hu : Pointing w h c u)
    (hen : WebFort.enabled u.circuit.world (.opened c)) :
    Pointing w h c ((player s c).next u (.net .opened)) := by
  have hquiet : ∀ payload ∈ ([[115], [110]] : List Bytes), parseMessage payload ≠ .requestTurn := by
    decide
  have hnow : u.circuit.world.st.activeConn ≠ some c := by
    intro hturn
    obtain ⟨cl, hcl⟩ := hu.registered.registry.active c hturn
    rw [hu.registered.absent hen] at hcl
    cases hcl
  have hthen : (WebFort.next s u.circuit.world (.opened c)).st.activeConn ≠ some c := by
    intro hturn
    obtain ⟨payload, he, -⟩ := request_before_turn hu.registered hnow hturn
    cases he
  refine ⟨hu.registered.step hen, handle_hasSize s (e := .opened c) hu.size trivial, ?_, fun _ => ?_,
    fun _ => Or.inr ⟨rfl, hthen, hquiet⟩⟩
  · intro data hd hdata
    have hno := onOpen_no_update s c u.circuit.world.st data hd
    exact absurd (hno.symm.trans hdata) Bool.false_ne_true
  · exact (aimed_of_no_request hquiet).mono fun h => absurd (of_decide_eq_true h) hthen

theorem Pointing.other (hu : Pointing w h c u) {e : Event}
    (hen : Circuit.enabled c u.circuit (.other e)) (hsize : e.Sized w h) :
    Pointing w h c ((player s c).next u (.net (.other e))) := by
  have hphase : (WebFort.next s u.circuit.world e).phase c = u.circuit.world.phase c :=
    phase_of_not_of hen.2
  have hturn : (WebFort.next s u.circuit.world e).st.activeConn = some c →
      u.circuit.world.st.activeConn = some c := by
    intro hthen
    by_contra hnow
    obtain ⟨payload, rfl, -⟩ := request_before_turn hu.registered hnow hthen
    exact hen.2 rfl
  simp only [player, Player.next, Circuit.next, sends_of_not_of s u.circuit.world.st hen.2,
    List.append_nil]
  refine ⟨hu.registered.step hen.1, handle_hasSize s hu.size hsize, hu.packets, fun hopen => ?_,
    fun hopen => ?_⟩
  · rw [hphase] at hopen
    exact (hu.aimed hopen).mono fun h => decide_eq_true (hturn (of_decide_eq_true h))
  · rw [hphase] at hopen
    refine (hu.told hopen).imp_right ?_
    rintro ⟨hclick, hnow, hno⟩
    exact ⟨hclick, mt hturn hnow, hno⟩

theorem Pointing.next (hw : 1 ≤ w ∧ w < 256) (hh : 1 ≤ h ∧ h < 256) (hu : Pointing w h c u)
    {a : PlayStep} (hen : (player s c).enabled u a) (hsize : SizedStep w h u a) :
    Pointing w h c ((player s c).next u a) := by
  cases a with
  | hand g => exact hu.gesture (by omega) (by omega) g
  | net m =>
      cases m with
      | opened => exact hu.opened hen.1
      | deliver => exact hu.deliver hw.2 hh.2 hen.1
      | receive nextFrame => exact hu.receive hw.1 nextFrame
      | fire => exact hu.request rfl rfl (fun _ hd => hd) (Or.inr rfl)
      | act payload => exact absurd rfl (hen.2 payload)
      | other e => exact hu.other hen.1 (hsize e rfl)

theorem Pointing.pointed (hu : Pointing w h c u) {a : PlayStep} (hen : (player s c).enabled u a) :
    ∀ ev ∈ pointed c u a, ev.OnTiles w h := by
  cases a with
  | hand g => exact fun _ hev => absurd hev List.not_mem_nil
  | net m =>
      cases m with
      | deliver =>
          obtain ⟨payload, rest, hup, hevent⟩ := hen.1
          have haimed := hu.aimed hevent.2
          rw [hup] at haimed
          intro ev hev
          simp only [WebFort.pointed, hup, List.take_succ_cons, List.take_zero,
            List.flatMap_singleton, clicked] at hev
          split at hev
          · rename_i ev' hp
            split at hev
            · rename_i hturn
              rw [List.mem_singleton.mp hev]
              exact haimed.1 (decide_eq_true hturn) ev' hp
            · exact absurd hev List.not_mem_nil
          · exact absurd hev List.not_mem_nil
      | opened => exact fun _ hev => absurd hev List.not_mem_nil
      | receive _ => exact fun _ hev => absurd hev List.not_mem_nil
      | fire => exact fun _ hev => absurd hev List.not_mem_nil
      | act _ => exact fun _ hev => absurd hev List.not_mem_nil
      | other _ => exact fun _ hev => absurd hev List.not_mem_nil

end Steps

-- Wherever the pointer is, also on a page that still has the size of another
-- screen, every mouse event that gets into the queue points at a tile of the
-- screen.
theorem mouse_stays_on_screen (s : Endpoint) (c : Handle) (w h : Nat) (config : Config) (g : Game)
    (ctl : Controls) (as : List PlayStep) (hw : 1 ≤ w ∧ w < 256) (hh : 1 ≤ h ∧ h < 256)
    (hsize : g.HasSize w h) (hv : (player s c).Valid ⟨Circuit.init config g, ctl⟩ as)
    (hsized : (player s c).Each (SizedStep w h) ⟨Circuit.init config g, ctl⟩ as) :
    ∀ ev ∈ (player s c).trace (pointed c) ⟨Circuit.init config g, ctl⟩ as, ev.OnTiles w h := by
  refine (player s c).trace_forall (pointed c) (WFMouseEvent.OnTiles w h) _ as ?_
  refine (player s c).each_of_each (Pointing w h c) (SizedStep w h) _
    (fun u a hu hen hstep => ⟨hu.next hw hh hen hstep, hu.pointed hen⟩) _ as ?_ hv hsized
  refine ⟨Registered.init config g, hsize, fun _ hd => absurd hd List.not_mem_nil, ?_, ?_⟩
  · exact fun hopen => absurd hopen (by simp [Circuit.init, World.init])
  · exact fun hopen => absurd hopen (by simp [Circuit.init, World.init])

namespace Sample

-- The page starts with 80 by 25 tiles, and is given 2 by 2. The pointer is
-- pressed before and after it asks for the turn.
def presses : List PlayStep :=
  [.net .opened, .hand (.mousedown 0 70 20), .net .deliver, .net .deliver, .net (.receive 40),
    .hand .click, .hand (.mousedown 0 70 20), .net .deliver, .net .deliver, .net .deliver]

def visitor : Player := ⟨Circuit.init config (game 64), Controls.initial⟩

end Sample

theorem mouse_stays_on_screen_sample :
    (player Sample.endpoint 0).trace (pointed 0) Sample.visitor Sample.presses = [⟨1, 1, 1, 1⟩] ∧
      WFMouseEvent.OnTiles 2 2 ⟨1, 1, 1, 1⟩ := by
  have htrace : (player Sample.endpoint 0).trace (pointed 0) Sample.visitor Sample.presses =
      [⟨1, 1, 1, 1⟩] := by decide
  refine ⟨htrace, mouse_stays_on_screen Sample.endpoint 0 2 2 Sample.config (Sample.game 64)
    Controls.initial Sample.presses (by decide) (by decide) ⟨rfl, rfl⟩ ?_ ?_ _
    (htrace ▸ List.mem_singleton_self _)⟩
  · have hhand : ∀ (u : Player) (g : Gesture), u.circuit.world.phase 0 = .opened →
        (player Sample.endpoint 0).enabled u (.hand g) := fun _ _ hopen => hopen
    have hreceive : ∀ u : Player, u.circuit.down ≠ [] →
        (player Sample.endpoint 0).enabled u (.net (.receive 40)) := fun _ hdown =>
      ⟨hdown, fun _ => by simp⟩
    simp only [Sample.presses, Machine.valid_cons]
    refine ⟨⟨⟨rfl, rfl⟩, fun _ => by simp⟩, ?_⟩
    refine ⟨hhand _ _ (by decide), ?_⟩
    refine ⟨deliver_enabled (by decide) (by decide) (by decide), ?_⟩
    refine ⟨deliver_enabled (by decide) (by decide) (by decide), ?_⟩
    refine ⟨hreceive _ (by decide), ?_⟩
    refine ⟨hhand _ _ (by decide), ?_⟩
    refine ⟨hhand _ _ (by decide), ?_⟩
    refine ⟨deliver_enabled (by decide) (by decide) (by decide), ?_⟩
    refine ⟨deliver_enabled (by decide) (by decide) (by decide), ?_⟩
    exact ⟨deliver_enabled (by decide) (by decide) (by decide), trivial⟩
  · refine (player Sample.endpoint 0).each_of_mem _ _ _ fun a ha u e he => ?_
    rw [he] at ha
    simp [Sample.presses] at ha

end WebFort
