import WebFort.Turns
import WebFort.Header
import WebFort.Library.Clock

namespace WebFort

open Library

-- The years of the in-game clock: World::ReadCurrentTick counts the ticks of
-- the current one.
structure Calendar where
  ticks : Int
  pos : 0 < ticks
  fits : ticks ≤ 2 ^ 31

-- The server together with the time that really passes: seconds, or all ticks
-- since the first year.
structure Clocked where
  world : World
  now : Int
  -- when the holder of the turn got it
  since : Int

structure Stamped where
  event : Event
  now : Int

-- The clock that turns are measured by shows the time.
def Calendar.Shows (cal : Calendar) (config : Config) (g : Game) (now : Int) : Prop :=
  if config.ingameTime then (g.currentTick : Int) = now % cal.ticks else g.time = now

instance (cal : Calendar) (config : Config) (g : Game) (now : Int) :
    Decidable (cal.Shows config g now) := inferInstanceAs (Decidable (ite _ _ _))

def Clocked.init (config : Config) (g : Game) (now : Int) : Clocked :=
  ⟨World.init config g, now, now⟩

-- Time never goes back, and every event leaves the clock showing it.
def clocked (s : Endpoint) (cal : Calendar) : Machine Clocked Stamped where
  enabled m e := enabled m.world e.event ∧ m.now ≤ e.now ∧
    cal.Shows m.world.st.config (next s m.world e.event).st.game e.now
  next m e :=
    let world := next s m.world e.event
    ⟨world, e.now, if world.st.activeConn = m.world.st.activeConn then m.since else e.now⟩

-- round_timer at that time.
def stamp (cal : Calendar) (config : Config) (now : Int) : Int :=
  if config.ingameTime then int32 (now % cal.ticks) else int32 now

-- The time_left of the packet that tock builds for the connection.
def reportedTime (hdl : Handle) (st : State) : Int :=
  let data := (tileLoop hdl st).bytes
  readInt32 (data.getD 4 0) (data.getD 5 0) (data.getD 6 0) (data.getD 7 0)

-- A tock while a client has the turn and another one waits.
def Clocked.Tock (m : Clocked) (e : Stamped) (hdl : Handle) : Prop :=
  (∃ payload, e.event = .message hdl payload ∧ parseMessage payload = .update) ∧
    m.world.st.activeConn ≠ none ∧ 2 ≤ m.world.st.clients.size

-- Such a tock counts down from TURNTIME, and ends the turn at zero.
def Clocked.Exact (s : Endpoint) (m : Clocked) (e : Stamped) : Prop :=
  ∀ hdl, m.Tock e hdl →
    let limit := m.world.st.config.turntime
    let elapsed := e.now - m.since
    (elapsed < limit →
      reportedTime hdl m.world.st = limit - elapsed ∧
        1 ≤ reportedTime hdl m.world.st ∧ reportedTime hdl m.world.st ≤ limit ∧
        (next s m.world e.event).st.activeConn = m.world.st.activeConn) ∧
    (limit ≤ elapsed → (next s m.world e.event).st.activeConn = none)

-- The clock has not started again since the turn began, or it is past the end
-- of the turn all the same.
def Clocked.OnTime (cal : Calendar) (m : Clocked) (e : Stamped) : Prop :=
  ∀ hdl, m.Tock e hdl →
    let limit := m.world.st.config.turntime
    if m.world.st.config.ingameTime then
      e.now / cal.ticks = m.since / cal.ticks ∨
        limit ≤ e.now % cal.ticks - m.since % cal.ticks
    else e.now - m.since < 2 ^ 31 ∨ limit ≤ int32 (e.now - m.since)

theorem reportedTime_eq (hdl : Handle) (st : State) : reportedTime hdl st = (getTimeLeft st).1 := by
  unfold reportedTime
  rw [readInt32_tileLoop, getTimeLeft_idleTimer]

theorem roundTimer_eq {cal : Calendar} {st : State} {now : Int}
    (h : cal.Shows st.config st.game now) : roundTimer st = stamp cal st.config now := by
  unfold roundTimer stamp
  unfold Calendar.Shows at h
  split
  · rename_i hin
    rw [if_pos hin] at h
    rw [h]
  · rename_i hin
    rw [if_neg hin] at h
    rw [h]

section Start

-- The client, if it is still there, counts from the same moment.
def SameStart (c : Handle) (st st' : State) : Prop :=
  ∀ cl', st'.clients.find? c = some cl' →
    ∃ cl, st.clients.find? c = some cl ∧ cl'.atime = cl.atime

variable {c : Handle} {st st' : State}

theorem SameStart.of_clients (h : st'.clients.find? c = st.clients.find? c) :
    SameStart c st st' := fun cl' hcl' => ⟨cl', h.symm.trans hcl', rfl⟩

theorem SameStart.trans {st'' : State} (h : SameStart c st st') (h' : SameStart c st' st'') :
    SameStart c st st'' := by
  intro cl'' hcl''
  obtain ⟨cl', hcl', ht'⟩ := h' cl'' hcl''
  obtain ⟨cl, hcl, ht⟩ := h cl' hcl'
  exact ⟨cl, hcl, ht'.trans ht⟩

theorem withRegistered_start (st : State) (hdl : Handle) {f : Client → Client}
    (hf : ∀ cl, (f cl).atime = cl.atime) : SameStart c st (st.withRegistered hdl f) := by
  intro cl' hcl'
  rw [State.withRegistered_find?] at hcl'
  split at hcl'
  · obtain ⟨cl, hcl, rfl⟩ := Option.map_eq_some_iff.mp hcl'
    exact ⟨cl, hcl, hf cl⟩
  · exact ⟨cl', hcl', rfl⟩

theorem withClient_start (st : State) (hdl : Handle) {f : Client → Client}
    (hf : ∀ cl, (f cl).atime = cl.atime) : SameStart c st (st.withClient hdl f) :=
  withRegistered_start st hdl hf

theorem dropCursor_start (conn : Option Handle) (st : State) :
    SameStart c st (dropCursor conn st) := by
  cases conn with
  | none => exact SameStart.of_clients rfl
  | some hdl => exact withRegistered_start st hdl fun _ => rfl

theorem setActive_none_start (st : State) : SameStart c st (setActive none st).state := by
  refine (dropCursor_start st.activeConn st).trans (SameStart.of_clients ?_)
  rw [setActive_none_clients]

-- set_active reads the clock for the client it gives the turn to.
theorem setActive_some_start {hdl : Handle} {cl' : Client} (hnone : st.activeConn = none)
    (hcl' : (setActive (some hdl) st).state.clients.find? hdl = some cl') :
    cl'.atime = roundTimer st := by
  have hne : st.activeConn ≠ some hdl := by simp [hnone]
  simp only [setActive, if_neg hne, Outcome.emit_state, pauseGame_clients,
    State.withClient_find?, if_true] at hcl'
  obtain ⟨cl, -, rfl⟩ := Option.map_eq_some_iff.mp hcl'
  rw [hnone]
  rfl

theorem turnPart_start (st : State) : SameStart c st (turnPart st) := by
  obtain ⟨timedOut, h | h⟩ := turnPart_state st
  · rw [h]
    exact SameStart.of_clients rfl
  · rw [h]
    exact setActive_none_start (c := c) { st with timedOut := timedOut }

theorem tock_start (s : Endpoint) (hdl : Handle) (st : State) :
    SameStart c st (tock s hdl st).state := by
  rw [tock_state]
  exact (turnPart_start st).trans (withClient_start _ hdl fun _ => rfl)

theorem requestTurn_start (hdl : Handle) (hsome : st.activeConn ≠ none) :
    SameStart c st (requestTurn hdl st).state := by
  unfold requestTurn
  split
  · exact setActive_none_start st
  · exact SameStart.of_clients rfl

theorem onMessage_start (s : Endpoint) (hdl : Handle) (payload : Bytes)
    (hsome : st.activeConn ≠ none) : SameStart c st (onMessage s hdl payload st).state := by
  unfold onMessage
  cases parseMessage payload with
  | keyEvent jsKey charCode jsmods =>
      obtain ⟨evs, h⟩ := keyEvent_state hdl st jsKey charCode jsmods
      simp only [Outcome.ok_state, h]
      exact SameStart.of_clients rfl
  | mouseEvent ev =>
      obtain ⟨evs, h⟩ := mouseEvent_state hdl st ev
      simp only [Outcome.ok_state, h]
      exact SameStart.of_clients rfl
  | cursorMove x y =>
      obtain ⟨f, hf, h⟩ := cursorMove_state hdl st x y
      simp only [Outcome.ok_state, h]
      refine withRegistered_start st hdl fun cl => ?_
      obtain ⟨cursorX, cursorY, b, hcl⟩ := hf cl
      rw [hcl]
  | refreshScreen => exact withClient_start st hdl fun _ => rfl
  | camMove dx dy dz =>
      simp only [Outcome.ok_state]
      rcases camMove_state hdl st dx dy dz with ⟨x, y, z, h⟩ | h
      · rw [h]
        exact SameStart.of_clients rfl
      · rw [h]
        exact withRegistered_start st hdl fun _ => rfl
  | requestTurn => exact requestTurn_start hdl hsome
  | update => exact tock_start s hdl st

theorem onClose_start (hdl : Handle) (st : State) : SameStart c st (onClose hdl st).state := by
  have herase : ∀ st : State, SameStart c st (eraseClient hdl st) := by
    intro st cl' hcl'
    rw [Registry.erase_find?] at hcl'
    split at hcl'
    · cases hcl'
    · exact ⟨cl', hcl', rfl⟩
  cases hcl : st.clients.find? hdl with
  | none =>
      rw [onClose_absent hcl]
      exact herase st
  | some cl =>
      rw [onClose_registered hcl]
      refine SameStart.trans ?_ (herase (deleteClient cl (releaseTurn hdl st)))
      unfold releaseTurn
      split
      · exact setActive_none_start st
      · exact SameStart.of_clients rfl

theorem pluginOnupdate_start (df : Df) (st : State) :
    SameStart c st (pluginOnupdate df st).state := by
  intro cl' hcl'
  obtain ⟨cl, hcl, ht⟩ := (pluginOnupdate_unticked df st).client.find?_back hcl'
  exact ⟨cl, hcl, ht.atime⟩

-- While somebody has the turn no event restarts the clock of that client.
theorem next_start {s : Endpoint} {w : World} {e : Event} (hw : Registered w) (hen : enabled w e)
    (hc : w.st.activeConn = some c) : SameStart c w.st (next s w e).st := by
  cases e with
  | opened hdl =>
      obtain ⟨cl, hcl⟩ := hw.registry.active c hc
      have hopen := (hw.phase c).mpr ⟨cl, hcl⟩
      have hne : c ≠ hdl := by
        rintro rfl
        exact absurd (hopen.symm.trans hen.2) (by decide)
      exact SameStart.of_clients (onOpen_client s w.st hne)
  | message hdl payload => exact onMessage_start s hdl payload (by simp [hc])
  | closed hdl => exact onClose_start hdl w.st
  | game g => exact SameStart.of_clients rfl
  | update g df => exact pluginOnupdate_start df (w.st.atGame g)

end Start

namespace Clocked

-- The holder of the turn has the time at which it got it.
structure Sound (cal : Calendar) (config : Config) (m : Clocked) : Prop where
  registered : Registered m.world
  setting : m.world.st.config = config
  past : m.since ≤ m.now
  started : ∀ c cl, m.world.st.activeConn = some c → m.world.st.clients.find? c = some cl →
    cl.atime = stamp cal config m.since

namespace Sound

variable {s : Endpoint} {cal : Calendar} {config : Config} {m : Clocked} {e : Stamped}

theorem init (g : Game) (now : Int) : Sound cal config (Clocked.init config g now) where
  registered := Registered.init config g
  setting := rfl
  past := Int.le_refl _
  started _ _ h := by simp [Clocked.init, World.init, State.init] at h

-- A message leaves the game alone, so the clock it reads is the one it leaves.
theorem roundTimer (h : Sound cal config m) (hen : (clocked s cal).enabled m e) {hdl : Handle}
    {payload : Bytes} (he : e.event = .message hdl payload) :
    WebFort.roundTimer m.world.st = stamp cal config e.now := by
  have hshows := hen.2.2
  have hgame : (next s m.world e.event).st.game = m.world.st.game := by
    rw [he]
    exact (onMessage_kept s hdl payload m.world.st).game
  rw [hgame] at hshows
  rw [← h.setting]
  exact roundTimer_eq hshows

-- The turn changes hands through nobody, and is taken by a message.
theorem taken (h : Sound cal config m) (hen : (clocked s cal).enabled m e) {c : Handle}
    {cl : Client} (hne : (next s m.world e.event).st.activeConn ≠ m.world.st.activeConn)
    (hc : (next s m.world e.event).st.activeConn = some c)
    (hcl : (next s m.world e.event).st.clients.find? c = some cl) :
    cl.atime = stamp cal config e.now := by
  have hnone : m.world.st.activeConn = none := by
    cases hact : m.world.st.activeConn with
    | none => rfl
    | some d =>
        have hleaves := next_leaves_turn h.registered hact (fun hd => hne (hd.trans hact.symm))
        exact absurd (hc.symm.trans hleaves.1) (by simp)
  obtain ⟨payload, he, hp⟩ := next_takes_turn hnone hc
  rw [← h.roundTimer hen he]
  rw [he] at hcl
  have hstate : (next s m.world (.message c payload)).st =
      (setActive (some c) m.world.st).state := by
    have hne' : m.world.st.activeConn ≠ some c := by simp [hnone]
    simp only [next, handle, onMessage, hp, requestTurn, if_neg hne', if_pos hnone]
  rw [hstate] at hcl
  exact setActive_some_start hnone hcl

theorem next (h : Sound cal config m) (hen : (clocked s cal).enabled m e) :
    Sound cal config ((clocked s cal).next m e) where
  registered := h.registered.step hen.1
  setting := by
    have hkept : ((server s).exec m.world [e.event]).st.config = m.world.st.config := config_of_run
    exact hkept.trans h.setting
  past := by
    have hlater := hen.2.1
    have hpast := h.past
    simp only [clocked]
    split <;> omega
  started c cl hc hcl := by
    simp only [clocked] at hc hcl ⊢
    split
    · rename_i hsame
      have hact := hsame.symm.trans hc
      obtain ⟨cl₀, hcl₀, ht⟩ := next_start h.registered hen.1 hact cl hcl
      exact ht.trans (h.started c cl₀ hact hcl₀)
    · rename_i hne
      exact h.taken hen hne hc hcl

end Sound

end Clocked

section Countdown

variable {cal : Calendar} {config : Config} {since now : Int}

-- What get_time_left takes for the length of the turn so far.
def played (cal : Calendar) (config : Config) (since now : Int) : Int :=
  int32 (stamp cal config now - stamp cal config since)

theorem played_ingame (hin : config.ingameTime = true) :
    played cal config since now = now % cal.ticks - since % cal.ticks := by
  have hfits := cal.fits
  have hreading : ∀ t : Int, int32 (t % cal.ticks) = t % cal.ticks := by
    intro t
    have hlo := Int.emod_nonneg t (Int.ne_of_gt cal.pos)
    have hhi := Int.emod_lt_of_pos t cal.pos
    exact int32_of_bounds (by omega) (by omega)
  obtain ⟨hlo, hhi⟩ : -cal.ticks < now % cal.ticks - since % cal.ticks ∧
      now % cal.ticks - since % cal.ticks < cal.ticks := Clock.reading_diff_bounds cal.pos
  unfold played stamp
  rw [if_pos hin, if_pos hin, hreading, hreading]
  exact int32_of_bounds (by omega) (by omega)

-- The wall clock wraps in both readings alike.
theorem played_wall (hin : ¬config.ingameTime = true) :
    played cal config since now = int32 (now - since) := by
  unfold played stamp
  rw [if_neg hin, if_neg hin, int32_sub]

theorem played_le (h : since ≤ now) : played cal config since now ≤ now - since := by
  by_cases hin : config.ingameTime = true
  · rw [played_ingame hin]
    exact Clock.reading_diff_le cal.pos h
  · rw [played_wall hin]
    exact int32_le (by omega)

theorem played_right_iff (h : since ≤ now) :
    (if config.ingameTime then
      now / cal.ticks = since / cal.ticks ∨
        config.turntime ≤ now % cal.ticks - since % cal.ticks
    else now - since < 2 ^ 31 ∨ config.turntime ≤ int32 (now - since)) ↔
      played cal config since now = now - since ∨
        config.turntime ≤ played cal config since now := by
  split
  · rename_i hin
    rw [played_ingame hin, Clock.reading_diff_eq_iff cal.pos]
  · rename_i hin
    rw [played_wall hin, int32_eq_self_iff (by omega)]

end Countdown

namespace Clocked

variable {s : Endpoint} {cal : Calendar} {config : Config} {m : Clocked} {e : Stamped}

theorem Sound.timeLeft (h : Sound cal config m) (hen : (clocked s cal).enabled m e) {hdl : Handle}
    (ht : m.Tock e hdl) (hpos : 0 < config.turntime) :
    getTimeLeft m.world.st =
      if played cal config m.since e.now < config.turntime then
        (int32 (config.turntime - played cal config m.since e.now), false)
      else (-1, true) := by
  obtain ⟨⟨payload, he, -⟩, hact, hsize⟩ := ht
  obtain ⟨c, hc⟩ := Option.ne_none_iff_exists'.mp hact
  obtain ⟨cl, hcl⟩ := h.registered.registry.active c hc
  have hactive : m.world.st.getActive = cl := by
    simp only [State.getActive, hc]
    exact State.getClient_of_find? hcl
  have hlimit : m.world.st.config.turntime ≠ 0 := by
    rw [h.setting]
    omega
  unfold getTimeLeft
  rw [if_pos ⟨hlimit, hact, hsize⟩, hactive, h.started c cl hc hcl, h.roundTimer hen he, h.setting]
  rfl

theorem Tock.activeConn {hdl : Handle} (ht : m.Tock e hdl) :
    (WebFort.next s m.world e.event).st.activeConn =
      if (getTimeLeft m.world.st).2 then none else m.world.st.activeConn := by
  obtain ⟨⟨payload, he, hp⟩, -⟩ := ht
  rw [he]
  refine (onMessage_activeConn s hdl payload m.world.st).trans ?_
  rw [hp]

theorem Sound.tock_counts (h : Sound cal config m) (hen : (clocked s cal).enabled m e)
    {hdl : Handle} (ht : m.Tock e hdl) (hpos : 0 < config.turntime)
    (hplayed : played cal config m.since e.now < config.turntime) :
    reportedTime hdl m.world.st = int32 (config.turntime - played cal config m.since e.now) ∧
      (WebFort.next s m.world e.event).st.activeConn = m.world.st.activeConn := by
  have hleft := h.timeLeft hen ht hpos
  rw [if_pos hplayed] at hleft
  refine ⟨?_, ?_⟩
  · rw [reportedTime_eq, hleft]
  · rw [ht.activeConn, hleft]
    rfl

theorem Sound.tock_ends_iff (h : Sound cal config m) (hen : (clocked s cal).enabled m e)
    {hdl : Handle} (ht : m.Tock e hdl) (hpos : 0 < config.turntime) :
    (WebFort.next s m.world e.event).st.activeConn = none ↔
      config.turntime ≤ played cal config m.since e.now := by
  by_cases hplayed : played cal config m.since e.now < config.turntime
  · rw [(h.tock_counts hen ht hpos hplayed).2]
    exact ⟨fun hnone => absurd hnone ht.2.1, fun hover => absurd hplayed (by omega)⟩
  · have hleft := h.timeLeft hen ht hpos
    rw [if_neg hplayed] at hleft
    rw [ht.activeConn, hleft]
    exact ⟨fun _ => by omega, fun _ => rfl⟩

theorem Sound.exact_iff (h : Sound cal config m) (hen : (clocked s cal).enabled m e)
    (hpos : 0 < config.turntime) (hfits : config.turntime < 2 ^ 31) :
    m.Exact s e ↔ m.OnTime cal e := by
  have hpast : m.since ≤ e.now := Int.le_trans h.past hen.2.1
  have hlo : -2 ^ 31 ≤ played cal config m.since e.now := (int32_bounds _).1
  have hle : played cal config m.since e.now ≤ e.now - m.since := played_le hpast
  refine forall_congr' fun hdl => forall_congr' fun ht => ?_
  simp only [h.setting]
  rw [played_right_iff hpast, ← Clock.countdown_iff hpos hfits hlo hle (by omega)]
  refine and_congr (forall_congr' fun hbefore => ?_) (forall_congr' fun _ => ?_)
  · obtain ⟨htime, hkept⟩ := h.tock_counts hen ht hpos (by omega)
    rw [htime]
    exact ⟨fun hall => hall.1, fun hright => ⟨hright, by omega, by omega, hkept⟩⟩
  · exact h.tock_ends_iff hen ht hpos

end Clocked

-- Over any run, each tock tells the time that is left of the turn, and ends
-- it in time, exactly when each comes before the clock has started again, or
-- late enough after.
theorem turns_last_turntime_iff (s : Endpoint) (cal : Calendar) (config : Config) (g : Game)
    (now : Int) (es : List Stamped) (hpos : 0 < config.turntime) (hfits : config.turntime < 2 ^ 31)
    (hv : (clocked s cal).Valid (Clocked.init config g now) es) :
    (clocked s cal).Each (Clocked.Exact s) (Clocked.init config g now) es ↔
      (clocked s cal).Each (Clocked.OnTime cal) (Clocked.init config g now) es :=
  (clocked s cal).each_iff (Clocked.Sound cal config) _ _ (fun _ _ h hen => h.next hen)
    (fun _ _ h hen => h.exact_iff hen hpos hfits) _ es (Clocked.Sound.init g now) hv

namespace Sample

-- Twelve months of 28 days of 1200 ticks.
def year : Calendar := ⟨403200, by decide, by decide⟩

def ingame : Config := { config with ingameTime := true }

def atTick (tick : Nat) : Game := { game 64 with currentTick := tick }

-- Two clients, of which the first has asked for the turn.
def seized (now : Int) : List Stamped :=
  [⟨.opened 0, now⟩, ⟨.opened 1, now⟩, ⟨.message 0 [116], now⟩]

end Sample

theorem turns_last_turntime_iff_sample :
    (clocked Sample.endpoint Sample.year).Each (Clocked.Exact Sample.endpoint)
      (Clocked.init Sample.ingame (Sample.atTick 7) 7)
      (Sample.seized 7 ++ [⟨.game (Sample.atTick 9), 9⟩, ⟨.message 1 [110], 9⟩]) := by
  refine (turns_last_turntime_iff Sample.endpoint Sample.year Sample.ingame (Sample.atTick 7) 7 _
    (by decide) (by decide) ?_).mpr ?_
  · exact ⟨⟨⟨rfl, rfl⟩, by decide, by decide⟩, ⟨⟨rfl, rfl⟩, by decide, by decide⟩,
      ⟨⟨rfl, rfl⟩, by decide, by decide⟩, ⟨trivial, by decide, by decide⟩,
      ⟨⟨rfl, rfl⟩, by decide, by decide⟩, trivial⟩
  · exact ⟨fun _ _ => Or.inl rfl, fun _ _ => Or.inl rfl, fun _ _ => Or.inl rfl,
      fun _ _ => Or.inl rfl, fun _ _ => Or.inl rfl, trivial⟩

-- The turn begins on the last tick of a year. One tick later it has more
-- time left than a turn has, and 601 ticks later it has not ended.
theorem new_year_extends_turn :
    let start := Clocked.init Sample.ingame (Sample.atTick 403199) 403199
    let first := Sample.seized 403199 ++ [⟨.game (Sample.atTick 0), 403200⟩]
    let rest : List Stamped := [⟨.message 0 [110], 403200⟩, ⟨.game (Sample.atTick 600), 403800⟩,
      ⟨.message 0 [110], 403800⟩]
    let M := clocked Sample.endpoint Sample.year
    M.Valid start (first ++ rest) ∧
      reportedTime 0 (M.exec start first).world.st = 600 + 403199 ∧
      (M.exec start first).since = 403199 ∧ Sample.ingame.turntime = 600 ∧
      (M.exec start (first ++ rest)).world.st.activeConn = some 0 ∧
      ¬M.Each (Clocked.Exact Sample.endpoint) start (first ++ rest) := by
  intro start first rest M
  have hlong : reportedTime 0 (M.exec start first).world.st = 600 + 403199 :=
    (reportedTime_eq 0 _).trans (by decide)
  refine ⟨?_, hlong, rfl, rfl, by decide, fun hall => ?_⟩
  · exact ⟨⟨⟨rfl, rfl⟩, by decide, by decide⟩, ⟨⟨rfl, rfl⟩, by decide, by decide⟩,
      ⟨⟨rfl, rfl⟩, by decide, by decide⟩, ⟨trivial, by decide, by decide⟩,
      ⟨⟨rfl, rfl⟩, by decide, by decide⟩, ⟨trivial, by decide, by decide⟩,
      ⟨⟨by decide, rfl⟩, by decide, by decide⟩, trivial⟩
  · have htock := ((M.each_append _ start first rest).mp hall).2.1
    have hright := ((htock 0 ⟨⟨[110], rfl, rfl⟩, by decide, by decide⟩).1 (by decide)).1
    exact absurd (hlong.symm.trans hright) (by decide)

end WebFort
