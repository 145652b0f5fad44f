import WebFort.Turns
import WebFort.Library.History

namespace WebFort

open Library

-- The turn goes from a client back to nobody, or from nobody to a client.
def Releases (s : Endpoint) (st : State) (e : Event) : Prop :=
  st.activeConn ≠ none ∧ (handle s e st).state.activeConn = none

def Takes (s : Endpoint) (st : State) (e : Event) : Prop :=
  st.activeConn = none ∧ (handle s e st).state.activeConn ≠ none

def Saves (s : Endpoint) (st : State) (e : Event) : Prop :=
  Out.quicksave ∈ (handle s e st).out

-- itime and timed_out.
def State.timer (st : State) : Int × Bool := (st.itime, st.timedOut)

def Out.NoSave : Out → Prop
  | .quicksave => False
  | _ => True

-- Everything a step can do with the two variables. Only a tock saves.
inductive TimerStep (tock : Prop) (st : State) (out : List Out) (st' : State) : Prop
  | kept (quiet : ∀ o ∈ out, o.NoSave) (timer : st'.timer = st.timer)
      (setting : st.activeConn ≠ none → st'.activeConn = none →
        st.config.autosaveWhileIdle = false)
  | reset (quiet : ∀ o ∈ out, o.NoSave) (setting : st.config.autosaveWhileIdle = true)
      (held : st.activeConn ≠ none) (released : st'.activeConn = none)
      (timer : st'.timer = (st.game.time, false))
  | save (asked : tock) (rest : List Out) (first : out = .quicksave :: rest)
      (once : ∀ o ∈ rest, o.NoSave) (idle : st.activeConn = none) (armed : st.timedOut = false)
      (late : idleTimeout < st.game.time - st.itime) (still : st'.activeConn = none)
      (timer : st'.timer = (st.itime, true))

namespace TimerStep

variable {tock : Prop} {st st' st'' : State} {out : List Out}

theorem congr (h : TimerStep tock st out st') (htimer : st''.timer = st'.timer)
    (hact : st''.activeConn = st'.activeConn) : TimerStep tock st out st'' := by
  cases h with
  | kept quiet timer setting => exact .kept quiet (htimer.trans timer) (hact ▸ setting)
  | reset quiet setting held released timer =>
      exact .reset quiet setting held (hact.trans released) (htimer.trans timer)
  | save asked rest first once idle armed late still timer =>
      exact .save asked rest first once idle armed late (hact.trans still) (htimer.trans timer)

-- Packets follow the timer.
theorem append (h : TimerStep tock st out st') {more : List Out} (hmore : ∀ o ∈ more, o.NoSave) :
    TimerStep tock st (out ++ more) st' := by
  have hboth : ∀ {before : List Out}, (∀ o ∈ before, o.NoSave) →
      ∀ o ∈ before ++ more, o.NoSave := by
    intro before hbefore o ho
    rcases List.mem_append.mp ho with ho | ho
    · exact hbefore o ho
    · exact hmore o ho
  cases h with
  | kept quiet timer setting => exact .kept (hboth quiet) timer setting
  | reset quiet setting held released timer => exact .reset (hboth quiet) setting held released timer
  | save asked rest first once idle armed late still timer =>
      refine .save asked (rest ++ more) ?_ (hboth once) idle armed late still timer
      rw [first, List.cons_append]

-- A step that leaves the turn and the timer alone.
theorem same (hout : ∀ o ∈ out, o.NoSave) (htimer : st'.timer = st.timer)
    (hact : st'.activeConn = st.activeConn) : TimerStep tock st out st' :=
  .kept hout htimer fun hheld hnone => absurd (hact.symm.trans hnone) hheld

end TimerStep

section Steps

variable {asked : Prop}

theorem dropCursor_timer (conn : Option Handle) (st : State) :
    (dropCursor conn st).timer = st.timer := by
  cases conn <;> rfl

theorem pauseGame_timer (st : State) : (pauseGame st).timer = st.timer := by
  unfold pauseGame
  split <;> rfl

theorem autosave_timer (st : State) :
    (if st.config.autosaveWhileIdle then resetIdleTimer st else st).timer =
      if st.config.autosaveWhileIdle then (st.game.time, false) else st.timer := by
  split <;> rfl

theorem setActive_none_timer (st : State) :
    TimerStep asked st (setActive none st).out (setActive none st).state := by
  rw [setActive_none_out]
  by_cases hheld : st.activeConn = none
  · rw [setActive_same hheld]
    exact .same (fun _ ho => absurd ho List.not_mem_nil) rfl rfl
  · obtain ⟨c, hc⟩ := Option.ne_none_iff_exists'.mp hheld
    have hnone : (setActive none st).state.activeConn = none := setActive_activeConn none st
    have hne : some c ≠ none := by simp
    cases hsetting : st.config.autosaveWhileIdle with
    | true =>
        refine .reset (fun _ ho => absurd ho List.not_mem_nil) hsetting hheld hnone ?_
        simp only [setActive, hc, if_neg hne, Outcome.ok_state, pauseGame_timer]
        exact (autosave_timer _).trans (if_pos hsetting)
    | false =>
        refine .kept (fun _ ho => absurd ho List.not_mem_nil) ?_ fun _ _ => hsetting
        simp only [setActive, hc, if_neg hne, Outcome.ok_state, pauseGame_timer]
        exact (autosave_timer _).trans (if_neg (Bool.eq_false_iff.mp hsetting))

theorem setActive_some_timer (hdl : Handle) (st : State) :
    TimerStep asked st (setActive (some hdl) st).out (setActive (some hdl) st).state := by
  refine .kept ?_ ?_ fun _ hnone => ?_
  · unfold setActive
    split
    · exact fun _ ho => absurd ho List.not_mem_nil
    · exact Outcome.emits_emit trivial
  · unfold setActive
    split
    · rfl
    · refine (pauseGame_timer _).trans ?_
      exact (dropCursor_timer _ _).trans (dropCursor_timer st.activeConn st)
  · rw [setActive_activeConn] at hnone
    cases hnone

theorem requestTurn_timer (hdl : Handle) (st : State) :
    TimerStep asked st (requestTurn hdl st).out (requestTurn hdl st).state := by
  unfold requestTurn
  split
  · exact setActive_none_timer st
  · split
    · exact setActive_some_timer hdl st
    · exact .same (fun _ ho => absurd ho List.not_mem_nil) rfl rfl

-- Nobody plays: the timer alone. Somebody plays: the expiry alone.
theorem turnPart_timer (hasked : asked) (st : State) :
    TimerStep asked st (idleTimer st).out (turnPart st) := by
  by_cases hheld : st.activeConn = none
  · have hstay : turnPart st = (idleTimer st).state := by
      unfold turnPart expireTurn
      rw [getTimeLeft_idleTimer, if_neg fun h => ((getTimeLeft_snd st).mp h).1 hheld]
      rfl
    rw [hstay]
    unfold idleTimer
    split
    · rename_i hlate
      simp only [Bool.and_eq_true, Bool.not_eq_true', decide_eq_true_eq] at hlate
      obtain ⟨⟨harmed, -⟩, hlate⟩ := hlate
      exact .save hasked [] rfl (fun _ ho => absurd ho List.not_mem_nil) hheld harmed hlate hheld rfl
    · exact .same (fun _ ho => absurd ho List.not_mem_nil) rfl rfl
  · have hidle : idleTimer st = .ok st := by
      unfold idleTimer
      rw [if_neg (by simp [hheld])]
    unfold turnPart expireTurn
    rw [hidle]
    split
    · have hstep := @setActive_none_timer asked st
      rw [setActive_none_out] at hstep
      exact hstep
    · exact .same (fun _ ho => absurd ho List.not_mem_nil) rfl rfl

theorem send_noSave (s : Endpoint) (hdl : Handle) (data : Bytes) (st : State) :
    (send s hdl data st).Emits Out.NoSave := by
  unfold send
  split
  · exact Outcome.emits_emit trivial
  · exact Outcome.emits_fail

theorem sendUpdate_noSave (s : Endpoint) (hdl : Handle) (activeCl : Client) (timeLeft : Int)
    (st : State) : (sendUpdate s hdl activeCl timeLeft st).Emits Out.NoSave :=
  Outcome.emits_andThen (send_noSave s hdl _ _) fun _ => send_noSave s hdl _ _

theorem tock_timer (hasked : asked) (s : Endpoint) (hdl : Handle) (st : State) :
    TimerStep asked st (tock s hdl st).out (tock s hdl st).state := by
  have hstep := (turnPart_timer hasked st).append (sendUpdate_noSave s hdl st.getActive
    (getTimeLeft (idleTimer st).state).1 (turnPart st))
  rw [tock_state, tock_eq]
  exact hstep.congr rfl rfl

theorem onOpen_noSave (s : Endpoint) (hdl : Handle) (st : State) :
    (onOpen s hdl st).Emits Out.NoSave := by
  rcases onOpen_inv s hdl st with ⟨-, code, reason, h⟩ | ⟨-, h⟩
  · rw [h]
    exact Outcome.emits_emit trivial
  · rw [h, sendMapInfo]
    split
    · exact Outcome.emits_ok
    · exact send_noSave s hdl _ _

theorem onMessage_timer (s : Endpoint) (hdl : Handle) (payload : Bytes) (st : State)
    (hasked : parseMessage payload = .update → asked) :
    TimerStep asked st (onMessage s hdl payload st).out (onMessage s hdl payload st).state := by
  unfold onMessage
  generalize parseMessage payload = m at hasked ⊢
  cases m with
  | keyEvent jsKey code jsmods =>
      obtain ⟨evs, h⟩ := keyEvent_state hdl st jsKey code jsmods
      exact .same Outcome.emits_ok ((congrArg State.timer h).trans rfl)
        (keyEvent_activeConn hdl jsKey code jsmods st)
  | mouseEvent ev =>
      obtain ⟨evs, h⟩ := mouseEvent_state hdl st ev
      exact .same Outcome.emits_ok ((congrArg State.timer h).trans rfl)
        (mouseEvent_activeConn hdl ev st)
  | cursorMove x y =>
      obtain ⟨f, -, h⟩ := cursorMove_state hdl st x y
      exact .same Outcome.emits_ok ((congrArg State.timer h).trans rfl)
        (cursorMove_activeConn hdl x y st)
  | refreshScreen => exact .same Outcome.emits_ok rfl rfl
  | camMove dx dy dz =>
      refine .same Outcome.emits_ok ?_ (camMove_activeConn hdl dx dy dz st)
      rcases camMove_state hdl st dx dy dz with ⟨x, y, z, h⟩ | h
      · exact (congrArg State.timer h).trans rfl
      · exact (congrArg State.timer h).trans rfl
  | requestTurn => exact requestTurn_timer hdl st
  | update => exact tock_timer (hasked rfl) s hdl st

theorem releaseTurn_timer (c : Handle) (st : State) :
    TimerStep asked st [] (releaseTurn c st) := by
  unfold releaseTurn
  split
  · exact setActive_none_out st ▸ setActive_none_timer st
  · exact .same (fun _ ho => absurd ho List.not_mem_nil) rfl rfl

theorem onClose_timer (c : Handle) (st : State) :
    TimerStep asked st (onClose c st).out (onClose c st).state := by
  cases hcl : st.clients.find? c with
  | none =>
      rw [onClose_absent hcl]
      exact .same Outcome.emits_ok rfl rfl
  | some cl =>
      rw [onClose_registered hcl]
      exact (releaseTurn_timer c st).congr rfl rfl

theorem onOpen_timer (s : Endpoint) (hdl : Handle) (st : State) :
    TimerStep asked st (onOpen s hdl st).out (onOpen s hdl st).state := by
  refine .same (onOpen_noSave s hdl st) ?_ (onOpen_activeConn s hdl st)
  rcases onOpen_state s hdl st with h | h
  · exact congrArg State.timer h
  · exact (congrArg State.timer h).trans rfl

theorem pluginOnupdate_timer (df : Df) (g : Game) (st : State) :
    TimerStep asked st (pluginOnupdate df (st.atGame g)).out
      (pluginOnupdate df (st.atGame g)).state := by
  have hu := pluginOnupdate_unticked df (st.atGame g)
  refine .same (fun o ho => ?_) (Prod.ext hu.itime hu.timedOut) hu.activeConn
  have hgame := pluginOnupdate_emits df (st.atGame g) o ho
  cases o with
  | quicksave => exact hgame.elim
  | _ => trivial

theorem handle_timer (s : Endpoint) (e : Event) (st : State) :
    TimerStep (∃ hdl, e.Asks hdl) st (handle s e st).out (handle s e st).state := by
  cases e with
  | opened hdl => exact onOpen_timer s hdl st
  | message hdl payload => exact onMessage_timer s hdl payload st fun hp => ⟨hdl, rfl, hp⟩
  | closed hdl => exact onClose_timer hdl st
  | game g => exact .same Outcome.emits_ok rfl rfl
  | update g df => exact pluginOnupdate_timer df g st

end Steps

section Runs

variable {s : Endpoint} {start : State} {es : List Event}

-- While the timer runs, itime is when the last holder of the turn gave it up.
def Armed (s : Endpoint) (start : State) (es : List Event) (st : State) : Prop :=
  st.timedOut = false → st.config.autosaveWhileIdle = true ∧
    (plugin s).Since (fun st' e => Releases s st' e ∧ st'.game.time = st.itime)
      (fun st' e => ¬Releases s st' e) start es

theorem Armed.step {e : Event} (h : Armed s start es ((plugin s).exec start es)) :
    Armed s start (es ++ [e]) ((plugin s).next ((plugin s).exec start es) e) := by
  let st := (plugin s).exec start es
  have hconfig : ((plugin s).next st e).config = st.config := handle_config s e st
  intro harmed
  rw [hconfig]
  cases handle_timer s e st with
  | kept quiet timer setting =>
      have hboth := Prod.ext_iff.mp timer
      obtain ⟨hsetting, hsince⟩ := h (hboth.2.symm.trans harmed)
      have hitime : ((plugin s).next st e).itime = st.itime := hboth.1
      rw [hitime]
      refine ⟨hsetting, hsince.step fun hrel => ?_⟩
      exact absurd (setting hrel.1 hrel.2) (by simp [st, hsetting])
  | reset quiet setting held released timer =>
      have hitime : ((plugin s).next st e).itime = st.game.time := (Prod.ext_iff.mp timer).1
      rw [hitime]
      exact ⟨setting, Machine.since_of_step ⟨⟨held, released⟩, rfl⟩⟩
  | save asked rest first once idle armed late still timer =>
      exact absurd ((Prod.ext_iff.mp timer).2.symm.trans harmed) (by simp)

theorem Armed.run (config : Config) (g : Game) (es : List Event) :
    Armed s (State.init config g) es ((plugin s).exec (State.init config g) es) := by
  refine Machine.history_invariant (M := plugin s) (Armed s (State.init config g)) ?_
    (fun es e h _ _ => h.step) es (plugin_valid s _ es)
  exact fun harmed => absurd harmed (by simp [State.init])

-- A step that saves is the third kind, in each of its parts.
theorem timerStep_of_saves {st : State} {e : Event} (hsave : Saves s st e) :
    (∃ hdl, e.Asks hdl) ∧ (∃ rest, (handle s e st).out = .quicksave :: rest ∧
        Out.quicksave ∉ rest) ∧
      st.activeConn = none ∧ st.timedOut = false ∧ idleTimeout < st.game.time - st.itime ∧
      (handle s e st).state.activeConn = none ∧ (handle s e st).state.timedOut = true := by
  cases handle_timer s e st with
  | kept quiet timer setting => exact (quiet _ hsave).elim
  | reset quiet setting held released timer => exact (quiet _ hsave).elim
  | save asked rest first once idle armed late still timer =>
      exact ⟨asked, ⟨rest, first, fun hq => once _ hq⟩, idle, armed, late, still,
        (Prod.ext_iff.mp timer).2⟩

-- The timer is started again by a release only, and somebody must have taken
-- the turn to release it.
theorem turn_between {st : State} (hidle : st.activeConn = none) (hout : st.timedOut = true)
    (harmed : ((plugin s).exec st es).timedOut = false) :
    ∃ before t mid r after, es = before ++ t :: (mid ++ r :: after) ∧
      Takes s ((plugin s).exec st before) t ∧
      Releases s ((plugin s).exec st (before ++ t :: mid)) r := by
  obtain ⟨done, r, after, rfl, hdone, hr⟩ :=
    Machine.exists_crossing (M := plugin s) (fun st => st.timedOut = false) (by simp [hout]) harmed
  have hrel : Releases s ((plugin s).exec st done) r := by
    cases handle_timer s r ((plugin s).exec st done) with
    | kept quiet timer setting =>
        exact absurd ((Prod.ext_iff.mp timer).2.symm.trans hr) hdone
    | reset quiet setting held released timer => exact ⟨held, released⟩
    | save asked rest first once idle armed late still timer => exact absurd armed hdone
  obtain ⟨before, t, mid, rfl, hbefore, ht⟩ :=
    Machine.exists_crossing (M := plugin s) (fun st => st.activeConn ≠ none)
      (not_not.mpr hidle) hrel.1
  refine ⟨before, t, mid, r, after, ?_, ⟨not_not.mp hbefore, ht⟩, hrel⟩
  rw [List.append_assoc, List.cons_append]

end Runs

-- At the end of any run and for the step that saves there: a tock, while
-- nobody plays, more than ten seconds after the last release, once; and before
-- the next one the turn has been taken and released.
theorem quicksave_discipline (s : Endpoint) (config : Config) (g : Game) (pre : List Event)
    (e : Event) (hsave : Saves s ((plugin s).exec (State.init config g) pre) e) :
    let start := State.init config g
    let st := (plugin s).exec start pre
    config.autosaveWhileIdle = true ∧ (∃ hdl, e.Asks hdl) ∧ st.activeConn = none ∧
    (∃ rest, (handle s e st).out = .quicksave :: rest ∧ Out.quicksave ∉ rest) ∧
    (plugin s).Since (fun st' r => Releases s st' r ∧ idleTimeout < st.game.time - st'.game.time)
      (fun st' r => ¬Releases s st' r) start pre ∧
    ∀ mid e', Saves s ((plugin s).exec start (pre ++ e :: mid)) e' →
      ∃ before t between r after, mid = before ++ t :: (between ++ r :: after) ∧
        Takes s ((plugin s).exec start (pre ++ e :: before)) t ∧
        Releases s ((plugin s).exec start (pre ++ e :: (before ++ t :: between))) r := by
  intro start st
  obtain ⟨hasked, honce, hidle, harmed, hlate, hstill, hout⟩ := timerStep_of_saves hsave
  obtain ⟨hsetting, hsince⟩ := Armed.run config g pre harmed
  have hconfig : st.config = config := plugin_config s start pre
  refine ⟨hconfig ▸ hsetting, hasked, hidle, honce, ?_, fun mid e' hsave' => ?_⟩
  · refine hsince.mono (fun st' r h => ⟨h.1, ?_⟩) fun _ _ h => h
    rw [h.2]
    exact hlate
  · have harmed' := (timerStep_of_saves hsave').2.2.2.1
    have hrun : ∀ rest, (plugin s).exec start (pre ++ e :: rest) =
        (plugin s).exec ((plugin s).next st e) rest := fun rest =>
      (plugin s).exec_append start pre (e :: rest)
    rw [hrun] at harmed'
    obtain ⟨before, t, between, r, after, rfl, ht, hr⟩ := turn_between hstill hout harmed'
    refine ⟨before, t, between, r, after, rfl, ?_, ?_⟩
    · rw [hrun]
      exact ht
    · rw [hrun]
      exact hr

namespace Sample

def idleConfig : Config := { config with autosaveWhileIdle := true }

-- Connection 0 takes the turn and gives it back at once; then time passes.
def abandoned : List Event :=
  [.opened 0, .message 0 [116], .message 0 [116], .game { game 64 with time := 20 }]

end Sample

theorem quicksave_discipline_sample :
    (plugin Sample.endpoint).Since
      (fun st' r => Releases Sample.endpoint st' r ∧ idleTimeout < 20 - st'.game.time)
      (fun st' r => ¬Releases Sample.endpoint st' r)
      (State.init Sample.idleConfig (Sample.game 64)) Sample.abandoned :=
  (quicksave_discipline Sample.endpoint Sample.idleConfig (Sample.game 64) Sample.abandoned
    (.message 0 [110]) (List.mem_of_mem_head? rfl)).2.2.2.2.1

end WebFort
