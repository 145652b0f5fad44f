import WebFort.Library.History
import WebFort.System
import WebFort.Sample

namespace WebFort

open Library

-- m_state of the asio transport.
inductive TransportState
  | uninitialized
  | ready
  | listening
  deriving DecidableEq

-- The endpoint object srv, which is never replaced.
structure Srv where
  transport : TransportState
  -- stop() was called on its io_service.
  stopped : Bool

-- None is the exception invalid_state.
def Srv.initAsio (srv : Srv) : Option Srv :=
  if srv.transport = .uninitialized then some ⟨.ready, false⟩ else none

-- None is an error code: that of the wrong state, or that of the system.
def Srv.listen (bound : Bool) (srv : Srv) : Option Srv :=
  if srv.transport = .ready ∧ bound = true then some { srv with transport := .listening } else none

structure Plugin where
  -- world.running is that the thread has not returned from srv.run().
  world : World
  -- s_hdl is not null.
  hasServer : Bool
  enabled : Bool
  hooks : Bool
  srv : Srv
  -- loop is not null.
  loop : Bool

-- What plugin_enable(true) meets: the configuration and whether stol throws
-- on it, whether the port can be bound on v6 and on v4, whether accepting can
-- begin, and how often wf_build_atlas publishes.
structure Host where
  config : Config
  throws : Bool
  v6 : Bool
  v4 : Bool
  accepts : Bool
  atlasBuilds : Nat

def Host.PortFree (host : Host) : Prop := (host.v6 = true ∨ host.v4 = true) ∧ host.accepts = true

namespace Plugin

def mapState (p : Plugin) (f : State → State) : Plugin :=
  { p with world := { p.world with st := f p.world.st } }

-- WFServerImpl::start, and whether it returned: load_config stands outside
-- of the try block.
def start (host : Host) (p : Plugin) : Plugin × Bool :=
  let p := p.mapState fun st => { st with config := host.config }
  if host.throws then (p, false)
  else
    match p.srv.initAsio with
    | none => (p, true)
    | some srv =>
        match (srv.listen host.v6).or (srv.listen host.v4) with
        | none => ({ p with srv := srv }, true)
        | some srv =>
            if host.accepts then
              ({ p with
                srv := srv
                loop := true
                world := { p.world with running := !srv.stopped } }, true)
            else ({ p with srv := srv }, true)

-- WFServerImpl::stop. Without init_asio there is no io_service to stop.
def stop (p : Plugin) : Option Plugin :=
  if p.srv.transport = .uninitialized then none
  else
    some { p with
      srv := { p.srv with stopped := true }
      loop := false
      world := { p.world with running := p.world.running && !p.loop } }

end Plugin

inductive CommandResult
  | ok
  | failure
  deriving DecidableEq

-- No result: the call did not return.
def pluginEnable (enable : Bool) (host : Host) (p : Plugin) : Plugin × Option CommandResult :=
  if enable = p.enabled then (p, some .ok)
  else if enable then
    if p.hasServer then
      let started := { p with enabled := true, hooks := true }.start host
      if started.2 then
        (started.1.mapState fun st =>
          { st with
            graphicsMode := st.game.init.useGraphics
            atlasVersion := (st.atlasVersion + host.atlasBuilds) % 16 }, some .ok)
      else (started.1, none)
    else (p, some .failure)
  else
    let p := { p with enabled := false, hooks := false }
    if p.hasServer then
      match p.stop with
      | none => (p, none)
      | some p => (p, some .ok)
    else (p, some .ok)

-- A call of plugin_enable, or anything else that happens to the plugin.
inductive Act
  | enable (enable : Bool) (host : Host)
  | event (e : Event)

-- Without the plugin enabled plugin_onupdate returns at once.
def Plugin.handle (s : Endpoint) (p : Plugin) : Event → Plugin
  | .update g df =>
      { p with world := next s p.world (if p.enabled then .update g df else .game g) }
  | e => { p with world := next s p.world e }

def act (s : Endpoint) (p : Plugin) : Act → Plugin
  | .enable enable host => (pluginEnable enable host p).1
  | .event e => p.handle s e

def lifecycle (s : Endpoint) : Machine Plugin Act where
  enabled p a := match a with
    | .event e => WebFort.enabled p.world e
    | _ => True
  next := act s

-- After plugin_init, which may have found a global missing.
def Plugin.init (hasServer : Bool) (config : Config) (g : Game) : Plugin :=
  { world := { World.init config g with running := false }
    hasServer := hasServer
    enabled := false
    hooks := false
    srv := ⟨.uninitialized, false⟩
    loop := false }

-- The server is listening and its loop thread is running.
def Plugin.Serving (p : Plugin) : Prop :=
  p.srv.transport = .listening ∧ p.loop = true ∧ p.world.running = true

-- Nothing of a session is left.
structure State.Clean (st : State) : Prop where
  clients : ∀ hdl, st.clients.find? hdl = none
  activeConn : st.activeConn = none
  inputQueue : st.inputQueue = []
  mouseQueue : st.mouseQueue = []
  deltas : st.activeCamDx = 0 ∧ st.activeCamDy = 0 ∧ st.activeCamDz = 0

-- What holds after a call.
def Repeatable (p : Plugin) : Act → Prop
  | .enable true host =>
      let after := pluginEnable true host p
      after.2 = some .ok → after.1.enabled = true → host.PortFree → after.1.Serving
  | .enable false host => (pluginEnable false host p).1.world.st.Clean
  | .event _ => True

-- A call that starts the server: the first one on this endpoint that gets as
-- far as init_asio, with the port free.
def Starts (p : Plugin) : Act → Prop
  | .enable true host =>
      p.enabled = false ∧ p.hasServer = true ∧ host.throws = false ∧ host.PortFree ∧
        p.srv.transport = .uninitialized
  | _ => False

-- And one that leaves it running.
def Stays (s : Endpoint) (p : Plugin) : Act → Prop
  | .enable enable _ => enable = true
  | .event e => (handle s e p.world.st).threw = false

-- A running thread belongs to a loop, a loop to a listening transport, and
-- the loop is gone when the plugin is off.
structure Plugin.Sound (p : Plugin) : Prop where
  running : p.world.running = true → p.loop = true
  loop : p.loop = true → p.srv.transport = .listening
  off : p.enabled = false → p.loop = false
  server : p.enabled = true → p.hasServer = true

namespace Plugin

variable {s : Endpoint} {p : Plugin} {host : Host}

theorem Sound.serving_iff (h : p.Sound) : p.Serving ↔ p.world.running = true :=
  ⟨fun hs => hs.2.2, fun hr => ⟨h.loop (h.running hr), h.running hr, hr⟩⟩

theorem Sound.enabled_of_serving (h : p.Sound) (hs : p.Serving) : p.enabled = true := by
  by_contra he
  have hloop := h.off (Bool.not_eq_true _ ▸ he)
  rw [hs.2.1] at hloop
  cases hloop

theorem start_flags (host : Host) (p : Plugin) :
    (p.start host).1.enabled = p.enabled ∧ (p.start host).1.hasServer = p.hasServer ∧
      (p.start host).2 = !host.throws := by
  unfold start
  simp only
  split
  · rename_i hthrow
    exact ⟨rfl, rfl, by simp [hthrow]⟩
  · rename_i hthrow
    have hreturn : true = !host.throws := by simp [hthrow]
    split
    · exact ⟨rfl, rfl, hreturn⟩
    · split
      · exact ⟨rfl, rfl, hreturn⟩
      · split
        · exact ⟨rfl, rfl, hreturn⟩
        · exact ⟨rfl, rfl, hreturn⟩

-- The second attempt makes up for the first.
theorem listen_or (v6 v4 : Bool) :
    ((⟨.ready, false⟩ : Srv).listen v6).or ((⟨.ready, false⟩ : Srv).listen v4) =
      if v6 = true ∨ v4 = true then some ⟨.listening, false⟩ else none := by
  cases v6 <;> cases v4 <;> rfl

-- A start from the beginning, or one that leaves the loop as it is.
theorem start_cases (host : Host) (p : Plugin) :
    (host.throws = false ∧ host.PortFree ∧ p.srv.transport = .uninitialized ∧
        (p.start host).1.Serving) ∨
      (¬(host.throws = false ∧ host.PortFree ∧ p.srv.transport = .uninitialized) ∧
        (p.start host).1.loop = p.loop ∧ (p.start host).1.world.running = p.world.running ∧
        (p.srv.transport = .listening → (p.start host).1.srv.transport = .listening)) := by
  unfold start Host.PortFree
  simp only
  by_cases hthrow : host.throws = true
  · rw [if_pos hthrow]
    exact Or.inr ⟨by simp [hthrow], rfl, rfl, id⟩
  · rw [if_neg hthrow]
    by_cases hinit : p.srv.transport = .uninitialized
    · have hasio : p.srv.initAsio = some ⟨.ready, false⟩ := if_pos hinit
      have hlistening : p.srv.transport ≠ .listening := by
        rw [hinit]
        decide
      rw [mapState, hasio]
      simp only [listen_or]
      by_cases hport : host.v6 = true ∨ host.v4 = true
      · rw [if_pos hport]
        simp only
        split
        · rename_i haccept
          exact Or.inl ⟨Bool.not_eq_true _ ▸ hthrow, ⟨hport, haccept⟩, hinit, rfl, rfl, rfl⟩
        · rename_i haccept
          exact Or.inr ⟨fun h => haccept h.2.1.2, rfl, rfl, fun h => absurd h hlistening⟩
      · rw [if_neg hport]
        exact Or.inr ⟨fun h => hport h.2.1.1, rfl, rfl, fun h => absurd h hlistening⟩
    · have hasio : p.srv.initAsio = none := if_neg hinit
      rw [mapState, hasio]
      exact Or.inr ⟨fun h => hinit h.2.2, rfl, rfl, id⟩

-- The calls, one by one.

theorem enable_again {enable : Bool} (h : enable = p.enabled) :
    pluginEnable enable host p = (p, some .ok) := if_pos h

theorem enable_without_server (he : p.enabled = false) (hs : p.hasServer = false) :
    pluginEnable true host p = (p, some .failure) := by
  unfold pluginEnable
  rw [if_neg (by simp [he]), if_pos rfl, if_neg (by simp [hs])]

-- What a call that is not the second one of its kind does to the server is up
-- to start, and it only fails to return when load_config throws.
theorem enable_starts (he : p.enabled = false) (hs : p.hasServer = true) (host : Host) :
    let started := ({ p with enabled := true, hooks := true }.start host).1
    let after := pluginEnable true host p
    after.1.enabled = true ∧ after.1.hasServer = true ∧ after.1.loop = started.loop ∧
      after.1.srv = started.srv ∧ after.1.world.running = started.world.running ∧
      (after.2 = some .ok ↔ host.throws = false) := by
  intro started after
  obtain ⟨hon, hserver, hreturn⟩ := start_flags host { p with enabled := true, hooks := true }
  have hafter : after = if host.throws = true then (started, none)
      else (started.mapState fun st =>
        { st with
          graphicsMode := st.game.init.useGraphics
          atlasVersion := (st.atlasVersion + host.atlasBuilds) % 16 }, some .ok) := by
    show pluginEnable true host p = _
    unfold pluginEnable
    simp only
    rw [if_neg (by simp [he]), if_pos trivial, if_pos hs, hreturn]
    cases host.throws with
    | false => rfl
    | true => rfl
  rw [hafter]
  split
  · rename_i hthrow
    exact ⟨hon, hserver.trans hs, rfl, rfl, rfl, by simp [hthrow]⟩
  · rename_i hthrow
    exact ⟨hon, hserver.trans hs, rfl, rfl, rfl, by simp [hthrow]⟩

-- The plugin with its flag and its hooks taken back.
def off (p : Plugin) : Plugin := { p with enabled := false, hooks := false }

theorem disable_stops (he : p.enabled = true) (host : Host) :
    (pluginEnable false host p).1 = if p.hasServer then p.off.stop.getD p.off else p.off := by
  unfold pluginEnable
  simp only
  rw [if_neg (by simp [he]), if_neg (by decide)]
  split
  · show (match p.off.stop with
      | none => (p.off, none)
      | some stopped => (stopped, some CommandResult.ok)).1 = _
    cases p.off.stop with
    | none => rfl
    | some stopped => rfl
  · rfl

theorem stop_state (p : Plugin) : (p.stop.getD p).world.st = p.world.st := by
  unfold stop
  split
  · rfl
  · rfl

-- Nothing of the session is touched.
theorem disable_state (host : Host) (p : Plugin) :
    (pluginEnable false host p).1.world.st = p.world.st := by
  cases he : p.enabled with
  | false => exact congrArg (fun r => r.1.world.st) (enable_again he.symm)
  | true =>
      rw [disable_stops he]
      split
      · exact stop_state p.off
      · rfl

theorem Sound.not_running (h : p.Sound) (he : p.enabled = false) : p.world.running = false := by
  by_contra hr
  have hloop := h.running (Bool.not_eq_false _ ▸ hr)
  exact absurd (hloop.symm.trans (h.off he)) (by decide)

theorem Sound.disable (h : p.Sound) (host : Host) : (pluginEnable false host p).1.Sound := by
  cases he : p.enabled with
  | false =>
      rw [enable_again he.symm]
      exact h
  | true =>
      rw [disable_stops he, if_pos (h.server he)]
      unfold stop
      by_cases hinit : p.off.srv.transport = .uninitialized
      · -- Nothing to stop: no loop either.
        have hnone : p.srv.transport = .uninitialized := hinit
        have hloop : p.loop = false := by
          by_contra hl
          have hlisten := h.loop (Bool.not_eq_false _ ▸ hl)
          rw [hnone] at hlisten
          cases hlisten
        rw [if_pos hinit]
        exact ⟨h.running, h.loop, fun _ => hloop, fun hon => absurd hon Bool.false_ne_true⟩
      · rw [if_neg hinit]
        refine ⟨fun hr => ?_, fun hl => absurd hl Bool.false_ne_true, fun _ => rfl,
          fun hon => absurd hon Bool.false_ne_true⟩
        have hrun : (p.world.running && !p.loop) = true := hr
        rw [Bool.and_eq_true, Bool.not_eq_true'] at hrun
        exact absurd ((h.running hrun.1).symm.trans hrun.2) (by decide)

theorem disable_enabled (host : Host) (p : Plugin) :
    (pluginEnable false host p).1.enabled = false := by
  cases he : p.enabled with
  | false =>
      rw [enable_again he.symm]
      exact he
  | true =>
      rw [disable_stops he]
      split
      · unfold stop
        split
        · rfl
        · rfl
      · rfl

theorem Sound.enable (h : p.Sound) (host : Host) : (pluginEnable true host p).1.Sound := by
  cases he : p.enabled with
  | true =>
      rw [enable_again he.symm]
      exact h
  | false =>
      cases hs : p.hasServer with
      | false =>
          rw [enable_without_server he hs]
          exact h
      | true =>
          obtain ⟨hon, hserver, hloop, hsrv, hrunning, -⟩ := enable_starts he hs host
          rcases start_cases host { p with enabled := true, hooks := true } with
            ⟨-, -, -, hserving⟩ | ⟨-, hl, hr, -⟩
          · exact ⟨fun _ => hloop.trans hserving.2.1, fun _ => hsrv ▸ hserving.1,
              fun hoff => absurd (hon.symm.trans hoff) (by decide), fun _ => hserver⟩
          · have hstill : (pluginEnable true host p).1.loop = false :=
              (hloop.trans hl).trans (h.off he)
            refine ⟨fun hrun => ?_, fun hlp => ?_, fun _ => hstill, fun _ => hserver⟩
            · have : p.world.running = true := (hrunning.trans hr).symm.trans hrun
              rw [h.not_running he] at this
              cases this
            · exact absurd (hstill.symm.trans hlp) (by decide)

-- After a call the server runs when it did before, or when the call starts it.
theorem Sound.enable_serving (h : p.Sound) (host : Host) :
    (pluginEnable true host p).1.Serving ↔ Starts p (.enable true host) ∨ p.Serving := by
  cases he : p.enabled with
  | true =>
      have hstarts : ¬Starts p (.enable true host) := fun hst => by
        have := he.symm.trans hst.1
        cases this
      rw [enable_again he.symm, or_iff_right hstarts]
  | false =>
      have hidle : ¬p.Serving := fun hserving => by
        have := (h.enabled_of_serving hserving).symm.trans he
        cases this
      rw [or_iff_left hidle]
      cases hs : p.hasServer with
      | false =>
          rw [enable_without_server he hs]
          refine iff_of_false hidle fun hst => ?_
          have := hs.symm.trans hst.2.1
          cases this
      | true =>
          obtain ⟨-, -, hloop, hsrv, hrunning, -⟩ := enable_starts he hs host
          unfold Serving
          rw [hloop, hsrv, hrunning]
          rcases start_cases host { p with enabled := true, hooks := true } with
            ⟨hthrow, hport, hinit, hserving⟩ | ⟨hno, -, hr, -⟩
          · exact iff_of_true hserving ⟨he, hs, hthrow, hport, hinit⟩
          · refine iff_of_false (fun hserving => ?_) fun hst => hno ⟨hst.2.2.1, hst.2.2.2⟩
            have := (hr.symm.trans hserving.2.2).symm.trans (h.not_running he)
            cases this

end Plugin

section Runs

variable {s : Endpoint}

theorem handle_sound {p : Plugin} (h : p.Sound) (e : Event) : (p.handle s e).Sound := by
  have hstill : ∀ e', (next s p.world e').running = true → p.loop = true := fun e' hr =>
    h.running (Bool.and_eq_true _ _ ▸ hr).1
  cases e with
  | update g df => exact ⟨hstill _, h.loop, h.off, h.server⟩
  | opened hdl => exact ⟨hstill (.opened hdl), h.loop, h.off, h.server⟩
  | message hdl payload => exact ⟨hstill (.message hdl payload), h.loop, h.off, h.server⟩
  | closed hdl => exact ⟨hstill (.closed hdl), h.loop, h.off, h.server⟩
  | game g => exact ⟨hstill (.game g), h.loop, h.off, h.server⟩

-- An exception ends the loop, and nothing else that happens does.
theorem handle_serving {p : Plugin} (h : p.Sound) (e : Event) :
    (p.handle s e).Serving ↔ p.Serving ∧ (handle s e p.world.st).threw = false := by
  rw [(handle_sound h e).serving_iff, h.serving_iff]
  have hnext : ∀ e', (next s p.world e').running = true ↔
      p.world.running = true ∧ (handle s e' p.world.st).threw = false := fun e' => by
    show (p.world.running && !(handle s e' p.world.st).threw) = true ↔ _
    rw [Bool.and_eq_true, Bool.not_eq_true']
  cases e with
  | update g df =>
      show (next s p.world (if p.enabled then .update g df else .game g)).running = true ↔ _
      cases he : p.enabled with
      | true => exact hnext (.update g df)
      | false =>
          have hidle : p.world.running ≠ true := by simp [h.not_running he]
          rw [hnext]
          exact iff_of_false (fun hr => hidle hr.1) fun hr => hidle hr.1
  | opened hdl => exact hnext (.opened hdl)
  | message hdl payload => exact hnext (.message hdl payload)
  | closed hdl => exact hnext (.closed hdl)
  | game g => exact hnext (.game g)

theorem act_sound {p : Plugin} (h : p.Sound) (a : Act) : (act s p a).Sound := by
  cases a with
  | enable enable host =>
      cases enable with
      | true => exact h.enable host
      | false => exact h.disable host
  | event e => exact handle_sound h e

theorem act_serving {p : Plugin} (h : p.Sound) (a : Act) :
    (act s p a).Serving ↔ Starts p a ∨ p.Serving ∧ Stays s p a := by
  cases a with
  | enable enable host =>
      cases enable with
      | true =>
          refine (h.enable_serving host).trans (or_congr_right ?_)
          exact (and_iff_left rfl).symm
      | false =>
          refine iff_of_false (fun hserving => ?_) ?_
          · have hon := (h.disable host).enabled_of_serving hserving
            have := (Plugin.disable_enabled host p).symm.trans hon
            cases this
          · rintro (hst | ⟨-, hst⟩)
            · exact hst
            · cases hst
  | event e =>
      refine (handle_serving h e).trans (or_iff_right ?_).symm
      exact not_false

-- The server runs exactly since a start that went well and has not been
-- undone.
theorem serving_iff_since (p : Plugin) (h : p.Sound) (hidle : ¬p.Serving) (acts : List Act)
    (hv : (lifecycle s).Valid p acts) :
    let after := (lifecycle s).exec p acts
    after.Sound ∧ (after.Serving ↔ (lifecycle s).Since Starts (Stays s) p acts) := by
  intro after
  refine Machine.history_invariant
    (fun acts q => q.Sound ∧ (q.Serving ↔ (lifecycle s).Since Starts (Stays s) p acts))
    ⟨h, iff_of_false hidle Machine.not_since_nil⟩ (fun acts a hacts _ _ => ?_) acts hv
  refine ⟨act_sound hacts.1 a, ?_⟩
  rw [Machine.since_concat_iff, ← hacts.2]
  exact act_serving hacts.1 a

end Runs

theorem Plugin.init_sound (hasServer : Bool) (config : Config) (g : Game) :
    (Plugin.init hasServer config g).Sound where
  running h := absurd h Bool.false_ne_true
  loop h := absurd h Bool.false_ne_true
  off _ := rfl
  server h := absurd h Bool.false_ne_true

-- When the call that comes after the given ones does what it should: it
-- starts the server for the first time, or finds it running since its start,
-- or ends a session that has ended itself.
def RunsOnce (s : Endpoint) (start : Plugin) (acts : List Act) : Act → Prop
  | .enable true host =>
      let p := (lifecycle s).exec start acts
      p.hasServer = true → host.PortFree →
        if p.enabled then (lifecycle s).Since Starts (Stays s) start acts
        else host.throws = false → p.srv.transport = .uninitialized
  | .enable false _ => ((lifecycle s).exec start acts).world.st.Clean
  | .event _ => True

-- At every point of every history.
theorem repeatable_iff (s : Endpoint) (hasServer : Bool) (config : Config) (g : Game)
    (acts : List Act) (a : Act)
    (hv : (lifecycle s).Valid (Plugin.init hasServer config g) acts) :
    Repeatable ((lifecycle s).exec (Plugin.init hasServer config g) acts) a ↔
      RunsOnce s (Plugin.init hasServer config g) acts a := by
  have hidle : ¬(Plugin.init hasServer config g).Serving := fun h =>
    absurd h.2.1 Bool.false_ne_true
  obtain ⟨hsound, hsince⟩ := serving_iff_since (Plugin.init hasServer config g)
    (Plugin.init_sound hasServer config g) hidle acts hv
  cases a with
  | event e => exact Iff.rfl
  | enable enable host =>
      unfold Repeatable RunsOnce
      cases enable with
      | false =>
          simp only
          rw [Plugin.disable_state]
      | true =>
          simp only
          rw [← hsince]
          generalize (lifecycle s).exec (Plugin.init hasServer config g) acts = p at hsound
          cases he : p.enabled with
          | true =>
              rw [Plugin.enable_again he.symm, if_pos rfl]
              exact ⟨fun h _ => h rfl he, fun h _ _ => h (hsound.server he)⟩
          | false =>
              cases hs : p.hasServer with
              | false =>
                  rw [Plugin.enable_without_server he hs]
                  exact iff_of_true (fun h => by cases h) (fun h => by cases h)
              | true =>
                  obtain ⟨hon, -, -, -, -, hok⟩ := Plugin.enable_starts he hs host
                  rw [hok, hsound.enable_serving host, if_neg Bool.false_ne_true]
                  have hnot : ¬p.Serving := fun h => by
                    have := (hsound.enabled_of_serving h).symm.trans he
                    cases this
                  rw [or_iff_left hnot]
                  constructor
                  · intro h _ hport hthrow
                    exact (h hthrow hon hport).2.2.2.2
                  · intro h hthrow _ hport
                    exact ⟨he, hs, hthrow, hport, h rfl hport hthrow⟩

namespace Sample

-- A machine on which the port of the configuration can be bound.
def host : Host := ⟨config, false, true, true, true, 1⟩

def on : Act := .enable true host

def off : Act := .enable false host

-- The plugin is enabled, and a client comes and goes.
def session : List Act := [on, .event (.opened 0), .event (.closed 0)]

theorem session_valid : (lifecycle endpoint).Valid (Plugin.init true config (game 64)) session :=
  ⟨trivial, ⟨rfl, rfl⟩, ⟨rfl, Or.inl rfl⟩, trivial⟩

theorem cycle_valid :
    (lifecycle endpoint).Valid (Plugin.init true config (game 64)) (session ++ [off]) :=
  ⟨trivial, ⟨rfl, rfl⟩, ⟨rfl, Or.inl rfl⟩, trivial, trivial⟩

theorem session_clean :
    ((lifecycle endpoint).exec (Plugin.init true config (game 64)) session).world.st.Clean :=
  ⟨fun _ => rfl, rfl, rfl, rfl, rfl, rfl, rfl⟩

theorem session_since : (lifecycle endpoint).Since Starts (Stays endpoint)
    (Plugin.init true config (game 64)) session :=
  ⟨[], on, [.event (.opened 0), .event (.closed 0)], rfl,
    ⟨rfl, rfl, rfl, ⟨Or.inl rfl, rfl⟩, rfl⟩, rfl, rfl, trivial⟩

end Sample

-- The first start works, while the client is there the server is running, and
-- a session that has ended by itself leaves nothing behind; but the start
-- after it does not work.
theorem repeatable_iff_sample :
    let run := (lifecycle Sample.endpoint).exec (Plugin.init true Sample.config (Sample.game 64))
    Repeatable (run []) Sample.on ∧ Repeatable (run Sample.session) Sample.on ∧
      Repeatable (run Sample.session) Sample.off ∧
      ¬Repeatable (run (Sample.session ++ [Sample.off])) Sample.on := by
  intro run
  have hsession := fun a => repeatable_iff Sample.endpoint true Sample.config (Sample.game 64)
    Sample.session a Sample.session_valid
  have hcycle := repeatable_iff Sample.endpoint true Sample.config (Sample.game 64)
    (Sample.session ++ [Sample.off]) Sample.on Sample.cycle_valid
  refine ⟨?_, (hsession _).mpr fun _ _ => ?_, (hsession _).mpr Sample.session_clean, ?_⟩
  · exact (repeatable_iff Sample.endpoint true Sample.config (Sample.game 64) [] Sample.on
      trivial).mpr fun _ _ _ => rfl
  · have henabled : (run Sample.session).enabled = true := rfl
    rw [if_pos henabled]
    exact Sample.session_since
  · intro h
    have hfresh : (run (Sample.session ++ [Sample.off])).srv.transport = .uninitialized :=
      hcycle.mp h rfl ⟨Or.inl rfl, rfl⟩ rfl
    exact absurd hfresh (by decide)

-- The second one does not, and says so nowhere; and who is connected when the
-- plugin is disabled stays registered.
theorem second_enable_is_deaf :
    let start := Plugin.init true Sample.config (Sample.game 64)
    let on := Act.enable true Sample.host
    let again := (lifecycle Sample.endpoint).exec start [on, .enable false Sample.host]
    let occupied := (lifecycle Sample.endpoint).exec start [on, .event (.opened 0)]
    ¬Repeatable again on ∧
      (lifecycle Sample.endpoint).Valid start [on, .event (.opened 0)] ∧
      ¬Repeatable occupied (.enable false Sample.host) := by
  intro start on again occupied
  refine ⟨?_, ⟨trivial, ⟨rfl, rfl⟩, trivial⟩, ?_⟩
  · intro h
    have hserving : (pluginEnable true Sample.host again).1.Serving :=
      h rfl rfl ⟨Or.inl rfl, rfl⟩
    exact absurd hserving.2.1 Bool.false_ne_true
  · intro h
    have hgone : (((pluginEnable false Sample.host occupied).1.world.st.clients.find? 0).isSome) =
        false := by
      rw [h.clients 0]
      rfl
    exact absurd hgone (by decide)

end WebFort
