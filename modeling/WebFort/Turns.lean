import WebFort.System.Lemmas
import WebFort.Sample

namespace WebFort

open Library

-- The turn is over: a limit is set, somebody waits, and the clock has run out.
def TurnOver (st : State) : Prop :=
  st.config.turntime ≠ 0 ∧ 2 ≤ st.clients.size ∧
    st.config.turntime ≤ int32 (roundTimer st - st.getActive.atime)

theorem getTimeLeft_snd (st : State) :
    (getTimeLeft st).2 = true ↔ st.activeConn ≠ none ∧ TurnOver st := by
  unfold getTimeLeft TurnOver
  simp only
  split
  · rename_i hc
    obtain ⟨ht, ha, hsize⟩ := hc
    split
    · rename_i hplayed
      simp only [Bool.false_eq_true, false_iff]
      exact fun h => absurd h.2.2.2 (by omega)
    · rename_i hplayed
      simp only [true_iff]
      exact ⟨ha, ht, hsize, by omega⟩
  · rename_i hc
    simp only [Bool.false_eq_true, false_iff]
    exact fun h => hc ⟨h.2.1, h.1, h.2.2.1⟩

theorem getTimeLeft_idleTimer (st : State) : getTimeLeft (idleTimer st).state = getTimeLeft st := by
  obtain ⟨b, h⟩ := idleTimer_state st
  rw [h]
  rfl

theorem turnPart_activeConn (st : State) :
    (turnPart st).activeConn = if (getTimeLeft st).2 then none else st.activeConn := by
  unfold turnPart expireTurn
  rw [getTimeLeft_idleTimer]
  split
  · exact setActive_activeConn none _
  · obtain ⟨b, h⟩ := idleTimer_state st
    rw [h]
    rfl

theorem tock_activeConn (s : Endpoint) (hdl : Handle) (st : State) :
    (tock s hdl st).state.activeConn = if (getTimeLeft st).2 then none else st.activeConn := by
  rw [tock_state]
  exact turnPart_activeConn st

theorem requestTurn_activeConn (hdl : Handle) (st : State) :
    (requestTurn hdl st).state.activeConn =
      if st.activeConn = some hdl then none
      else if st.activeConn = none then some hdl else st.activeConn := by
  unfold requestTurn
  split
  · exact setActive_activeConn none st
  · split
    · exact setActive_activeConn (some hdl) st
    · rfl

theorem keyEvent_activeConn (hdl : Handle) (jsKey charCode jsmods : UInt8) (st : State) :
    (keyEvent hdl jsKey charCode jsmods st).activeConn = st.activeConn := by
  obtain ⟨evs, h⟩ := keyEvent_state hdl st jsKey charCode jsmods
  rw [h]
  rfl

theorem mouseEvent_activeConn (hdl : Handle) (ev : WFMouseEvent) (st : State) :
    (mouseEvent hdl ev st).activeConn = st.activeConn := by
  obtain ⟨evs, h⟩ := mouseEvent_state hdl st ev
  rw [h]

theorem cursorMove_activeConn (hdl : Handle) (x y : UInt8) (st : State) :
    (cursorMove hdl x y st).activeConn = st.activeConn := by
  obtain ⟨f, -, h⟩ := cursorMove_state hdl st x y
  rw [h]
  rfl

theorem camMove_activeConn (hdl : Handle) (dx dy dz : UInt8) (st : State) :
    (camMove hdl dx dy dz st).activeConn = st.activeConn := by
  rcases camMove_state hdl st dx dy dz with ⟨x, y, z, h⟩ | h
  · rw [h]
  · rw [h]
    rfl

-- Two kinds of message move the turn.
theorem onMessage_activeConn (s : Endpoint) (hdl : Handle) (payload : Bytes) (st : State) :
    (onMessage s hdl payload st).state.activeConn = match parseMessage payload with
      | .requestTurn => if st.activeConn = some hdl then none
          else if st.activeConn = none then some hdl else st.activeConn
      | .update => if (getTimeLeft st).2 then none else st.activeConn
      | _ => st.activeConn := by
  unfold onMessage
  cases parseMessage payload with
  | keyEvent jsKey charCode jsmods => exact keyEvent_activeConn hdl jsKey charCode jsmods st
  | mouseEvent ev => exact mouseEvent_activeConn hdl ev st
  | cursorMove x y => exact cursorMove_activeConn hdl x y st
  | refreshScreen => rfl
  | camMove dx dy dz => exact camMove_activeConn hdl dx dy dz st
  | requestTurn => exact requestTurn_activeConn hdl st
  | update => exact tock_activeConn s hdl st

theorem onOpen_activeConn (s : Endpoint) (hdl : Handle) (st : State) :
    (onOpen s hdl st).state.activeConn = st.activeConn := by
  rcases onOpen_state s hdl st with h | h
  · rw [h]
  · rw [h]
    rfl

theorem onClose_activeConn {hdl : Handle} {cl : Client} {st : State}
    (hcl : st.clients.find? hdl = some cl) :
    (onClose hdl st).state.activeConn =
      if st.activeConn = some hdl then none else st.activeConn := by
  rw [onClose_registered hcl]
  exact releaseTurn_activeConn hdl st

-- The turn is held by a client, and the object of a client is live as long as
-- its entry.
structure Registry (st : State) : Prop where
  active : ∀ hdl, st.activeConn = some hdl → ∃ cl, st.clients.find? hdl = some cl
  live : ∀ hdl cl, st.clients.find? hdl = some cl → cl.id < st.nextId ∧ cl.id ∉ st.freed
  distinct : ∀ hdl hdl' cl cl', st.clients.find? hdl = some cl →
    st.clients.find? hdl' = some cl' → cl.id = cl'.id → hdl = hdl'
  freed : ∀ i ∈ st.freed, i < st.nextId
  size : st.clients.size ≤ st.config.maxClients

namespace Registry

variable {st st' : State}

theorem init (config : Config) (g : Game) : Registry (State.init config g) where
  active _ h := by simp [State.init] at h
  live _ _ h := by simp [State.init] at h
  distinct _ _ _ _ h := by simp [State.init] at h
  freed _ h := by simp [State.init] at h
  size := Nat.zero_le _

-- Steps that neither register nor remove a client.
theorem same (hst : Registry st) (hr : SameRegistry st st')
    (ha : ∀ hdl, st'.activeConn = some hdl → ∃ cl, st.clients.find? hdl = some cl) :
    Registry st' where
  active hdl h := by
    obtain ⟨cl, hcl⟩ := ha hdl h
    obtain ⟨cl', hcl', -⟩ := hr.find? hcl
    exact ⟨cl', hcl'⟩
  live hdl cl h := by
    obtain ⟨cl₀, hcl₀, hs⟩ := hr.find?_back h
    rw [hs.id, hr.nextId, hr.freed]
    exact hst.live hdl cl₀ hcl₀
  distinct hdl hdl' cl cl' h h' he := by
    obtain ⟨cl₀, hcl₀, hs⟩ := hr.find?_back h
    obtain ⟨cl₁, hcl₁, hs'⟩ := hr.find?_back h'
    exact hst.distinct hdl hdl' cl₀ cl₁ hcl₀ hcl₁ (by rw [← hs.id, ← hs'.id, he])
  freed i hi := by
    rw [hr.nextId]
    exact hst.freed i (hr.freed ▸ hi)
  size := by
    rw [hr.size, hr.config]
    exact hst.size

theorem register_find? (s : Endpoint) (hdl j : Handle) (st : State) :
    (register s hdl st).clients.find? j =
      if j = hdl then some (openClient s hdl st) else st.clients.find? j :=
  OrdMap.find?_insert _ _ _ _

-- A new entry has an address nobody had before.
theorem register (hst : Registry st) (s : Endpoint) (hdl : Handle)
    (hlt : st.clients.size < st.config.maxClients) : Registry (register s hdl st) where
  active j hj := by
    obtain ⟨cl, hcl⟩ := hst.active j hj
    rw [register_find?]
    split
    · exact ⟨_, rfl⟩
    · exact ⟨cl, hcl⟩
  live j cl h := by
    rw [register_find?] at h
    split at h
    · obtain rfl := Option.some.inj h
      exact ⟨Nat.lt_succ_self _, fun hi => absurd (hst.freed _ hi) (Nat.lt_irrefl _)⟩
    · obtain ⟨hid, hfreed⟩ := hst.live j cl h
      exact ⟨Nat.lt_succ_of_lt hid, hfreed⟩
  distinct j j' cl cl' h h' he := by
    have hold : ∀ j cl, st.clients.find? j = some cl → cl.id ≠ (openClient s hdl st).id :=
      fun j cl h => Nat.ne_of_lt (hst.live j cl h).1
    rw [register_find?] at h h'
    split at h
    · split at h'
      · rename_i hj hj'
        exact hj.trans hj'.symm
      · obtain rfl := Option.some.inj h
        exact absurd he.symm (hold j' cl' h')
    · split at h'
      · obtain rfl := Option.some.inj h'
        exact absurd he (hold j cl h)
      · exact hst.distinct j j' cl cl' h h' he
  freed i hi := Nat.lt_succ_of_lt (hst.freed i hi)
  size := (OrdMap.size_insert_le _ _ _).trans hlt

theorem erase_find? (hdl j : Handle) (st : State) :
    (eraseClient hdl st).clients.find? j = if j = hdl then none else st.clients.find? j :=
  OrdMap.find?_erase _ _ _

-- The entry goes together with its object.
theorem erase (hst : Registry st) {hdl : Handle} {gone cl : Client}
    (hcl : st.clients.find? hdl = some cl) (hid : cl.id = gone.id)
    (hact : st.activeConn ≠ some hdl) : Registry (eraseClient hdl (deleteClient gone st)) where
  active j hj := by
    obtain ⟨cl', hcl'⟩ := hst.active j hj
    have hne : j ≠ hdl := fun h => hact (h ▸ hj)
    exact ⟨cl', (erase_find? _ _ _).trans ((if_neg hne).trans hcl')⟩
  live j cl' h := by
    rw [erase_find?] at h
    split at h
    · cases h
    · rename_i hj
      obtain ⟨hlt, hnot⟩ := hst.live j cl' h
      refine ⟨hlt, fun hi => ?_⟩
      rcases List.mem_cons.mp hi with he | hi
      · exact hj (hst.distinct j hdl cl' cl h hcl (he.trans hid.symm))
      · exact hnot hi
  distinct j j' cl₀ cl₁ h h' he := by
    rw [erase_find?] at h h'
    split at h
    · cases h
    · split at h'
      · cases h'
      · exact hst.distinct j j' cl₀ cl₁ h h' he
  freed i hi := by
    rcases List.mem_cons.mp hi with rfl | hi
    · exact hid ▸ (hst.live hdl cl hcl).1
    · exact hst.freed i hi
  size := (OrdMap.size_erase_le _ _).trans hst.size

-- Erasing a key that is not there changes nothing.
theorem erase_absent (hst : Registry st) {hdl : Handle} (hcl : st.clients.find? hdl = none) :
    Registry (eraseClient hdl st) := by
  have hsame : st.clients.erase hdl = st.clients := by
    refine OrdMap.ext_find? fun j => (erase_find? hdl j st).trans ?_
    split
    · rename_i hj
      rw [hj, hcl]
    · rfl
  have heq : eraseClient hdl st = st := by
    unfold eraseClient
    rw [hsame]
  rw [heq]
  exact hst

end Registry

-- A client is in the map exactly from its on_open to its on_close.
structure Registered (w : World) : Prop where
  registry : Registry w.st
  phase : ∀ hdl, w.phase hdl = .opened ↔ ∃ cl, w.st.clients.find? hdl = some cl

-- A refusal says so by closing the connection; an admission does not.
theorem onOpen_cases (s : Endpoint) (hdl : Handle) (st : State) :
    ((onOpen s hdl st).state = st ∧ closes hdl (onOpen s hdl st).out = true) ∨
      ((onOpen s hdl st).state = register s hdl st ∧ closes hdl (onOpen s hdl st).out = false ∧
        st.clients.size < st.config.maxClients) := by
  rcases onOpen_inv s hdl st with ⟨-, code, reason, h⟩ | ⟨⟨-, hroom, -⟩, h⟩
  · left
    rw [h]
    exact ⟨rfl, by simp [closes]⟩
  · right
    rw [h]
    exact ⟨sendMapInfo_state s hdl _, sendMapInfo_closes s hdl _, hroom⟩

namespace Registered

variable {s : Endpoint} {w : World}

theorem init (config : Config) (g : Game) : Registered (World.init config g) where
  registry := Registry.init config g
  phase _ := by simp [World.init, State.init]

theorem same {w' : World} (hw : Registered w) (hr : SameRegistry w.st w'.st)
    (hp : w'.phase = w.phase)
    (ha : ∀ hdl, w'.st.activeConn = some hdl → ∃ cl, w.st.clients.find? hdl = some cl) :
    Registered w' where
  registry := hw.registry.same hr ha
  phase hdl := by
    rw [hp, hw.phase hdl]
    constructor
    · rintro ⟨cl, hcl⟩
      obtain ⟨cl', hcl', -⟩ := hr.find? hcl
      exact ⟨cl', hcl'⟩
    · rintro ⟨cl, hcl⟩
      obtain ⟨cl', hcl', -⟩ := hr.find?_back hcl
      exact ⟨cl', hcl'⟩

theorem opened (hw : Registered w) {hdl : Handle} (hf : w.phase hdl = .fresh) :
    Registered (next s w (.opened hdl)) := by
  rcases onOpen_cases s hdl w.st with ⟨hst, hclose⟩ | ⟨hst, hclose, hlt⟩
  · have hst' : (next s w (.opened hdl)).st = w.st := hst
    have hph : (next s w (.opened hdl)).phase = Function.update w.phase hdl .refused := by
      simp only [next, nextPhase, handle, hclose, if_true]
    refine ⟨hst' ▸ hw.registry, fun j => ?_⟩
    rw [hph, hst', ← hw.phase j]
    by_cases hj : j = hdl
    · subst hj
      simp [hf]
    · rw [Function.update_of_ne hj]
  · have hst' : (next s w (.opened hdl)).st = register s hdl w.st := hst
    have hph : (next s w (.opened hdl)).phase = Function.update w.phase hdl .opened := by
      simp only [next, nextPhase, handle, hclose, Bool.false_eq_true, if_false]
    refine ⟨hst' ▸ hw.registry.register s hdl hlt, fun j => ?_⟩
    rw [hph, hst', Registry.register_find?]
    by_cases hj : j = hdl
    · subst hj
      simp
    · rw [Function.update_of_ne hj, if_neg hj]
      exact hw.phase j

theorem closed (hw : Registered w) (hdl : Handle) : Registered (next s w (.closed hdl)) := by
  have hph : (next s w (.closed hdl)).phase = Function.update w.phase hdl .closed := rfl
  have hphase : ∀ st' : State, (∀ j, (∃ cl, st'.clients.find? j = some cl) ↔
      ∃ cl, w.st.clients.find? j = some cl) → ∀ j, Function.update w.phase hdl .closed j = .opened ↔
        ∃ cl, (eraseClient hdl st').clients.find? j = some cl := by
    intro st' hsame j
    rw [Registry.erase_find?]
    by_cases hj : j = hdl
    · subst hj
      simp
    · rw [Function.update_of_ne hj, if_neg hj, hsame j]
      exact hw.phase j
  cases hcl : w.st.clients.find? hdl with
  | none =>
      have hst' : (next s w (.closed hdl)).st = eraseClient hdl w.st :=
        congrArg Outcome.state (onClose_absent hcl)
      refine ⟨hst' ▸ hw.registry.erase_absent hcl, ?_⟩
      rw [hph, hst']
      exact hphase w.st fun j => Iff.rfl
  | some gone =>
      have hst' : (next s w (.closed hdl)).st =
          eraseClient hdl (deleteClient gone (releaseTurn hdl w.st)) :=
        congrArg Outcome.state (onClose_registered hcl)
      have hr := (releaseTurn_kept hdl w.st).registry
      have hact := releaseTurn_activeConn hdl w.st
      obtain ⟨cl, hcl', hs⟩ := hr.find? hcl
      have hrel : Registry (releaseTurn hdl w.st) := hw.registry.same hr fun j hj => by
        rw [hact] at hj
        split at hj
        · cases hj
        · exact hw.registry.active j hj
      have hnot : (releaseTurn hdl w.st).activeConn ≠ some hdl := by
        rw [hact]
        split
        · simp
        · assumption
      refine ⟨hst' ▸ hrel.erase hcl' hs.id hnot, ?_⟩
      rw [hph, hst']
      refine hphase _ fun j => ⟨?_, ?_⟩
      · rintro ⟨cl, h⟩
        obtain ⟨cl₀, hcl₀, -⟩ := hr.find?_back (j := j) h
        exact ⟨cl₀, hcl₀⟩
      · rintro ⟨cl, h⟩
        obtain ⟨cl', hcl', -⟩ := hr.find? h
        exact ⟨cl', hcl'⟩

theorem step (hw : Registered w) {e : Event} (hen : enabled w e) : Registered (next s w e) := by
  cases e with
  | opened hdl => exact hw.opened hen.2
  | closed hdl => exact hw.closed hdl
  | message hdl payload =>
      refine hw.same (onMessage_kept s hdl payload w.st).registry rfl fun j hj => ?_
      have hact := (onMessage_activeConn s hdl payload w.st).symm.trans hj
      have hsender : ∃ cl, w.st.clients.find? hdl = some cl := (hw.phase hdl).mp hen.2
      split at hact
      · split at hact
        · cases hact
        · split at hact
          · exact Option.some.inj hact ▸ hsender
          · exact hw.registry.active j hact
      · split at hact
        · cases hact
        · exact hw.registry.active j hact
      · exact hw.registry.active j hact
  | game g => exact hw.same { SameRegistry.refl w.st with } rfl hw.registry.active
  | update g df =>
      have hu := pluginOnupdate_unticked df (w.st.atGame g)
      refine hw.same { hu.registry with } rfl fun j hj => hw.registry.active j ?_
      exact hu.activeConn.symm.trans hj

-- The phase of a connection that has not been opened yet keeps it out.
theorem absent (hw : Registered w) {hdl : Handle} (hen : enabled w (.opened hdl)) :
    w.st.clients.find? hdl = none := by
  rw [Option.eq_none_iff_forall_not_mem]
  intro cl hcl
  exact absurd (hen.2.symm.trans ((hw.phase hdl).mpr ⟨cl, hcl⟩)) (by decide)

theorem run (hw : Registered w) {es : List Event} (hv : (server s).Valid w es) :
    Registered ((server s).exec w es) :=
  (server s).exec_invariant Registered (fun _ _ hw hen => hw.step hen) w es hw hv

end Registered

-- The setting a run was started with is the one it ends with.
theorem config_of_run {s : Endpoint} {w : World} {es : List Event} :
    ((server s).exec w es).st.config = w.st.config := by
  induction es generalizing w with
  | nil => rfl
  | cons e es ih =>
      exact (ih (w := next s w e)).trans (handle_config s e w.st)

theorem next_opened_refused {s : Endpoint} {w : World} {hdl : Handle}
    (hclose : closes hdl (handle s (.opened hdl) w.st).out = true) :
    (next s w (.opened hdl)).phase hdl = .refused := by
  simp only [next, nextPhase, hclose, if_true, Function.update_self]

-- A refused connection stays refused until it is closed.
theorem refused_of_run {s : Endpoint} {w : World} {es : List Event} {hdl : Handle}
    (hr : w.phase hdl = .refused ∨ w.phase hdl = .closed) (hv : (server s).Valid w es) :
    ((server s).exec w es).phase hdl = .refused ∨ ((server s).exec w es).phase hdl = .closed := by
  refine (server s).exec_invariant (fun w => w.phase hdl = .refused ∨ w.phase hdl = .closed)
    (fun w e hw hen => ?_) w es hr hv
  cases e with
  | opened j =>
      have hj : hdl ≠ j := by
        rintro rfl
        rcases hw with h | h
        · exact absurd (h.symm.trans hen.2) (by decide)
        · exact absurd (h.symm.trans hen.2) (by decide)
      simp only [server, next, nextPhase, Function.update_of_ne hj]
      exact hw
  | closed j =>
      by_cases hj : hdl = j
      · subst hj
        exact Or.inr (Function.update_self _ _ _)
      · simp only [server, next, nextPhase, Function.update_of_ne hj]
        exact hw
  | message _ _ => exact hw
  | game _ => exact hw
  | update _ _ => exact hw

-- From nobody the turn goes to the sender of a requestTurn.
theorem next_takes_turn {s : Endpoint} {w : World} {e : Event} {c : Handle}
    (hnone : w.st.activeConn = none) (hc : (next s w e).st.activeConn = some c) :
    ∃ payload, e = .message c payload ∧ parseMessage payload = .requestTurn := by
  cases e with
  | opened hdl =>
      have hsame := onOpen_activeConn s hdl w.st
      exact absurd ((hsame.trans hnone).symm.trans hc) (by simp)
  | message hdl payload =>
      have hact := (onMessage_activeConn s hdl payload w.st).symm.trans hc
      split at hact
      · rename_i hp
        rw [hnone] at hact
        simp only [reduceCtorEq, if_false, if_true, Option.some.injEq] at hact
        exact ⟨payload, by rw [hact], hp⟩
      · rw [hnone, ite_self] at hact
        cases hact
      · rw [hnone] at hact
        cases hact
  | closed hdl =>
      have hact : (next s w (.closed hdl)).st.activeConn = none := by
        cases hcl : w.st.clients.find? hdl with
        | none => exact (congrArg (fun r => r.state.activeConn) (onClose_absent hcl)).trans hnone
        | some cl =>
            refine (onClose_activeConn hcl).trans ?_
            rw [hnone, ite_self]
      exact absurd (hact.symm.trans hc) (by simp)
  | game g => exact absurd (hnone.symm.trans hc) (by simp)
  | update g df =>
      have hsame := (pluginOnupdate_unticked df (w.st.atGame g)).activeConn
      exact absurd ((hsame.trans hnone).symm.trans hc) (by simp)

-- From a client it goes back to nobody, on that client's word, when it
-- leaves, or when its time is up.
theorem next_leaves_turn {s : Endpoint} {w : World} {e : Event} {c : Handle}
    (hw : Registered w) (hc : w.st.activeConn = some c)
    (hne : (next s w e).st.activeConn ≠ some c) :
    (next s w e).st.activeConn = none ∧
      ((∃ payload, e = .message c payload ∧ parseMessage payload = .requestTurn) ∨ e = .closed c ∨
        ((∃ hdl payload, e = .message hdl payload ∧ parseMessage payload = .update) ∧
          TurnOver w.st)) := by
  cases e with
  | opened hdl => exact absurd ((onOpen_activeConn s hdl w.st).trans hc) hne
  | message hdl payload =>
      have hact := onMessage_activeConn s hdl payload w.st
      have hstep : (next s w (.message hdl payload)).st.activeConn =
          (onMessage s hdl payload w.st).state.activeConn := rfl
      rw [hstep] at hne ⊢
      rw [hact, hc] at hne ⊢
      split at hne
      · rename_i hp
        by_cases hh : c = hdl
        · subst hh
          simp only [if_true]
          exact ⟨trivial, Or.inl ⟨payload, rfl, hp⟩⟩
        · simp [hh] at hne
      · rename_i hp
        cases hover : (getTimeLeft w.st).2 with
        | false => simp [hover] at hne
        | true =>
            simp only [if_true]
            have hturn := ((getTimeLeft_snd w.st).mp hover).2
            exact ⟨trivial, Or.inr (Or.inr ⟨⟨hdl, payload, rfl, hp⟩, hturn⟩)⟩
      · exact absurd rfl hne
  | closed hdl =>
      by_cases hh : hdl = c
      · subst hh
        obtain ⟨cl, hcl⟩ := hw.registry.active hdl hc
        refine ⟨(onClose_activeConn hcl).trans ?_, Or.inr (Or.inl rfl)⟩
        rw [if_pos hc]
      · refine absurd ?_ hne
        cases hcl : w.st.clients.find? hdl with
        | none => exact (congrArg (fun r => r.state.activeConn) (onClose_absent hcl)).trans hc
        | some cl =>
            refine (onClose_activeConn hcl).trans ?_
            rw [hc, if_neg fun h => hh (Option.some.inj h).symm]
  | game g => exact absurd hc hne
  | update g df =>
      exact absurd ((pluginOnupdate_unticked df (w.st.atGame g)).activeConn.trans hc) hne

-- The protocol, at the end of any run and for any step from there.
theorem turn_ownership (s : Endpoint) (config : Config) (g : Game) (es : List Event)
    (hv : (server s).Valid (World.init config g) es) :
    let w := (server s).exec (World.init config g) es
    (∀ c, w.st.activeConn = some c →
      ∃ cl, w.st.clients.find? c = some cl ∧ cl.id ∉ w.st.freed) ∧
    w.st.clients.size ≤ config.maxClients ∧
    (∀ pre hdl post, es = pre ++ .opened hdl :: post →
      closes hdl (handle s (.opened hdl) ((server s).exec (World.init config g) pre).st).out = true →
      w.st.clients.find? hdl = none) ∧
    ∀ e, enabled w e →
      (∀ c, w.st.activeConn = none → (next s w e).st.activeConn = some c →
        ∃ payload, e = .message c payload ∧ parseMessage payload = .requestTurn) ∧
      ∀ c, w.st.activeConn = some c → (next s w e).st.activeConn ≠ some c →
        (next s w e).st.activeConn = none ∧
          ((∃ payload, e = .message c payload ∧ parseMessage payload = .requestTurn) ∨
            e = .closed c ∨
            ((∃ hdl payload, e = .message hdl payload ∧ parseMessage payload = .update) ∧
              TurnOver w.st)) := by
  intro w
  have hw : Registered w := (Registered.init config g).run hv
  refine ⟨fun c hc => ?_, ?_, ?_, fun e _ => ⟨fun c => next_takes_turn, fun c => next_leaves_turn hw⟩⟩
  · obtain ⟨cl, hcl⟩ := hw.registry.active c hc
    exact ⟨cl, hcl, (hw.registry.live c cl hcl).2⟩
  · have hcfg : w.st.config = config := config_of_run
    exact hcfg ▸ hw.registry.size
  · rintro pre hdl post rfl hclose
    rw [Machine.valid_append, Machine.valid_cons] at hv
    have hphase : ((server s).next ((server s).exec (World.init config g) pre)
        (.opened hdl)).phase hdl = .refused := next_opened_refused hclose
    have hend : w.phase hdl = .refused ∨ w.phase hdl = .closed := by
      have hrun := refused_of_run (Or.inl hphase) hv.2.2
      rwa [← Machine.exec_cons, ← Machine.exec_append] at hrun
    by_contra hne
    obtain ⟨cl, hcl⟩ := Option.ne_none_iff_exists'.mp hne
    have hopen := (hw.phase hdl).mpr ⟨cl, hcl⟩
    rcases hend with h | h
    · exact absurd (h.symm.trans hopen) (by decide)
    · exact absurd (h.symm.trans hopen) (by decide)

-- Two clients, of which the first has asked for the turn.
theorem turn_ownership_sample :
    ∃ cl, ((server Sample.endpoint).exec (World.init Sample.config (Sample.game 64))
        [.opened 0, .opened 1, .message 0 [116]]).st.clients.find? 0 = some cl ∧
      cl.id ∉ ((server Sample.endpoint).exec (World.init Sample.config (Sample.game 64))
        [.opened 0, .opened 1, .message 0 [116]]).st.freed :=
  (turn_ownership Sample.endpoint Sample.config (Sample.game 64)
    [.opened 0, .opened 1, .message 0 [116]]
    ⟨⟨rfl, rfl⟩, ⟨rfl, rfl⟩, ⟨rfl, rfl⟩, trivial⟩).1 0 rfl

end WebFort
