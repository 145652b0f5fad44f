import WebFort.Spectators.Alike

namespace WebFort

open Library

-- Nothing but the entry of one client has changed, and in it neither who the
-- client is nor its turn clock.
structure Undisturbed (hdl : Handle) (st st' : State) : Prop where
  rest : st' = { st with clients := st'.clients }
  client : OrdMap.Rel (fun j cl cl' => Client.Timed cl cl' ∧ (j ≠ hdl → cl' = cl))
    st.clients st'.clients

namespace Undisturbed

variable {hdl : Handle} {st st' : State}

theorem refl (hdl : Handle) (st : State) : Undisturbed hdl st st :=
  ⟨rfl, OrdMap.rel_refl (fun _ cl => ⟨Client.Timed.refl cl, fun _ => rfl⟩) _⟩

theorem withRegistered (st : State) (hdl : Handle) (f : Client → Client)
    (hf : ∀ cl, Client.Timed cl (f cl)) : Undisturbed hdl st (st.withRegistered hdl f) := by
  refine ⟨rfl, ?_⟩
  exact OrdMap.rel_adjust (fun _ cl => ⟨Client.Timed.refl cl, fun _ => rfl⟩) st.clients
    fun cl => ⟨hf cl, fun hne => absurd rfl hne⟩

-- Only a registered client has an object of its own behind get_client.
theorem withClient {st : State} {hdl : Handle} (hr : st.registered hdl = true)
    (f : Client → Client) (hf : ∀ cl, Client.Timed cl (f cl)) :
    Undisturbed hdl st (st.withClient hdl f) := by
  have hsame : st.withClient hdl f = st.withRegistered hdl f := by
    unfold State.withClient State.withRegistered
    rw [if_pos hr]
  rw [hsame]
  exact withRegistered st hdl f hf

theorem alike (h : Undisturbed hdl st st') : Alike st st' := by
  have hclient : OrdMap.Rel (fun _ => Client.Timed) st.clients st'.clients :=
    h.client.mono fun _ _ _ hc => hc.1
  have hrest := h.rest
  revert hclient
  rw [hrest]
  exact fun hclient => { Alike.refl st with client := hclient }

end Undisturbed

-- A message at which the turn of the active player ends by the clock.
def Expires (payload : Bytes) (st : State) : Prop := parseMessage payload = .update ∧ TurnOver st

section Message

variable {st : State} {a hdl : Handle}

theorem idleTimer_of_active (ha : st.activeConn = some a) : (idleTimer st).state = st := by
  unfold idleTimer
  rw [if_neg (by simp [ha])]
  rfl

theorem turnPart_of_active (ha : st.activeConn = some a) :
    turnPart st = if (getTimeLeft st).2 then (setActive none st).state else st := by
  unfold turnPart expireTurn
  rw [idleTimer_of_active ha]
  split <;> rfl

theorem registered_setActive (hr : st.registered hdl = true) :
    (setActive none st).state.registered hdl = true := by
  obtain ⟨cl, hcl⟩ := (st.registered_iff hdl).mp hr
  obtain ⟨cl', hcl', -⟩ := (setActive_kept none st).find? hcl
  exact (State.registered_iff _ hdl).mpr ⟨cl', hcl'⟩

-- The tiles are marked in the state the expiry leaves.
theorem tock_undisturbed (s : Endpoint) (ha : st.activeConn = some a)
    (hr : st.registered hdl = true) :
    Undisturbed hdl (if (getTimeLeft st).2 then (setActive none st).state else st)
      (tock s hdl st).state := by
  have hturn : (turnPart st).registered hdl = true := by
    rw [turnPart_of_active ha]
    split
    · exact registered_setActive hr
    · exact hr
  rw [tock_state, ← turnPart_of_active ha]
  exact Undisturbed.withClient hturn _ fun _ => ⟨⟨rfl, rfl, rfl, rfl⟩, rfl⟩

-- Whatever a spectator sends, it reaches its own entry only.
theorem onMessage_undisturbed (s : Endpoint) (payload : Bytes) (ha : st.activeConn = some a)
    (hne : hdl ≠ a) (hr : st.registered hdl = true) (hlive : ¬Expires payload st) :
    Undisturbed hdl st (onMessage s hdl payload st).state := by
  have hother : st.activeConn ≠ some hdl := fun h => hne (Option.some.inj (h.symm.trans ha))
  unfold onMessage
  cases hp : parseMessage payload with
  | keyEvent jsKey charCode jsmods =>
      simp only [keyEvent, if_pos hother, Outcome.ok_state]
      exact Undisturbed.refl hdl st
  | mouseEvent ev =>
      simp only [mouseEvent, if_pos hother, Outcome.ok_state]
      exact Undisturbed.refl hdl st
  | cursorMove x y =>
      simp only [cursorMove, if_neg hother, Outcome.ok_state]
      exact Undisturbed.withRegistered st hdl _ fun _ => ⟨⟨rfl, rfl, rfl, rfl⟩, rfl⟩
  | refreshScreen => exact Undisturbed.withClient hr _ fun _ => ⟨⟨rfl, rfl, rfl, rfl⟩, rfl⟩
  | camMove dx dy dz =>
      simp only [camMove, if_pos hr, if_neg hother, Outcome.ok_state]
      exact Undisturbed.withRegistered st hdl _ fun _ => ⟨⟨rfl, rfl, rfl, rfl⟩, rfl⟩
  | requestTurn =>
      have hbusy : st.activeConn ≠ none := fun h => absurd (h.symm.trans ha) (by simp)
      simp only [requestTurn, if_neg hother, if_neg hbusy, Outcome.ok_state]
      exact Undisturbed.refl hdl st
  | update =>
      have hin : ¬(getTimeLeft st).2 = true := fun h =>
        hlive ⟨hp, ((getTimeLeft_snd st).mp h).2⟩
      have htock := tock_undisturbed s ha hr
      rwa [if_neg hin] at htock

theorem onMessage_expires (s : Endpoint) (payload : Bytes) (ha : st.activeConn = some a)
    (hr : st.registered hdl = true) (hover : Expires payload st) :
    Undisturbed hdl (setActive none st).state (onMessage s hdl payload st).state := by
  have hup : (getTimeLeft st).2 = true :=
    (getTimeLeft_snd st).mpr ⟨by simp [ha], hover.2⟩
  have htock := tock_undisturbed s ha hr
  rw [if_pos hup] at htock
  unfold onMessage
  rw [hover.1]
  exact htock

end Message

-- What a player acts on the game with: the two queues, the queued camera
-- moves and the turn.
def controls (st : State) :
    List WFKeyEvent × List WFMouseEvent × (Int × Int × Int) × Option Handle :=
  (st.inputQueue, st.mouseQueue, st.deltas, st.activeConn)

-- The controls as a step leaves them, if it moves them at all.
def changes (s : Endpoint) (w : World) (e : Event) :
    List (List WFKeyEvent × List WFMouseEvent × (Int × Int × Int) × Option Handle) :=
  if controls (next s w e).st = controls w.st then [] else [controls (next s w e).st]

-- A message of somebody else than the active player that ends no turn.
def Spectates (w : World) : Event → Prop
  | .message hdl payload => (∃ a, w.st.activeConn = some a ∧ hdl ≠ a) ∧ ¬Expires payload w.st
  | _ => False

theorem Alike.controls {st st' : State} (h : Alike st st') : controls st' = controls st := by
  unfold WebFort.controls State.deltas
  rw [h.inputQueue, h.mouseQueue, h.activeCamDx, h.activeCamDy, h.activeCamDz, h.activeConn]

theorem Alike.fatal {s : Endpoint} {w v : World} (h : Alike w.st v.st) {e : Event}
    (hf : Fatal s v e) : Fatal s w e := by
  cases e with
  | opened hdl =>
      obtain ⟨hp, ⟨hv, hsize, hn⟩, hmap⟩ := hf
      rw [h.config, h.client.size] at hsize
      rw [h.reads Game.map fun _ => rfl] at hmap
      exact ⟨hp, ⟨hv, hsize, hn⟩, hmap⟩
  | message hdl payload => exact hf
  | closed _ => exact hf
  | game _ => exact hf
  | update _ _ => exact hf

-- The full run and the thinned one, side by side.
structure Shadow (w v : World) : Prop where
  registered : Registered w
  phase : v.phase = w.phase
  running : w.running = true → v.running = true
  alike : Alike w.st v.st

namespace Shadow

variable {s : Endpoint} {w v : World} {e : Event}

theorem enabled (h : Shadow w v) (hen : enabled w e) : WebFort.enabled v e := by
  cases e with
  | opened hdl => exact ⟨h.running hen.1, h.phase ▸ hen.2⟩
  | message hdl payload => exact ⟨h.running hen.1, h.phase ▸ hen.2⟩
  | closed hdl => exact ⟨h.running hen.1, h.phase ▸ hen.2⟩
  | game _ => trivial
  | update _ _ => trivial

theorem next (h : Shadow w v) (hen : WebFort.enabled w e) :
    Shadow (next s w e) (WebFort.next s v e) where
  registered := h.registered.step hen
  phase := by
    cases e with
    | opened hdl =>
        simp only [WebFort.next, nextPhase, handle, h.phase, (h.alike.onOpen s hdl).2]
        rfl
    | closed hdl => simp only [WebFort.next, nextPhase, h.phase]
    | message _ _ => exact h.phase
    | game _ => exact h.phase
    | update _ _ => exact h.phase
  running := by
    rw [next_running, next_running]
    exact fun hrun => ⟨h.running hrun.1, fun hf => hrun.2 (h.alike.fatal hf)⟩
  alike := h.alike.handle s e

theorem changes (h : Shadow w v) (e : Event) : changes s v e = changes s w e := by
  have hnext : Alike (WebFort.next s w e).st (WebFort.next s v e).st := h.alike.handle s e
  unfold WebFort.changes
  rw [h.alike.controls, hnext.controls]

-- A spectator's message moves the full run only.
theorem drop (h : Shadow w v) (hen : WebFort.enabled w e) (hs : Spectates w e) :
    Shadow (WebFort.next s w e) v ∧ WebFort.changes s w e = [] := by
  cases e with
  | message hdl payload =>
      obtain ⟨⟨a, ha, hne⟩, hlive⟩ := hs
      have hr : w.st.registered hdl = true :=
        (w.st.registered_iff hdl).mpr ((h.registered.phase hdl).mp hen.2)
      have hun : Alike w.st (WebFort.next s w (.message hdl payload)).st :=
        (onMessage_undisturbed s payload ha hne hr hlive).alike
      refine ⟨⟨h.registered.step hen, h.phase, fun hrun => ?_, hun.symm.trans h.alike⟩, ?_⟩
      · exact h.running ((next_running s w _).mp hrun).1
      · unfold WebFort.changes
        rw [hun.controls, if_pos rfl]
  | opened _ => exact hs.elim
  | closed _ => exact hs.elim
  | game _ => exact hs.elim
  | update _ _ => exact hs.elim

end Shadow

-- One message first, then whole runs with and without such messages.
theorem spectators_cannot_influence (s : Endpoint) :
    (∀ (st : State) (a hdl : Handle) (payload : Bytes), st.activeConn = some a → hdl ≠ a →
      st.registered hdl = true →
      (¬Expires payload st → Undisturbed hdl st (onMessage s hdl payload st).state) ∧
      (Expires payload st →
        Undisturbed hdl (setActive none st).state (onMessage s hdl payload st).state)) ∧
    ∀ (config : Config) (g : Game) (es kept : List Event),
      (server s).Valid (World.init config g) es →
      (server s).Thinned Spectates (World.init config g) es kept →
      (server s).Valid (World.init config g) kept ∧
        (server s).trace (changes s) (World.init config g) es =
          (server s).trace (changes s) (World.init config g) kept := by
  refine ⟨fun st a hdl payload ha hne hr => ⟨?_, ?_⟩, fun config g es kept hv ht => ?_⟩
  · exact onMessage_undisturbed s payload ha hne hr
  · exact onMessage_expires s payload ha hr
  · have hstart : Shadow (World.init config g) (World.init config g) :=
      ⟨Registered.init config g, rfl, id, Alike.refl _⟩
    obtain ⟨hvalid, -, htrace⟩ := ht.unwind
      (fun w v e h hen hs => h.drop hen hs)
      (fun w v e h hen => ⟨h.enabled hen, h.next hen, (h.changes e).symm⟩) hstart hv
    exact ⟨hvalid, htrace⟩

-- The second client asks for the turn the first one holds.
theorem spectators_cannot_influence_sample :
    let start := World.init Sample.config (Sample.game 64)
    let w := (server Sample.endpoint).exec start [.opened 0, .opened 1, .message 0 [116]]
    Undisturbed 1 w.st (onMessage Sample.endpoint 1 [116] w.st).state ∧
      (server Sample.endpoint).trace (changes Sample.endpoint) start
          [.opened 0, .opened 1, .message 0 [116], .message 1 [116], .message 0 [117, 1, 0, 0]] =
        (server Sample.endpoint).trace (changes Sample.endpoint) start
          [.opened 0, .opened 1, .message 0 [116], .message 0 [117, 1, 0, 0]] := by
  intro start w
  have hlow : ¬Expires [116] w.st := fun h => nomatch h.1
  refine ⟨((spectators_cannot_influence Sample.endpoint).1 w.st 0 1 [116] rfl (by decide) rfl).1 hlow,
    ((spectators_cannot_influence Sample.endpoint).2 Sample.config (Sample.game 64) _ _ ?_ ?_).2⟩
  · exact ⟨⟨rfl, rfl⟩, ⟨rfl, rfl⟩, ⟨rfl, rfl⟩, ⟨rfl, rfl⟩, ⟨rfl, rfl⟩, trivial⟩
  · exact .keep (.keep (.keep (.drop ⟨⟨0, rfl, by decide⟩, hlow⟩ (.keep (.nil _)))))

end WebFort
