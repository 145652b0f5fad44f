import WebFort.Turns

namespace WebFort

open Library

-- The Client objects of a run. null_client has address 0; the addresses
-- given out after it are 1 to nextId - 1.

-- Every object was deleted once or has one owner in the map.
structure Accounted (st : State) : Prop where
  once : st.freed.Nodup
  null : ∀ i ∈ st.freed, 0 < i
  positive : ∀ hdl cl, st.clients.find? hdl = some cl → 0 < cl.id
  owner : ∀ i, 0 < i → i < st.nextId → i ∉ st.freed →
    ∃ hdl cl, st.clients.find? hdl = some cl ∧ cl.id = i
  count : st.clients.size + st.freed.length + 1 = st.nextId

namespace Accounted

variable {st st' : State}

theorem init (config : Config) (g : Game) : Accounted (State.init config g) where
  once := List.nodup_nil
  null _ hi := absurd hi List.not_mem_nil
  positive _ _ h := by simp [State.init] at h
  owner i hpos hlt := by
    have hone : i < 1 := hlt
    omega
  count := rfl

-- Steps that neither register nor remove a client.
theorem same (hst : Accounted st) (hr : SameRegistry st st') : Accounted st' where
  once := hr.freed ▸ hst.once
  null i hi := hst.null i (hr.freed ▸ hi)
  positive hdl cl h := by
    obtain ⟨cl₀, hcl₀, hs⟩ := hr.find?_back h
    rw [hs.id]
    exact hst.positive hdl cl₀ hcl₀
  owner i hpos hlt hnot := by
    rw [hr.nextId] at hlt
    rw [hr.freed] at hnot
    obtain ⟨hdl, cl, hcl, hid⟩ := hst.owner i hpos hlt hnot
    obtain ⟨cl', hcl', hs⟩ := hr.find? hcl
    exact ⟨hdl, cl', hcl', hs.id.trans hid⟩
  count := by
    rw [hr.size, hr.freed, hr.nextId]
    exact hst.count

-- new Client.
theorem register (hst : Accounted st) (s : Endpoint) {hdl : Handle}
    (hnew : st.clients.find? hdl = none) : Accounted (register s hdl st) where
  once := hst.once
  null := hst.null
  positive j cl h := by
    rw [Registry.register_find?] at h
    split at h
    · obtain rfl := Option.some.inj h
      have hcount := hst.count
      have hid : (openClient s hdl st).id = st.nextId := rfl
      omega
    · exact hst.positive j cl h
  owner i hpos hlt hnot := by
    have hlt' : i < st.nextId + 1 := hlt
    rcases Nat.lt_or_eq_of_le (Nat.le_of_lt_succ hlt') with hold | hlast
    · obtain ⟨j, cl, hcl, hid⟩ := hst.owner i hpos hold hnot
      have hne : j ≠ hdl := by
        rintro rfl
        exact absurd (hnew.symm.trans hcl) (by simp)
      exact ⟨j, cl, (Registry.register_find? _ _ _ _).trans ((if_neg hne).trans hcl), hid⟩
    · exact ⟨hdl, _, (Registry.register_find? _ _ _ _).trans (if_pos rfl), hlast.symm⟩
  count := by
    have hsize : (WebFort.register s hdl st).clients.size = st.clients.size + 1 :=
      OrdMap.size_insert_of_absent _ hnew
    have hfreed : (WebFort.register s hdl st).freed = st.freed := rfl
    have hnext : (WebFort.register s hdl st).nextId = st.nextId + 1 := rfl
    have hcount := hst.count
    rw [hsize, hfreed, hnext]
    omega

-- delete cl, with its entry.
theorem erase (hst : Accounted st) (hreg : Registry st) {hdl : Handle} {gone cl : Client}
    (hcl : st.clients.find? hdl = some cl) (hid : cl.id = gone.id) :
    Accounted (eraseClient hdl (deleteClient gone st)) where
  once := List.nodup_cons.mpr ⟨hid ▸ (hreg.live hdl cl hcl).2, hst.once⟩
  null i hi := by
    rcases List.mem_cons.mp hi with rfl | hi
    · exact hid ▸ hst.positive hdl cl hcl
    · exact hst.null i hi
  positive j cl' h := by
    rw [Registry.erase_find?] at h
    split at h
    · cases h
    · exact hst.positive j cl' h
  owner i hpos hlt hnot := by
    have hother : i ≠ gone.id := fun h => hnot (List.mem_cons.mpr (Or.inl h))
    obtain ⟨j, cl', hcl', hid'⟩ := hst.owner i hpos hlt fun h => hnot (List.mem_cons_of_mem _ h)
    have hne : j ≠ hdl := by
      rintro rfl
      have hsame : cl = cl' := Option.some.inj (hcl.symm.trans hcl')
      exact hother (by rw [← hid', ← hsame, hid])
    exact ⟨j, cl', (Registry.erase_find? _ _ _).trans ((if_neg hne).trans hcl'), hid'⟩
  count := by
    have hsize : (eraseClient hdl (deleteClient gone st)).clients.size + 1 = st.clients.size :=
      OrdMap.size_erase_of_present hcl
    have hfreed : (eraseClient hdl (deleteClient gone st)).freed.length = st.freed.length + 1 := rfl
    have hnext : (eraseClient hdl (deleteClient gone st)).nextId = st.nextId := rfl
    have hcount := hst.count
    omega

end Accounted

-- Which object an event deletes.
def deleted (w : World) : Event → List Nat
  | .closed hdl => ((w.st.clients.find? hdl).map Client.id).toList
  | _ => []

theorem Accounted.closed {st : State} (hst : Accounted st) (hreg : Registry st) (hdl : Handle) :
    Accounted (onClose hdl st).state ∧
      (onClose hdl st).state.freed =
        ((st.clients.find? hdl).map Client.id).toList ++ st.freed := by
  cases hcl : st.clients.find? hdl with
  | none =>
      have hstate : (onClose hdl st).state = st := by
        rw [onClose_absent hcl]
        simp only [Outcome.ok_state, eraseClient, OrdMap.erase_of_absent hcl]
      rw [hstate]
      exact ⟨hst, rfl⟩
  | some gone =>
      have hr := (releaseTurn_kept hdl st).registry
      obtain ⟨cl, hcl', hs⟩ := hr.find? hcl
      have hrel : Registry (releaseTurn hdl st) := hreg.same hr fun j hj => by
        rw [releaseTurn_activeConn] at hj
        split at hj
        · cases hj
        · exact hreg.active j hj
      rw [onClose_registered hcl]
      refine ⟨(hst.same hr).erase hrel hcl' hs.id, ?_⟩
      exact congrArg (gone.id :: ·) hr.freed

-- The registered clients are those whose connection is open, so the guard
-- of an open gives the new object a free key.
theorem Accounted.next {s : Endpoint} {w : World} {e : Event} (hw : Registered w)
    (hst : Accounted w.st) (hen : enabled w e) :
    Accounted (next s w e).st ∧ (next s w e).st.freed = deleted w e ++ w.st.freed := by
  cases e with
  | opened hdl =>
      rcases onOpen_cases s hdl w.st with ⟨hstate, -⟩ | ⟨hstate, -, -⟩
      · have hnext : (WebFort.next s w (.opened hdl)).st = w.st := hstate
        rw [hnext]
        exact ⟨hst, rfl⟩
      · have hnext : (WebFort.next s w (.opened hdl)).st = WebFort.register s hdl w.st := hstate
        rw [hnext]
        exact ⟨hst.register s (hw.absent hen), rfl⟩
  | closed hdl => exact hst.closed hw.registry hdl
  | message hdl payload =>
      have hr := (onMessage_kept s hdl payload w.st).registry
      exact ⟨hst.same hr, hr.freed⟩
  | game g => exact ⟨hst.same { SameRegistry.refl w.st with }, rfl⟩
  | update g df =>
      have hr := (pluginOnupdate_unticked df (w.st.atGame g)).registry
      exact ⟨hst.same { hr with }, hr.freed⟩

theorem Accounted.run {s : Endpoint} {w : World} {es : List Event} (hw : Registered w)
    (hst : Accounted w.st) (hv : (server s).Valid w es) : Accounted ((server s).exec w es).st := by
  have hboth := (server s).exec_invariant (fun w => Registered w ∧ Accounted w.st)
    (fun w e hw hen => ⟨hw.1.step hen, (hw.2.next hw.1 hen).1⟩) w es ⟨hw, hst⟩ hv
  exact hboth.2

-- An object that was not deleted belongs to one client on the map.
theorem Accounted.deleted_iff {st : State} (hst : Accounted st) (hreg : Registry st) {i : Nat}
    (hpos : 0 < i) (hlt : i < st.nextId) :
    i ∈ st.freed ↔ ∀ hdl cl, st.clients.find? hdl = some cl → cl.id ≠ i := by
  constructor
  · rintro hi hdl cl hcl rfl
    exact (hreg.live hdl cl hcl).2 hi
  · intro hnone
    by_contra hnot
    obtain ⟨hdl, cl, hcl, hid⟩ := hst.owner i hpos hlt hnot
    exact hnone hdl cl hcl hid

-- No object is deleted twice, null_client is never deleted, no object that
-- is still in use is deleted, none is left behind, and at most MAX_CLIENTS
-- are alive.
theorem objects_of_run (s : Endpoint) (config : Config) (g : Game) (es : List Event)
    (hv : (server s).Valid (World.init config g) es) :
    let w := (server s).exec (World.init config g) es
    w.st.freed.Nodup ∧ 0 ∉ w.st.freed ∧
    (∀ i, 0 < i → i < w.st.nextId →
      (i ∈ w.st.freed ↔ ∀ hdl cl, w.st.clients.find? hdl = some cl → cl.id ≠ i)) ∧
    (∀ hdl hdl' cl cl', w.st.clients.find? hdl = some cl → w.st.clients.find? hdl' = some cl' →
      cl.id = cl'.id → hdl = hdl') ∧
    w.st.nextId ≤ 1 + w.st.freed.length + config.maxClients ∧
    ((∀ hdl, w.phase hdl ≠ .opened) → w.st.freed.length + 1 = w.st.nextId) ∧
    ∀ e, enabled w e → (next s w e).st.freed = deleted w e ++ w.st.freed := by
  intro w
  have hw : Registered w := (Registered.init config g).run hv
  have hst : Accounted w.st := (Accounted.init config g).run (Registered.init config g) hv
  have hcount := hst.count
  refine ⟨hst.once, fun h => ?_, fun i => hst.deleted_iff hw.registry, hw.registry.distinct, ?_,
    fun hleft => ?_, fun e hen => (hst.next hw hen).2⟩
  · exact absurd (hst.null 0 h) (Nat.lt_irrefl 0)
  · have hsize := hw.registry.size
    have hconfig : w.st.config = config := config_of_run
    rw [hconfig] at hsize
    omega
  · have hempty : w.st.clients = OrdMap.empty := by
      apply OrdMap.ext_find?
      intro hdl
      cases hcl : w.st.clients.find? hdl with
      | none => rfl
      | some cl => exact absurd ((hw.phase hdl).mpr ⟨cl, hcl⟩) (hleft hdl)
    have hsize : w.st.clients.size = 0 := by
      rw [hempty]
      rfl
    omega

-- Two clients come, the second one leaves.
theorem objects_of_run_sample :
    ((server Sample.endpoint).exec (World.init Sample.config (Sample.game 64))
      [.opened 0, .opened 1, .closed 1]).st.freed.Nodup :=
  (objects_of_run Sample.endpoint Sample.config (Sample.game 64) [.opened 0, .opened 1, .closed 1]
    ⟨⟨rfl, rfl⟩, ⟨rfl, rfl⟩, ⟨rfl, Or.inl rfl⟩, trivial⟩).1

end WebFort
