import WebFort.Sample
import WebFort.Loop
import WebFort.Turns

namespace WebFort

open Library

-- The connections the server is for, by what the handshake told it.
def Admissible (s : Endpoint) (hdl : Handle) (st : State) : Prop :=
  wfVersion ∈ (s hdl).requestedSubprotocols ∧ st.clients.size < st.config.maxClients ∧
    pathNick s hdl ≠ nobody

-- One new entry, and nothing else in the registry.
structure Admitted (s : Endpoint) (hdl : Handle) (st : State) (r : Res) : Prop where
  entry : ∃ cl, r.state.clients.find? hdl = some cl ∧ (∀ t, cl.mod t = 0) ∧
    cl.hasOwnCam = false ∧ cl.nick = pathNick s hdl ∧
      (cl.isAdmin = true ↔ pathSecret s hdl = st.config.secret)
  size : r.state.clients.size = st.clients.size + 1
  others : ∀ j, j ≠ hdl → r.state.clients.find? j = st.clients.find? j
  activeConn : r.state.activeConn = st.activeConn
  nullClient : r.state.nullClient = st.nullClient
  stays : closes hdl r.out = false

structure TurnedAway (hdl : Handle) (st : State) (r : Res) : Prop where
  closed : closes hdl r.out = true
  state : r.state = st

section Open

variable (s : Endpoint) (hdl : Handle) (st : State)

theorem turnedAway_of_not_admits (h : ¬admits s hdl st) :
    TurnedAway hdl st (onOpen s hdl st) := by
  rcases onOpen_inv s hdl st with ⟨-, code, reason, hopen⟩ | ⟨hadmits, -⟩
  · rw [hopen]
    exact ⟨by simp [closes], rfl⟩
  · exact absurd hadmits h

theorem admitted_of_admits (habsent : st.clients.find? hdl = none) (h : admits s hdl st) :
    Admitted s hdl st (onOpen s hdl st) := by
  have hstate := onOpen_admitted h
  refine ⟨⟨openClient s hdl st, ?_, fun _ => rfl, rfl, rfl, ?_⟩, ?_, ?_, ?_, ?_, ?_⟩
  · rw [hstate, Registry.register_find?, if_pos rfl]
  · simp [openClient]
  · rw [hstate]
    exact OrdMap.size_insert_of_absent _ habsent
  · intro j hj
    rw [hstate, Registry.register_find?, if_neg hj]
  · rw [hstate]
    rfl
  · rw [hstate]
    rfl
  · rcases onOpen_inv s hdl st with ⟨hnot, -⟩ | ⟨-, hopen⟩
    · exact absurd h hnot
    · rw [hopen, sendMapInfo_closes]

-- The negotiated subprotocol is the invalid one where that is all there is to
-- negotiate.
theorem validateOpen_eq_invalid :
    validateOpen s hdl = wfInvalid ↔ wfVersion ∉ (s hdl).requestedSubprotocols ∧
      wfInvalid ∈ (s hdl).requestedSubprotocols := by
  have hversions : wfVersion ≠ wfInvalid := by decide
  have hempty : [] ≠ wfInvalid := by decide
  unfold validateOpen
  by_cases hversion : wfVersion ∈ (s hdl).requestedSubprotocols
  · simp [hversion, hversions]
  · by_cases hinvalid : wfInvalid ∈ (s hdl).requestedSubprotocols
    · simp [hversion, hinvalid]
    · simp [hversion, hinvalid, hempty]

end Open

theorem TurnedAway.not_admitted {s : Endpoint} {hdl : Handle} {st : State} {r : Res}
    (h : TurnedAway hdl st r) : ¬Admitted s hdl st r := by
  intro hadmitted
  exact absurd (h.closed.symm.trans hadmitted.stays) (by decide)

-- Exactly the connections of this version are admitted, unless there is a
-- connection with none of the two subprotocols and room for it.
theorem admission_iff {s : Endpoint} {hdl : Handle} {st : State}
    (habsent : st.clients.find? hdl = none) :
    ((Admissible s hdl st → Admitted s hdl st (onOpen s hdl st)) ∧
        (¬Admissible s hdl st → TurnedAway hdl st (onOpen s hdl st))) ↔
      ¬(wfVersion ∉ (s hdl).requestedSubprotocols ∧ wfInvalid ∉ (s hdl).requestedSubprotocols ∧
        st.clients.size < st.config.maxClients ∧ pathNick s hdl ≠ nobody) := by
  constructor
  · rintro ⟨-, haway⟩ ⟨hversion, hinvalid, hroom, hnick⟩
    have hadmits : admits s hdl st :=
      ⟨fun h => hinvalid ((validateOpen_eq_invalid s hdl).mp h).2, hroom, hnick⟩
    exact (haway fun h => hversion h.1).not_admitted (admitted_of_admits s hdl st habsent hadmits)
  · intro hmissed
    constructor
    · rintro ⟨hversion, hroom, hnick⟩
      apply admitted_of_admits s hdl st habsent
      exact ⟨fun h => ((validateOpen_eq_invalid s hdl).mp h).1 hversion, hroom, hnick⟩
    · intro hnot
      apply turnedAway_of_not_admits
      rintro ⟨hvalid, hroom, hnick⟩
      have hversion : wfVersion ∉ (s hdl).requestedSubprotocols :=
        fun h => hnot ⟨h, hroom, hnick⟩
      refine hmissed ⟨hversion, fun h => ?_, hroom, hnick⟩
      exact hvalid ((validateOpen_eq_invalid s hdl).mpr ⟨hversion, h⟩)

namespace Sample

-- The handshake of a client with the given subprotocols.
def offering (protos : List Bytes) : Endpoint := fun _ =>
  { conn .hybi13 "/urist/right" (by decide) with requestedSubprotocols := protos }

end Sample

theorem admission_iff_sample :
    Admitted (Sample.offering [wfVersion, wfInvalid]) 0 Sample.start
        (onOpen (Sample.offering [wfVersion, wfInvalid]) 0 Sample.start) ∧
      TurnedAway 0 Sample.start (onOpen (Sample.offering [wfInvalid]) 0 Sample.start) := by
  have hnick : pathNick (Sample.offering [wfVersion, wfInvalid]) 0 ≠ nobody := by decide
  have hroom : Sample.start.clients.size < Sample.start.config.maxClients := by decide
  have hboth := @admission_iff (Sample.offering [wfVersion, wfInvalid]) 0 Sample.start rfl
  have hold := @admission_iff (Sample.offering [wfInvalid]) 0 Sample.start rfl
  refine ⟨(hboth.mpr ?_).1 ⟨by decide, hroom, hnick⟩, (hold.mpr ?_).2 ?_⟩
  · exact fun h => h.1 (by decide)
  · exact fun h => h.2.1 (by decide)
  · exact fun h => absurd h.1 (by decide)

-- A client that offers nothing, or another version alone, is let in.
theorem unversioned_admitted :
    ¬Admissible (Sample.offering []) 0 Sample.start ∧
      closes 0 (onOpen (Sample.offering []) 0 Sample.start).out = false ∧
      (onOpen (Sample.offering []) 0 Sample.start).state.clients.size = 1 ∧
      (onOpen (Sample.offering [ascii "WebFortress-v1.0"]) 0 Sample.start).state.clients.size =
        1 := by
  exact ⟨fun h => absurd h.1 (by decide), by decide, by decide, by decide⟩

end WebFort
