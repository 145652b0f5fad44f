import WebFort.System.Lemmas
import WebFort.Turns

namespace WebFort

open Library

-- The marks of one client, which only few steps of others reach.
def marks (st : State) (j : Handle) : Option (Nat → UInt8) := (st.clients.find? j).map Client.mod

section Bystander

variable {hdl j : Handle} {st : State}

theorem marks_of_find? {cl : Client} (h : st.clients.find? j = some cl) :
    marks st j = some cl.mod := by
  unfold marks
  rw [h]
  rfl

theorem withRegistered_marks (f : Client → Client) (hf : j ≠ hdl ∨ ∀ cl, (f cl).mod = cl.mod) :
    marks (st.withRegistered hdl f) j = marks st j := by
  unfold marks
  rw [State.withRegistered_find?]
  split
  · rename_i hj
    rw [Option.map_map]
    exact congrArg (Option.map · _) (funext (hf.resolve_left (not_not.mpr hj)))
  · rfl

theorem withClient_marks (f : Client → Client) (hj : j ≠ hdl) :
    marks (st.withClient hdl f) j = marks st j := by
  unfold marks
  rw [State.withClient_find?_of_ne st f hj]

theorem dropCursor_marks (conn : Option Handle) (st : State) (j : Handle) :
    marks (dropCursor conn st) j = marks st j := by
  cases conn with
  | none => rfl
  | some hdl => exact withRegistered_marks _ (Or.inr fun _ => rfl)

theorem pauseGame_marks (st : State) (j : Handle) : marks (pauseGame st) j = marks st j := by
  unfold marks
  rw [pauseGame_clients]

-- Only the new holder of the turn is sent everything again.
theorem setActive_marks {newc : Option Handle} (hj : newc ≠ some j) :
    marks (setActive newc st).state j = marks st j := by
  by_cases h : st.activeConn = newc
  · rw [setActive_same h]
    rfl
  · have hmove : marks (dropCursor newc { dropCursor st.activeConn st with activeConn := newc }) j =
        marks st j := (dropCursor_marks newc _ j).trans (dropCursor_marks st.activeConn st j)
    simp only [setActive, if_neg h]
    cases newc with
    | none =>
        simp only [Outcome.ok_state, pauseGame_marks]
        split <;> exact hmove
    | some hdl =>
        simp only [Outcome.emit_state, pauseGame_marks]
        refine (withClient_marks _ ?_).trans hmove
        rintro rfl
        exact hj rfl

theorem turnPart_marks (st : State) (j : Handle) : marks (turnPart st) j = marks st j := by
  obtain ⟨timedOut, h | h⟩ := turnPart_state st
  · rw [h]
    rfl
  · rw [h]
    exact setActive_marks (by simp)

theorem tock_marks (s : Endpoint) (hj : j ≠ hdl) : marks (tock s hdl st).state j = marks st j := by
  rw [tock_state]
  exact (withClient_marks _ hj).trans (turnPart_marks st j)

theorem requestTurn_marks (hj : (requestTurn hdl st).state.activeConn ≠ some j) :
    marks (requestTurn hdl st).state j = marks st j := by
  unfold requestTurn at hj ⊢
  split at hj
  · rw [if_pos ‹_›]
    exact setActive_marks (by simp)
  · rw [if_neg ‹_›]
    split at hj
    · rw [if_pos ‹_›]
      refine setActive_marks ?_
      rwa [setActive_activeConn] at hj
    · rw [if_neg ‹_›]
      rfl

-- What a message does to the marks of a client without the turn.
theorem onMessage_marks (s : Endpoint) (payload : Bytes)
    (hj : (onMessage s hdl payload st).state.activeConn ≠ some j)
    (hown : j = hdl → parseMessage payload ≠ .update ∧ parseMessage payload ≠ .refreshScreen ∧
      ∀ dx dy dz, parseMessage payload ≠ .camMove dx dy dz) :
    marks (onMessage s hdl payload st).state j = marks st j := by
  cases hp : parseMessage payload with
  | keyEvent jsKey charCode jsmods =>
      obtain ⟨evs, h⟩ := keyEvent_state hdl st jsKey charCode jsmods
      simp only [onMessage, hp, Outcome.ok_state, h]
      rfl
  | mouseEvent ev =>
      obtain ⟨evs, h⟩ := mouseEvent_state hdl st ev
      simp only [onMessage, hp, Outcome.ok_state, h]
      rfl
  | cursorMove x y =>
      obtain ⟨f, hf, h⟩ := cursorMove_state hdl st x y
      simp only [onMessage, hp, Outcome.ok_state, h]
      refine withRegistered_marks _ (Or.inr fun cl => ?_)
      obtain ⟨cursorX, cursorY, b, hcl⟩ := hf cl
      rw [hcl]
  | refreshScreen =>
      simp only [onMessage, hp, Outcome.ok_state, refreshScreen]
      exact withClient_marks _ fun h => (hown h).2.1 hp
  | camMove dx dy dz =>
      simp only [onMessage, hp, Outcome.ok_state]
      rcases camMove_state hdl st dx dy dz with ⟨x, y, z, h⟩ | h
      · rw [h]
        rfl
      · rw [h]
        exact withRegistered_marks _ (Or.inl fun hj => (hown hj).2.2 dx dy dz hp)
  | requestTurn =>
      simp only [onMessage, hp] at hj ⊢
      exact requestTurn_marks hj
  | update =>
      simp only [onMessage, hp]
      exact tock_marks s fun h => (hown h).1 hp

theorem onOpen_marks (s : Endpoint) (hj : j ≠ hdl) :
    marks (onOpen s hdl st).state j = marks st j := by
  unfold marks
  rw [onOpen_client s st hj]

theorem onClose_marks (hj : j ≠ hdl) : marks (onClose hdl st).state j = marks st j := by
  have herase : ∀ st : State, marks (eraseClient hdl st) j = marks st j := by
    intro st
    unfold marks eraseClient
    rw [OrdMap.find?_erase, if_neg hj]
  cases hcl : st.clients.find? hdl with
  | none =>
      rw [onClose_absent hcl]
      exact herase st
  | some cl =>
      rw [onClose_registered hcl]
      refine (herase _).trans ?_
      have hrelease : marks (releaseTurn hdl st) j = marks st j := by
        unfold releaseTurn
        split
        · exact setActive_marks (by simp)
        · rfl
      exact hrelease

end Bystander

end WebFort
