import WebFort.Server.Lemmas

namespace WebFort

open Library

-- Something a client may have, read through the map of clients.
def State.look {α : Type} (st : State) (p : Client → Option α) (j : Handle) : Option α :=
  (st.clients.find? j).bind p

section Writes

variable {α : Type} {p : Client → Option α} {st st' : State} {hdl j : Handle}

theorem look_of_find? {cl : Client} (h : st.clients.find? j = some cl) : st.look p j = p cl := by
  unfold State.look
  rw [h]
  rfl

theorem look_of_none (h : st.clients.find? j = none) : st.look p j = none := by
  unfold State.look
  rw [h]
  rfl

theorem look_congr (h : st'.clients.find? j = st.clients.find? j) : st'.look p j = st.look p j := by
  unfold State.look
  rw [h]

theorem look_clients (h : st'.clients = st.clients) : st'.look p j = st.look p j :=
  look_congr (congrArg (OrdMap.find? · j) h)

-- Writes to other clients, and writes to other fields.
theorem look_withRegistered (f : Client → Client) (hf : j ≠ hdl ∨ ∀ cl, p (f cl) = p cl) :
    (st.withRegistered hdl f).look p j = st.look p j := by
  unfold State.look
  rw [State.withRegistered_find?]
  split
  · rename_i hj
    rw [Option.bind_map]
    exact congrArg _ (funext (hf.resolve_left (not_not.mpr hj)))
  · rfl

theorem look_withClient (f : Client → Client) (hf : j ≠ hdl ∨ ∀ cl, p (f cl) = p cl) :
    (st.withClient hdl f).look p j = st.look p j :=
  look_withRegistered f hf

theorem look_eraseClient (hdl : Handle) (st : State) :
    (eraseClient hdl st).look p j = if j = hdl then none else st.look p j := by
  unfold State.look
  rw [eraseClient, OrdMap.find?_erase]
  split <;> rfl

-- What the turn takes along with it.
theorem look_setActive (newc : Option Handle) (st : State)
    (hp : ∀ cl mod atime, p { cl with mod := mod, atime := atime } = p cl)
    (h : st.activeConn ≠ newc) :
    (setActive newc st).state.look p j =
      (dropCursor newc (dropCursor st.activeConn st)).look p j := by
  cases newc with
  | none => exact look_clients (setActive_none_clients st)
  | some hdl =>
      obtain ⟨atime, hclients⟩ := setActive_some_clients h
      let cleared := dropCursor (some hdl) (dropCursor st.activeConn st)
      let given := cleared.withRegistered hdl fun cl => { cl.clearMod with atime := atime }
      have hgiven : given.look p j = cleared.look p j :=
        look_withRegistered _ (Or.inr fun cl => hp cl _ _)
      have hsame : (setActive (some hdl) st).state.look p j = given.look p j :=
        look_clients hclients
      exact hsame.trans hgiven

end Writes

end WebFort
