import WebFort.Credentials
import WebFort.Library.Markup

namespace WebFort

open Library

inductive StatusColor
  | green
  | grey
  | orange
  deriving DecidableEq

-- What setStatus is called with: text, color, and whether a click asks for
-- the turn.
structure StatusLine where
  text : List Nat
  color : StatusColor
  requestTurn : Bool

def literal (s : String) : List Nat := Percent.codeUnits s.toList

-- s.currentPlayer || "Somebody else"
def displayedName (currentPlayer : List Nat) : List Nat :=
  if currentPlayer = [] then literal "Somebody else" else currentPlayer

def doingTheirBest : List Nat := literal " is doing their best. Please wait warmly."

-- The flag active of the page and its status line.
def renderQueueStatus (s : Header) : Bool × StatusLine :=
  if s.isActive then
    (true, ⟨literal "You're in charge now! Click here to end your turn.", .green, true⟩)
  else if s.isNoPlayer then
    (false, ⟨literal "Nobody is playing right now. Click here to ask for a turn.", .grey, true⟩)
  else (false, ⟨displayedName s.currentPlayer ++ doingTheirBest, .orange, false⟩)

-- The text of the element "message" after m.innerHTML = text, none when the
-- markup brings in anything but text.
def setStatus (refs : Markup.Refs) (line : StatusLine) : Option (List Nat) :=
  Markup.innerHTML refs line.text

section Markup

open Markup

theorem doingTheirBest_harmless : ∃ rest, doingTheirBest = 32 :: rest ∧
    ∀ c ∈ rest, c ≠ 0 ∧ c ≠ 13 ∧ c ≠ 60 ∧ c ≠ 38 :=
  ⟨doingTheirBest.tail, by decide, by decide⟩

-- Only the name can spoil the line, and the space is all of the rest that can
-- have a part in it.
theorem plain_status_iff (refs : Refs) (name : List Nat) :
    Plain refs (displayedName name ++ doingTheirBest) ↔ Plain refs (name ++ [32]) := by
  obtain ⟨rest, htext, hrest⟩ := doingTheirBest_harmless
  rw [htext, plain_append_space, and_iff_left (plain_of_harmless hrest)]
  unfold displayedName
  split
  · rename_i hname
    subst hname
    exact iff_of_true (plain_of_harmless (by decide)) (plain_of_harmless (by decide))
  · rfl

theorem characterData_status_iff (name : List Nat) :
    CharacterData (displayedName name ++ doingTheirBest) ↔ CharacterData (name ++ [32]) := by
  obtain ⟨rest, htext, hrest⟩ := doingTheirBest_harmless
  have hdata : CharacterData rest := characterData_of_no_lt fun h => (hrest 60 h).2.2.1 rfl
  rw [htext, characterData_append_space, and_iff_left hdata]
  unfold displayedName
  split
  · rename_i hname
    subst hname
    exact iff_of_true (characterData_of_no_lt (by decide)) (characterData_of_no_lt (by decide))
  · rfl

end Markup

-- A client keeps the nick of its address.
def Nicked (s : Endpoint) (st : State) : Prop :=
  ∀ j cl, st.clients.find? j = some cl → cl.nick = pathNick s j

theorem Nicked.run {s : Endpoint} {w : World} (h : Nicked s w.st) (es : List Event) :
    Nicked s ((server s).exec w es).st := by
  induction es generalizing w with
  | nil => exact h
  | cons e es ih =>
      apply ih
      intro j cl hcl
      rcases nick_of_handle s e hcl with ⟨cl₀, hcl₀, hnick⟩ | ⟨hnick, -⟩
      · exact hnick.symm.trans (h j cl₀ hcl₀)
      · exact hnick

theorem active_nick {s : Endpoint} {config : Config} {g : Game} {es : List Event}
    (hv : (server s).Valid (World.init config g) es) {c : Handle} :
    let st := ((server s).exec (World.init config g) es).st
    st.activeConn = some c → st.getActive.nick = pathNick s c := by
  intro st hactive
  have hw : Registered ((server s).exec (World.init config g) es) :=
    (Registered.init config g).run hv
  obtain ⟨cl, hcl⟩ : ∃ cl, st.clients.find? c = some cl := hw.registry.active c hactive
  have hnicked : Nicked s st :=
    Nicked.run (fun j cl h => by simp [World.init, State.init] at h) es
  rw [← hnicked c cl hcl]
  simp only [State.getActive, hactive, State.getClient, hcl]
  rfl

-- Whoever keeps the turn through a tock had it before.
theorem activeConn_of_turnPart {st : State} {c : Handle} (h : (turnPart st).activeConn = some c) :
    st.activeConn = some c := by
  rw [turnPart_activeConn] at h
  split at h
  · cases h
  · exact h

-- The line shows the name of the player and nothing else exactly when every
-- unit of the name stands for itself in markup, and holds text alone exactly
-- when no unit of it opens a tag.
theorem nick_is_text_iff (refs : Markup.Refs) (s : Endpoint) (config : Config) (g : Game)
    (es : List Event) (hv : (server s).Valid (World.init config g) es) (hdl c : Handle)
    (hne : hdl ≠ c) :
    let st := ((server s).exec (World.init config g) es).st
    (turnPart st).activeConn = some c →
    ∀ data rest h, sends hdl (tock s hdl st).out = data :: rest → readHeader data = some h →
      ∃ name, Percent.decode (units (wireNick (pathNick s c))) = some name ∧
        (setStatus refs (renderQueueStatus h).2 = some (displayedName name ++ doingTheirBest) ↔
          Markup.Plain refs (name ++ [32])) ∧
        ((setStatus refs (renderQueueStatus h).2).isSome = true ↔
          Markup.CharacterData (name ++ [32])) := by
  intro st hactive data rest h hdata hread
  have hnick : st.getActive.nick = pathNick s c :=
    active_nick hv (activeConn_of_turnPart hactive)
  rw [tock_sends] at hdata
  split at hdata
  · obtain rfl := (List.cons.inj hdata).1
    rw [readHeader_tileLoop, hnick] at hread
    obtain ⟨name, hname, rfl⟩ := Option.map_eq_some_iff.mp hread
    refine ⟨name, hname, ?_⟩
    have hline : ∀ k n m, (renderQueueStatus { serverHeader hdl st name with
        playerCount := k, dimx := n, dimy := m }).2.text = displayedName name ++ doingTheirBest := by
      intro k n m
      simp [renderQueueStatus, serverHeader, hactive, hne.symm]
    unfold setStatus
    rw [hline, Markup.innerHTML_self_iff, Markup.innerHTML_isSome_iff, plain_status_iff,
      characterData_status_iff]
    exact ⟨Iff.rfl, Iff.rfl⟩
  · cases hdata

namespace Sample

-- The reference &lt; as the only one.
def lessThan : Markup.Refs where
  ref rest := if rest.take 3 = [108, 116, 59] then some (3, [60]) else none
  short rest n stands h := by
    split at h
    · rename_i hlt
      obtain ⟨rfl, rfl⟩ := Prod.mk.inj (Option.some.inj h)
      have hlen : (rest.take 3).length = 3 := congrArg List.length hlt
      rw [List.length_take] at hlen
      exact ⟨by decide, by omega⟩
    · cases h
  noTag rest n stands h := by
    split at h
    · rename_i hlt
      obtain ⟨rfl, rfl⟩ := Prod.mk.inj (Option.some.inj h)
      rw [hlt]
      decide
    · cases h
  space s t := by
    match s with
    | [] => simp
    | [a] => simp
    | [a, b] => simp
    | a :: b :: c :: s => simp

-- Connection 0 plays, connection 1 watches.
def audience : List Event := [.opened 0, .opened 1, .message 0 [116]]

end Sample

theorem nick_is_text_iff_sample :
    let st := ((server Sample.endpoint).exec (World.init Sample.config (Sample.game 64))
      Sample.audience).st
    ∀ h, readHeader (tileLoop 1 st).bytes = some h →
      setStatus Sample.lessThan (renderQueueStatus h).2 =
        some (literal "urist" ++ doingTheirBest) := by
  intro st h hread
  have hsends : sends 1 (tock Sample.endpoint 1 st).out =
      [(tileLoop 1 st).bytes, cursorPacket 1 (tock Sample.endpoint 1 st).state] := by
    rw [tock_sends, if_pos ⟨rfl, rfl⟩]
  obtain ⟨name, hname, hreads, -⟩ := nick_is_text_iff Sample.lessThan Sample.endpoint Sample.config
    (Sample.game 64) Sample.audience ⟨⟨rfl, rfl⟩, ⟨rfl, rfl⟩, ⟨rfl, rfl⟩, trivial⟩ 1 0
    (by decide) rfl _ _ h hsends hread
  have hurist : name = literal "urist" := Option.some.inj (hname.symm.trans (by decide))
  rw [hurist] at hreads
  exact hreads.mpr (by decide)

-- A player by the name of <b>: the page of another one gets an element.
theorem nick_opens_element :
    let s := pageOf "<b>".toList []
    let st := ((server s).exec (World.init Sample.config (Sample.game 64)) Sample.audience).st
    ∃ h, readHeader (tileLoop 1 st).bytes = some h ∧
      (renderQueueStatus h).2.text = literal "<b>" ++ doingTheirBest ∧
      ∀ refs, setStatus refs (renderQueueStatus h).2 = none := by
  intro s st
  have hread : (readHeader (tileLoop 1 st).bytes).map (fun h => (renderQueueStatus h).2.text) =
      some (literal "<b>" ++ doingTheirBest) := by
    rw [readHeader_tileLoop]
    decide
  obtain ⟨h, hh, htext⟩ := Option.map_eq_some_iff.mp hread
  refine ⟨h, hh, htext, fun refs => ?_⟩
  have hmarkup : ¬Markup.CharacterData (literal "<b>" ++ doingTheirBest) := by decide
  rw [setStatus, htext, ← Option.not_isSome_iff_eq_none, Markup.innerHTML_isSome_iff]
  exact hmarkup

end WebFort
