import WebFort.Update.Steps
import WebFort.Loop

namespace WebFort

open Library

instance (s : Endpoint) (hdl : Handle) (st : State) : Decidable (admits s hdl st) :=
  inferInstanceAs (Decidable (_ ∧ _ ∧ _))

-- What a handler takes for the position of a client that has no camera of its
-- own: the seed of on_open, the base of cursorMove and of a first CamMove, the
-- position in the packet of tock.
def baseRead (s : Endpoint) (st : State) : Step → Option Camera
  | .opened hdl => if admits s hdl st then some (openClient s hdl st).cam else none
  | .message hdl payload =>
      match parseMessage payload with
      | .cursorMove _ _ | .camMove _ _ _ =>
          match st.clients.find? hdl with
          | none => none
          | some cl =>
              if st.activeConn = some hdl ∨ cl.hasOwnCam then none else some (viewport st cl)
      | .update =>
          if (st.getClient hdl).hasOwnCam then none else some (viewport st (st.getClient hdl))
      | _ => none
  | _ => none

namespace Midway

-- The viewport at the borders of this tick and of the one before.
def borders (m : Midway) : List Camera :=
  [m.tick.begun, m.tick.ended, m.lastTick.begun, m.lastTick.ended]

-- The camera of a client that the pass has in the viewport.
def switchedTo (m : Midway) : Option Camera := m.pass.bind Pass.switched

-- The viewport is where the tick leaves it in the end, except while a pass has
-- it somewhere else.
structure Sound (m : Midway) : Prop where
  window : m.st.game.window = m.switchedTo.getD m.tick.ended
  save : ∀ p, m.pass = some p → p.save = m.tick.ended

theorem Sound.init (config : Config) (g : Game) : (Midway.init config g).Sound where
  window := rfl
  save _ hp := nomatch hp

variable {s : Endpoint} {m : Midway} {p : Pass}

theorem Sound.nextClient (h : m.Sound) (hp : m.pass = some p) (hdl : Handle) {st : State}
    (hst : st.game.window = m.st.game.window) : (m.nextClient p hdl st).Sound where
  window := by
    have hw := h.window
    unfold switchedTo at hw
    rw [hp] at hw
    exact hst.trans hw
  save := by
    rintro q ⟨⟩
    exact h.save p hp

theorem Sound.visit (h : m.Sound) (hp : m.pass = some p) (hdl : Handle) :
    (m.visit p hdl).Sound := by
  unfold Midway.visit
  split
  · exact h.nextClient hp hdl rfl
  · split
    · exact h.nextClient hp hdl rfl
    · split
      · exact h.nextClient hp hdl rfl
      · refine ⟨rfl, ?_⟩
        rintro q ⟨⟩
        exact h.save p hp

theorem renderTop_window (render : Game → RenderEffect) (g : Game) :
    (renderTop render g).window = g.window := by
  unfold renderTop
  split <;> rfl

theorem Sound.advance (h : m.Sound) (hp : m.pass = some p) : (m.advance p).Sound := by
  unfold Midway.advance
  split
  · exact h.nextClient hp _ (renderTop_window _ _)
  · exact h.visit hp _
  · exact ⟨h.save p hp, fun q hq => nomatch hq⟩

theorem Sound.next (h : m.Sound) (e : Step) (he : e.enabled m) :
    ((threads s).next m e).Sound := by
  have hgame : ∀ st : State, st.game = m.st.game → ({ m with st := st } : Midway).Sound :=
    fun st hst => ⟨(congrArg Game.window hst).trans h.window, h.save⟩
  cases e with
  | game g =>
      have hidle : m.pass = none := he
      refine ⟨?_, fun p hp => nomatch hidle.symm.trans hp⟩
      simp [threads, Step.next, switchedTo, hidle, State.atGame]
  | update df =>
      refine ⟨rfl, ?_⟩
      rintro p ⟨⟩
      rfl
  | advance =>
      cases hp : m.pass with
      | none => simpa [threads, Step.next, hp] using h
      | some p => simpa [threads, Step.next, hp] using h.advance hp
  | clock time => exact ⟨h.window, h.save⟩
  | opened hdl => exact hgame _ (handle_game s (.opened hdl) m.st)
  | message hdl payload => exact hgame _ (handle_game s (.message hdl payload) m.st)
  | closed hdl => exact hgame _ (handle_game s (.closed hdl) m.st)

end Midway

-- A base is the viewport as the handler finds it.
theorem baseRead_eq {s : Endpoint} {st : State} {e : Step} {c : Camera}
    (h : baseRead s st e = some c) : c = st.game.window := by
  have hview : ∀ cl : Client, cl.hasOwnCam = false → viewport st cl = st.game.window := by
    intro cl hown
    simp [viewport, hown, Game.window]
  cases e with
  | opened hdl =>
      unfold baseRead at h
      simp only [Option.ite_none_right_eq_some, Option.some.injEq] at h
      exact h.2.symm
  | message hdl payload =>
      have hspectator : ∀ found : Option Client, (match found with
          | none => none
          | some cl => if st.activeConn = some hdl ∨ cl.hasOwnCam = true then none
              else some (viewport st cl)) = some c → c = st.game.window := by
        intro found hfound
        cases found with
        | none => cases hfound
        | some cl =>
            obtain ⟨hbase, hcam⟩ := Option.ite_none_left_eq_some.mp hfound
            have hown : cl.hasOwnCam = false := by simpa using (not_or.mp hbase).2
            exact (Option.some.inj hcam).symm.trans (hview cl hown)
      unfold baseRead at h
      dsimp only at h
      cases hp : parseMessage payload with
      | cursorMove x y =>
          rw [hp] at h
          exact hspectator _ h
      | camMove dx dy dz =>
          rw [hp] at h
          exact hspectator _ h
      | update =>
          rw [hp] at h
          obtain ⟨hown, hcam⟩ := Option.ite_none_left_eq_some.mp h
          exact (Option.some.inj hcam).symm.trans (hview _ (by simpa using hown))
      | _ =>
          rw [hp] at h
          cases h
  | _ => cases h

-- Every base is a position the viewport had at a border of this tick or the
-- last, exactly when handlers find the viewport moved only to such a position.
theorem viewport_lag_iff (s : Endpoint) (config : Config) (g : Game) (es : List Step)
    (hv : (threads s).Valid (Midway.init config g) es) :
    (threads s).Each (fun m e => ∀ c, baseRead s m.st e = some c → c ∈ m.borders)
        (Midway.init config g) es ↔
      (threads s).Each
        (fun m e => baseRead s m.st e ≠ none → ∀ c, m.switchedTo = some c → c ∈ m.borders)
        (Midway.init config g) es := by
  refine (threads s).each_iff Midway.Sound _ _ (fun m e h he => h.next e he) ?_ _ es
    (Midway.Sound.init config g) hv
  intro m e h _
  have hwindow := h.window
  constructor
  · intro hall hread c hc
    obtain ⟨b, hb⟩ := Option.ne_none_iff_exists'.mp hread
    have hcb : b = c := by rw [baseRead_eq hb, hwindow, hc, Option.getD_some]
    exact hcb ▸ hall b hb
  · intro hall b hb
    rw [baseRead_eq hb, hwindow]
    cases hc : m.switchedTo with
    | none => simp [Midway.borders]
    | some c => exact hall (by simp [hb]) c hc

-- Between two ticks, and in a pass up to its first move, the lag is none.
theorem viewport_lag_iff_sample :
    (threads Sample.endpoint).Each
        (fun m e => ∀ c, baseRead Sample.endpoint m.st e = some c → c ∈ m.borders)
        (Midway.init Sample.config (Sample.game 64))
        [.opened 0, .game (Sample.game 64), .update Sample.df, .message 0 [114, 1, 1]] ↔
      (threads Sample.endpoint).Each
        (fun m e => baseRead Sample.endpoint m.st e ≠ none →
          ∀ c, m.switchedTo = some c → c ∈ m.borders)
        (Midway.init Sample.config (Sample.game 64))
        [.opened 0, .game (Sample.game 64), .update Sample.df, .message 0 [114, 1, 1]] :=
  viewport_lag_iff Sample.endpoint Sample.config (Sample.game 64) _
    ⟨trivial, rfl, rfl, trivial, trivial⟩

-- Client 0 has moved ten tiles to the right; while it is drawn, client 1 moves
-- its mouse over the first column.
theorem camera_of_another :
    let run : List Step := [.opened 0, .message 0 [117, 10, 0, 0], .opened 1, .update Sample.df,
      .advance, .message 1 [114, 0, 0]]
    (threads Sample.endpoint).Valid (Midway.init Sample.config (Sample.game 64)) run ∧
      ¬(threads Sample.endpoint).Each
        (fun m e => ∀ c, baseRead Sample.endpoint m.st e = some c → c ∈ m.borders)
        (Midway.init Sample.config (Sample.game 64)) run := by
  intro run
  refine ⟨⟨trivial, trivial, trivial, rfl, nofun, trivial, trivial⟩, fun h => ?_⟩
  have hread := h.2.2.2.2.2.1 ⟨10, 0, 0⟩ (by decide)
  exact absurd hread (by decide)

end WebFort
