import WebFort.System.Lemmas
import WebFort.Sample
import WebFort.Library.Balance
import Mathlib.Algebra.Ring.Int.Defs

namespace WebFort

open Library

-- The three atomic counters g_active_cam_dx, _dy and _dz.
inductive Axis
  | x
  | y
  | z
  deriving DecidableEq

namespace State

def queued (st : State) : Axis → Int
  | .x => st.activeCamDx
  | .y => st.activeCamDy
  | .z => st.activeCamDz

def setQueued (st : State) (a : Axis) (v : Int) : State :=
  match a with
  | .x => { st with activeCamDx := v }
  | .y => { st with activeCamDy := v }
  | .z => { st with activeCamDz := v }

-- fetch_add wraps around.
def fetchAdd (st : State) (a : Axis) (d : Int) : State := st.setQueued a (int32 (st.queued a + d))

end State

def Camera.along (c : Camera) : Axis → Int
  | .x => c.x
  | .y => c.y
  | .z => c.z

-- How far the main thread is with plugin_onupdate: its local variables dx, dy
-- and dz from one exchange to the next, and the code behind their block.
inductive Main
  | idle
  | begun
  | tookX (dx : Int)
  | tookXY (dx dy : Int)
  | took (deltas : Camera)
  -- *window_x/y/z has the sums and is not clamped yet.
  | added (deltas : Camera)
  | applied

-- What it has taken out of the counters and not added yet.
def Main.held : Main → Axis → Int
  | .tookX dx, .x => dx
  | .tookXY dx _, .x => dx
  | .tookXY _ dy, .y => dy
  | .took deltas, a => deltas.along a
  | _, _ => 0

structure Counting where
  st : State
  -- The calls of fetch_add still to be made by the handler of a CamMove.
  adding : List (Axis × Int)
  main : Main

inductive CountStep
  -- A handler, a CamMove of the active player only up to its first fetch_add.
  | handler (e : Event)
  | fetchAdd
  | game (g : Game)
  -- plugin_onupdate begins.
  | update
  | exchange
  -- *window_x += dx and the like.
  | scroll
  | clamp
  -- The rest of plugin_onupdate.
  | finish (df : Df)

-- What the handler is about to add, when the message is a CamMove of a
-- registered client that has the turn.
def accepted (st : State) : Event → Option Camera
  | .message hdl payload =>
      match parseMessage payload with
      | .camMove dx dy dz =>
          if st.registered hdl ∧ st.activeConn = some hdl then some ⟨int8 dx, int8 dy, int8 dz⟩
          else none
      | _ => none
  | _ => none

-- The steps that write *window_x/y/z.
def CountStep.MovesWindow : CountStep → Prop
  | .game _ => True
  | .scroll => True
  | .clamp => True
  | .finish _ => True
  | _ => False

def Event.IsHandler : Event → Prop
  | .opened _ => True
  | .message _ _ => True
  | .closed _ => True
  | _ => False

def Camera.moves (deltas : Camera) : Prop := deltas.x ≠ 0 ∨ deltas.y ≠ 0 ∨ deltas.z ≠ 0

instance (deltas : Camera) : Decidable deltas.moves := instDecidableOr

def scrollWindow (deltas : Camera) (st : State) : State :=
  if deltas.moves then
    st.withGame fun g => g.setWindow ⟨int32 (g.window.x + deltas.x), int32 (g.window.y + deltas.y),
      int32 (g.window.z + deltas.z)⟩
  else st

def clampWindow (deltas : Camera) (st : State) : State :=
  if deltas.moves then
    (st.withGame fun g => g.setWindow (clampCamera g g.window)).withActive Client.clearMod
  else st

def afterDrain (df : Df) (st : State) : Res :=
  ((flushInputQueue (syncCamera st)).andThen fun st =>
    (flushMouseQueue df st).andThen fun st => restampMouse df st).andThen fun st =>
      .ok (updateGraphics df (renderClients df (captureScreenBuffer st)))

namespace Counting

def init (config : Config) (g : Game) : Counting := ⟨State.init config g, [], .idle⟩

-- One handler at a time; the game belongs to the main thread.
def enabled (m : Counting) : CountStep → Prop
  | .handler e => m.adding = [] ∧ e.IsHandler
  | .fetchAdd => m.adding ≠ []
  | .game _ => m.main = .idle
  | .update => m.main = .idle
  | .exchange => m.main = .begun ∨ (∃ dx, m.main = .tookX dx) ∨ ∃ dx dy, m.main = .tookXY dx dy
  | .scroll => ∃ deltas, m.main = .took deltas
  | .clamp => ∃ deltas, m.main = .added deltas
  | .finish _ => m.main = .applied

def next (s : Endpoint) (m : Counting) : CountStep → Counting
  | .handler e =>
      match accepted m.st e with
      | some d => { m with adding := [(.x, d.x), (.y, d.y), (.z, d.z)] }
      | none => { m with st := (handle s e m.st).state }
  | .fetchAdd =>
      match m.adding with
      | [] => m
      | (a, d) :: rest => { m with st := m.st.fetchAdd a d, adding := rest }
  | .game g => { m with st := m.st.atGame g }
  | .update => { m with main := .begun }
  | .exchange =>
      match m.main with
      | .begun => { m with st := m.st.setQueued .x 0, main := .tookX (m.st.queued .x) }
      | .tookX dx => { m with st := m.st.setQueued .y 0, main := .tookXY dx (m.st.queued .y) }
      | .tookXY dx dy => { m with st := m.st.setQueued .z 0, main := .took ⟨dx, dy, m.st.queued .z⟩ }
      | _ => m
  | .scroll =>
      match m.main with
      | .took deltas => { m with st := scrollWindow deltas m.st, main := .added deltas }
      | _ => m
  | .clamp =>
      match m.main with
      | .added deltas => { m with st := clampWindow deltas m.st, main := .applied }
      | _ => m
  | .finish df => { m with st := (afterDrain df m.st).state, main := .idle }

-- The deltas of an axis that are still with the handler.
def adds (m : Counting) (a : Axis) : Int :=
  ((m.adding.filter fun p => p.1 = a).map Prod.snd).sum

-- All that is between the message and the viewport.
def stock (a : Axis) (m : Counting) : Int := m.st.queued a + m.main.held a + m.adds a

end Counting

def counting (s : Endpoint) : Machine Counting CountStep := ⟨Counting.enabled, Counting.next s⟩

-- The deltas of the CamMoves that come from a client that has the turn.
def received (a : Axis) (m : Counting) : CountStep → List Int
  | .handler e => (accepted m.st e).toList.map fun d => d.along a
  | _ => []

-- How far *window_x/y/z goes at a step. Left out are the moves that are not of
-- the plugin's adding: DF's, before an update and while it is fed, and clamps.
def scrolled (s : Endpoint) (a : Axis) (m : Counting) : CountStep → List Int
  | .game _ => []
  | .clamp => []
  | .finish _ => []
  | e => [(m.next s e).st.game.window.along a - m.st.game.window.along a]

-- No fetch_add and no addition to *window_x/y/z runs over.
def NoOverflow (m : Counting) : CountStep → Prop
  | .fetchAdd => ∀ a d rest, m.adding = (a, d) :: rest →
      -2 ^ 31 ≤ m.st.queued a + d ∧ m.st.queued a + d < 2 ^ 31
  | .scroll => ∀ deltas, m.main = .took deltas → ∀ a,
      -2 ^ 31 ≤ m.st.game.window.along a + deltas.along a ∧
        m.st.game.window.along a + deltas.along a < 2 ^ 31
  | _ => True

section Counters

variable {st st' : State}

theorem queued_setQueued (st : State) (a b : Axis) (v : Int) :
    (st.setQueued a v).queued b = if b = a then v else st.queued b := by
  cases a <;> cases b <;> rfl

theorem setQueued_game (st : State) (a : Axis) (v : Int) : (st.setQueued a v).game = st.game := by
  cases a <;> rfl

theorem queued_congr (hx : st'.activeCamDx = st.activeCamDx) (hy : st'.activeCamDy = st.activeCamDy)
    (hz : st'.activeCamDz = st.activeCamDz) : st'.queued = st.queued := by
  funext a
  cases a
  · exact hx
  · exact hy
  · exact hz

theorem setActive_queued (newc : Option Handle) (st : State) :
    (setActive newc st).state.queued = st.queued := by
  obtain ⟨_, _, _, _, _, _, h⟩ := setActive_state newc st
  rw [h]
  exact queued_congr rfl rfl rfl

theorem tock_queued (s : Endpoint) (hdl : Handle) (st : State) :
    (tock s hdl st).state.queued = st.queued := by
  have hturn : (turnPart st).queued = st.queued := by
    obtain ⟨timedOut, h | h⟩ := turnPart_state st
    · rw [h]
      exact queued_congr rfl rfl rfl
    · rw [h, setActive_queued]
      exact queued_congr rfl rfl rfl
  rw [tock_state, ← hturn]
  exact queued_congr rfl rfl rfl

theorem onMessage_queued (s : Endpoint) (hdl : Handle) (payload : Bytes) (st : State)
    (h : accepted st (.message hdl payload) = none) :
    (onMessage s hdl payload st).state.queued = st.queued := by
  unfold onMessage
  cases hp : parseMessage payload with
  | keyEvent jsKey code jsmods =>
      obtain ⟨evs, hstate⟩ := keyEvent_state hdl st jsKey code jsmods
      simp only [Outcome.ok_state, hstate]
      exact queued_congr rfl rfl rfl
  | mouseEvent ev =>
      obtain ⟨evs, hstate⟩ := mouseEvent_state hdl st ev
      simp only [Outcome.ok_state, hstate]
      exact queued_congr rfl rfl rfl
  | cursorMove x y =>
      obtain ⟨f, -, hstate⟩ := cursorMove_state hdl st x y
      simp only [Outcome.ok_state, hstate]
      exact queued_congr rfl rfl rfl
  | refreshScreen => exact queued_congr rfl rfl rfl
  | camMove dx dy dz =>
      simp only [accepted, hp] at h
      simp only [Outcome.ok_state, camMove]
      split at h
      · cases h
      · rename_i hnot
        split
        · rename_i hreg
          rw [if_neg fun hact => hnot ⟨hreg, hact⟩]
          exact queued_congr rfl rfl rfl
        · rfl
  | requestTurn =>
      simp only [requestTurn]
      split
      · exact setActive_queued none st
      · split
        · exact setActive_queued (some hdl) st
        · rfl
  | update => exact tock_queued s hdl st

-- Nobody but a CamMove with the turn touches the counters.
theorem handle_queued (s : Endpoint) {e : Event} (he : e.IsHandler) (h : accepted st e = none) :
    (handle s e st).state.queued = st.queued := by
  cases e with
  | opened hdl =>
      show (onOpen s hdl st).state.queued = _
      rcases onOpen_state s hdl st with hst | hst
      · rw [hst]
      · rw [hst]
        exact queued_congr rfl rfl rfl
  | message hdl payload => exact onMessage_queued s hdl payload st h
  | closed hdl =>
      show (onClose hdl st).state.queued = _
      cases hcl : st.clients.find? hdl with
      | none =>
          rw [onClose_absent hcl]
          exact queued_congr rfl rfl rfl
      | some cl =>
          have hrelease : (releaseTurn hdl st).queued = st.queued := by
            unfold releaseTurn
            split
            · exact setActive_queued none st
            · rfl
          rw [onClose_registered hcl, ← hrelease]
          exact queued_congr rfl rfl rfl
  | game g => exact he.elim
  | update g df => exact he.elim

theorem withActive_queued (st : State) (f : Client → Client) :
    (st.withActive f).queued = st.queued := by
  obtain ⟨clients, h⟩ := withActive_eq st f
  rw [h]
  exact queued_congr rfl rfl rfl

theorem scrollWindow_queued (deltas : Camera) (st : State) :
    (scrollWindow deltas st).queued = st.queued := by
  unfold scrollWindow
  split
  · exact queued_congr rfl rfl rfl
  · rfl

theorem clampWindow_queued (deltas : Camera) (st : State) :
    (clampWindow deltas st).queued = st.queued := by
  unfold clampWindow
  split
  · exact (withActive_queued _ _).trans (queued_congr rfl rfl rfl)
  · rfl

theorem along_eq_zero {deltas : Camera} (h : ¬deltas.moves) (a : Axis) : deltas.along a = 0 := by
  have hzero : deltas.x = 0 ∧ deltas.y = 0 ∧ deltas.z = 0 := by
    unfold Camera.moves at h
    omega
  cases a
  · exact hzero.1
  · exact hzero.2.1
  · exact hzero.2.2

-- The window gets the deltas.
theorem scrollWindow_along {deltas : Camera} (hfits : ∀ a,
    -2 ^ 31 ≤ st.game.window.along a + deltas.along a ∧
      st.game.window.along a + deltas.along a < 2 ^ 31) (a : Axis) :
    (scrollWindow deltas st).game.window.along a =
      st.game.window.along a + deltas.along a := by
  unfold scrollWindow
  split
  · cases a
    · exact int32_of_bounds (hfits .x).1 (hfits .x).2
    · exact int32_of_bounds (hfits .y).1 (hfits .y).2
    · exact int32_of_bounds (hfits .z).1 (hfits .z).2
  · rename_i hnot
    rw [along_eq_zero hnot, add_zero]

theorem clampWindow_window {deltas : Camera} (h : deltas.moves) :
    (clampWindow deltas st).game.window = clampCamera st.game st.game.window := by
  unfold clampWindow
  rw [if_pos h, withActive_game]
  rfl

theorem Touched.queued (h : Touched st st') : st'.queued = st.queued := by
  obtain ⟨_, _, _, _, _, rfl⟩ := h
  exact queued_congr rfl rfl rfl

theorem drawn_queued (df : Df) (st : State) :
    (updateGraphics df (renderClients df (captureScreenBuffer st))).queued = st.queued := by
  have hcapture : (captureScreenBuffer st).queued = st.queued := by
    rcases ready_or_not st.game.gps with ⟨screen, hs, hk⟩ | h
    · rw [captureScreenBuffer_ready hs hk]
      exact queued_congr rfl rfl rfl
    · rw [captureScreenBuffer_not_ready h]
  rw [← hcapture]
  unfold updateGraphics renderClients
  simp only
  split <;> exact queued_congr rfl rfl rfl

theorem afterDrain_queued (df : Df) (st : State) : (afterDrain df st).state.queued = st.queued := by
  have htrans : ∀ a b c : State, b.queued = a.queued → c.queued = b.queued → c.queued = a.queued :=
    fun _ _ _ hab hbc => hbc.trans hab
  refine Outcome.andThen_frame (R := fun a b : State => b.queued = a.queued) htrans ?_
    fun t => drawn_queued df t
  refine Outcome.andThen_frame (R := fun a b : State => b.queued = a.queued) htrans ?_ fun t => ?_
  · exact (queued_congr rfl rfl rfl).trans (withActive_queued st _)
  · refine Outcome.andThen_frame (R := fun a b : State => b.queued = a.queued) htrans ?_
      fun t => (restampMouse_touched df t).queued
    exact (applyMouseEvents_touched df _ _).queued.trans (queued_congr rfl rfl rfl)

end Counters

section Balance

variable {s : Endpoint} {m : Counting} {a : Axis}

theorem stock_of_held (h : m.main = .idle) (hadding : m.adding = []) :
    m.stock a = m.st.queued a := by
  unfold Counting.stock Counting.adds
  rw [h, hadding]
  simp [Main.held]

theorem next_game {e : CountStep} (hstill : ¬e.MovesWindow) (hen : m.enabled e) :
    (m.next s e).st.game = m.st.game := by
  cases e with
  | handler e =>
      simp only [Counting.next]
      split
      · rfl
      · rw [handle_game]
        cases e with
        | game g => exact hen.2.elim
        | update g df => exact hen.2.elim
        | _ => rfl
  | fetchAdd =>
      simp only [Counting.next]
      split
      · rfl
      · exact setQueued_game _ _ _
  | update => rfl
  | exchange =>
      simp only [Counting.next]
      split
      case h_4 => rfl
      all_goals exact setQueued_game _ _ _
  | game g => exact absurd trivial hstill
  | finish df => exact absurd trivial hstill
  | scroll => exact absurd trivial hstill
  | clamp => exact absurd trivial hstill

-- What leaves one of the three places is in the next, or in the window.
theorem stock_step {e : CountStep} (hen : m.enabled e) (hfits : NoOverflow m e) :
    (m.next s e).stock a + (scrolled s a m e).sum = m.stock a + (received a m e).sum := by
  have hstill : ∀ {m' : Counting}, m'.st.game = m.st.game →
      [m'.st.game.window.along a - m.st.game.window.along a].sum = 0 := by
    intro m' h
    rw [h]
    simp
  cases e with
  | handler e =>
      have hgame := next_game (s := s) (e := .handler e) not_false hen
      obtain ⟨hadding, he⟩ := hen
      simp only [scrolled, hstill hgame]
      cases hacc : accepted m.st e with
      | none =>
          have hq : (handle s e m.st).state.queued = m.st.queued := handle_queued s he hacc
          simp only [Counting.next, received, hacc, Counting.stock, Counting.adds, hq]
          rfl
      | some d =>
          simp only [Counting.next, received, hacc, Counting.stock, Counting.adds, hadding]
          cases a <;> simp [Camera.along]
  | fetchAdd =>
      have hgame := next_game (s := s) (e := .fetchAdd) not_false hen
      simp only [scrolled, hstill hgame]
      cases hadding : m.adding with
      | nil => exact absurd hadding hen
      | cons p rest =>
          obtain ⟨b, d⟩ := p
          obtain ⟨hlo, hhi⟩ := hfits b d rest hadding
          simp only [Counting.next, received, Counting.stock, Counting.adds, hadding,
            State.fetchAdd, queued_setQueued, int32_of_bounds hlo hhi]
          by_cases hab : a = b
          · subst hab
            simp
            omega
          · simp [hab, Ne.symm hab]
  | game g =>
      have hq : (m.st.atGame g).queued = m.st.queued := queued_congr rfl rfl rfl
      simp only [Counting.next, scrolled, received, Counting.stock, hq]
      rfl
  | update =>
      have hidle : m.main = .idle := hen
      have hgame : (m.next s .update).st.game = m.st.game := rfl
      simp only [scrolled, hstill hgame]
      simp only [Counting.next, received, Counting.stock, hidle]
      rfl
  | exchange =>
      have hgame := next_game (s := s) (e := .exchange) not_false hen
      simp only [scrolled, hstill hgame]
      rcases hen with h | ⟨dx, h⟩ | ⟨dx, dy, h⟩
      · simp only [Counting.next, received, Counting.stock, h, queued_setQueued]
        cases a <;> simp [Main.held, Counting.adds]
      · simp only [Counting.next, received, Counting.stock, h, queued_setQueued]
        cases a <;> simp [Main.held, Counting.adds]
      · simp only [Counting.next, received, Counting.stock, h, queued_setQueued]
        cases a <;> simp [Main.held, Camera.along, Counting.adds]
  | scroll =>
      obtain ⟨deltas, h⟩ := hen
      have halong := scrollWindow_along (hfits deltas h) a
      simp only [Counting.next, scrolled, received, Counting.stock, h, scrollWindow_queued, halong]
      simp [Main.held, Counting.adds]
      omega
  | clamp =>
      obtain ⟨deltas, h⟩ := hen
      simp only [Counting.next, scrolled, received, Counting.stock, h, clampWindow_queued]
      rfl
  | finish df =>
      have happlied : m.main = .applied := hen
      simp only [Counting.next, scrolled, received, Counting.stock, happlied, afterDrain_queued]
      rfl

end Balance

section Undisturbed

variable {s : Endpoint} {m : Counting}

-- A CamMove with nothing in between is the handler of System.lean.
theorem undisturbed_camMove {e : Event} {d : Camera} (hadding : m.adding = [])
    (hacc : accepted m.st e = some d) :
    (counting s).exec m [.handler e, .fetchAdd, .fetchAdd, .fetchAdd] =
      { m with st := (handle s e m.st).state } := by
  cases e with
  | message hdl payload =>
      have hstate : (handle s (.message hdl payload) m.st).state =
          ((m.st.fetchAdd .x d.x).fetchAdd .y d.y).fetchAdd .z d.z := by
        show (onMessage s hdl payload m.st).state = _
        unfold onMessage
        cases hp : parseMessage payload with
        | camMove dx dy dz =>
            simp only [accepted, hp] at hacc
            split at hacc
            · rename_i hturn
              obtain rfl := Option.some.inj hacc
              simp only [Outcome.ok_state, camMove, if_pos hturn.1, if_pos hturn.2]
              rfl
            · cases hacc
        | _ => simp only [accepted, hp, reduceCtorEq] at hacc
      have hstart : (counting s).next m (.handler (.message hdl payload)) =
          { m with adding := [(.x, d.x), (.y, d.y), (.z, d.z)] } := by
        simp only [counting, Counting.next, hacc]
      rw [Machine.exec_cons, hstart, hstate]
      show (⟨_, [], _⟩ : Counting) = _
      rw [← hadding]
      rfl
  | opened _ => cases hacc
  | closed _ => cases hacc
  | game _ => cases hacc
  | update _ _ => cases hacc

-- So is an update.
theorem undisturbed_drain (df : Df) (hidle : m.main = .idle) :
    (counting s).exec m [.update, .exchange, .exchange, .exchange, .scroll, .clamp, .finish df] =
      { m with st := (pluginOnupdate df m.st).state } := by
  let st := { m.st with activeCamDx := 0, activeCamDy := 0, activeCamDz := 0 }
  let deltas : Camera := ⟨m.st.activeCamDx, m.st.activeCamDy, m.st.activeCamDz⟩
  have hdrain : clampWindow deltas (scrollWindow deltas st) = drainCamera m.st := by
    unfold clampWindow scrollWindow
    by_cases hmoves : deltas.moves
    · rw [if_pos hmoves, if_pos hmoves]
      exact (if_pos hmoves).symm
    · rw [if_neg hmoves, if_neg hmoves]
      exact (if_neg hmoves).symm
  have hrest : (afterDrain df (drainCamera m.st)).state = (pluginOnupdate df m.st).state := rfl
  rw [← hrest, ← hdrain]
  show (⟨_, m.adding, .idle⟩ : Counting) = _
  rw [← hidle]
  rfl

end Undisturbed

-- In every run of the two threads, what the CamMoves of clients with the turn
-- have brought is in the viewport or still on its way there, and is in the
-- counters alone when neither thread is in the middle of it. The viewport is
-- then clamped. No other message changes a counter.
theorem cam_moves_conserved (s : Endpoint) (config : Config) (g : Game) (es : List CountStep)
    (hv : (counting s).Valid (Counting.init config g) es)
    (hfits : (counting s).Each NoOverflow (Counting.init config g) es) :
    let start := Counting.init config g
    let m := (counting s).exec start es
    (∀ a, ((counting s).trace (received a) start es).sum =
      ((counting s).trace (scrolled s a) start es).sum + m.st.queued a + m.main.held a + m.adds a) ∧
    (m.main = .idle → m.adding = [] → ∀ a, ((counting s).trace (received a) start es).sum =
      ((counting s).trace (scrolled s a) start es).sum + m.st.queued a) ∧
    (∀ deltas, m.main = .added deltas → deltas.moves →
      (m.next s .clamp).st.game.window = clampCamera m.st.game m.st.game.window) ∧
    ∀ e, e.IsHandler → accepted m.st e = none →
      (m.next s (.handler e)).st.queued = m.st.queued ∧ (m.next s (.handler e)).adding = m.adding := by
  intro start m
  have hbalance : ∀ a, m.stock a + ((counting s).trace (scrolled s a) start es).sum =
      ((counting s).trace (received a) start es).sum := by
    intro a
    have hempty : start.stock a = 0 := by cases a <;> rfl
    have hrun := (counting s).exec_balance (Counting.stock a) (received a) (scrolled s a) NoOverflow
      (fun m e hen hp => stock_step hen hp) start es hv hfits
    rw [hempty, zero_add] at hrun
    exact hrun
  refine ⟨fun a => ?_, fun hidle hadding a => ?_, fun deltas hadded hmoves => ?_, fun e he hacc => ?_⟩
  · have hrun := hbalance a
    unfold Counting.stock at hrun
    omega
  · have hrun := hbalance a
    rw [stock_of_held hidle hadding] at hrun
    omega
  · have hnext : m.next s .clamp = { m with st := clampWindow deltas m.st, main := .applied } := by
      simp only [Counting.next, hadded]
    rw [hnext]
    exact clampWindow_window hmoves
  · have hnext : m.next s (.handler e) = { m with st := (handle s e m.st).state } := by
      simp only [Counting.next, hacc]
    rw [hnext]
    exact ⟨handle_queued s he hacc, rfl⟩

namespace Sample

-- An update comes between the calls of fetch_add of one CamMove, the player
-- gives up the turn, and moves on as a spectator.
def torn : List CountStep :=
  [.handler (.opened 0), .handler (.message 0 [116]), .handler (.message 0 [117, 3, 255, 2]),
    .fetchAdd, .update, .exchange, .fetchAdd, .exchange, .exchange, .fetchAdd,
    .scroll, .clamp, .handler (.message 0 [116]), .handler (.message 0 [117, 5, 5, 5]), .finish df]

theorem torn_valid : (counting endpoint).Valid (Counting.init config (game 64)) torn :=
  ⟨⟨rfl, trivial⟩, ⟨rfl, trivial⟩, ⟨rfl, trivial⟩, List.cons_ne_nil _ _, rfl, Or.inl rfl,
    List.cons_ne_nil _ _, Or.inr (Or.inl ⟨_, rfl⟩), Or.inr (Or.inr ⟨_, _, rfl⟩),
    List.cons_ne_nil _ _, ⟨_, rfl⟩, ⟨_, rfl⟩, ⟨rfl, trivial⟩, ⟨rfl, trivial⟩, rfl, trivial⟩

theorem torn_fits : (counting endpoint).Each NoOverflow (Counting.init config (game 64)) torn := by
  have hadd : ∀ (m : Counting) (b : Axis) (v : Int) (more : List (Axis × Int)),
      m.adding = (b, v) :: more → -2 ^ 31 ≤ m.st.queued b + v → m.st.queued b + v < 2 ^ 31 →
      NoOverflow m .fetchAdd := by
    intro m b v more hadding hlo hhi a d rest h
    obtain ⟨hpair, -⟩ := List.cons.inj (hadding.symm.trans h)
    obtain ⟨rfl, rfl⟩ := Prod.mk.inj hpair
    exact ⟨hlo, hhi⟩
  have hscroll : ∀ (m : Counting) (d : Camera), m.main = .took d →
      (∀ a, -2 ^ 31 ≤ m.st.game.window.along a + d.along a ∧
        m.st.game.window.along a + d.along a < 2 ^ 31) → NoOverflow m .scroll := by
    intro m d h hfits deltas h'
    obtain rfl := Main.took.inj (h.symm.trans h')
    exact hfits
  exact ⟨trivial, trivial, trivial, hadd _ _ _ _ rfl (by decide) (by decide), trivial, trivial,
    hadd _ _ _ _ rfl (by decide) (by decide), trivial, trivial,
    hadd _ _ _ _ rfl (by decide) (by decide),
    hscroll _ _ rfl fun a => by cases a <;> decide, trivial, trivial, trivial, trivial, trivial⟩

end Sample

-- The step in z is left for the next update.
theorem cam_moves_conserved_sample :
    let start := Counting.init Sample.config (Sample.game 64)
    let m := (counting Sample.endpoint).exec start Sample.torn
    m.st.queued .z = 2 ∧
    ∀ a, ((counting Sample.endpoint).trace (received a) start Sample.torn).sum =
      ((counting Sample.endpoint).trace (scrolled Sample.endpoint a) start Sample.torn).sum + m.st.queued a := by
  refine ⟨by decide, ?_⟩
  exact (cam_moves_conserved Sample.endpoint Sample.config (Sample.game 64) Sample.torn
    Sample.torn_valid Sample.torn_fits).2.1 rfl rfl

end WebFort
