import WebFort.Library.Progress
import WebFort.Coherence
import WebFort.Header
import WebFort.Loop

namespace WebFort

open Library

-- The page of a connection whose packets take their time.

-- An exception leaves onMessage before the tiles are drawn.
def Page.onMessage (page : Page) (data : Bytes) : Page :=
  if (Percent.decode (activeNick data)).isSome then page.receive data else page

structure Web where
  circuit : Circuit
  page : Page

section Machine

variable (s : Endpoint) (c : Handle)

def Web.next (u : Web) (m : Move) : Web :=
  { circuit := Circuit.next s c u.circuit m
    page :=
      match m, u.circuit.down with
      | .receive _, data :: _ => u.page.onMessage data
      | _, _ => u.page }

def web : Machine Web Move := ⟨fun u m => Circuit.enabled c u.circuit m, Web.next s c⟩

-- The events of the plugin in a move.
def served (u : Web) : Move → List Event
  | .opened => [.opened c]
  | .deliver => (u.circuit.up.take 1).map (.message c)
  | .other e => [e]
  | _ => []

-- What the page shows when all that is on its way has arrived.
def Web.drained (u : Web) : Viewer :=
  ⟨u.circuit.world.st, u.circuit.down.foldl Page.receive u.page⟩

-- The plugin and a page that gets its packets at once.
def viewer : Machine Viewer Event := ⟨fun _ _ => True, view s c⟩

end Machine

structure Web.Open (c : Handle) (u : Web) : Prop where
  phase : u.circuit.world.phase c = .opened
  token : OneToken c u.circuit

section Steps

variable {s : Endpoint} {c : Handle} {u : Web}

theorem onMessage_legible {page : Page} {data : Bytes} (h : Legible data) :
    page.onMessage data = page.receive data := by
  unfold Page.onMessage
  split
  · rfl
  · rename_i hno
    have hhead : data.head? ≠ some 110 := by
      intro hhead
      have habort := h 0
      unfold pageOnMessage at habort
      rw [if_pos hhead, Option.not_isSome_iff_eq_none.mp hno] at habort
      exact habort rfl
    exact (if_neg hhead).symm

theorem phase_of_not_of {world : World} {e : Event} (he : ¬e.Of c) :
    (WebFort.next s world e).phase c = world.phase c := by
  cases e with
  | opened j => exact Function.update_of_ne (Ne.symm he) _ _
  | closed j => exact Function.update_of_ne (Ne.symm he) _ _
  | message _ _ => rfl
  | game _ => rfl
  | update _ _ => rfl

theorem sends_of_not_of (s : Endpoint) (st : State) {e : Event} (he : ¬e.Of c) :
    sends c (handle s e st).out = [] := by
  refine handle_sends s e st (fun h => ?_) fun h => ?_
  · obtain ⟨payload, rfl, -⟩ := h.exists
    exact he rfl
  · cases e with
    | opened _ => exact he h
    | closed _ => exact he h
    | message _ _ => exact h
    | game _ => exact h
    | update _ _ => exact h

-- The connection stays open: its own end is not among the moves.
theorem circuit_phase {k : Circuit} (hphase : k.world.phase c = .opened) {m : Move}
    (hen : Circuit.enabled c k m) : (Circuit.next s c k m).world.phase c = .opened := by
  cases m with
  | opened =>
      have hfresh : k.world.phase c = .fresh := hen.2
      exact absurd (hphase.symm.trans hfresh) (by decide)
  | deliver =>
      unfold Circuit.next
      cases k.up <;> exact hphase
  | receive nextFrame =>
      simp only [Circuit.next]
      split
      · exact hphase
      · split <;> exact hphase
  | fire => exact hphase
  | act payload => exact hphase
  | other e => exact (phase_of_not_of hen.2).trans hphase

theorem Web.Open.next (hu : u.Open c) {m : Move} (hen : (web s c).enabled u m)
    (ha : Answered s c u.circuit m) : ((web s c).next u m).Open c where
  token := oneToken_next hu.token hen ha
  phase := circuit_phase hu.phase hen

theorem next_receive {data : Bytes} {rest : List Bytes} (h : u.circuit.down = data :: rest)
    (nextFrame : Int) :
    ((web s c).next u (.receive nextFrame)).page = u.page.onMessage data ∧
      ((web s c).next u (.receive nextFrame)).circuit.down = rest ∧
      ((web s c).next u (.receive nextFrame)).circuit.world = u.circuit.world := by
  simp only [web, Web.next, h]
  refine ⟨trivial, ?_, ?_⟩
  · simp only [Circuit.next, h]
    split <;> rfl
  · simp only [Circuit.next, h]
    split <;> rfl

theorem next_deliver {payload : Bytes} {rest : List Bytes} (h : u.circuit.up = payload :: rest) :
    (web s c).next u .deliver =
      { u with circuit := { u.circuit with
          world := WebFort.next s u.circuit.world (.message c payload)
          up := rest
          down := u.circuit.down ++
            sends c (handle s (.message c payload) u.circuit.world.st).out } } := by
  simp only [web, Web.next, Circuit.next, h]

-- A move is some events of the plugin for the page that gets its packets at
-- once.
theorem drained_next (hu : u.Open c) {m : Move} (hen : (web s c).enabled u m) :
    (viewer s c).exec u.drained (served c u m) = ((web s c).next u m).drained := by
  cases m with
  | opened =>
      have hfresh : u.circuit.world.phase c = .fresh := hen.2
      exact absurd (hu.phase.symm.trans hfresh) (by decide)
  | deliver =>
      obtain ⟨payload, rest, hup, -⟩ := hen
      rw [next_deliver hup]
      simp only [served, hup, List.take_succ_cons, List.take_zero, List.map_cons, List.map_nil,
        Machine.exec_cons, Machine.exec_nil, Web.drained, List.foldl_append]
      rfl
  | receive nextFrame =>
      cases hdown : u.circuit.down with
      | nil => exact absurd hdown hen
      | cons data rest =>
          obtain ⟨hpage, hrest, hworld⟩ := next_receive (s := s) (c := c) hdown nextFrame
          have hlegible := (hu.token hu.phase).2 data (by rw [hdown]; exact List.mem_cons_self)
          rw [onMessage_legible hlegible] at hpage
          simp only [served, Machine.exec_nil, Web.drained, hpage, hrest, hworld, hdown,
            List.foldl_cons]
  | fire => rfl
  | act payload => rfl
  | other e =>
      simp only [served, Machine.exec_cons, Machine.exec_nil, Web.drained, web, Web.next,
        Circuit.next, List.foldl_append]
      rfl

end Steps

-- A screen of one size, a client that stays and keeps its kind of camera, and
-- nicks the page can read.
def Calm (s : Endpoint) (c : Handle) (w h : Nat) (u : Web) (m : Move) : Prop :=
  Answered s c u.circuit m ∧ ∀ e ∈ served c u m, (viewing s c w h).enabled u.drained e

section Coherence

variable {s : Endpoint} {c : Handle} {u : Web} {w h : Nat}

theorem served_cases (m : Move) : served c u m = [] ∨ ∃ e, served c u m = [e] := by
  cases m with
  | opened => exact Or.inr ⟨_, rfl⟩
  | other e => exact Or.inr ⟨e, rfl⟩
  | deliver =>
      cases hup : u.circuit.up with
      | nil => exact Or.inl (by simp [served, hup])
      | cons payload rest => exact Or.inr ⟨.message c payload, by simp [served, hup]⟩
  | receive _ => exact Or.inl rfl
  | fire => exact Or.inl rfl
  | act _ => exact Or.inl rfl

theorem steady_next (hw : 1 ≤ w ∧ w ≤ 256) (hh : 1 ≤ h ∧ h ≤ 256)
    (hb : (s c).processor.takesBinary = true) (hu : u.Open c) {cl : Client}
    (hs : Steady w h c u.drained cl) {m : Move} (hen : (web s c).enabled u m)
    (hcalm : Calm s c w h u m) : ∃ cl', Steady w h c ((web s c).next u m).drained cl' := by
  rw [← drained_next hu hen]
  rcases served_cases (c := c) (u := u) m with hnone | ⟨e, hone⟩
  · rw [hnone]
    exact ⟨cl, hs⟩
  · have hview : (viewing s c w h).enabled u.drained e :=
      hcalm.2 e (by rw [hone]; exact List.mem_singleton_self e)
    rw [hone]
    exact hs.step hw hh hb hview

theorem foldl_receive_of_no_update {packets : List Bytes} (page : Page)
    (h : ∀ data ∈ packets, isUpdatePacket data = false) :
    packets.foldl Page.receive page = page := by
  induction packets generalizing page with
  | nil => rfl
  | cons data packets ih =>
      have hhead : ¬data.head? = some 110 := of_decide_eq_false (h data List.mem_cons_self)
      rw [List.foldl_cons, Page.receive, if_neg hhead]
      exact ih page fun d hd => h d (List.mem_cons_of_mem _ hd)

end Coherence

-- However the packets of a connection are delayed in either direction, the
-- page is on its way to what it would be without delay: every marked tile is
-- on it as soon as the update packets on their way have arrived.
theorem delayed_coherent (s : Endpoint) (c : Handle) (w h : Nat) (u : Web) (moves : List Move)
    (hw : 1 ≤ w ∧ w ≤ 256) (hh : 1 ≤ h ∧ h ≤ 256) (hb : (s c).processor.takesBinary = true)
    (hopen : u.circuit.world.phase c = .opened) (htoken : OneToken c u.circuit)
    (hsize : u.circuit.world.st.game.HasSize w h)
    (hsync : Synchronised w h c u.circuit.world.st) (hcoh : Coherent w h c u.drained)
    (hv : (web s c).Valid u moves) (hcalm : (web s c).Each (Calm s c w h) u moves) :
    let u' := (web s c).exec u moves
    (viewer s c).exec u.drained ((web s c).trace (served c) u moves) = u'.drained ∧
    Coherent w h c u'.drained ∧
    ((∀ data ∈ u'.circuit.down, isUpdatePacket data = false) →
      Coherent w h c ⟨u'.circuit.world.st, u'.page⟩) := by
  intro u'
  have hstart : u.Open c := ⟨hopen, htoken⟩
  have hsame : (viewer s c).exec u.drained ((web s c).trace (served c) u moves) = u'.drained :=
    (web s c).exec_trace (viewer s c) Web.drained (served c) (Web.Open c) (Calm s c w h)
      (fun u m hu hen hcalm => ⟨hu.next hen hcalm.1, drained_next hu hen⟩) u moves hstart hv hcalm
  obtain ⟨cl, hcl, hs⟩ := hsync
  obtain ⟨cl₂, hcl₂, hc⟩ := hcoh
  obtain rfl : cl = cl₂ := Option.some.inj (hcl.symm.trans hcl₂)
  have hend : u'.Open c ∧ ∃ cl, Steady w h c u'.drained cl :=
    (web s c).exec_invariant_each (fun u => u.Open c ∧ ∃ cl, Steady w h c u.drained cl)
      (Calm s c w h)
      (fun u m hu hen hcalm => by
        obtain ⟨hu, cl, hs⟩ := hu
        exact ⟨hu.next hen hcalm.1, steady_next hw hh hb hu hs hen hcalm⟩)
      u moves ⟨hstart, cl, hsize, hcl, hs, hc⟩ hv hcalm
  obtain ⟨-, cl', hend⟩ := hend
  have hdrained : Coherent w h c u'.drained := ⟨cl', hend.client, hend.coherent⟩
  refine ⟨hsame, hdrained, fun hnone => ?_⟩
  unfold Web.drained at hdrained
  rwa [foldl_receive_of_no_update u'.page hnone] at hdrained

namespace Sample

def watchedWorld : World := ⟨watched, fun _ => .opened, true⟩

-- A page that has just connected.
def connected : Web := ⟨⟨watchedWorld, [[115], [110]], [], 0⟩, Page.blank⟩

theorem connected_token : OneToken 0 connected.circuit := fun _ =>
  ⟨by decide, fun _ h => absurd h List.not_mem_nil⟩

theorem watched_synchronised : (watched.getClient 0).Synchronised 2 2 watched := by
  unfold Client.Synchronised
  decide

theorem connected_coherent : Coherent 2 2 0 connected.drained := by
  have hmod : ∀ x < 2, ∀ y < 2, (watched.getClient 0).mod (Grid.index 2 x y) = 0 := by decide
  exact ⟨watched.getClient 0, rfl, fun p hp => absurd (hmod p.1 hp.1.1 p.2 hp.1.2) hp.2⟩

theorem nobody_readable (st : State) (h : st.getActive.nick = nobody) : Readable st.getActive.nick :=
  h ▸ readable_of_no_percent (by decide)

end Sample

-- DF draws another frame while the first one is on its way.
theorem delayed_coherent_sample :
    Coherent 2 2 0 ((web Sample.endpoint 0).exec Sample.connected
      [.deliver, .deliver, .other (.update (Sample.game 65) Sample.df), .receive 40]).drained := by
  refine (delayed_coherent Sample.endpoint 0 2 2 Sample.connected _ (by decide) (by decide)
    (by decide) rfl Sample.connected_token ⟨rfl, rfl⟩
    ⟨_, rfl, Sample.watched_synchronised⟩ Sample.connected_coherent ?_ ?_).2.1
  · exact ⟨⟨[115], [[110]], rfl, rfl, rfl⟩, ⟨[110], [], rfl, rfl, rfl⟩, ⟨trivial, id⟩,
      List.cons_ne_nil _ _, trivial⟩
  · refine ⟨⟨fun _ _ _ _ => ⟨rfl, Sample.nobody_readable _ rfl⟩, ?_⟩,
      ⟨fun _ _ _ _ => ⟨rfl, Sample.nobody_readable _ rfl⟩, ?_⟩, ⟨trivial, ?_⟩,
      ⟨trivial, fun _ h => absurd h List.not_mem_nil⟩, trivial⟩
    · intro e he
      obtain rfl := List.mem_singleton.mp he
      exact ⟨id, trivial, rfl⟩
    · intro e he
      obtain rfl := List.mem_singleton.mp he
      exact ⟨id, trivial, rfl⟩
    · intro e he
      obtain rfl := List.mem_singleton.mp he
      exact ⟨id, ⟨⟨rfl, rfl⟩, fun _ _ _ => ⟨rfl, rfl⟩⟩, rfl⟩

end WebFort
