import WebFort.Delay

namespace WebFort

open Library

-- The page catches up: while the client's screen stays as it is, a bounded
-- number of moves of the loop brings all of it onto the page.

-- The moves of the update loop.
def Move.loops : Move → Bool
  | .deliver => true
  | .receive _ => true
  | .fire => true
  | _ => false

def Move.acts : Move → Bool
  | .act _ => true
  | _ => false

-- The page has every tile of the client's screen.
def Viewer.Full (w h : Nat) (c : Handle) (v : Viewer) : Prop :=
  ∃ cl, v.st.clients.find? c = some cl ∧
    (mirror w h cl v.page).Shown Cell.wire fun p => p.1 < w ∧ p.2 < h

-- The screen of the client after an event is the one before.
def Viewer.Still (s : Endpoint) (c : Handle) (w h : Nat) (v : Viewer) (e : Event) : Prop :=
  ∀ t < w * h, ((view s c v e).st.getClient c).ownSc t = (v.st.getClient c).ownSc t

-- A calm move that leaves the client's screen as it is.
def Unchanging (s : Endpoint) (c : Handle) (w h : Nat) (u : Web) (m : Move) : Prop :=
  Calm s c w h u m ∧ ∀ e ∈ served c u m, u.drained.Still s c w h e

-- Now, and when what is on its way has arrived.
def Web.Caught (w h : Nat) (c : Handle) (u : Web) : Prop :=
  Viewer.Full w h c ⟨u.circuit.world.st, u.page⟩ ∧ Viewer.Full w h c u.drained

def Web.underway (u : Web) : Nat :=
  3 * u.circuit.down.length + 2 * u.circuit.timers + u.circuit.up.length

open Classical in
-- A packet is worth the move that takes it and what it leads to; the request
-- that completes the page puts two more on their way.
noncomputable def Web.remaining (w h : Nat) (c : Handle) (u : Web) : Nat :=
  u.underway + if Viewer.Full w h c u.drained then 0 else 6

section Full

variable {s : Endpoint} {c : Handle} {w h : Nat} {v : Viewer} {cl : Client} {e : Event}

theorem full_iff (hcl : v.st.clients.find? c = some cl) :
    v.Full w h c ↔ ∀ p : Nat × Nat, p.1 < w ∧ p.2 < h →
      v.page p = some (cl.ownSc (Grid.index h p.1 p.2)).wire := by
  refine ⟨fun ⟨cl', hcl', hshown⟩ => ?_, fun h => ⟨cl, hcl, h⟩⟩
  obtain rfl : cl = cl' := Option.some.inj (hcl.symm.trans hcl')
  exact hshown

-- A request that is answered.
theorem Steady.full_of_asks (hv : Steady w h c v cl) (hw : 1 ≤ w ∧ w ≤ 256) (hh : 1 ≤ h ∧ h ≤ 256)
    (hb : (s c).processor.takesBinary = true) (ha : e.Asks c) : (view s c v e).Full w h c := by
  obtain ⟨payload, rfl, hp⟩ := ha.exists
  obtain ⟨cl', hcl', hsend⟩ := tock_send hv.size hv.client hw hh hb hp
  exact ⟨cl', hcl', hv.coherent.shown_of_send hsend⟩

-- What the page has of a still screen it keeps.
theorem Steady.full_still (hv : Steady w h c v cl) {cl' : Client}
    (hcl' : (view s c v e).st.clients.find? c = some cl') (hstill : v.Still s c w h e) {page : Page}
    (hfull : Viewer.Full w h c ⟨v.st, page⟩) : Viewer.Full w h c ⟨(view s c v e).st, page⟩ := by
  have hown := (full_iff (v := ⟨v.st, page⟩) hv.client).mp hfull
  refine (full_iff (v := ⟨(view s c v e).st, page⟩) hcl').mpr fun p hp => ?_
  have hcell := hstill _ (Grid.index_lt hp.1 hp.2)
  rw [State.getClient_of_find? hcl', State.getClient_of_find? hv.client] at hcell
  rw [hcell]
  exact hown p hp

theorem Steady.full_next (hv : Steady w h c v cl) (hw : 1 ≤ w ∧ w ≤ 256) (hh : 1 ≤ h ∧ h ≤ 256)
    (hb : (s c).processor.takesBinary = true) (hen : (viewing s c w h).enabled v e)
    (hstill : v.Still s c w h e) (hfull : v.Full w h c) : (view s c v e).Full w h c := by
  by_cases ha : e.Asks c
  · exact hv.full_of_asks hw hh hb ha
  · obtain ⟨cl', hv'⟩ := hv.step hw hh hb hen
    have hkept := hv.full_still hv'.client hstill hfull
    rwa [← view_page_of_not_asks ha hen.1] at hkept

-- Only DF changes the screen.
theorem still_of_not_update (hcl : v.st.clients.find? c = some cl) (hu : ¬e.IsUpdate)
    (he : ¬e.Ends c) : v.Still s c w h e := by
  obtain ⟨-, cl', hcl', hk⟩ := handle_client s e v.st hcl hu he
  intro t _
  have hcl'' : (view s c v e).st.clients.find? c = some cl' := hcl'
  rw [State.getClient_of_find? hcl'', State.getClient_of_find? hcl, hk.ownSc]

end Full

section Loop

variable {s : Endpoint} {c : Handle} {w h : Nat} {u : Web}

-- One update packet at most is on its way, so behind it there is none.
theorem Web.Open.rest_no_update (hu : u.Open c) {data : Bytes} {rest : List Bytes}
    (hdown : u.circuit.down = data :: rest) (hdata : isUpdatePacket data = true) :
    ∀ d ∈ rest, isUpdatePacket d = false := by
  have htokens := (hu.token hu.phase).1
  simp only [Circuit.tokens, hdown, List.countP_cons, hdata, if_true] at htokens
  have hnone : rest.countP isUpdatePacket = 0 := by omega
  intro d hd
  simpa using List.countP_eq_zero.mp hnone d hd

theorem Web.Open.down_no_update (hu : u.Open c) {payload : Bytes} {rest : List Bytes}
    (hup : u.circuit.up = payload :: rest) (hask : parseMessage payload = .update) :
    ∀ d ∈ u.circuit.down, isUpdatePacket d = false := by
  have htokens := (hu.token hu.phase).1
  simp only [Circuit.tokens, hup, List.countP_cons, asksUpdate, hask, decide_true, if_true] at htokens
  have hnone : u.circuit.down.countP isUpdatePacket = 0 := by omega
  intro d hd
  simpa using List.countP_eq_zero.mp hnone d hd

theorem drained_of_no_update (hnone : ∀ d ∈ u.circuit.down, isUpdatePacket d = false) :
    u.drained = ⟨u.circuit.world.st, u.page⟩ := by
  unfold Web.drained
  rw [foldl_receive_of_no_update u.page hnone]

-- A move of the loop is always possible.
theorem Web.Open.loop_enabled (hu : u.Open c) (hrun : u.circuit.world.running = true) :
    ∃ m : Move, m.loops = true ∧ (web s c).enabled u m := by
  have htokens := (hu.token hu.phase).1
  cases hdown : u.circuit.down with
  | cons data rest =>
      exact ⟨.receive 0, rfl, fun hnil => List.cons_ne_nil data rest (hdown.symm.trans hnil)⟩
  | nil =>
      cases hup : u.circuit.up with
      | cons payload rest => exact ⟨.deliver, rfl, payload, rest, hup, hrun, hu.phase⟩
      | nil =>
          refine ⟨.fire, rfl, fun hzero => ?_⟩
          simp [Circuit.tokens, hdown, hup, hzero] at htokens

end Loop

-- The invariant of the run.
def Web.Going (w h : Nat) (c : Handle) (u : Web) : Prop :=
  u.Open c ∧ ∃ cl, Steady w h c u.drained cl

section Steps

variable {s : Endpoint} {c : Handle} {w h : Nat} {u : Web} {m : Move}

-- What the events of a move keep, under the conditions of the run.
theorem Web.Going.events (hu : u.Going w h c) (hw : 1 ≤ w ∧ w ≤ 256) (hh : 1 ≤ h ∧ h ≤ 256)
    (hb : (s c).processor.takesBinary = true) (hen : (web s c).enabled u m)
    (hq : Unchanging s c w h u m) :
    (Viewer.Full w h c u.drained → Viewer.Full w h c ((web s c).next u m).drained) ∧
      ∀ page, Viewer.Full w h c ⟨u.circuit.world.st, page⟩ →
        Viewer.Full w h c ⟨((web s c).next u m).circuit.world.st, page⟩ := by
  obtain ⟨hopen, cl, hs⟩ := hu
  have hnext := drained_next hopen hen
  have hst := congrArg Viewer.st hnext
  rcases served_cases (c := c) (u := u) m with hnone | ⟨e, hone⟩
  · rw [hnone, Machine.exec_nil] at hnext hst
    refine ⟨fun hfull => hnext ▸ hfull, fun page hfull => ?_⟩
    have hst' : u.circuit.world.st = ((web s c).next u m).circuit.world.st := hst
    rwa [← hst']
  · have hview : (viewing s c w h).enabled u.drained e :=
      hq.1.2 e (by rw [hone]; exact List.mem_singleton_self e)
    have hstill := hq.2 e (by rw [hone]; exact List.mem_singleton_self e)
    rw [hone, Machine.exec_cons, Machine.exec_nil] at hnext hst
    refine ⟨fun hfull => hnext ▸ hs.full_next hw hh hb hview hstill hfull, fun page hfull => ?_⟩
    obtain ⟨cl', hv'⟩ := hs.step hw hh hb hview
    have hst' : (view s c u.drained e).st = ((web s c).next u m).circuit.world.st := hst
    rw [← hst']
    exact hs.full_still hv'.client hstill hfull

theorem Web.Going.next (hu : u.Going w h c) (hw : 1 ≤ w ∧ w ≤ 256) (hh : 1 ≤ h ∧ h ≤ 256)
    (hb : (s c).processor.takesBinary = true) (hen : (web s c).enabled u m)
    (hq : Unchanging s c w h u m) : ((web s c).next u m).Going w h c := by
  obtain ⟨hopen, cl, hs⟩ := hu
  exact ⟨hopen.next hen hq.1.1, steady_next hw hh hb hopen hs hen hq.1⟩

-- A packet that arrives late brings the page no older tile: the only update
-- packet on its way brings all of them.
theorem Web.Going.caught_next (hu : u.Going w h c) (hw : 1 ≤ w ∧ w ≤ 256) (hh : 1 ≤ h ∧ h ≤ 256)
    (hb : (s c).processor.takesBinary = true) (hen : (web s c).enabled u m)
    (hq : Unchanging s c w h u m) (hcaught : u.Caught w h c) :
    ((web s c).next u m).Caught w h c := by
  obtain ⟨hpage, hdrained⟩ := hcaught
  obtain ⟨hfull, hkept⟩ := hu.events hw hh hb hen hq
  refine ⟨?_, hfull hdrained⟩
  have hsame := hkept u.page hpage
  cases m with
  | receive nextFrame =>
      cases hdown : u.circuit.down with
      | nil => exact absurd hdown hen
      | cons data rest =>
          obtain ⟨hnext, hrest, -⟩ := next_receive (s := s) (c := c) hdown nextFrame
          have hlegible := (hu.1.token hu.1.phase).2 data (by rw [hdown]; exact List.mem_cons_self)
          by_cases hdata : isUpdatePacket data = true
          · have hnone := hu.1.rest_no_update hdown hdata
            rw [← hrest] at hnone
            have hall := hfull hdrained
            rwa [drained_of_no_update hnone] at hall
          · have hhead : data.head? ≠ some 110 := by simpa [isUpdatePacket] using hdata
            rw [hnext, onMessage_legible hlegible, Page.receive, if_neg hhead]
            exact hsame
  | opened => exact hsame
  | deliver => exact hsame
  | fire => exact hsame
  | act _ => exact hsame
  | other _ => exact hsame

theorem underway_next (hu : u.Open c) (hen : (web s c).enabled u m)
    (hask : ∀ e ∈ served c u m, ¬e.Asks c) :
    ((web s c).next u m).underway + m.loops.toNat ≤ u.underway + m.acts.toNat := by
  cases m with
  | opened =>
      have hfresh : u.circuit.world.phase c = .fresh := hen.2
      exact absurd (hu.phase.symm.trans hfresh) (by decide)
  | deliver =>
      obtain ⟨payload, rest, hup, -⟩ := hen
      have hno : ¬(Event.message c payload).Asks c :=
        hask _ (by simp only [served, hup, List.take_succ_cons, List.take_zero, List.map_cons,
          List.map_nil, List.mem_singleton])
      have hsends := handle_sends s (.message c payload) u.circuit.world.st hno (fun h => h.elim)
      rw [next_deliver hup, hsends]
      simp only [Web.underway, hup, List.append_nil, List.length_cons, Move.loops, Move.acts,
        Bool.toNat_true, Bool.toNat_false]
      omega
  | receive nextFrame =>
      cases hdown : u.circuit.down with
      | nil => exact absurd hdown hen
      | cons data rest =>
          simp only [web, Web.next, Web.underway, Circuit.next, hdown, Move.loops, Move.acts,
            Bool.toNat_true, Bool.toNat_false, List.length_cons]
          split <;> simp only [List.length_append, List.length_singleton] <;> omega
  | fire =>
      have htimers : u.circuit.timers ≠ 0 := hen
      simp only [web, Web.next, Web.underway, Circuit.next, Move.loops, Move.acts,
        Bool.toNat_true, Bool.toNat_false, List.length_append, List.length_singleton]
      omega
  | act payload =>
      simp only [web, Web.next, Web.underway, Circuit.next, Move.loops, Move.acts,
        Bool.toNat_true, Bool.toNat_false, List.length_append, List.length_singleton]
      omega
  | other e =>
      have hsends := sends_of_not_of s u.circuit.world.st hen.2
      simp only [web, Web.next, Web.underway, Circuit.next, hsends, List.append_nil, Move.loops,
        Move.acts]
      exact Nat.le_refl _

-- A request is answered with two packets.
theorem underway_asks {payload : Bytes} {rest : List Bytes} (hup : u.circuit.up = payload :: rest)
    (hb : (s c).processor.takesBinary = true) (hask : parseMessage payload = .update) :
    ((web s c).next u .deliver).underway = u.underway + 5 := by
  have htock := tock_sends s c c u.circuit.world.st
  rw [if_pos ⟨rfl, hb⟩] at htock
  have hsends : (sends c (handle s (.message c payload) u.circuit.world.st).out).length = 2 := by
    simp only [handle, onMessage, hask, htock, List.length_cons, List.length_nil]
  rw [next_deliver hup]
  simp only [Web.underway, hup, List.length_append, hsends, List.length_cons]
  omega

theorem Web.Going.remaining_next (hu : u.Going w h c) (hw : 1 ≤ w ∧ w ≤ 256)
    (hh : 1 ≤ h ∧ h ≤ 256) (hb : (s c).processor.takesBinary = true)
    (hen : (web s c).enabled u m) (hq : Unchanging s c w h u m) (hnot : ¬u.Caught w h c) :
    ((web s c).next u m).remaining w h c + m.loops.toNat ≤ u.remaining w h c + m.acts.toNat := by
  obtain ⟨hfull, -⟩ := hu.events hw hh hb hen hq
  by_cases hask : ∀ e ∈ served c u m, ¬e.Asks c
  · have hless := underway_next hu.1 hen hask
    by_cases hdone : Viewer.Full w h c u.drained
    · simp only [Web.remaining, hdone, hfull hdone, if_true]
      omega
    · simp only [Web.remaining, hdone, if_false]
      split <;> omega
  · obtain ⟨e, he, ha⟩ : ∃ e ∈ served c u m, e.Asks c := by
      simpa only [not_forall, not_not, exists_prop] using hask
    obtain ⟨hopen, cl, hs⟩ := hu
    cases m with
    | deliver =>
        obtain ⟨payload, rest, hup, -⟩ := id hen
        simp only [served, hup, List.take_succ_cons, List.take_zero, List.map_cons, List.map_nil,
          List.mem_singleton] at he
        rw [he] at ha
        have hnow : ¬Viewer.Full w h c u.drained := by
          intro hdone
          have hpage := drained_of_no_update (hopen.down_no_update hup ha.2)
          exact hnot ⟨hpage ▸ hdone, hdone⟩
        have hthen : Viewer.Full w h c ((web s c).next u .deliver).drained := by
          rw [← drained_next hopen hen]
          simp only [served, hup, List.take_succ_cons, List.take_zero, List.map_cons, List.map_nil,
            Machine.exec_cons, Machine.exec_nil]
          exact hs.full_of_asks hw hh hb ha
        simp only [Web.remaining, hnow, hthen, if_true, if_false, underway_asks hup hb ha.2,
          Move.loops, Move.acts, Bool.toNat_true, Bool.toNat_false]
        omega
    | opened =>
        obtain rfl := List.mem_singleton.mp he
        exact ha.elim
    | other e' =>
        obtain rfl := List.mem_singleton.mp he
        obtain ⟨payload, rfl, -⟩ := ha.exists
        exact absurd rfl hen.2
    | receive _ => exact absurd he List.not_mem_nil
    | fire => exact absurd he List.not_mem_nil
    | act _ => exact absurd he List.not_mem_nil

end Steps

-- While the client's screen stays as it is, whatever else happens, a move of
-- the update loop is always possible, and after a bounded number of them the
-- page has the whole screen, and keeps it.
theorem page_catches_up (s : Endpoint) (c : Handle) (w h : Nat) (u : Web) (moves : List Move)
    (hw : 1 ≤ w ∧ w ≤ 256) (hh : 1 ≤ h ∧ h ≤ 256) (hb : (s c).processor.takesBinary = true)
    (hopen : u.circuit.world.phase c = .opened) (htoken : OneToken c u.circuit)
    (hsize : u.circuit.world.st.game.HasSize w h)
    (hsync : Synchronised w h c u.circuit.world.st) (hcoh : Coherent w h c u.drained)
    (hv : (web s c).Valid u moves) (hq : (web s c).Each (Unchanging s c w h) u moves) :
    let u' := (web s c).exec u moves
    (u'.circuit.world.running = true → ∃ m : Move, m.loops = true ∧ (web s c).enabled u' m) ∧
    (u.underway + 6 + moves.countP Move.acts < moves.countP Move.loops →
      ∃ cl, u'.circuit.world.st.clients.find? c = some cl ∧ ∀ x < w, ∀ y < h,
        u'.page (x, y) = some (cl.ownSc (Grid.index h x y)).wire) := by
  intro u'
  obtain ⟨cl, hcl, hs⟩ := hsync
  obtain ⟨cl₂, hcl₂, hc⟩ := hcoh
  obtain rfl : cl = cl₂ := Option.some.inj (hcl.symm.trans hcl₂)
  have hstart : u.Going w h c := ⟨⟨hopen, htoken⟩, cl, hsize, hcl, hs, hc⟩
  refine ⟨fun hrun => ?_, fun hlong => ?_⟩
  · have hend : u'.Going w h c :=
      (web s c).exec_invariant_each (Web.Going w h c) (Unchanging s c w h)
        (fun u m hu hen hq => hu.next hw hh hb hen hq) u moves hstart hv hq
    exact hend.1.loop_enabled hrun
  · have hsize : u.remaining w h c ≤ u.underway + 6 := by
      unfold Web.remaining
      split <;> omega
    obtain ⟨⟨cl', hcl', hshown⟩, -⟩ : u'.Caught w h c :=
      (web s c).exec_goal (Web.Going w h c) (Web.Caught w h c) (Unchanging s c w h)
        (Web.remaining w h c) Move.loops Move.acts
        (fun u m hu hen hq => hu.next hw hh hb hen hq)
        (fun u m hu hen hq hg => hu.caught_next hw hh hb hen hq hg)
        (fun u m hu hen hq hg _ => hu.remaining_next hw hh hb hen hq hg)
        u moves hstart hv hq (by omega)
    exact ⟨cl', hcl', fun x hx y hy => hshown (x, y) ⟨hx, hy⟩⟩

namespace Sample

-- Three rounds of the loop.
def rounds : List Move :=
  [.deliver, .deliver, .receive 0, .receive 0, .deliver, .receive 0, .receive 0, .deliver, .receive 0]

end Sample

theorem page_catches_up_sample :
    ∃ cl, ((web Sample.endpoint 0).exec Sample.connected Sample.rounds).circuit.world.st.clients.find?
        0 = some cl ∧ ∀ x < 2, ∀ y < 2,
      ((web Sample.endpoint 0).exec Sample.connected Sample.rounds).page (x, y) =
        some (cl.ownSc (Grid.index 2 x y)).wire := by
  refine (page_catches_up Sample.endpoint 0 2 2 Sample.connected Sample.rounds (by decide)
    (by decide) (by decide) rfl Sample.connected_token ⟨rfl, rfl⟩
    ⟨_, rfl, Sample.watched_synchronised⟩ Sample.connected_coherent ?_ ?_).2 (by decide)
  · exact ⟨⟨_, _, rfl, rfl, rfl⟩, ⟨_, _, rfl, rfl, rfl⟩, List.cons_ne_nil _ _, List.cons_ne_nil _ _,
      ⟨_, _, rfl, rfl, rfl⟩, List.cons_ne_nil _ _, List.cons_ne_nil _ _, ⟨_, _, rfl, rfl, rfl⟩,
      List.cons_ne_nil _ _, trivial⟩
  · have hevent : ∀ u : Web, ∀ payload, u.circuit.world.st.clients.find? 0 ≠ none →
        ownCamera 0 (view Sample.endpoint 0 u.drained (.message 0 payload)).st =
          ownCamera 0 u.drained.st →
        u.circuit.world.st.getActive.nick = nobody → u.circuit.up.head? = some payload →
        Unchanging Sample.endpoint 0 2 2 u .deliver := by
      intro u payload hcl hcam hnick hup
      obtain ⟨rest, hup⟩ : ∃ rest, u.circuit.up = payload :: rest := by
        cases hlist : u.circuit.up with
        | nil => rw [hlist] at hup; cases hup
        | cons first rest =>
            rw [hlist] at hup
            exact ⟨rest, congrArg (· :: rest) (Option.some.inj hup)⟩
      obtain ⟨cl, hcl⟩ := Option.ne_none_iff_exists'.mp hcl
      refine ⟨⟨fun _ _ _ _ => ⟨rfl, Sample.nobody_readable _ hnick⟩, fun e he => ?_⟩, fun e he => ?_⟩
      · simp only [served, hup, List.take_succ_cons, List.take_zero, List.map_cons, List.map_nil,
          List.mem_singleton] at he
        rw [he]
        exact ⟨id, trivial, hcam⟩
      · simp only [served, hup, List.take_succ_cons, List.take_zero, List.map_cons, List.map_nil,
          List.mem_singleton] at he
        rw [he]
        exact still_of_not_update hcl id id
    have hpacket : ∀ u : Web, Unchanging Sample.endpoint 0 2 2 u (.receive 0) := fun u =>
      ⟨⟨trivial, fun _ h => absurd h List.not_mem_nil⟩, fun _ h => absurd h List.not_mem_nil⟩
    exact ⟨hevent _ [115] (Option.some_ne_none _) (by decide) rfl rfl,
      hevent _ [110] (Option.some_ne_none _) (by decide) rfl rfl, hpacket _, hpacket _,
      hevent _ [110] (Option.some_ne_none _) (by decide) rfl rfl, hpacket _, hpacket _,
      hevent _ [110] (Option.some_ne_none _) (by decide) rfl rfl, hpacket _, trivial⟩

end WebFort
