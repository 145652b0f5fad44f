import WebFort.Delay
import WebFort.Status

namespace WebFort

open Library

-- A page over all of its connections: the handshakes, the losses and the
-- clicks that connect again. The timers of a page outlive its connections.

inductive Socket
  | connecting
  | opened (hdl : Handle)
  | closed
  deriving DecidableEq

-- What a click on the status line does.
inductive Click
  | nothing
  | requestTurn
  | connect
  deriving DecidableEq

-- The calls of setStatus.
inductive Notice
  | connecting
  | initializing
  | closed (isError : Bool) (reason : List Nat)
  | queue (line : StatusLine)

namespace Notice

def text : Notice → List Nat
  | .connecting => literal "Connecting..."
  | .initializing => literal "Connected, initializing..."
  | .closed true _ => literal "Connection Error. Click to retry"
  | .closed false reason =>
      if reason ≠ [] then reason ++ literal " Click to try again."
      else literal
        "Unknown disconnect: Check the console (Ctrl-Shift-J), then click to reconnect."
  | .queue line => line.text

def click : Notice → Click
  | .closed _ _ => .connect
  | .queue line => if line.requestTurn then .requestTurn else .nothing
  | _ => .nothing

end Notice

structure Session where
  -- The current connection. All timers send on it.
  circuit : Circuit
  socket : Socket
  isError : Bool
  notice : Notice

inductive SessionStep
  -- The handshake ends: on_open there, onOpen here.
  | opened (hdl : Handle)
  | onerror
  | onclose (reason : List Nat)
  -- on_close of the server.
  | dropped
  | click
  | move (m : Move)

-- init calls connect.
def Session.init (config : Config) (g : Game) : Session :=
  ⟨Circuit.init config g, .connecting, false, .connecting⟩

-- renderQueueStatus, unless an exception leaves onMessage before.
def Notice.onMessage (notice : Notice) (data : Bytes) : Notice :=
  if data.head? = some 110 then
    match readHeader data with
    | none => notice
    | some header => .queue (renderQueueStatus header).2
  else notice

section Machine

variable (s : Endpoint)

def Session.enabled (u : Session) : SessionStep → Prop
  | .opened hdl => u.socket = .connecting ∧ WebFort.enabled u.circuit.world (.opened hdl)
  | .onerror => u.socket ≠ .closed
  | .onclose _ => u.socket ≠ .closed
  | .dropped => ∃ hdl, u.socket = .opened hdl ∧ WebFort.enabled u.circuit.world (.closed hdl)
  | .click => True
  | .move m =>
      match u.socket with
      | .opened hdl => m ≠ .opened ∧ Circuit.enabled hdl u.circuit m
      | _ => (m = .fire ∧ u.circuit.timers ≠ 0) ∨
          ∃ e, m = .other e ∧ WebFort.enabled u.circuit.world e

-- Without a connection a timer sends nothing: send throws before the
-- handshake ends, and drops the message behind the close.
def Session.away (k : Circuit) : Move → Circuit
  | .fire => { k with timers := k.timers - 1 }
  | .other e => { k with world := WebFort.next s k.world e }
  | _ => k

def Session.next (u : Session) : SessionStep → Session
  | .opened hdl =>
      { u with
        circuit := { Circuit.next s hdl u.circuit .opened with timers := u.circuit.timers }
        socket := .opened hdl
        notice := .initializing }
  | .onerror => { u with isError := true }
  | .onclose reason =>
      { circuit := { u.circuit with up := [], down := [] }
        socket := .closed
        isError := false
        notice := .closed u.isError reason }
  | .dropped =>
      match u.socket with
      | .opened hdl =>
          { u with circuit := { u.circuit with world := WebFort.next s u.circuit.world (.closed hdl) } }
      | _ => u
  | .click =>
      match u.notice.click, u.socket with
      | .connect, _ => { u with socket := .connecting, notice := .connecting }
      | .requestTurn, .opened hdl => { u with circuit := Circuit.next s hdl u.circuit (.act [116]) }
      | _, _ => u
  | .move m =>
      match u.socket with
      | .opened hdl =>
          { u with
            circuit := Circuit.next s hdl u.circuit m
            notice := match m, u.circuit.down with
              | .receive _, data :: _ => u.notice.onMessage data
              | _, _ => u.notice }
      | _ => { u with circuit := Session.away s u.circuit m }

def sessions : Machine Session SessionStep := ⟨Session.enabled, Session.next s⟩

-- The server answers with nicks that the page can read.
def SessionAnswered (u : Session) : SessionStep → Prop
  | .move m => ∀ hdl, u.socket = .opened hdl → Answered s hdl u.circuit m
  | _ => True

end Machine

def SessionStep.opens : SessionStep → Bool
  | .opened _ => true
  | _ => false

section Loops

variable {s : Endpoint} {c : Handle} {k : Circuit}

-- An update request has one answer, any other message none.
theorem answer_sends {payload : Bytes} (hanswer : parseMessage payload = .update →
      (s c).processor.takesBinary = true ∧ Readable k.world.st.getActive.nick) :
    (sends c (handle s (.message c payload) k.world.st).out).countP isUpdatePacket =
        (if asksUpdate payload then 1 else 0) ∧
      ∀ data ∈ sends c (handle s (.message c payload) k.world.st).out, Legible data := by
  by_cases hp : parseMessage payload = .update
  · obtain ⟨htakes, hread⟩ := hanswer hp
    have hsends : sends c (handle s (.message c payload) k.world.st).out =
        [(tileLoop c k.world.st).bytes, cursorPacket c (tock s c k.world.st).state] := by
      have htock := tock_sends s c c k.world.st
      rw [if_pos ⟨rfl, htakes⟩] at htock
      simp only [handle, onMessage, hp]
      exact htock
    have hcursor : isUpdatePacket (cursorPacket c (tock s c k.world.st).state) = false := rfl
    have hupdate : isUpdatePacket (tileLoop c k.world.st).bytes = true := by
      simp [isUpdatePacket, tileLoop_isUpdatePacket]
    rw [hsends]
    refine ⟨?_, fun data hdata => ?_⟩
    · simp [hcursor, hupdate, asksUpdate, hp]
    · rcases List.mem_cons.mp hdata with rfl | hdata
      · refine legible_of_decode ?_
        rw [activeNick_tock]
        exact hread
      · obtain rfl := List.mem_singleton.mp hdata
        exact legible_of_head hcursor
  · have hsends : sends c (handle s (.message c payload) k.world.st).out = [] :=
      onMessage_sends s c payload k.world.st fun h => hp h.2
    rw [hsends]
    exact ⟨by simp [asksUpdate, hp], fun data hdata => absurd hdata List.not_mem_nil⟩

-- Nothing a circuit does makes a request or loses one.
theorem tokens_next {m : Move} (hen : Circuit.enabled c k m) (hm : m ≠ .opened)
    (ha : Answered s c k m) (hlegible : ∀ data ∈ k.down, Legible data) :
    (Circuit.next s c k m).tokens = k.tokens ∧
      ∀ data ∈ (Circuit.next s c k m).down, Legible data := by
  have hask : ([[110]] : List Bytes).countP asksUpdate = 1 := by decide
  cases m with
  | opened => exact absurd rfl hm
  | deliver =>
      obtain ⟨payload, rest, hup, -⟩ := hen
      obtain ⟨hcount, hsent⟩ := answer_sends (s := s) (c := c) (k := k) (ha payload rest hup)
      simp only [Circuit.next, hup, Circuit.tokens, List.countP_append, List.countP_cons, hcount]
      refine ⟨by omega, fun data hdata => ?_⟩
      rcases List.mem_append.mp hdata with h | h
      · exact hlegible data h
      · exact hsent data h
  | receive nextFrame =>
      cases hdown : k.down with
      | nil =>
          have hstay : Circuit.next s c k (.receive nextFrame) = k := by
            simp only [Circuit.next, hdown]
          rw [hstay]
          exact ⟨rfl, hlegible⟩
      | cons data rest =>
          rw [hdown] at hlegible
          have hrest : ∀ d ∈ rest, Legible d := fun d hd => hlegible d (List.mem_cons_of_mem _ hd)
          have hreact := pageOnMessage_legible (hlegible data List.mem_cons_self) nextFrame
          simp only [Circuit.next, hdown, hreact]
          cases hupdate : isUpdatePacket data with
          | false => exact ⟨by simp [Circuit.tokens, hdown, hupdate], hrest⟩
          | true =>
              simp only [if_true]
              by_cases hsoon : nextFrame < 4
              · simp only [hsoon, if_true]
                refine ⟨?_, hrest⟩
                simp only [Circuit.tokens, hdown, List.countP_append, List.countP_cons, hask, hupdate,
                  if_true]
                omega
              · simp only [hsoon, if_false]
                refine ⟨?_, hrest⟩
                simp only [Circuit.tokens, hdown, List.countP_cons, hupdate, if_true]
                omega
  | fire =>
      have htimers : k.timers ≠ 0 := hen
      refine ⟨?_, hlegible⟩
      simp only [Circuit.next, Circuit.tokens, List.countP_append, hask]
      omega
  | act payload =>
      have hother : [payload].countP asksUpdate = 0 := by simp [asksUpdate, hen.2]
      refine ⟨?_, hlegible⟩
      simp only [Circuit.next, Circuit.tokens, List.countP_append, hother]
      omega
  | other e =>
      have hsends : sends c (handle s e k.world.st).out = [] := sends_of_not_of s k.world.st hen.2
      simp only [Circuit.next, Circuit.tokens, hsends, List.append_nil]
      exact ⟨trivial, hlegible⟩

theorem tokens_opened (k : Circuit) :
    ({ Circuit.next s c k .opened with timers := k.timers } : Circuit).tokens = 1 + k.timers ∧
      ∀ data ∈ (Circuit.next s c k .opened).down, Legible data := by
  have hno := onOpen_no_update s c k.world.st
  have hcount : (sends c (handle s (.opened c) k.world.st).out).countP isUpdatePacket = 0 :=
    List.countP_eq_zero.mpr fun data hdata => by simp [hno data hdata]
  have hup : [[115], [110]].countP asksUpdate = 1 := by decide
  refine ⟨?_, fun data hdata => legible_of_head (hno data hdata)⟩
  simp only [Circuit.tokens, Circuit.next, hcount, hup]

theorem away_timers (s : Endpoint) (k : Circuit) (m : Move) : (Session.away s k m).timers ≤ k.timers := by
  cases m with
  | fire => exact Nat.sub_le _ _
  | _ => exact Nat.le_refl _

end Loops

section Runs

variable {s : Endpoint} {u : Session} {step : SessionStep}

theorem onMessage_click {notice : Notice} (data : Bytes) (h : notice.click ≠ .connect) :
    (notice.onMessage data).click ≠ .connect := by
  unfold Notice.onMessage
  split
  · split
    · exact h
    · simp only [Notice.click]
      split <;> exact Click.noConfusion
  · exact h

-- A click connects again exactly where the connection is closed.
theorem retry_next (h : u.notice.click = .connect ↔ u.socket = .closed)
    (hen : Session.enabled u step) :
    (Session.next s u step).notice.click = .connect ↔ (Session.next s u step).socket = .closed := by
  cases step with
  | opened hdl => exact iff_of_false Click.noConfusion Socket.noConfusion
  | onerror => exact h
  | onclose reason => exact iff_of_true rfl rfl
  | dropped =>
      simp only [Session.next]
      split <;> exact h
  | click =>
      simp only [Session.next]
      split
      · exact iff_of_false Click.noConfusion Socket.noConfusion
      · exact h
      · exact h
  | move m =>
      simp only [Session.next]
      split
      · rename_i hdl hsocket
        have hopen : u.notice.click ≠ .connect := fun hc => by simp [hsocket] at h; exact h hc
        refine iff_of_false ?_ (by rw [hsocket]; exact Socket.noConfusion)
        simp only
        split
        · exact onMessage_click _ hopen
        · exact hopen
      · exact h

-- An open connection stays the same one until the next handshake.
theorem socket_next {hdl : Handle} (hno : step.opens = false)
    (hopen : (Session.next s u step).socket = .opened hdl) : u.socket = .opened hdl := by
  cases step with
  | opened j => cases hno
  | onerror => exact hopen
  | onclose reason => cases hopen
  | dropped =>
      simp only [Session.next] at hopen
      split at hopen <;> exact hopen
  | click =>
      simp only [Session.next] at hopen
      split at hopen
      · cases hopen
      · exact hopen
      · exact hopen
  | move m =>
      simp only [Session.next] at hopen
      split at hopen <;> exact hopen

-- The loops of an open connection.
def Loops (n : Nat) (u : Session) : Prop :=
  ∀ hdl, u.socket = .opened hdl → u.circuit.tokens = n ∧ ∀ data ∈ u.circuit.down, Legible data

theorem Loops.next {n : Nat} (h : Loops n u) (hen : Session.enabled u step)
    (ha : SessionAnswered s u step) (hno : step.opens = false) :
    Loops n (Session.next s u step) := by
  intro hdl hopen
  have hsocket := socket_next hno hopen
  obtain ⟨htokens, hlegible⟩ := h hdl hsocket
  cases step with
  | opened j => cases hno
  | onerror => exact ⟨htokens, hlegible⟩
  | onclose reason => cases hopen
  | dropped =>
      simp only [Session.next, hsocket]
      exact ⟨htokens, hlegible⟩
  | click =>
      simp only [Session.next, hsocket] at hopen ⊢
      split
      · rename_i hclick
        simp only [hclick] at hopen
        cases hopen
      · have hturn : [([116] : Bytes)].countP asksUpdate = 0 := by decide
        refine ⟨?_, hlegible⟩
        simp only [Circuit.next, Circuit.tokens, List.countP_append, hturn] at htokens ⊢
        omega
      · exact ⟨htokens, hlegible⟩
  | move m =>
      simp only [Session.enabled, hsocket] at hen
      obtain ⟨hnext, hdown⟩ := tokens_next hen.2 hen.1 (ha hdl hsocket) hlegible
      simp only [Session.next, hsocket]
      exact ⟨hnext.trans htokens, hdown⟩

theorem Loops.run {n : Nat} {es : List SessionStep} (h : Loops n u)
    (hv : (sessions s).Valid u es) (ha : (sessions s).Each (SessionAnswered s) u es)
    (hno : ∀ e ∈ es, e.opens = false) : Loops n ((sessions s).exec u es) := by
  induction es generalizing u with
  | nil => exact h
  | cons e es ih =>
      exact ih (h.next hv.1 ha.1 (hno e List.mem_cons_self)) hv.2 ha.2
        fun f hf => hno f (List.mem_cons_of_mem _ hf)

theorem loops_opened (hdl : Handle) :
    Loops (1 + u.circuit.timers) (Session.next s u (.opened hdl)) := by
  intro j hopen
  obtain rfl := Socket.opened.inj hopen
  exact tokens_opened u.circuit

-- Away from an open connection no timer is set.
theorem timers_next (u : Session) (step : SessionStep) :
    (Session.next s u step).circuit.timers ≤ u.circuit.timers ∨
      ∃ hdl, (Session.next s u step).socket = .opened hdl := by
  cases step with
  | opened hdl => exact Or.inr ⟨hdl, rfl⟩
  | onerror => exact Or.inl (Nat.le_refl _)
  | onclose reason => exact Or.inl (Nat.le_refl _)
  | dropped =>
      refine Or.inl ?_
      simp only [Session.next]
      split <;> exact Nat.le_refl _
  | click =>
      refine Or.inl ?_
      simp only [Session.next]
      split <;> exact Nat.le_refl _
  | move m =>
      simp only [Session.next]
      split
      · rename_i hdl hsocket
        exact Or.inr ⟨hdl, hsocket⟩
      · exact Or.inl (away_timers s u.circuit m)

-- No more loops and timers than handshakes so far.
def Bounded (n : Nat) (u : Session) : Prop :=
  u.circuit.timers ≤ n ∧ ∃ m ≤ n, Loops m u

theorem Bounded.next {n : Nat} (h : Bounded n u) (hen : Session.enabled u step)
    (ha : SessionAnswered s u step) :
    Bounded (n + if step.opens then 1 else 0) (Session.next s u step) := by
  obtain ⟨htimers, m, hm, hloops⟩ := h
  cases hopens : step.opens with
  | true =>
      obtain ⟨hdl, rfl⟩ : ∃ hdl, step = .opened hdl := by
        cases step with
        | opened hdl => exact ⟨hdl, rfl⟩
        | _ => cases hopens
      have hkept : (Session.next s u (.opened hdl)).circuit.timers = u.circuit.timers := rfl
      refine ⟨?_, 1 + u.circuit.timers, ?_, loops_opened hdl⟩
      · rw [hkept]
        omega
      · simp only [if_true]
        omega
  | false =>
      have hnext := hloops.next hen ha hopens
      refine ⟨?_, m, hm, hnext⟩
      rcases timers_next (s := s) u step with hle | ⟨hdl, hopen⟩
      · exact hle.trans htimers
      · have htokens := (hnext hdl hopen).1
        unfold Circuit.tokens at htokens
        simp only [Bool.false_eq_true, if_false]
        omega

theorem Bounded.run {n : Nat} {es : List SessionStep} (h : Bounded n u)
    (hv : (sessions s).Valid u es) (ha : (sessions s).Each (SessionAnswered s) u es) :
    Bounded (n + es.countP SessionStep.opens) ((sessions s).exec u es) := by
  induction es generalizing n u with
  | nil => exact h
  | cons e es ih =>
      have hrest := ih (h.next hv.1 ha.1) hv.2 ha.2
      rw [List.countP_cons]
      have hsum : n + (es.countP SessionStep.opens + if e.opens then 1 else 0) =
          n + (if e.opens then 1 else 0) + es.countP SessionStep.opens := by omega
      rw [hsum]
      exact hrest

end Runs

-- However often the connection is lost and made again: no page has more update
-- loops than it has had connections, and exactly one more on a connection than
-- timers were pending when it opened; the click that connects is offered only
-- without a connection.
theorem loops_of_connections (s : Endpoint) (config : Config) (g : Game) (es : List SessionStep)
    (hv : (sessions s).Valid (Session.init config g) es)
    (ha : (sessions s).Each (SessionAnswered s) (Session.init config g) es) :
    let u := (sessions s).exec (Session.init config g) es
    (∀ hdl, u.socket = .opened hdl → u.circuit.tokens ≤ es.countP SessionStep.opens) ∧
      (∀ done hdl rest, es = done ++ .opened hdl :: rest → (∀ e ∈ rest, e.opens = false) →
        ∀ j, u.socket = .opened j →
          u.circuit.tokens = 1 + ((sessions s).exec (Session.init config g) done).circuit.timers) ∧
      (u.notice.click = .connect ↔ u.socket = .closed) := by
  intro u
  refine ⟨fun hdl hopen => ?_, ?_, ?_⟩
  · have hstart : Bounded 0 (Session.init config g) :=
      ⟨Nat.le_refl _, 0, Nat.le_refl _, fun j hj => Socket.noConfusion hj⟩
    obtain ⟨-, m, hm, hloops⟩ := hstart.run hv ha
    rw [Nat.zero_add] at hm
    exact (hloops hdl hopen).1.trans_le hm
  · rintro done hdl rest rfl hno j hopen
    obtain ⟨-, -, hrest⟩ := ((sessions s).valid_append _ done _).mp hv
    obtain ⟨-, -, hanswered⟩ := ((sessions s).each_append _ _ done _).mp ha
    have hexec : u = (sessions s).exec
        (Session.next s ((sessions s).exec (Session.init config g) done) (.opened hdl)) rest :=
      (sessions s).exec_append _ done _
    rw [hexec] at hopen ⊢
    exact ((loops_opened hdl).run hrest hanswered hno j hopen).1
  · exact (sessions s).exec_invariant
      (fun u => u.notice.click = .connect ↔ u.socket = .closed)
      (fun u step h hen => retry_next h hen) _ es
      (iff_of_false Click.noConfusion Socket.noConfusion) hv

namespace Sample

-- The connection is lost while a round waits for its timer, and made again
-- before the timer fires.
def lost : List SessionStep :=
  [.opened 0, .move .deliver, .move .deliver, .move (.receive 40), .onclose [], .click]

end Sample

theorem loops_of_connections_sample :
    ((sessions Sample.endpoint).exec (Session.init Sample.config (Sample.game 64))
      (Sample.lost ++ [.opened 1, .move .fire])).circuit.tokens = 2 := by
  have hnobody : ∀ st : State, st.getActive.nick = nobody → Readable st.getActive.nick :=
    fun st h => h ▸ readable_of_no_percent (by decide)
  refine (loops_of_connections Sample.endpoint Sample.config (Sample.game 64) _ ?_ ?_).2.1
    Sample.lost 1 [.move .fire] rfl (by simp [SessionStep.opens]) 1 rfl
  · exact ⟨⟨rfl, rfl, rfl⟩, ⟨Move.noConfusion, [115], [[110]], rfl, rfl, rfl⟩,
      ⟨Move.noConfusion, [110], [], rfl, rfl, rfl⟩, ⟨Move.noConfusion, List.cons_ne_nil _ _⟩,
      Socket.noConfusion, trivial, ⟨rfl, rfl, rfl⟩, ⟨Move.noConfusion, Nat.one_ne_zero⟩, trivial⟩
  · refine ⟨trivial, ?_, ?_, fun _ _ => trivial, trivial, trivial, trivial, fun _ _ => trivial,
      trivial⟩
    · rintro hdl ⟨⟩ payload rest ⟨⟩ hupdate
      exact ⟨rfl, hnobody _ rfl⟩
    · rintro hdl ⟨⟩ payload rest ⟨⟩ hupdate
      exact ⟨rfl, hnobody _ rfl⟩

end WebFort
