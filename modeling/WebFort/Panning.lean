import WebFort.CameraPaths
import WebFort.Playing

namespace WebFort

open Library

-- The camera of a spectator, from the keys and the wheel of the page to the
-- viewport of its client.

-- Where a key moves the camera.
def keyPan (charCode : Nat) : List Camera :=
  if charCode = 119 ∨ charCode = 87 then [⟨0, -10, 0⟩]
  else if charCode = 115 ∨ charCode = 83 then [⟨0, 10, 0⟩]
  else if charCode = 97 ∨ charCode = 65 then [⟨-10, 0, 0⟩]
  else if charCode = 100 ∨ charCode = 68 then [⟨10, 0, 0⟩]
  else []

-- The steps of the camera that a gesture means. An active player in a menu
-- types and scrolls there.
def Gesture.pans (p : Controls) : Gesture → List Camera
  | .key k =>
      if k.keyCode < 65 ∧ k.keyCode ∉ [16, 17, 18] then []
      else if p.active ∧ p.isInMenu then []
      else keyPan k.charCode
  | .wheel deltaY _ _ =>
      if p.active ∧ p.isInMenu then [] else [⟨0, 0, if deltaY < 0 then 1 else -1⟩]
  | _ => []

-- What the server makes of a message.
def messagePans (payload : Bytes) : List Camera :=
  match parseMessage payload with
  | .camMove dx dy dz => [⟨int8 dx, int8 dy, int8 dz⟩]
  | _ => []

-- One step inside some bounds.
def walkStep (b : Axis → Span) (c d : Camera) : Camera :=
  ⟨(b .x).clamp (int32 (c.x + d.x)), (b .y).clamp (int32 (c.y + d.y)),
    (b .z).clamp (int32 (c.z + d.z))⟩

def steer (b : Axis → Span) (cam : Option Camera) (d : Camera) : Option Camera :=
  cam.map fun c => walkStep b c d

-- Where the camera of a client will be when all that is under way has arrived.
def heading (b : Axis → Span) (c : Handle) (u : Player) : Option Camera :=
  (u.circuit.up.flatMap messagePans).foldl (steer b) (ownCam u.circuit.world.st c)

def panned (u : Player) : PlayStep → List Camera
  | .hand g => g.pans u.ctl
  | .net _ => []

-- The client goes on watching, on a map and a screen of one size.
def Watching (s : Endpoint) (c : Handle) (b : Axis → Span) (u : Player) (a : PlayStep) : Prop :=
  let u' := (player s c).next u a
  u'.circuit.world.st.activeConn ≠ some c ∧ u'.circuit.world.st.game.span = b

section Gestures

variable {p : Controls} {k : KeyStroke}

theorem messagePans_of_no_move {payload : Bytes}
    (h : ∀ dx dy dz, parseMessage payload ≠ .camMove dx dy dz) : messagePans payload = [] := by
  unfold messagePans
  split
  · rename_i dx dy dz hp
    exact absurd hp (h dx dy dz)
  · rfl

-- Two's complement and back
theorem messagePans_sendCamMove {d : Camera} (hx : -128 ≤ d.x ∧ d.x < 128)
    (hy : -128 ≤ d.y ∧ d.y < 128) (hz : -128 ≤ d.z ∧ d.z < 128) :
    messagePans (sendCamMove d.x d.y d.z) = [d] := by
  have hback : ∀ n : Int, -128 ≤ n ∧ n < 128 → int8 (leByte n 0) = n := by
    intro n hn
    have hbyte := leByte_toNat n 0
    simp only [pow_zero, Int.ediv_one] at hbyte
    unfold int8
    rw [Int.bmod_def]
    omega
  simp only [messagePans, sendCamMove, parseMessage, hback _ hx, hback _ hy, hback _ hz]

theorem onkeydown_pans : (onkeydown p k).1.flatMap messagePans = [] := by
  unfold onkeydown
  split
  · rfl
  · split
    · split
      · rfl
      · exact List.flatMap_singleton _ _
    · rfl

-- What is no step of the camera is a key.
theorem key_or_nothing (ch mods : UInt8) :
    (if !p.active then [] else [[111, 0, ch, mods]]).flatMap messagePans = [] := by
  split
  · rfl
  · exact List.flatMap_singleton _ _

theorem onkeypress_pans :
    (onkeypress p k).flatMap messagePans =
      if p.active ∧ p.isInMenu then [] else keyPan k.charCode := by
  have hstep : ∀ d : Camera, (-128 ≤ d.x ∧ d.x < 128) ∧ (-128 ≤ d.y ∧ d.y < 128) ∧
      (-128 ≤ d.z ∧ d.z < 128) → [sendCamMove d.x d.y d.z].flatMap messagePans = [d] :=
    fun d hd => (List.flatMap_singleton _ _).trans
      (messagePans_sendCamMove hd.1 hd.2.1 hd.2.2)
  unfold onkeypress
  by_cases hmenu : p.active = true ∧ p.isInMenu = true
  · rw [if_pos hmenu]
    simp only [hmenu.1, hmenu.2, Bool.not_true, Bool.or_self, Bool.false_eq_true, false_and, if_false]
    exact List.flatMap_singleton _ _
  · have hroute : (!p.active || !p.isInMenu) = true := by
      cases hactive : p.active <;> cases hin : p.isInMenu <;> simp_all
    rw [if_neg hmenu]
    simp only [hroute, true_and, keyPan]
    split
    · exact hstep ⟨0, -10, 0⟩ (by decide)
    · split
      · exact hstep ⟨0, 10, 0⟩ (by decide)
      · split
        · exact hstep ⟨-10, 0, 0⟩ (by decide)
        · split
          · exact hstep ⟨10, 0, 0⟩ (by decide)
          · exact key_or_nothing _ _

theorem keydown_stops (hcode : k.keyCode < 65 ∧ k.keyCode ∉ [16, 17, 18]) :
    (onkeydown p k).2 = true := (keydown_strokes hcode).1

-- A gesture sends the steps it means.
theorem gesture_pans (g : Gesture) : (g.sends p).flatMap messagePans = g.pans p := by
  have hmouse : ∀ (type : WFMouseType) (tile : Int × Int) (button : UInt8),
      messagePans (sendMouseEvent type tile button) = [] := fun _ _ _ => rfl
  cases g with
  | key k =>
      simp only [Gesture.sends, keystroke, Gesture.pans, List.flatMap_append, onkeydown_pans,
        List.nil_append]
      by_cases hcode : k.keyCode < 65 ∧ k.keyCode ∉ [16, 17, 18]
      · rw [if_pos hcode, if_pos (Or.inl (keydown_stops hcode))]
        rfl
      · rw [if_neg hcode, keydown_ignored hcode]
        by_cases hchar : k.charCode = 0
        · have hnone : keyPan 0 = [] := rfl
          simp only [hchar, or_true, if_true, List.flatMap_nil, hnone, ite_self]
        · simp only [hchar, Bool.false_eq_true, or_self, if_false, onkeypress_pans]
  | mousemove now px py =>
      simp only [Gesture.sends, Gesture.pans]
      split
      · rfl
      · rw [List.flatMap_cons, hmouse]
        split <;> rfl
  | mousedown button px py => exact (List.flatMap_singleton _ _).trans (hmouse _ _ _)
  | mouseup button px py => exact (List.flatMap_singleton _ _).trans (hmouse _ _ _)
  | wheel deltaY px py =>
      simp only [Gesture.sends, Gesture.pans]
      split
      · exact (List.flatMap_singleton _ _).trans (hmouse _ _ _)
      · refine (List.flatMap_singleton _ _).trans ?_
        have hzero : (-128 : Int) ≤ 0 ∧ (0 : Int) < 128 := by decide
        exact messagePans_sendCamMove (d := ⟨0, 0, if deltaY < 0 then 1 else -1⟩) hzero hzero
          (by simp only; split <;> decide)
  | click =>
      simp only [Gesture.sends, Gesture.pans]
      split <;> rfl

end Gestures

section Steps

variable {s : Endpoint} {c : Handle} {b : Axis → Span} {u : Player}

-- A message of the client itself.
theorem ownCam_message {st : State} {payload : Bytes} (hspan : st.game.span = b)
    (hnot : st.activeConn ≠ some c) (hown : (ownCam st c).isSome = true) :
    ownCam (handle s (.message c payload) st).state c =
      (messagePans payload).foldl (steer b) (ownCam st c) := by
  by_cases hp : ∃ dx dy dz, parseMessage payload = .camMove dx dy dz
  · obtain ⟨dx, dy, dz, hp⟩ := hp
    obtain ⟨cam, hcam⟩ := Option.isSome_iff_exists.mp hown
    have hreg : st.registered c = true := by
      obtain ⟨cl, hcl, -⟩ := Option.bind_eq_some_iff.mp hcam
      exact (st.registered_iff c).mpr ⟨cl, hcl⟩
    let m : CamMove := ⟨dx, dy, dz⟩
    have hstate : (handle s (.message c payload) st).state = st.withRegistered c
        (moveCamera st.game (m.delta .x) (m.delta .y) (m.delta .z)) := by
      simp only [handle, onMessage, hp]
      exact camMove_spectator m hnot hreg
    have hbase : spectatorCamera c st = cam := by
      unfold spectatorCamera
      rw [hcam, Option.getD_some]
    rw [hstate, ownCam_moved m hreg, hbase, hcam]
    simp only [messagePans, hp, List.foldl_cons, List.foldl_nil, steer, Option.map_some]
    refine congrArg some (along_ext fun a => ?_)
    rw [clampCamera_along, hspan]
    cases a <;> simp only [Camera.along, walkStep, m, CamMove.delta]
  · have hnone : messagePans payload = [] :=
      messagePans_of_no_move fun dx dy dz h => hp ⟨dx, dy, dz, h⟩
    rw [hnone]
    rcases ownCam_onMessage (j := c) s c payload st with ⟨hsame, -⟩ | ⟨⟨hmoves, -⟩, -⟩
    · exact hsame
    · exact absurd hmoves.2 hp

-- Nobody else moves it.
theorem ownCam_other {st : State} {e : Event} (hnot : st.activeConn ≠ some c) (he : ¬e.Of c) :
    ownCam (handle s e st).state c = ownCam st c := by
  cases e with
  | opened hdl => exact ownCam_onOpen fun h => he h
  | message hdl payload =>
      rcases ownCam_onMessage (j := c) s hdl payload st with ⟨hsame, -⟩ | ⟨⟨hmoves, -⟩, -⟩
      · exact hsame
      · exact absurd hmoves.1 he
  | closed hdl =>
      refine (ownCam_onClose hdl st).trans (if_neg fun h => he h.symm)
  | game g => rfl
  | update g df => exact (ownCam_pluginOnupdate df (st.atGame g)).trans (if_neg hnot)

theorem isSome_steer (b : Axis → Span) (ds : List Camera) (cam : Option Camera) :
    (ds.foldl (steer b) cam).isSome = cam.isSome := by
  induction ds generalizing cam with
  | nil => rfl
  | cons d ds ih => exact (ih (steer b cam d)).trans Option.isSome_map

-- A client that watches with a camera of its own.
structure Spectator (c : Handle) (b : Axis → Span) (u : Player) : Prop where
  phase : u.circuit.world.phase c = .opened
  watching : u.circuit.world.st.activeConn ≠ some c
  span : u.circuit.world.st.game.span = b
  own : (ownCam u.circuit.world.st c).isSome = true

theorem Spectator.deliver (hu : Spectator c b u) (hen : Circuit.enabled c u.circuit .deliver) :
    (ownCam (Player.next s c u (.net .deliver)).circuit.world.st c).isSome = true ∧
      heading b c (Player.next s c u (.net .deliver)) = heading b c u := by
  obtain ⟨payload, rest, hup, -⟩ := hen
  have hcam : ownCam (handle s (.message c payload) u.circuit.world.st).state c =
      (messagePans payload).foldl (steer b) (ownCam u.circuit.world.st c) :=
    ownCam_message hu.span hu.watching hu.own
  simp only [Player.next, Circuit.next, hup, WebFort.next, heading, hcam, isSome_steer,
    List.flatMap_cons, List.foldl_append]
  exact ⟨hu.own, trivial⟩

theorem heading_receive (nextFrame : Int) :
    heading b c (Player.next s c u (.net (.receive nextFrame))) = heading b c u ∧
      (Player.next s c u (.net (.receive nextFrame))).circuit.world = u.circuit.world := by
  have hrequest : messagePans [110] = [] := rfl
  cases hdown : u.circuit.down with
  | nil =>
      simp only [Player.next, Circuit.next, hdown, heading]
      exact ⟨trivial, trivial⟩
  | cons data rest =>
      simp only [Player.next, Circuit.next, hdown, heading]
      split <;> simp only [List.flatMap_append, List.flatMap_singleton, hrequest, List.append_nil,
        and_self]

-- What is under way arrives, and only gestures change where the camera goes.
theorem Spectator.next (hu : Spectator c b u) {a : PlayStep} (hen : (player s c).enabled u a)
    (hkeep : Watching s c b u a) :
    Spectator c b ((player s c).next u a) ∧
      heading b c ((player s c).next u a) = (panned u a).foldl (steer b) (heading b c u) := by
  have hphase := player_phase hu.phase hen
  cases a with
  | hand g =>
      refine ⟨⟨hphase, hu.watching, hu.span, hu.own⟩, ?_⟩
      simp only [player, Player.next, panned, heading, List.flatMap_append, gesture_pans,
        List.foldl_append]
  | net m =>
      cases m with
      | opened =>
          have hfresh : u.circuit.world.phase c = .fresh := hen.1.2
          exact absurd (hu.phase.symm.trans hfresh) (by decide)
      | deliver =>
          obtain ⟨hown, hsame⟩ := hu.deliver (s := s) hen.1
          exact ⟨⟨hphase, hkeep.1, hkeep.2, hown⟩, hsame⟩
      | receive nextFrame =>
          obtain ⟨hsame, hworld⟩ := heading_receive (s := s) (c := c) (b := b) (u := u) nextFrame
          refine ⟨⟨hphase, hkeep.1, hkeep.2, ?_⟩, hsame⟩
          show (ownCam (Player.next s c u (.net (.receive nextFrame))).circuit.world.st c).isSome = _
          rw [hworld]
          exact hu.own
      | fire =>
          have hrequest : messagePans [110] = [] := rfl
          refine ⟨⟨hphase, hu.watching, hu.span, hu.own⟩, ?_⟩
          simp only [player, Player.next, Circuit.next, panned, heading, List.flatMap_append,
            List.flatMap_singleton, hrequest, List.append_nil, List.foldl_nil]
      | act payload => exact absurd rfl (hen.2 payload)
      | other e =>
          have hsame := ownCam_other (s := s) hu.watching hen.1.2
          refine ⟨⟨hphase, hkeep.1, hkeep.2, ?_⟩, ?_⟩
          · exact (congrArg Option.isSome hsame).trans hu.own
          · simp only [player, Player.next, Circuit.next, WebFort.next, panned, heading, hsame,
              List.foldl_nil]

end Steps

-- While a client watches with a camera of its own, every step of the camera
-- that is made on its page arrives once and in order, whatever else happens:
-- the camera, with what is still under way, is where these steps lead from
-- where it was.
theorem gestures_pan_camera (s : Endpoint) (c : Handle) (b : Axis → Span) (u : Player)
    (as : List PlayStep) (hu : Spectator c b u) (hv : (player s c).Valid u as)
    (hkeep : (player s c).Each (Watching s c b) u as) :
    heading b c ((player s c).exec u as) =
      ((player s c).trace panned u as).foldl (steer b) (heading b c u) :=
  (player s c).exec_fold (Spectator c b) (Watching s c b) (heading b c) (steer b) panned
    (fun _ _ hu hen hkeep => hu.next hen hkeep) u as hu hv hkeep

namespace Sample

-- Client 1 plays, client 0 has stepped aside.
def aside : Player :=
  ⟨⟨⟨camMove 0 1 0 0 ((plugin endpoint).exec start [.opened 0, .opened 1, .message 1 [116]]),
    fun _ => .opened, true⟩, [], [], 1⟩, ⟨false, false, 2, 2, false, 0⟩⟩

-- Up twice and one level towards the sky, while the frame goes on.
def walk : List PlayStep :=
  [.hand (.key ⟨87, 119, false, false, false⟩), .hand (.key ⟨87, 87, true, false, false⟩),
    .net .deliver, .hand (.wheel (-3) 0 0), .net (.other (.update (game 64) df)), .net .deliver,
    .net .deliver]

end Sample

theorem gestures_pan_camera_sample :
    ownCam ((player Sample.endpoint 0).exec Sample.aside Sample.walk).circuit.world.st 0 =
      some ⟨1, -20, 1⟩ := by
  have hall := gestures_pan_camera Sample.endpoint 0 (Sample.game 64).span Sample.aside Sample.walk
    ⟨rfl, by decide, rfl, by decide⟩ ?_ ?_
  · have hup : ((player Sample.endpoint 0).exec Sample.aside Sample.walk).circuit.up = [] := by decide
    have htrace : (player Sample.endpoint 0).trace panned Sample.aside Sample.walk =
        [⟨0, -10, 0⟩, ⟨0, -10, 0⟩, ⟨0, 0, 1⟩] := by decide
    unfold heading at hall
    rw [hup, htrace] at hall
    exact hall.trans (by decide)
  · simp only [Sample.walk, Machine.valid_cons]
    refine ⟨rfl, ⟨rfl, ⟨⟨_, _, rfl, rfl, rfl⟩, fun _ => by simp⟩, ?_⟩⟩
    exact ⟨rfl, ⟨⟨trivial, id⟩, fun _ => by simp⟩, ⟨⟨_, _, rfl, rfl, rfl⟩, fun _ => by simp⟩,
      ⟨⟨_, _, rfl, rfl, rfl⟩, fun _ => by simp⟩, trivial⟩
  · exact ⟨⟨by decide, rfl⟩, ⟨by decide, rfl⟩, ⟨by decide, rfl⟩, ⟨by decide, rfl⟩, ⟨by decide, rfl⟩,
      ⟨by decide, rfl⟩, ⟨by decide, rfl⟩, trivial⟩

end WebFort
