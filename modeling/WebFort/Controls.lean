import WebFort.Header
import WebFort.Keys
import Mathlib.Data.List.TakeWhile

namespace WebFort

open Library

-- What the page sends when somebody uses it.

structure Controls where
  active : Bool
  isInMenu : Bool
  dimx : Nat
  dimy : Nat
  -- A click on the status line asks for the turn.
  clickable : Bool
  lastMouseSend : Int

def Controls.initial : Controls := ⟨false, false, 80, 25, false, 0⟩

-- connect and onOpen take the click away.
def Controls.onOpen (p : Controls) : Controls := { p with clickable := false }

-- An exception leaves onMessage before the status line is drawn.
def Controls.onMessage (p : Controls) (data : Bytes) : Controls :=
  if data.head? = some 110 then
    let byte (i : Nat) : UInt8 := data.getD i 0
    let bits := (byte 2).toNat
    let isActive : Bool := bits &&& 1 ≠ 0
    let isNoPlayer : Bool := bits &&& 2 ≠ 0
    let p := { p with isInMenu := (byte 3).toNat &&& 1 ≠ 0 }
    let p := if 0 < (byte 8).toNat then
        { p with dimx := (byte 8).toNat, dimy := (byte 9).toNat }
      else p
    match Percent.decode (activeNick data) with
    | none => p
    | some _ => { p with active := isActive, clickable := isActive || isNoPlayer }
  else p

-- charCode is zero for a key without a character.
structure KeyStroke where
  keyCode : Nat
  charCode : Nat
  shift : Bool
  ctrl : Bool
  alt : Bool

def KeyStroke.mod (k : KeyStroke) : UInt8 :=
  (if k.shift then 2 else 0) ||| (if k.ctrl then 4 else 0) ||| (if k.alt then 1 else 0)

def sendCamMove (dx dy dz : Int) : Bytes := [117, leByte dx 0, leByte dy 0, leByte dz 0]

-- What the handler sends, and whether it prevents the default.
def onkeydown (p : Controls) (k : KeyStroke) : List Bytes × Bool :=
  if k.keyCode = 91 ∨ k.keyCode = 18 ∨ k.keyCode = 17 ∨ k.keyCode = 16 then ([], false)
  else if k.keyCode < 65 then
    if !p.active then ([], true)
    else ([[111, UInt8.ofNat k.keyCode, 0, k.mod]], true)
  else ([], false)

def onkeypress (p : Controls) (k : KeyStroke) : List Bytes :=
  let ch := k.charCode
  let routeToCamera := !p.active || !p.isInMenu
  if routeToCamera ∧ (ch = 119 ∨ ch = 87) then [sendCamMove 0 (-10) 0]
  else if routeToCamera ∧ (ch = 115 ∨ ch = 83) then [sendCamMove 0 10 0]
  else if routeToCamera ∧ (ch = 97 ∨ ch = 65) then [sendCamMove (-10) 0 0]
  else if routeToCamera ∧ (ch = 100 ∨ ch = 68) then [sendCamMove 10 0 0]
  else if !p.active then []
  else [[111, 0, UInt8.ofNat ch, k.mod]]

-- A keydown, and the keypress that follows it for a character where its
-- default is not prevented.
def keystroke (p : Controls) (k : KeyStroke) : List Bytes :=
  let down := onkeydown p k
  down.1 ++ if down.2 ∨ k.charCode = 0 then [] else onkeypress p k

-- px and py are the pointer in tiles of the canvas, rounded down.
def canvasToTile (p : Controls) (px py : Int) : Int × Int :=
  (max 0 (min (p.dimx - 1) px), max 0 (min (p.dimy - 1) py))

def sendMouseEvent (type : WFMouseType) (tile : Int × Int) (button : UInt8) : Bytes :=
  [113, leByte tile.1 0, leByte tile.2 0, button, type]

-- Left, right and middle as ev.button numbers them.
def mouseButton (button : Int) : UInt8 :=
  if button = 2 then 2 else if button = 1 then 3 else 1

inductive Gesture
  | key (k : KeyStroke)
  | mousemove (now : Int) (px py : Int)
  | mousedown (button : Int) (px py : Int)
  | mouseup (button : Int) (px py : Int)
  | wheel (deltaY : Int) (px py : Int)
  -- A click on the status line.
  | click

def Gesture.sends (p : Controls) : Gesture → List Bytes
  | .key k => keystroke p k
  | .mousemove now px py =>
      if now - p.lastMouseSend < 16 then []
      else
        let tile := canvasToTile p px py
        sendMouseEvent WFMouseType.move tile 0 ::
          if !p.active then [[114, leByte tile.1 0, leByte tile.2 0]] else []
  | .mousedown button px py =>
      [sendMouseEvent WFMouseType.down (canvasToTile p px py) (mouseButton button)]
  | .mouseup button px py =>
      [sendMouseEvent WFMouseType.up (canvasToTile p px py) (mouseButton button)]
  | .wheel deltaY px py =>
      if p.active ∧ p.isInMenu then
        [sendMouseEvent WFMouseType.wheel (canvasToTile p px py) (if 0 < deltaY then 5 else 4)]
      else [sendCamMove 0 0 (if deltaY < 0 then 1 else -1)]
  | .click => if p.clickable then [[116]] else []

def Gesture.after (p : Controls) : Gesture → Controls
  | .mousemove now _ _ => if now - p.lastMouseSend < 16 then p else { p with lastMouseSend := now }
  | _ => p

section Messages

variable {p : Controls} {payload : Bytes}

-- The messages of the page: those that reach DF, and where.
inductive Gesture.Means (p : Controls) : Gesture → Message → Prop
  | key (k : KeyStroke) (jsKey charCode : UInt8) :
      p.active = true → Means p (.key k) (.keyEvent jsKey charCode k.mod)
  | camera (g : Gesture) (dx dy dz : UInt8) : Means p g (.camMove dx dy dz)
  | mouse (g : Gesture) (ev : WFMouseEvent) :
      (∃ px py, ev.tileX = leByte (canvasToTile p px py).1 0 ∧
        ev.tileY = leByte (canvasToTile p px py).2 0) → Means p g (.mouseEvent ev)
  | cursor (g : Gesture) (x y : UInt8) : p.active = false → Means p g (.cursorMove x y)
  | turn : p.clickable = true → Means p .click .requestTurn

theorem onkeydown_means {k : KeyStroke} (h : payload ∈ (onkeydown p k).1) :
    Gesture.Means p (.key k) (parseMessage payload) := by
  unfold onkeydown at h
  split at h
  · exact absurd h List.not_mem_nil
  · split at h
    · split at h
      · exact absurd h List.not_mem_nil
      · rename_i hactive
        obtain rfl := List.mem_singleton.mp h
        exact .key k _ _ (by simpa using hactive)
    · exact absurd h List.not_mem_nil

theorem onkeypress_means {k : KeyStroke} (h : payload ∈ onkeypress p k) :
    Gesture.Means p (.key k) (parseMessage payload) := by
  have hcam : ∀ dx dy dz, payload ∈ [sendCamMove dx dy dz] →
      Gesture.Means p (.key k) (parseMessage payload) := by
    intro dx dy dz hmem
    obtain rfl := List.mem_singleton.mp hmem
    exact .camera _ _ _ _
  unfold onkeypress at h
  simp only at h
  split at h
  · exact hcam _ _ _ h
  · split at h
    · exact hcam _ _ _ h
    · split at h
      · exact hcam _ _ _ h
      · split at h
        · exact hcam _ _ _ h
        · split at h
          · exact absurd h List.not_mem_nil
          · rename_i hactive
            obtain rfl := List.mem_singleton.mp h
            exact .key k _ _ (by simpa using hactive)

-- What the server makes of a message of the page.
theorem sends_means {g : Gesture} (h : payload ∈ g.sends p) :
    Gesture.Means p g (parseMessage payload) := by
  cases g with
  | key k =>
      rcases List.mem_append.mp h with h | h
      · exact onkeydown_means h
      · split at h
        · exact absurd h List.not_mem_nil
        · exact onkeypress_means h
  | mousemove now px py =>
      simp only [Gesture.sends] at h
      split at h
      · exact absurd h List.not_mem_nil
      · rcases List.mem_cons.mp h with rfl | h
        · exact .mouse _ _ ⟨px, py, rfl, rfl⟩
        · split at h
          · rename_i hactive
            obtain rfl := List.mem_singleton.mp h
            exact .cursor _ _ _ (by simpa using hactive)
          · exact absurd h List.not_mem_nil
  | mousedown button px py =>
      obtain rfl := List.mem_singleton.mp h
      exact .mouse _ _ ⟨px, py, rfl, rfl⟩
  | mouseup button px py =>
      obtain rfl := List.mem_singleton.mp h
      exact .mouse _ _ ⟨px, py, rfl, rfl⟩
  | wheel deltaY px py =>
      simp only [Gesture.sends] at h
      split at h
      · obtain rfl := List.mem_singleton.mp h
        exact .mouse _ _ ⟨px, py, rfl, rfl⟩
      · obtain rfl := List.mem_singleton.mp h
        exact .camera _ _ _ _
  | click =>
      simp only [Gesture.sends] at h
      split at h
      · rename_i hclick
        obtain rfl := List.mem_singleton.mp h
        exact .turn hclick
      · exact absurd h List.not_mem_nil

end Messages

end WebFort
