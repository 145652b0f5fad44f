import WebFort.Library.Words

namespace WebFort

open Library

-- SDL::Key, an int32_t that also carries raw character codes.
abbrev Key := Nat

namespace Key

def unknown : Key := 0
def ret : Key := 13
def escape : Key := 27
def space : Key := 32
def less : Key := 60
def greater : Key := 62
def delete : Key := 127
def kp (digit : Nat) : Key := 256 + digit
def kpDivide : Key := 267
def kpMultiply : Key := 268
def kpMinus : Key := 269
def kpPlus : Key := 270
def up : Key := 273
def down : Key := 274
def right : Key := 275
def left : Key := 276
def home : Key := 278
def «end» : Key := 279
def pageup : Key := 280
def pagedown : Key := 281
def f (n : Nat) : Key := 281 + n
def numlock : Key := 294
def rshift : Key := 303
def lshift : Key := 304
def rctrl : Key := 305
def lctrl : Key := 306
def ralt : Key := 307
def lalt : Key := 308

end Key

def kmodShift : Nat := 0x0003
def kmodCtrl : Nat := 0x00C0
def kmodAlt : Nat := 0x0300

structure WFKeyEvent where
  down : Nat
  sdlmods : Nat
  sym : Key
  unicode : Nat
  deriving DecidableEq

def mapInputCodeToSDL (code : Nat) : Key :=
  match code with
  | 96 => Key.kp 0
  | 97 => Key.kp 1
  | 98 => Key.kp 2
  | 99 => Key.kp 3
  | 100 => Key.kp 4
  | 101 => Key.kp 5
  | 102 => Key.kp 6
  | 103 => Key.kp 7
  | 104 => Key.kp 8
  | 105 => Key.kp 9
  | 144 => Key.numlock
  | 111 => Key.kpDivide
  | 106 => Key.kpMultiply
  | 109 => Key.kpMinus
  | 107 => Key.kpPlus
  | 33 => Key.pageup
  | 34 => Key.pagedown
  | 35 => Key.end
  | 36 => Key.home
  | 46 => Key.delete
  | 112 => Key.f 1
  | 113 => Key.f 2
  | 114 => Key.f 3
  | 115 => Key.f 4
  | 116 => Key.f 5
  | 117 => Key.f 6
  | 118 => Key.f 7
  | 119 => Key.f 8
  | 120 => Key.f 9
  | 121 => Key.f 10
  | 122 => Key.f 11
  | 123 => Key.f 12
  | 37 => Key.left
  | 39 => Key.right
  | 38 => Key.up
  | 40 => Key.down
  | 188 => Key.less
  | 190 => Key.greater
  | 13 => Key.ret
  | 27 => Key.escape
  | _ => if code ≤ 177 then code else Key.unknown

-- The events a call of simkey appends to g_wf_input_queue.
def simkey (down mod : Nat) (sym : Key) (unicode : Nat) : List WFKeyEvent :=
  if down = 0 then []
  else if sym = Key.unknown ∧ unicode = 0 then []
  else if sym = Key.lshift ∨ sym = Key.rshift ∨ sym = Key.lctrl ∨ sym = Key.rctrl ∨
      sym = Key.lalt ∨ sym = Key.ralt then []
  else [⟨down, mod, sym, unicode⟩]

-- WFMouseType as it comes off the wire, any byte.
abbrev WFMouseType := UInt8

def WFMouseType.move : WFMouseType := 0
def WFMouseType.down : WFMouseType := 1
def WFMouseType.up : WFMouseType := 2
def WFMouseType.wheel : WFMouseType := 3

structure WFMouseEvent where
  tileX : UInt8
  tileY : UInt8
  button : UInt8
  type : WFMouseType
  deriving DecidableEq

-- SDL_Keycode values of SDL2: a character, or a scancode with bit 30 set.
abbrev Keycode := Nat

namespace Keycode

def scancode (n : Nat) : Keycode := 2 ^ 30 + n

def escape : Keycode := 27
def space : Keycode := 32
def lctrl : Keycode := scancode 224
def lshift : Keycode := scancode 225
def lalt : Keycode := scancode 226

end Keycode

def toLowerAscii (c : Nat) : Nat := if 65 ≤ c ∧ c ≤ 90 then c + 32 else c

-- 0 if unknown
def wfToSdlKeycode (sym : Key) (unicode : Nat) : Keycode :=
  if 0x20 ≤ unicode ∧ unicode ≤ 0x7E then toLowerAscii unicode
  else
    match sym with
    | 8 => 8
    | 9 => 9
    | 13 => 13
    | 27 => Keycode.escape
    | 32 => Keycode.space
    | 33 => Keycode.scancode 75
    | 34 => Keycode.scancode 78
    | 35 => Keycode.scancode 77
    | 36 => Keycode.scancode 74
    | 37 => Keycode.scancode 80
    | 38 => Keycode.scancode 82
    | 39 => Keycode.scancode 79
    | 40 => Keycode.scancode 81
    | 45 => Keycode.scancode 73
    | 46 => 127
    | 112 => Keycode.scancode 58
    | 113 => Keycode.scancode 59
    | 114 => Keycode.scancode 60
    | 115 => Keycode.scancode 61
    | 116 => Keycode.scancode 62
    | 117 => Keycode.scancode 63
    | 118 => Keycode.scancode 64
    | 119 => Keycode.scancode 65
    | 120 => Keycode.scancode 66
    | 121 => Keycode.scancode 67
    | 122 => Keycode.scancode 68
    | 123 => Keycode.scancode 69
    | _ => if 0x20 ≤ sym ∧ sym ≤ 0x7E then toLowerAscii sym else 0

inductive SdlEvent
  | key (down : Bool) (sym : Keycode) (mod : Nat)
  | textInput (ch : Nat)
  | wheel (y : Int)
  deriving DecidableEq

def wfPushSdlKey (sym : Keycode) (sdlmods : Nat) (down : Bool) (unicode : Nat) : List SdlEvent :=
  let mod := (if sdlmods &&& kmodShift ≠ 0 then kmodShift else 0) |||
    (if sdlmods &&& kmodCtrl ≠ 0 then kmodCtrl else 0) |||
    (if sdlmods &&& kmodAlt ≠ 0 then kmodAlt else 0)
  .key down sym mod ::
    if down ∧ 0x20 ≤ unicode ∧ unicode ≤ 0x7E ∧ sdlmods &&& (kmodCtrl ||| kmodAlt) = 0 then
      [.textInput unicode]
    else []

def modifierDowns (sdlmods : Nat) : List SdlEvent :=
  (if sdlmods &&& kmodShift ≠ 0 then wfPushSdlKey Keycode.lshift 0 true 0 else []) ++
  (if sdlmods &&& kmodCtrl ≠ 0 then wfPushSdlKey Keycode.lctrl 0 true 0 else []) ++
  (if sdlmods &&& kmodAlt ≠ 0 then wfPushSdlKey Keycode.lalt 0 true 0 else [])

def modifierUps (sdlmods : Nat) : List SdlEvent :=
  (if sdlmods &&& kmodAlt ≠ 0 then wfPushSdlKey Keycode.lalt 0 false 0 else []) ++
  (if sdlmods &&& kmodCtrl ≠ 0 then wfPushSdlKey Keycode.lctrl 0 false 0 else []) ++
  (if sdlmods &&& kmodShift ≠ 0 then wfPushSdlKey Keycode.lshift 0 false 0 else [])

-- The body of the loop of wf_flush_input_queue.
def flushKey (ev : WFKeyEvent) : List SdlEvent :=
  let sk := wfToSdlKeycode ev.sym ev.unicode
  if sk = 0 then []
  else modifierDowns ev.sdlmods ++ wfPushSdlKey sk ev.sdlmods true ev.unicode ++
    wfPushSdlKey sk ev.sdlmods false ev.unicode ++ modifierUps ev.sdlmods

def flushKeys (queue : List WFKeyEvent) : List SdlEvent := queue.flatMap flushKey

end WebFort
