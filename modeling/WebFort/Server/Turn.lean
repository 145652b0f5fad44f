import WebFort.Server.State

namespace WebFort

open Library

def roundTimer (st : State) : Int :=
  if st.config.ingameTime then int32 st.game.currentTick else int32 st.game.time

def idleTimeout : Int := 10

def resetIdleTimer (st : State) : State :=
  { st with itime := st.game.time, timedOut := false }

def idleTimer (st : State) : Res :=
  if !st.timedOut && st.activeConn = none && st.game.time - st.itime > idleTimeout then
    .emit { st with timedOut := true } .quicksave
  else .ok st

def dropCursor (conn : Option Handle) (st : State) : State :=
  match conn with
  | none => st
  | some hdl => st.withRegistered hdl fun cl => { cl with cursorActive := false }

-- set_active presses SPACE when it sees the game running.
def pauseGame (st : State) : State :=
  if st.game.pauseState then st
  else (st.pushKeys (simkey 1 0 Key.space 32)).pushKeys (simkey 0 0 Key.space 32)

def seizedControl (nick : Bytes) : Bytes :=
  (if nick = [] then ascii "A wandering spirit" else ascii "The spirit " ++ nick) ++
    ascii " has seized control."

def setActive (newc : Option Handle) (st : State) : Res :=
  if st.activeConn = newc then .ok st
  else
    let st := dropCursor st.activeConn st
    let st := dropCursor newc { st with activeConn := newc }
    match newc with
    | some hdl =>
        let nick := (st.getClient hdl).nick
        let st := st.withClient hdl fun cl => { cl.clearMod with atime := roundTimer st }
        .emit (pauseGame st) (.announcement (seizedControl nick))
    | none => .ok (pauseGame (if st.config.autosaveWhileIdle then resetIdleTimer st else st))

-- The second component is *time_up.
def getTimeLeft (st : State) : Int × Bool :=
  if st.config.turntime ≠ 0 ∧ st.activeConn ≠ none ∧ 1 < st.clients.size then
    let played := int32 (roundTimer st - st.getActive.atime)
    if played < st.config.turntime then (int32 (st.config.turntime - played), false)
    else (-1, true)
  else (-1, false)

end WebFort
