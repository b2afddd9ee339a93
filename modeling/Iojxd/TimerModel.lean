import Mathlib.Data.Rat.Defs
import Iojxd.TransitionRun

/-!
# The timers of `timer.cxx`

An `ixut_timer` and the `ev_timer` it owns, with the part of libev that
`timer.cxx` relies on: a watcher that is due expires, is stopped when its
repeat value is zero and stays started otherwise, and then its callback runs.
Times and intervals are exact; a function that reads the clock of the loop
takes its value as `now`.
-/

namespace Iojxd
namespace Timer

/-- The two callbacks an `ev_timer` of this file can have. -/
inductive EvTimerCb where
  | ixutTimerCb
  | ixutTimeoutCb
deriving DecidableEq

/-- A libev `ev_timer`: `dueAt` is its field `at`. -/
structure EvTimer where
  cb : EvTimerCb
  active : Bool
  dueAt : ℚ
  repeatAfter : ℚ
deriving DecidableEq

namespace EvTimer

/-- `ev_init`. -/
def init (w : EvTimer) (cb : EvTimerCb) : EvTimer :=
  { w with cb := cb, active := false }

/-- `ev_timer_set`. -/
def set (w : EvTimer) (after repeatAfter : ℚ) : EvTimer :=
  { w with dueAt := after, repeatAfter := repeatAfter }

/-- `ev_timer_start`. -/
def start (w : EvTimer) (now : ℚ) : EvTimer :=
  if w.active then w
  else { w with active := true, dueAt := w.dueAt + now }

/-- `ev_timer_stop`. -/
def stop (w : EvTimer) : EvTimer :=
  { w with active := false }

/-- `ev_timer_again`. -/
def again (w : EvTimer) (now : ℚ) : EvTimer :=
  if w.active then
    if 0 < w.repeatAfter then { w with dueAt := now + w.repeatAfter }
    else w.stop
  else
    if 0 < w.repeatAfter then { w with dueAt := w.repeatAfter }.start now
    else w

/-- The loop takes up a watcher that is due, before it runs the callback. -/
def expire (w : EvTimer) (now : ℚ) : EvTimer :=
  if 0 < w.repeatAfter then
    { w with dueAt := max (w.dueAt + w.repeatAfter) now }
  else w.stop

/-- A watcher is due once its time is over; the loop does not expire it at the
very time. -/
def due (w : EvTimer) (now : ℚ) : Bool :=
  w.active && decide (w.dueAt < now)

end EvTimer

/-- `ixut_timer`; `cb` and `args` stand for the user callback. -/
structure IxutTimer where
  cb : Option Nat
  args : Nat
  active : Bool
  isTimeout : Bool
  interval : ℚ
  timer : EvTimer
  lastAct : ℚ
deriving DecidableEq

/-- `ixut_timer_create`; the fields of the watcher that `ev_init` leaves unset
have the values `at` and `repeatAfter`. -/
def ixutTimerCreate (dueAt repeatAfter : ℚ) : IxutTimer where
  cb := none
  args := 0
  active := false
  isTimeout := false
  interval := 0
  timer := EvTimer.init ⟨.ixutTimerCb, false, dueAt, repeatAfter⟩ .ixutTimerCb
  lastAct := 0

/-- `ixut_timer_start`. -/
def ixutTimerStart (timer : IxutTimer) (interval : ℚ) (cb : Option Nat)
    (args : Nat) (now : ℚ) : IxutTimer :=
  { timer with
    cb := cb
    args := args
    timer := (timer.timer.set interval 0).start now
    active := true
    interval := interval }

/-- `ixut_timer_stop`. -/
def ixutTimerStop (timer : IxutTimer) : IxutTimer :=
  { timer with
    timer := timer.timer.stop
    active := false }

/-- `ixut_timer_setimeout`. -/
def ixutTimerSetimeout (timer : IxutTimer) : IxutTimer :=
  { timer with
    isTimeout := true
    timer := timer.timer.init .ixutTimeoutCb }

/-- `ixut_timer_tick`. -/
def ixutTimerTick (timer : IxutTimer) (now : ℚ) : IxutTimer :=
  { timer with lastAct := now }

/-- `ixut_timer_again`. -/
def ixutTimerAgain (timer : IxutTimer) (now : ℚ) : IxutTimer :=
  { timer with
    timer := timer.timer.again now
    active := true }

/-- A timer and the calls of its user callback, with their times. -/
structure TimerState where
  timer : IxutTimer
  now : ℚ
  fired : List ℚ
deriving DecidableEq

/-- The user callback is called at `s.now`. -/
def callUser (s : TimerState) : TimerState :=
  { s with fired := s.fired ++ [s.now] }

/-- `ixut_timer_cb`. -/
def ixutTimerCb (s : TimerState) : TimerState :=
  let s := { s with timer := { s.timer with active := false } }
  match s.timer.cb with
  | some _ => callUser s
  | none => s

/-- `ixut_timeout_cb`. -/
def ixutTimeoutCb (s : TimerState) : TimerState :=
  let timeout := s.timer.lastAct + s.timer.interval
  if timeout < s.now then
    match s.timer.cb with
    | some _ =>
        callUser { s with timer := { s.timer with active := false } }
    | none => s
  else
    let timer :=
      { s.timer with
        timer := { s.timer.timer with repeatAfter := timeout - s.now } }
    { s with timer := ixutTimerAgain timer s.now }

/-- The watcher expires at `s.now` and its callback runs. -/
def evExpire (s : TimerState) : TimerState :=
  let s := { s with
    timer := { s.timer with timer := s.timer.timer.expire s.now } }
  match s.timer.timer.cb with
  | .ixutTimerCb => ixutTimerCb s
  | .ixutTimeoutCb => ixutTimeoutCb s

/-- What happens to a started timer, with the time at which it happens. -/
inductive Label where
  /-- call of `ixut_timer_tick` -/
  | tick (now : ℚ)
  /-- the watcher expires -/
  | expire (now : ℚ)
deriving DecidableEq

/-- The step function; time does not run backwards. -/
def step (s : TimerState) : Label → Option TimerState
  | .tick now =>
      if s.now ≤ now then
        some { s with timer := ixutTimerTick s.timer now, now := now }
      else none
  | .expire now =>
      if s.now ≤ now ∧ s.timer.timer.due now = true then
        some (evExpire { s with now := now })
      else none

end Timer
end Iojxd
