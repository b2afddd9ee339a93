import Iojxd.RefBase
import Iojxd.TimerModel

/-!
# Timers and child watchers of `luafoundx.cxx`

`ixlbx_timer` and `ixlbx_child_watcher` around the objects of `timer.cxx` and
`childprocess.cxx`.  `start` takes the self-reference, and the callback drops it
after the Lua function has returned.

The loop first takes up a watcher and later runs its callback; in between it may
run other callbacks.  It does not run inside a Lua function.  A Lua error that
leaves a callback ends the process, as does a failed assertion of a destructor.
-/

namespace Iojxd
namespace LuaWatcher

open LuaRef Timer

/-- A libev `ev_child`. -/
structure EvChild where
  active : Bool
  pid : Int
deriving DecidableEq

/-- `ixut_child_watcher`; `cb` and `data` stand for the callback. -/
structure IxutChildWatcher where
  event : EvChild
  cb : Option Nat
  data : Nat
deriving DecidableEq

/-- `ixut_childw_create`. -/
def ixutChildwCreate : IxutChildWatcher where
  event := ⟨false, 0⟩
  cb := none
  data := 0

/-- `ixut_childw_start`. -/
def ixutChildwStart (pid : Int) (cb : Option Nat) (data : Nat) :
    IxutChildWatcher where
  event := ⟨true, pid⟩
  cb := cb
  data := data

/-- `ixut_childw_cb` up to its callback, and whether there is one. -/
def ixutChildwCb (childw : IxutChildWatcher) : IxutChildWatcher × Bool :=
  ({ childw with event := { childw.event with active := false } },
    childw.cb.isSome)

/-- `m_impl` of the two classes. -/
inductive Impl where
  | timer (t : IxutTimer)
  | childWatcher (w : IxutChildWatcher)
deriving DecidableEq

namespace Impl

/-- `ev_is_active` of the watcher. -/
def active : Impl → Bool
  | .timer t => t.timer.active
  | .childWatcher w => w.event.active

/-- The watcher has an event: its time has come, or a process has ended. -/
def due (now : ℚ) : Impl → Bool
  | .timer t => t.timer.due now
  | .childWatcher w => w.event.active

/-- The loop takes up the event. -/
def takeUp (now : ℚ) : Impl → Impl
  | .timer t => .timer { t with timer := t.timer.expire now }
  | .childWatcher w => .childWatcher w

/-- The callback of the watcher, up to the lambda, and whether that is called. -/
def invoke (now : ℚ) : Impl → Impl × Bool
  | .timer t =>
      let s := ixutTimerCb ⟨t, now, []⟩
      (.timer s.timer, !s.fired.isEmpty)
  | .childWatcher w =>
      let r := ixutChildwCb w
      (.childWatcher r.1, r.2)

/-- The assertions of `ixut_timer_free` and of `ixut_childw_free`. -/
def freeAsserts (pending : Bool) : Impl → Bool
  | .timer t => !t.active
  | .childWatcher w => !w.event.active && !pending

/-- The lambda of `ixlbx_timer` hands a `RefCountedPtr` to Lua, that of
`ixlbx_child_watcher` a plain pointer. -/
def lends : Impl → Bool
  | .timer _ => true
  | .childWatcher _ => false

end Impl

/-- `ixlbx_timer` and `ixlbx_child_watcher`; `pending` is `ev_is_pending`. -/
structure Obj where
  base : IxlbxRefBase
  impl : Impl
  pending : Bool
  destroyed : Bool
deriving DecidableEq

/-- A destructor has run: whether the watcher was active, and whether the
assertions held. -/
structure Destruction where
  obj : Nat
  armed : Bool
  asserted : Bool
deriving DecidableEq

/-- The state: `running` is the object whose Lua function runs. -/
structure World where
  now : ℚ
  objs : Nat → Option Obj
  nextObj : Nat
  running : Option Nat
  destructions : List Destruction
  aborted : Bool

namespace World

def init (now : ℚ) : World where
  now := now
  objs := fun _ => none
  nextObj := 0
  running := none
  destructions := []
  aborted := false

@[simps] def setObj (w : World) (k : Nat) (o : Obj) : World :=
  { w with objs := Function.update w.objs k (some o) }

/-- A new object, in a handle of Lua. -/
def addObj (w : World) (impl : Impl) : World :=
  { w.setObj w.nextObj ⟨.make, impl, false, false⟩ with
    nextObj := w.nextObj + 1 }

/-- The object is `o` now that a reference has gone; at count zero its
destructor runs. -/
def dropped (w : World) (k : Nat) (o : Obj) : World :=
  if o.base.refs = 0 then
    let asserted := o.impl.freeAsserts o.pending
    { w.setObj k { o with destroyed := true } with
      destructions := w.destructions ++ [⟨k, o.impl.active, asserted⟩]
      aborted := w.aborted || !asserted }
  else w.setObj k o

/-- The temporary of the lambda goes. -/
def dropTemporary (w : World) (k : Nat) : World :=
  match w.objs k with
  | none => w
  | some o =>
      if o.impl.lends then w.dropped k { o with base := o.base.giveBack }
      else w

/-- `un_ref`. -/
def unRef (w : World) (k : Nat) : World :=
  match w.objs k with
  | none => w
  | some o =>
      if o.base.thisRef then w.dropped k { o with base := o.base.unRef }
      else w

end World

/-- What Lua and the loop do with the objects. -/
inductive Label where
  /-- call of `iojxx.timer`; two fields are left as `malloc` found them -/
  | newTimer (dueAt repeatAfter : ℚ)
  /-- call of `iojxx.child_watcher` -/
  | newChildWatcher
  /-- call of `start` on a timer -/
  | startTimer (k : Nat) (interval : ℚ)
  /-- call of `start` on a child watcher -/
  | startChild (k : Nat) (pid : Int)
  /-- the loop takes up a watcher that has an event -/
  | takeUp (k : Nat) (now : ℚ)
  /-- the loop runs the callback of a watcher it has taken up -/
  | fire (k : Nat)
  /-- the Lua function returns -/
  | callbackReturns
  /-- the collector drops a handle -/
  | collect (k : Nat)
deriving DecidableEq

/-- A step on an object that meets a test. -/
def onObj (w : World) (k : Nat) (ok : Obj → Bool) (f : Obj → World) :
    Option World :=
  match w.objs k with
  | none => none
  | some o => if ok o then some (f o) else none

/-- Lua has a handle, or the plain pointer while the callback runs, and the
watcher is not active. -/
def startable (w : World) (k : Nat) (o : Obj) : Bool :=
  (decide (0 < o.base.handles) || (!o.impl.lends && w.running == some k)) &&
    !o.impl.active

/-- `start` of `ixlbx_timer`, of `ixlbx_child_watcher`. -/
def start (w : World) (k : Nat) (o : Obj) (impl : Impl) : World :=
  w.setObj k
    { o with
      base := o.base.ref
      impl := impl }

/-- The callback of the watcher runs, up to the Lua function. -/
def fire (w : World) (k : Nat) (o : Obj) : World :=
  let r := o.impl.invoke w.now
  let o := { o with
    impl := r.1
    pending := false }
  if r.2 then
    { w.setObj k
        { o with base := if o.impl.lends then o.base.lend else o.base } with
      running := some k }
  else w.setObj k o

/-- The step function; `none` where the label is not enabled. -/
def stepAlive (w : World) : Label → Option World
  | .newTimer dueAt repeatAfter =>
      some (w.addObj (.timer (ixutTimerCreate dueAt repeatAfter)))
  | .newChildWatcher => some (w.addObj (.childWatcher ixutChildwCreate))
  | .startTimer k interval =>
      match w.objs k with
      | some o =>
          match o.impl with
          | .timer t =>
              if startable w k o then
                some (start w k o
                  (.timer (ixutTimerStart t interval (some 0) k w.now)))
              else none
          | .childWatcher _ => none
      | none => none
  | .startChild k pid =>
      match w.objs k with
      | some o =>
          match o.impl with
          | .timer _ => none
          | .childWatcher _ =>
              if startable w k o && !o.pending then
                some (start w k o
                  (.childWatcher (ixutChildwStart pid (some 0) k)))
              else none
      | none => none
  | .takeUp k now =>
      if w.now ≤ now ∧ w.running = none then
        onObj w k (fun o => o.impl.due now)
          (fun o =>
            { w.setObj k
                { o with
                  impl := o.impl.takeUp now
                  pending := true } with
              now := now })
      else none
  | .fire k =>
      if w.running = none then
        onObj w k (fun o => o.pending) (fun o => fire w k o)
      else none
  | .callbackReturns =>
      match w.running with
      | none => none
      | some k =>
          some ({ (w.dropTemporary k).unRef k with running := none })
  | .collect k =>
      onObj w k (fun o => decide (0 < o.base.handles))
        (fun o => w.dropped k { o with base := o.base.collect })

/-- The step function of a process that has not been aborted. -/
def step (w : World) (l : Label) : Option World :=
  if w.aborted then none else stepAlive w l

end LuaWatcher
end Iojxd
