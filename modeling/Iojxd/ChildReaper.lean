import Iojxd.ChildTermination
import Iojxd.OneShot

/-!
# Child processes of the daemon

`child_termcb.cxx` and `childprocess.cxx` over the processes of the kernel and
the event loop.  The daemon forks, and processes end at any time; the loop waits
for the dead ones, marks the watchers of the pid, and later calls them one by
one.  A callback may fork, start and free watchers and run the loop again, so
callbacks nest.

`ixcb_child_terminated_ev` calls first, then stops the watcher and frees its two
blocks; `ixut_childw_cb` stops first.  A block that was freed is not handed out
again.  A failed assertion ends the daemon.  Only the ends of processes are
reported: the watchers do not ask for stops.
-/

namespace Iojxd
namespace ChildReaper

open ChildTermination WaitStatus TransitionRun

/-- A process, for its parent; the number tells processes of one pid apart. -/
inductive Proc where
  | absent
  | running (n : Nat)
  | zombie (n : Nat) (e : ChildEnd)
deriving DecidableEq

/-- The process that has the pid, until it is waited for. -/
def Proc.child : Proc → Option Nat
  | .absent => none
  | .running n => some n
  | .zombie n _ => some n

/-- An `ev_child`, as the loop keeps it. -/
structure EvWatcher where
  event : EvChild
  active : Bool
  pending : Bool
deriving DecidableEq

/-- The loop has waited for a process of this pid. -/
def EvWatcher.reap (pid : Int) (status : Word) (x : EvWatcher) : EvWatcher :=
  if x.active = true ∧ (x.event.pid = pid ∨ x.event.pid = 0) then
    { x with
      event := childReap x.event pid status
      pending := true }
  else x

/-- The two blocks of `ixc_add_termcb`. -/
structure Termcb where
  event : EvWatcher
  args : IxcTermcbArgs

/-- `ixut_child_watcher`; `cb` and `data` stand for the callback. -/
structure IxutChildWatcher where
  event : EvWatcher
  cb : Option Nat
  data : Nat

/-- What is running, the innermost first. -/
inductive Frame where
  | loop
  | termcb (k : Nat)
  | childw (k : Nat)
deriving DecidableEq

/-- The watchers, by the order in which they were made. -/
inductive Id where
  | termcb (k : Nat)
  | childw (k : Nat)
deriving DecidableEq

/-- Pid and raw status. -/
abbrev Report := Int × Word

/-- The task of a watcher is the process that it was started for, if that was a
child of the daemon. -/
abbrev Event := OneShot.Event Id (Option Nat) Report

structure World where
  procs : Int → Proc
  forked : Nat
  termcbs : Nat → Option Termcb
  spawned : Nat
  childws : Nat → Option IxutChildWatcher
  created : Nat
  frames : List Frame
  log : List Event
  usedFreed : Bool
  aborted : Bool

inductive Label where
  | fork (pid : Int)
  | spawn (pid : Option Int) (data : Nat)
  | create
  | start (k : Nat) (pid : Int) (cb : Option Nat) (data : Nat)
  | free (k : Nat)
  | ends (pid : Int) (e : ChildEnd)
  | evRun
  | reap (pid : Int)
  | callTermcb (k : Nat)
  | callChildw (k : Nat)
  | returns
  | leaves

namespace World

def init : World where
  procs := fun _ => .absent
  forked := 0
  termcbs := fun _ => none
  spawned := 0
  childws := fun _ => none
  created := 0
  frames := []
  log := []
  usedFreed := false
  aborted := false

/-- The loop has control, not a callback or the main script. -/
def inLoop (w : World) : Bool :=
  w.frames.head? = some .loop

/-- `fork`, in the parent. -/
@[simps] def fork (w : World) (pid : Int) : World :=
  { w with
    procs := Function.update w.procs pid (.running w.forked)
    forked := w.forked + 1 }

/-- The kernel may give out the pid. -/
def Vacant (w : World) (pid : Int) : Prop :=
  0 < pid ∧ w.procs pid = .absent

instance (w : World) (pid : Int) : Decidable (w.Vacant pid) :=
  inferInstanceAs (Decidable (_ ∧ _))

/-- `ixc_add_termcb`. -/
@[simps] def addTermcb (w : World) (pid : Int) (data : Nat) : World :=
  { w with
    termcbs := Function.update w.termcbs w.spawned
      (some ⟨⟨evChildSet pid, true, false⟩, ixcAddTermcb pid data⟩)
    spawned := w.spawned + 1
    log := w.log ++ [.started (.termcb w.spawned) (w.procs pid).child] }

/-- `ixut_childw_create`. -/
@[simps] def childwCreate (w : World) : World :=
  { w with
    childws := Function.update w.childws w.created
      (some ⟨⟨evChildSet 0, false, false⟩, none, 0⟩)
    created := w.created + 1 }

/-- `ixut_childw_start` behind its assertions. -/
@[simps] def childwStart (w : World) (k : Nat) (x : IxutChildWatcher)
    (pid : Int) (cb : Option Nat) (data : Nat) : World :=
  { w with
    childws := Function.update w.childws k
      (some ⟨⟨{ x.event.event with pid := pid }, true, false⟩, cb, data⟩)
    log := w.log ++ [.started (.childw k) (w.procs pid).child] }

/-- `ixut_childw_free` behind its assertions. -/
@[simps] def childwFree (w : World) (k : Nat) : World :=
  { w with childws := Function.update w.childws k none }

@[simps] def abort (w : World) : World :=
  { w with aborted := true }

/-- A process ends. -/
@[simps] def finish (w : World) (pid : Int) (n : Nat) (e : ChildEnd) : World :=
  { w with
    procs := Function.update w.procs pid (.zombie n e)
    log := w.log ++ [.ended (some n) (pid, e.raw)] }

/-- The loop waits for a dead process and marks its watchers. -/
@[simps] def reap (w : World) (pid : Int) (e : ChildEnd) : World :=
  { w with
    procs := Function.update w.procs pid .absent
    termcbs := fun k => (w.termcbs k).map fun x =>
      { x with event := x.event.reap pid e.raw }
    childws := fun k => (w.childws k).map fun x =>
      { x with event := x.event.reap pid e.raw } }

@[simps] def enter (w : World) (f : Frame) : World :=
  { w with frames := f :: w.frames }

@[simps] def leave (w : World) (fs : List Frame) : World :=
  { w with frames := fs }

/-- `ixcb_child_terminated_ev` up to its callback. -/
@[simps!] def termcbCalls (w : World) (k : Nat) (x : Termcb) : World :=
  let args := ixcbChildTerminatedEv x.event.event x.args
  { w with
    termcbs := Function.update w.termcbs k
      (some ⟨{ x.event with pending := false }, args⟩)
    frames := .termcb k :: w.frames
    log := w.log ++ [.called (.termcb k) (args.pid, args.status)] }

/-- `ixcb_child_terminated_ev` behind its callback, with the blocks still
there. -/
@[simps] def termcbFrees (w : World) (k : Nat) (fs : List Frame) : World :=
  { w with
    termcbs := Function.update w.termcbs k none
    frames := fs }

/-- The same with the blocks gone. -/
@[simps] def termcbFreesAgain (w : World) (fs : List Frame) : World :=
  { w with
    frames := fs
    usedFreed := true }

/-- `ev_child_stop` in `ixut_childw_cb`. -/
@[simps] def childwStops (w : World) (k : Nat) (x : IxutChildWatcher) : World :=
  { w with
    childws := Function.update w.childws k
      (some { x with event := ⟨x.event.event, false, false⟩ }) }

/-- The callback of `ixut_childw_cb`. -/
@[simps] def childwCalls (w : World) (k : Nat) (x : IxutChildWatcher) : World :=
  { w with
    frames := .childw k :: w.frames
    log := w.log ++
      [.called (.childw k) (x.event.event.rpid, x.event.event.rstatus)] }

end World

/-- One step; `none` where the label is not enabled.  The calls of the daemon
are enabled outside the loop, with watchers that have not been freed. -/
def step (w : World) (l : Label) : Option World :=
  if w.aborted then none
  else
    match l with
    | .fork pid =>
        if w.inLoop = false ∧ w.Vacant pid then some (w.fork pid) else none
    | .spawn none _ => if w.inLoop = false then some w else none
    | .spawn (some pid) data =>
        if w.inLoop = false ∧ w.Vacant pid then
          some ((w.fork pid).addTermcb pid data)
        else none
    | .create => if w.inLoop = false then some w.childwCreate else none
    | .start k pid cb data =>
        match w.childws k with
        | some x =>
            if w.inLoop then none
            else if x.event.active || x.event.pending then some w.abort
            else some (w.childwStart k x pid cb data)
        | none => none
    | .free k =>
        match w.childws k with
        | some x =>
            if w.inLoop then none
            else if x.event.active || x.event.pending then some w.abort
            else some (w.childwFree k)
        | none => none
    | .ends pid e =>
        match w.procs pid with
        | .running n => some (w.finish pid n e)
        | _ => none
    | .evRun => if w.inLoop then none else some (w.enter .loop)
    | .reap pid =>
        match w.procs pid with
        | .zombie _ e => if w.inLoop then some (w.reap pid e) else none
        | _ => none
    | .callTermcb k =>
        match w.termcbs k with
        | some x =>
            if w.inLoop && x.event.pending then some (w.termcbCalls k x)
            else none
        | none => none
    | .callChildw k =>
        match w.childws k with
        | some x =>
            if w.inLoop && x.event.pending then
              match x.cb with
              | some _ => some ((w.childwStops k x).childwCalls k x)
              | none => some (w.childwStops k x)
            else none
        | none => none
    | .returns =>
        match w.frames with
        | .termcb k :: fs =>
            match w.termcbs k with
            | some _ => some (w.termcbFrees k fs)
            | none => some (w.termcbFreesAgain fs)
        | .childw _ :: fs => some (w.leave fs)
        | _ => none
    | .leaves =>
        match w.frames with
        | .loop :: fs => some (w.leave fs)
        | _ => none

/-- What a step does, and what it needs. -/
inductive Move (w : World) : Label → World → Prop
  | fork (pid : Int) (hvacant : w.Vacant pid) : Move w (.fork pid) (w.fork pid)
  | spawnFails (data : Nat) : Move w (.spawn none data) w
  | spawn (pid : Int) (data : Nat) (hvacant : w.Vacant pid) :
      Move w (.spawn (some pid) data) ((w.fork pid).addTermcb pid data)
  | create : Move w .create w.childwCreate
  | start {k : Nat} {x : IxutChildWatcher} (pid : Int) (cb : Option Nat)
      (data : Nat) (hx : w.childws k = some x) (hactive : x.event.active = false)
      (hpending : x.event.pending = false) :
      Move w (.start k pid cb data) (w.childwStart k x pid cb data)
  | startAborts (k : Nat) (pid : Int) (cb : Option Nat) (data : Nat) :
      Move w (.start k pid cb data) w.abort
  | free {k : Nat} {x : IxutChildWatcher} (hx : w.childws k = some x)
      (hactive : x.event.active = false) (hpending : x.event.pending = false) :
      Move w (.free k) (w.childwFree k)
  | freeAborts (k : Nat) : Move w (.free k) w.abort
  | ends {pid : Int} {n : Nat} (e : ChildEnd) (hp : w.procs pid = .running n) :
      Move w (.ends pid e) (w.finish pid n e)
  | evRun (hloop : w.inLoop = false) : Move w .evRun (w.enter .loop)
  | reap {pid : Int} {n : Nat} {e : ChildEnd} (hp : w.procs pid = .zombie n e)
      (hloop : w.inLoop = true) :
      Move w (.reap pid) (w.reap pid e)
  | callTermcb {k : Nat} {x : Termcb} (hx : w.termcbs k = some x)
      (hloop : w.inLoop = true) (hpending : x.event.pending = true) :
      Move w (.callTermcb k) (w.termcbCalls k x)
  | callChildw {k : Nat} {x : IxutChildWatcher} {cb : Nat}
      (hx : w.childws k = some x) (hloop : w.inLoop = true)
      (hpending : x.event.pending = true) (hcb : x.cb = some cb) :
      Move w (.callChildw k) ((w.childwStops k x).childwCalls k x)
  | skipChildw {k : Nat} {x : IxutChildWatcher} (hx : w.childws k = some x)
      (hpending : x.event.pending = true) (hcb : x.cb = none) :
      Move w (.callChildw k) (w.childwStops k x)
  | termcbFrees {k : Nat} {fs : List Frame} {x : Termcb}
      (hframes : w.frames = .termcb k :: fs) (hx : w.termcbs k = some x) :
      Move w .returns (w.termcbFrees k fs)
  | termcbFreesAgain {k : Nat} {fs : List Frame}
      (hframes : w.frames = .termcb k :: fs) (hx : w.termcbs k = none) :
      Move w .returns (w.termcbFreesAgain fs)
  | childwReturns {k : Nat} {fs : List Frame}
      (hframes : w.frames = .childw k :: fs) :
      Move w .returns (w.leave fs)
  | leaves {fs : List Frame} (hframes : w.frames = .loop :: fs) :
      Move w .leaves (w.leave fs)

/-- **Inversion**: every step is a move. -/
theorem move_of_step {w v : World} {l : Label} (h : step w l = some v) :
    Move w l v := by
  unfold step at h
  split at h
  · cases h
  · cases l with
    | fork pid =>
        dsimp only at h
        split at h
        · rename_i hg
          cases h
          exact .fork pid hg.2
        · cases h
    | spawn pid data =>
        cases pid with
        | none =>
            dsimp only at h
            split at h
            · cases h
              exact .spawnFails data
            · cases h
        | some pid =>
            dsimp only at h
            split at h
            · rename_i hg
              cases h
              exact .spawn pid data hg.2
            · cases h
    | create =>
        dsimp only at h
        split at h
        · cases h
          exact .create
        · cases h
    | start k pid cb data =>
        dsimp only at h
        split at h
        · rename_i x hx
          split_ifs at h with hloop hbusy
          · cases h
            exact .startAborts k pid cb data
          · cases h
            rw [Bool.or_eq_true, not_or, Bool.not_eq_true, Bool.not_eq_true]
              at hbusy
            exact .start pid cb data hx hbusy.1 hbusy.2
        · cases h
    | free k =>
        dsimp only at h
        split at h
        · rename_i x hx
          split_ifs at h with hloop hbusy
          · cases h
            exact .freeAborts k
          · cases h
            rw [Bool.or_eq_true, not_or, Bool.not_eq_true, Bool.not_eq_true]
              at hbusy
            exact .free hx hbusy.1 hbusy.2
        · cases h
    | ends pid e =>
        dsimp only at h
        split at h
        · rename_i n hp
          cases h
          exact .ends e hp
        · cases h
    | evRun =>
        dsimp only at h
        split_ifs at h with hloop
        cases h
        exact .evRun (Bool.eq_false_of_not_eq_true hloop)
    | reap pid =>
        dsimp only at h
        split at h
        · rename_i n e hp
          split_ifs at h with hloop
          cases h
          exact .reap hp hloop
        · cases h
    | callTermcb k =>
        dsimp only at h
        split at h
        · rename_i x hx
          split_ifs at h with hg
          cases h
          obtain ⟨hloop, hpending⟩ := Bool.and_eq_true_iff.mp hg
          exact .callTermcb hx hloop hpending
        · cases h
    | callChildw k =>
        dsimp only at h
        split at h
        · rename_i x hx
          split_ifs at h with hg
          obtain ⟨hloop, hpending⟩ := Bool.and_eq_true_iff.mp hg
          split at h
          · rename_i cb hcb
            cases h
            exact .callChildw hx hloop hpending hcb
          · rename_i hcb
            cases h
            exact .skipChildw hx hpending hcb
        · cases h
    | returns =>
        dsimp only at h
        split at h
        · rename_i k fs hframes
          split at h
          · rename_i x hx
            cases h
            exact .termcbFrees hframes hx
          · rename_i hx
            cases h
            exact .termcbFreesAgain hframes hx
        · rename_i k fs hframes
          cases h
          exact .childwReturns hframes
        · cases h
    | leaves =>
        dsimp only at h
        split at h
        · rename_i fs hframes
          cases h
          exact .leaves hframes
        · cases h

end ChildReaper
end Iojxd
