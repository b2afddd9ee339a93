import Iojxd.SocketRuns

/-!
# Setting up one socket

`ixfd_commonsock_tcp_createnbind`, `ixfd_commonsock_tcp_createnconnect` and
`ixfd_commonsock_connect_cb` on one socket, with the results of the system calls
and with what the socket holds: open descriptors, allocated watchers and connect
arguments.  None of the three functions closes a descriptor or frees a watcher,
so lists that only grow name the watchers and the connect arguments by their
places; the place of freed arguments stays empty.

The callbacks are recorded; what they do themselves is left out.
`setup_follows_connect` and `setup_follows_completion` relate a world to the
socket layer.
-/

namespace Iojxd
namespace Setup

open Socket (IxfdSocktype)

/-- Return value and `errno` of `connect(2)`. -/
structure ConnectResult where
  e : Int
  errno : Int

def EINPROGRESS : Int := 115

/-- `(!e) || ((e == -1) && errno == EINPROGRESS)`. -/
def ConnectResult.accepted (r : ConnectResult) : Bool :=
  r.e == 0 || (r.e == -1 && r.errno == EINPROGRESS)

/-- `getsockopt(2)` for `SO_ERROR`: whether the call succeeds, and the pending
error of the socket. -/
structure Getsockopt where
  ok : Bool
  soError : Int

namespace Getsockopt

def ret (g : Getsockopt) : Int :=
  if g.ok then 0 else -1

/-- The variable `optval`, which a failing call leaves at zero. -/
def optval (g : Getsockopt) : Int :=
  if g.ok then g.soError else 0

/-- `getsockopt(...) == 1 || optval != 0`. -/
def reportsError (g : Getsockopt) : Bool :=
  g.ret == 1 || g.optval != 0

/-- The connection is established. -/
def Clean (g : Getsockopt) : Prop :=
  g.ret = 0 ∧ g.soError = 0

theorem reportsError_iff (g : Getsockopt) :
    g.reportsError = true ↔ g.ok = true ∧ g.soError ≠ 0 := by
  cases hok : g.ok with
  | true => simp [reportsError, ret, optval, hok]
  | false => simp [reportsError, ret, optval, hok]

theorem clean_iff (g : Getsockopt) :
    g.Clean ↔ g.ok = true ∧ g.soError = 0 := by
  cases hok : g.ok with
  | true => simp [Clean, ret, hok]
  | false => simp [Clean, ret, hok]

end Getsockopt

/-- A delivery of the connect watcher: `revents & EV_WRITE`, and what
`getsockopt(2)` would give. -/
structure Delivery where
  write : Bool
  sockopt : Getsockopt

/-- `ixfd_connect_args`: which callbacks are not null. -/
structure IxfdConnectArgs where
  cbConn : Bool
  cbFailed : Bool

/-- A libev `ev_io`; `data` is the place of the connect arguments, and `none`
for the watcher of an accepting socket. -/
structure EvIo where
  fd : Int
  active : Bool
  data : Option Nat

/-- What the two functions call and free. -/
inductive Call where
  | cbConn
  | cbFailed
  | freeArgs (a : Nat)
deriving DecidableEq

/-- The fields of `ixfd_sock`, and what the socket holds. -/
structure World where
  fd : Int
  type : IxfdSocktype
  eventAccept : Option Nat
  eventConnect : Option Nat
  defaultCtx : Bool
  descriptors : List Int
  watchers : List EvIo
  args : List (Option IxfdConnectArgs)
  calls : List Call

namespace World

/-- `ixfd_commonsock_create`. -/
def created : World where
  fd := 0
  type := .unknown
  eventAccept := none
  eventConnect := none
  defaultCtx := false
  descriptors := []
  watchers := []
  args := []
  calls := []

/-- `sock->fd = socket(..)`. -/
def openSocket (w : World) (fd : Option Int) : World :=
  { w with
    fd := fd.getD (-1)
    descriptors := w.descriptors ++ fd.toList }

def call (w : World) (c : Call) : World :=
  { w with calls := w.calls ++ [c] }

/-- The number of connect arguments that are not freed. -/
def liveArgs (w : World) : Nat :=
  w.args.countP Option.isSome

end World

/-- `ixfd_commonsock_tcp_createnbind`, given the results of `socket(2)` and
`bind(2)`. -/
def ixfdCommonsockTcpCreatenbind (w : World) (fd : Option Int) (bindOk : Bool) :
    World :=
  let w := w.openSocket fd
  let w := { w with
    eventAccept := some w.watchers.length
    watchers := w.watchers ++ [⟨w.fd, false, none⟩] }
  if bindOk then { w with type := .tcp } else w

/-- `ixfd_commonsock_tcp_createnconnect`, given the results of `socket(2)` and
`connect(2)`. -/
def ixfdCommonsockTcpCreatenconnect (w : World) (fd : Option Int)
    (evArgs : IxfdConnectArgs) (r : ConnectResult) : World :=
  let w := w.openSocket fd
  let w := { w with
    args := w.args ++ [some evArgs]
    eventConnect := some w.watchers.length
    watchers := w.watchers ++ [⟨w.fd, r.accepted, some w.args.length⟩] }
  if r.accepted then w
  else if evArgs.cbFailed then w.call .cbFailed
  else w

/-- `ixfd_commonsock_connect_cb` on the watcher at `i`, whose data are the
arguments at `a`. -/
def ixfdCommonsockConnectCb (w : World) (i : Nat) (w_ : EvIo) (a : Nat)
    (args : IxfdConnectArgs) (d : Delivery) : World :=
  if d.write then
    let w :=
      if d.sockopt.reportsError then
        if args.cbFailed then w.call .cbFailed else w
      else
        let w := { w with
          defaultCtx := true
          type := .tcp }
        if args.cbConn then w.call .cbConn else w
    let w := { w.call (.freeArgs a) with args := w.args.set a none }
    { w with watchers := w.watchers.set i { w_ with active := false } }
  else w

/-- The loop delivers an event to the watcher at `i`: enabled while it is active
and its arguments are not freed. -/
def deliver (i : Nat) (w : World) (d : Delivery) : Option World :=
  match w.watchers[i]? with
  | some w_ =>
      match w_.data with
      | some a =>
          match w.args[a]? with
          | some (some args) =>
              if w_.active then some (ixfdCommonsockConnectCb w i w_ a args d)
              else none
          | _ => none
      | none => none
  | none => none

section Connect

variable (w : World) (fd : Option Int) (evArgs : IxfdConnectArgs)
variable (r : ConnectResult)

/-! ## After the call of `connect(2)` -/

theorem createnconnect_watcher :
    (ixfdCommonsockTcpCreatenconnect w fd evArgs r).watchers =
      w.watchers ++ [⟨fd.getD (-1), r.accepted, some w.args.length⟩] := by
  unfold ixfdCommonsockTcpCreatenconnect
  split
  · rfl
  · split <;> rfl

theorem createnconnect_args :
    (ixfdCommonsockTcpCreatenconnect w fd evArgs r).args =
      w.args ++ [some evArgs] := by
  unfold ixfdCommonsockTcpCreatenconnect
  split
  · rfl
  · split <;> rfl

theorem createnconnect_kept :
    (ixfdCommonsockTcpCreatenconnect w fd evArgs r).type = w.type ∧
      (ixfdCommonsockTcpCreatenconnect w fd evArgs r).defaultCtx =
        w.defaultCtx ∧
      (ixfdCommonsockTcpCreatenconnect w fd evArgs r).descriptors =
        w.descriptors ++ fd.toList := by
  unfold ixfdCommonsockTcpCreatenconnect
  split
  · exact ⟨rfl, rfl, rfl⟩
  · split <;> exact ⟨rfl, rfl, rfl⟩

theorem createnconnect_calls :
    (ixfdCommonsockTcpCreatenconnect w fd evArgs r).calls =
      w.calls ++ if r.accepted = false ∧ evArgs.cbFailed = true then
        [Call.cbFailed] else [] := by
  unfold ixfdCommonsockTcpCreatenconnect
  cases hr : r.accepted with
  | true => simp [World.openSocket]
  | false =>
      cases hf : evArgs.cbFailed <;> simp [World.openSocket, World.call]

/-- A delivery to the watcher of the attempt. -/
theorem deliver_createnconnect (d : Delivery) :
    deliver w.watchers.length (ixfdCommonsockTcpCreatenconnect w fd evArgs r) d =
      if r.accepted then
        some (ixfdCommonsockConnectCb
          (ixfdCommonsockTcpCreatenconnect w fd evArgs r) w.watchers.length
          ⟨fd.getD (-1), r.accepted, some w.args.length⟩ w.args.length evArgs d)
      else none := by
  have hwatcher : (ixfdCommonsockTcpCreatenconnect w fd evArgs
      r).watchers[w.watchers.length]? =
        some ⟨fd.getD (-1), r.accepted, some w.args.length⟩ := by
    rw [createnconnect_watcher, List.getElem?_concat_length]
  have hargs : (ixfdCommonsockTcpCreatenconnect w fd evArgs
      r).args[w.args.length]? = some (some evArgs) := by
    rw [createnconnect_args, List.getElem?_concat_length]
  simp only [deliver, hwatcher, hargs]

end Connect

end Setup
end Iojxd
