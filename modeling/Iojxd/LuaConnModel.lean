import Iojxd.SockModel

/-!
# The connection wrappers of `luafoundx.cxx`

`ixlbx_tcp_base` sets every callback of its socket and hands connections to Lua
as `ixlbx_socket_context` objects, which `RefCountedPtr` counts: one reference
is the wrapper's own `m_this_ref`, one belongs to each handle that Lua holds,
and one to each temporary of a callback that has not returned to C++.  At count
zero the destructor runs `ixfd_commonsock_freectx`.

A wrapper has the number of its connection.  `held` runs beside the stack of
the connection layer: the wrapper whose temporary a frame holds, `none` for
frames that have called no Lua function.  The collector may drop a handle
whenever Lua runs.  A connection accepted while `on_accept` is not registered
has no wrapper, and is left out.
-/

namespace Iojxd
namespace LuaConn

open Sock

/-- The fields of `ixfd_sock` that `ixlbx_tcp_base` sets. -/
def luaSock : IxfdSock where
  cbRead := true
  cbAccept := true
  cbClose := true
  passiveRead := false

/-- `ixlbx_tcp_base`: which Lua functions are registered. -/
structure IxlbxTcpBase where
  refCbread : Bool
  refCbaccept : Bool
  refCbclose : Bool
deriving DecidableEq

/-- `ixlbx_socket_context`; `handles` counts the references of Lua. -/
structure IxlbxSocketContext where
  thisRef : Bool
  handles : Nat
  destroyed : Bool
deriving DecidableEq

/-- The functions whose use of contexts and wrappers is recorded. -/
inductive User where
  | readCb
  | commonsockClose
  | cbClose
  | unRef
deriving DecidableEq

/-- A function reads or writes a context or its wrapper. -/
structure Access where
  user : User
  conn : Nat
  destroyed : Bool
deriving DecidableEq

/-- The state: `owner` is `ctx->sock->data`. -/
structure World where
  net : Net
  bases : Nat → IxlbxTcpBase
  owner : Nat → Nat
  wrappers : Nat → IxlbxSocketContext
  held : List (Option Nat)
  accesses : List Access

namespace World

def init : World where
  net := .init
  bases := fun _ => ⟨false, false, false⟩
  owner := fun _ => 0
  wrappers := fun _ => ⟨false, 0, false⟩
  held := []
  accesses := []

@[simps] def setWrapper (w : World) (c : Nat) (p : IxlbxSocketContext) :
    World :=
  { w with wrappers := Function.update w.wrappers c p }

@[simps] def withNet (w : World) (net : Net) : World :=
  { w with net := net }

/-- The count of `RefCountedPtr`. -/
def refs (w : World) (c : Nat) : Nat :=
  (w.wrappers c).handles + (w.wrappers c).thisRef.toNat +
    w.held.count (some c)

/-- Lua runs: from the event loop, or inside a function it has registered. -/
def luaRuns (w : World) : Bool :=
  match w.held with
  | none :: _ => false
  | _ => true

/-- A function uses the context or its wrapper. -/
@[simps] def touch (w : World) (user : User) (c : Nat) : World :=
  { w with
    accesses := w.accesses ++ [⟨user, c, (w.wrappers c).destroyed⟩] }

/-- A reference to the wrapper has gone: at count zero the wrapper is destroyed,
and its destructor frees the context. -/
def dropped (w : World) (c : Nat) : World :=
  if w.refs c = 0 then
    (w.withNet (w.net.emit [.free (.connCtx c)])).setWrapper c
      { w.wrappers c with destroyed := true }
  else w

/-- `ixlbx_socket_context::un_ref`. -/
def unRef (w : World) (c : Nat) : World :=
  let w := w.touch .unRef c
  if (w.wrappers c).thisRef then
    let w := w.setWrapper c { w.wrappers c with thisRef := false }
    (w.dropped c).touch .unRef c
  else w

/-- A callback of C++ is entered.  It makes a temporary and hands a handle to
the Lua function, where one is registered. -/
def enter (w : World) (c : Nat) (registered : Bool) : World :=
  if registered then
    { w.setWrapper c
        { w.wrappers c with handles := (w.wrappers c).handles + 1 } with
      held := some c :: w.held }
  else { w with held := none :: w.held }

/-- The connection layer takes a step, and enters a callback of the context if
the stack has grown. -/
def entering (w : World) (net : Net) (c : Nat) (registered : Bool) : World :=
  if w.net.stack.length < net.stack.length then
    (w.withNet net).enter c registered
  else w.withNet net

/-- The temporary of the running callback is gone. -/
def dropTemporary (w : World) : World :=
  match w.held with
  | some c :: held => { w with held := held }.dropped c
  | none :: held => { w with held := held }
  | [] => w

/-- What the code after Lua does before the connection layer goes on: `cb_close`
calls `un_ref`, and `read_cb` then calls `ixfd_commonsock_close`. -/
def finishCallback (w : World) : World :=
  match w.net.stack with
  | .closeDone c :: _ => (w.unRef c).touch .commonsockClose c
  | _ => w

end World

open World

/-- The constructor of `ixlbx_socket_context`, on a new context. -/
def newSocketContext (w : World) (c : Nat) : World :=
  w.setWrapper c ⟨true, 0, false⟩

/-- `ixfd_commonsock_read_cb` with the callbacks of `ixlbx_tcp_base`, up to the
return of the Lua function. -/
def readCb (w : World) (c : Nat) (ret : ReadRet) (net : Net) : World :=
  let base := w.bases (w.owner c)
  let w := w.touch .readCb c
  match ret with
  | .error => w.withNet net
  | .data [] => (w.touch .cbClose c).entering net c base.refCbclose
  | .data (_ :: _) => w.entering net c base.refCbread

/-- Steps of the connections and of Lua. -/
inductive Label where
  /-- call of `on_read`, `on_accept` and `on_close` of a server -/
  | register (k : Nat) (base : IxlbxTcpBase)
  /-- the socket of a server accepts a connection on a free number -/
  | accept (k : Nat) (fd : Int) (mallocOk : Bool)
  /-- the read watcher of a connection fires -/
  | readReady (c : Nat) (ret : ReadRet)
  /-- call of `write` on a wrapper, with a Lua function or nil -/
  | write (c : Nat) (content : Buffer) (cb : Bool) (args : Nat) (ret : Int)
  /-- call of `close` on a wrapper -/
  | close (c : Nat)
  /-- the collector drops a handle -/
  | collect (c : Nat)
  /-- the running callback returns -/
  | callbackReturns
  /-- the write watcher of a connection fires -/
  | writeReady (c : Nat)
  /-- an iteration of `write_cb` on a non-empty queue; the completion callback
  finds a Lua function or nil -/
  | drainWrite (ret : Int) (cb : Bool)
  /-- `write_cb` finds the queue empty -/
  | drainEnd

/-- Lua runs and holds a handle to the wrapper. -/
def reaches (w : World) (c : Nat) : Bool :=
  w.luaRuns && decide (0 < (w.wrappers c).handles)

/-- The connection layer takes a step. -/
def onNet (w : World) (l : Sock.Label) (f : Net → World) : Option World :=
  (Sock.step luaSock w.net l).map f

/-- The context that `write_cb` on top of the stack works for. -/
def draining (s : Net) : Option Nat :=
  match s.stack with
  | .drain c :: _ => some c
  | _ => none

/-- The step function; `none` where the label is not enabled. -/
def step (w : World) : Label → Option World
  | .register k base =>
      if w.luaRuns then
        some { w with bases := Function.update w.bases k base }
      else none
  | .accept k fd mallocOk =>
      if (w.bases k).refCbaccept then
        onNet w (.accept fd mallocOk) fun net =>
          let c := w.net.nextConn
          let w := { w with owner := Function.update w.owner c k }
          ((newSocketContext w c).withNet net).enter c true
      else none
  | .readReady c ret => onNet w (.readReady c ret) (readCb w c ret)
  | .write c content cb args ret =>
      if reaches w c then
        onNet w (.write c content (some 0) args ret) fun net =>
          w.entering net c cb
      else none
  | .close c =>
      if reaches w c then
        onNet w (.close c) fun net =>
          ((w.touch .commonsockClose c).withNet net).unRef c
      else none
  | .collect c =>
      if reaches w c then
        some ((w.setWrapper c
          { w.wrappers c with handles := (w.wrappers c).handles - 1 }).dropped c)
      else none
  | .callbackReturns =>
      let w := w.dropTemporary.finishCallback
      onNet w .callbackReturns w.withNet
  | .writeReady c =>
      onNet w (.writeReady c) fun net =>
        { w with
          net := net
          held := none :: w.held }
  | .drainWrite ret cb =>
      (draining w.net).bind fun c =>
        onNet w (.drainWrite ret) fun net => w.entering net c cb
  | .drainEnd =>
      onNet w .drainEnd fun net =>
        { w with
          net := net
          held := w.held.tail }

end LuaConn
end Iojxd
