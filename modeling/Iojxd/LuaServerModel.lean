import Iojxd.LuaConnModel
import Iojxd.RefBase
import Iojxd.SocketModel

/-!
# The servers of `luafoundx.cxx`

`ixlbx_tcp_base` drives a socket of `sock.cxx` and is counted by
`RefCountedPtr`; at count zero the destructor frees the socket.  Connections
keep the plain pointer `ctx->sock`, and `ctx->data` is null until the `cb_accept`
lambda makes a wrapper, which it does only if `on_accept` is registered.

A server has the number of its socket and a wrapper that of its connection.
Lua gets one handle from the constructor of a server; the other methods return
plain pointers, so that any of them can be called while the server exists.
`held` runs beside the stack of the connection layer.  A null wrapper reaches
Lua as nil.  A failed assertion and a null pointer that is followed end the
run.
-/

namespace Iojxd
namespace LuaServer

open Sock Socket LuaRef
open LuaConn (IxlbxTcpBase luaSock draining)

/-- What a frame has called: no Lua function, or one with the wrapper that it
got, nil if that is null. -/
inductive Held where
  | cxx
  | lua (wrapper : Option Nat)
deriving DecidableEq

/-- `ctx->sock` of a connection of server `server` is followed. -/
structure SockUse where
  server : Nat
  released : Bool
deriving DecidableEq

/-- A `cb_read` or `cb_close` lambda runs: `data` is `ctx->data`. -/
structure DataUse where
  conn : Nat
  data : Option Nat
  destroyed : Bool
deriving DecidableEq

inductive Halt where
  | assertion
  | nullPointer
deriving DecidableEq

/-- The state.  `greeted` says that `on_accept` was registered when the
connection was accepted. -/
structure World where
  layer : Layer
  bases : Nat → IxlbxTcpBase
  servers : Nat → IxlbxRefBase
  started : Nat → Bool
  wrappers : Nat → IxlbxRefBase
  data : Nat → Option Nat
  greeted : Nat → Bool
  held : List Held
  sockUses : List SockUse
  dataUses : List DataUse
  halted : Option Halt

namespace World

def init : World where
  layer := .init
  bases := fun _ => ⟨false, false, false⟩
  servers := fun _ => ⟨0, 0, false⟩
  started := fun _ => false
  wrappers := fun _ => ⟨0, 0, false⟩
  data := fun _ => none
  greeted := fun _ => false
  held := []
  sockUses := []
  dataUses := []
  halted := none

@[simps] def withNet (w : World) (net : Net) : World :=
  { w with layer := w.layer.withNet net }

@[simps] def setServer (w : World) (k : Nat) (p : IxlbxRefBase) : World :=
  { w with servers := Function.update w.servers k p }

@[simps] def setWrapper (w : World) (d : Nat) (p : IxlbxRefBase) : World :=
  { w with wrappers := Function.update w.wrappers d p }

def halt (w : World) (reason : Halt) : World :=
  { w with halted := some reason }

/-- Lua runs: from the event loop, or inside a function it has registered. -/
def luaRuns (w : World) : Bool :=
  match w.held with
  | .cxx :: _ => false
  | _ => true

@[simps] def useSock (w : World) (k : Nat) : World :=
  { w with sockUses := w.sockUses ++ [⟨k, w.layer.freedSock k⟩] }

/-- `ctx->sock` of connection `c` is followed. -/
def useSockOf (w : World) (c : Nat) : World :=
  match w.layer.owner c with
  | none => w
  | some k => w.useSock k

@[simps] def useData (w : World) (c : Nat) : World :=
  { w with dataUses := w.dataUses ++ [⟨c, w.data c, w.layer.freedCtx c⟩] }

/-! ## Servers -/

/-- `~ixlbx_tcp_base`, which calls `ixfd_commonsock_free`. -/
def destroyServer (w : World) (k : Nat) : World :=
  match w.layer.socks k with
  | none => w
  | some sock =>
      if sock.eventAccept.isSome || sock.eventConnect.isSome then
        { w with layer := ixfdCommonsockFree w.layer k sock }
      else w.halt .assertion

/-- A reference to the server has gone. -/
def serverDropped (w : World) (k : Nat) : World :=
  if (w.servers k).refs = 0 then w.destroyServer k else w

/-- The constructor of `ixlbx_tcp_base`, called by Lua. -/
def ixlbxTcpBase (w : World) : World :=
  let k := w.layer.nextSock
  let layer := ixfdCommonsockCreate w.layer
  { w with
    layer := { layer with
      socks := Function.update layer.socks k ((layer.socks k).map fun sock =>
        { sock with callbacks := luaSock }) }
    bases := Function.update w.bases k ⟨false, false, false⟩
    servers := Function.update w.servers k .make
    started := Function.update w.started k false }

/-- `ixlbx_tcp_base::start`, given the results of `socket(2)` and `bind(2)`. -/
def startServer (w : World) (k : Nat) (sock : IxfdSockObj)
    (fd : Option Int) (bindOk : Bool) : World :=
  let w := { w with started := Function.update w.started k true }
  if sock.type = .unknown then
    let w := { w with
      layer := ixfdCommonsockTcpCreatenbind w.layer k sock fd bindOk }
    match w.layer.socks k with
    | none => w
    | some sock =>
        if sock.type = .tcp ∧ sock.fd ≠ 0 then
          { w.setServer k (w.servers k).ref with
            layer := ixfdCommonsockTcpListen w.layer k sock }
        else w.halt .assertion
  else w.halt .assertion

/-- `ixlbx_tcp_base::close`. -/
def closeServer (w : World) (k : Nat) (sock : IxfdSockObj) : World :=
  let w := { w with layer := ixfdCommonsockUnbind w.layer k sock }
  if (w.servers k).thisRef then
    (w.setServer k (w.servers k).unRef).serverDropped k
  else w

/-- The collector drops the handle of a server. -/
def collectServer (w : World) (k : Nat) : World :=
  (w.setServer k (w.servers k).collect).serverDropped k

/-! ## Connections -/

/-- A reference to the wrapper has gone: `~ixlbx_socket_context` calls
`ixfd_commonsock_freectx`. -/
def wrapperDropped (w : World) (d : Nat) : World :=
  if (w.wrappers d).refs = 0 then
    match w.layer.net.conns d with
    | none => w
    | some ctx => { w with layer := ixfdCommonsockFreectx w.layer d ctx }
  else w

/-- `ixlbx_socket_context::un_ref`. -/
def unRef (w : World) (d : Nat) : World :=
  if (w.wrappers d).thisRef then
    (w.setWrapper d (w.wrappers d).unRef).wrapperDropped d
  else w

/-- A callback of C++ is entered.  It hands the wrapper in `ctx->data` to the
Lua function, where one is registered. -/
def enter (w : World) (c : Nat) (registered : Bool) : World :=
  if registered then
    match w.data c with
    | none => { w with held := .lua none :: w.held }
    | some d =>
        { w.setWrapper d (w.wrappers d).lend with
          held := .lua (some d) :: w.held }
  else { w with held := .cxx :: w.held }

/-- The connection layer takes a step, and enters a callback of the context if
the stack has grown. -/
def entering (w : World) (net : Net) (c : Nat) (registered : Bool) : World :=
  if w.layer.net.stack.length < net.stack.length then
    (w.withNet net).enter c registered
  else w.withNet net

/-- The `RefCountedPtr` of the running callback is gone. -/
def dropTemporary (w : World) : World :=
  match w.held with
  | .lua (some d) :: held =>
      ({ w with held := held }.setWrapper d
        (w.wrappers d).giveBack).wrapperDropped d
  | _ :: held => { w with held := held }
  | [] => w

/-- What the code after Lua does before the connection layer goes on: `cb_close`
calls `un_ref`, and `read_cb` then calls `ixfd_commonsock_close`. -/
def finishCallback (w : World) : World :=
  match w.layer.net.stack with
  | .closeDone c :: _ =>
      match w.data c with
      | none => w.halt .nullPointer
      | some d => (w.unRef d).useSockOf c
  | _ => w

/-- The functions registered with the server of a connection. -/
def baseOf (w : World) (c : Nat) : IxlbxTcpBase :=
  match w.layer.owner c with
  | none => ⟨false, false, false⟩
  | some k => w.bases k

end World

/-- The new context of `ixfd_commonsock_accept_cb`, whose number was opened for
`file`; `memset` leaves `ctx->data` null. -/
def newContext (w : World) (k : Nat) (net : Net) (file : Option Nat) : World :=
  let c := w.layer.net.nextConn
  { w.useSock k with
    layer := (w.layer.withNet net).own c k file
    greeted := Function.update w.greeted c (w.bases k).refCbaccept
    data := Function.update w.data c none }

/-- The constructor of `ixlbx_socket_context`: `src->data = this`, and `ref`. -/
def newSocketContext (w : World) (c : Nat) : World :=
  { w.setWrapper c (IxlbxRefBase.ref ⟨0, 0, false⟩) with
    data := Function.update w.data c (some c) }

/-- `ixfd_commonsock_accept_cb` with the `cb_accept` lambda, after `accept(2)`
and up to the return of the Lua function. -/
def acceptCb (w : World) (k : Nat) (net : Net) (file : Option Nat) : World :=
  let c := w.layer.net.nextConn
  if (w.bases k).refCbaccept then
    (newSocketContext (newContext w k net file) c).enter c true
  else (newContext w k net file).enter c false

/-- `ixfd_commonsock_read_cb` up to the return of the Lua function. -/
def readCb (w : World) (c : Nat) (ret : ReadRet) (net : Net) : World :=
  let w := w.useSockOf c
  match ret with
  | .error => w.withNet net
  | .data [] => (w.useData c).entering net c (w.baseOf c).refCbclose
  | .data (_ :: _) => (w.useData c).entering net c (w.baseOf c).refCbread

/-- `ixfd_commonsock_write` follows `ctx->sock` to start the write watcher. -/
def startsWatcher (s : Net) (c : Nat) (content : Buffer) (ret : Int) : Bool :=
  decide (toSizeT ret < content.bytes.length) &&
    match s.conns c with
    | none => false
    | some ctx => !ctx.writeLaunched

/-- Steps of servers, connections and Lua. -/
inductive Label where
  /-- Lua makes a server -/
  | construct
  /-- calls of `on_read`, `on_accept` and `on_close` -/
  | register (k : Nat) (base : IxlbxTcpBase)
  /-- call of `start` on a server -/
  | start (k : Nat) (fd : Option Int) (bindOk : Bool)
  /-- call of `close` on a server -/
  | closeServer (k : Nat)
  /-- the collector drops the handle of a server -/
  | collectServer (k : Nat)
  /-- the accept watcher fires and `accept(2)` returns a free number -/
  | accept (k : Nat) (fd : Int) (mallocOk : Bool)
  /-- the accept watcher fires and `accept(2)` returns -1 -/
  | acceptFailed (k : Nat) (mallocOk : Bool)
  /-- the read watcher of a connection fires -/
  | readReady (c : Nat) (ret : ReadRet)
  /-- call of `write` on a wrapper, with a Lua function or nil -/
  | write (c : Nat) (content : Buffer) (cb : Bool) (args : Nat) (ret : Int)
  /-- call of `close` on a wrapper -/
  | close (c : Nat)
  /-- call of `sock` on a wrapper -/
  | sock (c : Nat)
  /-- the collector drops a handle of a wrapper -/
  | collect (c : Nat)
  /-- the running callback returns -/
  | callbackReturns
  /-- the write watcher of a connection fires -/
  | writeReady (c : Nat)
  /-- an iteration of `write_cb` on a non-empty queue; the completion callback
  finds a Lua function or nil -/
  | drainWrite (ret : Int) (cb : Bool)
  /-- `write_cb` finds the queue empty -/
  | drainEnd

/-- Lua runs and calls a method of a server that exists. -/
def onServer (w : World) (k : Nat) (ok : IxfdSockObj → Bool)
    (f : IxfdSockObj → World) : Option World :=
  match w.layer.socks k with
  | none => none
  | some sock =>
      if w.luaRuns && !w.layer.freedSock k && ok sock then some (f sock)
      else none

/-- The accept watcher of a server fires. -/
def onAccept (w : World) (k : Nat) (f : Option World) : Option World :=
  match (w.layer.socks k).bind IxfdSockObj.eventAccept with
  | none => none
  | some watcher =>
      if w.layer.idle && watcher.active &&
          (w.layer.net.kernel watcher.fd).isSome then f
      else none

/-- Lua runs and holds a handle to the wrapper. -/
def reaches (w : World) (c : Nat) : Bool :=
  w.luaRuns && decide (0 < (w.wrappers c).handles)

/-- The connection layer takes a step. -/
def onNet (w : World) (l : Sock.Label) (f : Net → World) : Option World :=
  (Sock.step luaSock w.layer.net l).map f

/-- The steps of a process that runs. -/
def stepRunning (w : World) : Label → Option World
  | .construct => if w.luaRuns then some w.ixlbxTcpBase else none
  | .register k base =>
      onServer w k (fun _ => true) fun _ =>
        { w with bases := Function.update w.bases k base }
  | .start k fd bindOk =>
      onServer w k
        (fun _ => !w.started k && socketRet w.layer.net fd &&
          (!bindOk || fd.isSome))
        fun sock => w.startServer k sock fd bindOk
  | .closeServer k =>
      onServer w k (fun _ => true) fun sock => w.closeServer k sock
  | .collectServer k =>
      onServer w k (fun _ => decide (0 < (w.servers k).handles)) fun _ =>
        w.collectServer k
  | .accept k fd mallocOk =>
      onAccept w k (onNet w (.accept fd mallocOk) fun net =>
        acceptCb w k net (some w.layer.net.nextConn))
  | .acceptFailed k mallocOk =>
      onAccept w k (some (acceptCb w k
        (ixfdCommonsockAcceptFailed luaSock w.layer.net mallocOk) none))
  | .readReady c ret => onNet w (.readReady c ret) (readCb w c ret)
  | .write c content cb args ret =>
      if reaches w c then
        onNet w (.write c content (some 0) args ret) fun net =>
          (if startsWatcher w.layer.net c content ret then w.useSockOf c
            else w).entering net c cb
      else none
  | .close c =>
      if reaches w c then
        onNet w (.close c) fun net =>
          ((w.useSockOf c).withNet net).unRef c
      else none
  | .sock c => if reaches w c then some (w.useSockOf c) else none
  | .collect c =>
      if reaches w c then
        some ((w.setWrapper c (w.wrappers c).collect).wrapperDropped c)
      else none
  | .callbackReturns =>
      let w := w.dropTemporary.finishCallback
      if w.halted.isSome then some w
      else onNet w .callbackReturns w.withNet
  | .writeReady c =>
      onNet w (.writeReady c) fun net =>
        { w.withNet net with held := .cxx :: w.held }
  | .drainWrite ret cb =>
      (draining w.layer.net).bind fun c =>
        onNet w (.drainWrite ret) fun net => w.entering net c cb
  | .drainEnd =>
      onNet w .drainEnd fun net =>
        { w.withNet net with held := w.held.tail }

/-- The step function; `none` where the label is not enabled. -/
def step (w : World) (l : Label) : Option World :=
  if w.halted.isSome then none else stepRunning w l

end LuaServer
end Iojxd
