import Iojxd.SockModel

/-!
# The sockets of `sock.cxx`

Socket objects around the connection layer: the functions that create, bind,
connect, listen on, close and free sockets and contexts, the callbacks of the
accept and connect watchers, and the watchers they own.

A step of the connection layer is a step here.  A socket and the context that
`ixfd_commonsock_connect_cb` makes for it share one number.  What `socket(2)`
opens gets the next number of `nextConn`, so an accepted connection and an
opened socket never have the same name in `kernel`.  The state records every
`close(2)` with the file its caller had opened and the file the number named,
and every watcher that is released.
-/

namespace Iojxd
namespace Socket

open Sock

/-- `ixfd_socktype`. -/
inductive IxfdSocktype where
  | unknown
  | tcp
  | unix
  | udp
deriving DecidableEq

/-- `ixfd_sock`; `callbacks` are the fields that its connections read and `file`
is what `socket(2)` opened under `fd`.  `listens` says that the application has
called `ixfd_commonsock_tcp_listen` and not `ixfd_commonsock_unbind` since. -/
structure IxfdSockObj where
  callbacks : IxfdSock
  fd : Int
  file : Option Nat
  type : IxfdSocktype
  eventAccept : Option EvIo
  eventConnect : Option Nat
  defaultCtx : Option Nat
  listens : Bool

/-- How far a connect attempt is. -/
inductive Progress where
  /-- `connect(2)` failed at once -/
  | refused
  /-- `ixfd_commonsock_connect_cb` has not returned yet -/
  | pending
  | over
deriving DecidableEq

/-- `ixfd_connect_args` with the watcher whose data it is. -/
structure IxfdConnectArgs where
  sock : Nat
  cbConn : Bool
  cbFailed : Bool
  watcher : EvIo
  progress : Progress

/-- Who calls `close(2)`. -/
inductive Closer where
  | conn (c : Nat)
  | sock (k : Nat)
deriving DecidableEq

/-- A `close(2)`: `own` is the file that the caller's descriptor was opened
for, `named` the file that the number names at that moment. -/
structure CloseCall where
  who : Closer
  fd : Int
  own : Option Nat
  named : Option Nat
deriving DecidableEq

/-- The watchers of a context, of a socket and of a connect attempt. -/
inductive Watcher where
  | eventRead (c : Nat)
  | eventWrite (c : Nat)
  | eventAccept (k : Nat)
  | eventConnect (a : Nat)
deriving DecidableEq

/-- A watcher at the moment it is released. -/
structure Release where
  watcher : Watcher
  active : Bool
deriving DecidableEq

/-- The state: `owner` is `ctx->sock`, `file` what the number of a context was
opened for, `reporting` the attempt whose callback `connect_cb` is calling. -/
structure Layer where
  net : Net
  owner : Nat → Option Nat
  file : Nat → Option Nat
  socks : Nat → Option IxfdSockObj
  nextSock : Nat
  attempts : Nat → Option IxfdConnectArgs
  nextAttempt : Nat
  reporting : Option Nat
  freedCtx : Nat → Bool
  freedSock : Nat → Bool
  closes : List CloseCall
  releases : List Release

namespace Layer

def init : Layer where
  net := .init
  owner := fun _ => none
  file := fun _ => none
  socks := fun _ => none
  nextSock := 0
  attempts := fun _ => none
  nextAttempt := 0
  reporting := none
  freedCtx := fun _ => false
  freedSock := fun _ => false
  closes := []
  releases := []

def setSock (s : Layer) (k : Nat) (sock : IxfdSockObj) : Layer :=
  { s with socks := Function.update s.socks k (some sock) }

def setAttempt (s : Layer) (a : Nat) (args : IxfdConnectArgs) :
    Layer :=
  { s with attempts := Function.update s.attempts a (some args) }

/-- The calls of `close(2)` between two states of the connection layer. -/
def closeCalls (s : Layer) (net : Net) : List CloseCall :=
  (net.log.drop s.net.log.length).filterMap fun
    | .close c fd => some ⟨.conn c, fd, s.file c, s.net.kernel fd⟩
    | _ => none

/-- The connection layer takes a step. -/
@[simps] def withNet (s : Layer) (net : Net) : Layer :=
  { s with
    net := net
    closes := s.closes ++ s.closeCalls net }

/-- The loop waits for events. -/
def idle (s : Layer) : Bool :=
  s.net.stack.isEmpty && s.reporting.isNone

end Layer

/-- `ixfd_commonsock_create`. -/
def ixfdCommonsockCreate (s : Layer) : Layer :=
  { s.setSock s.nextSock
      { callbacks := ⟨false, false, false, false⟩
        fd := 0
        file := none
        type := .unknown
        eventAccept := none
        eventConnect := none
        defaultCtx := none
        listens := false } with
    nextSock := s.nextSock + 1 }

/-- Results of `socket(2)`: an error, or a free number. -/
def socketRet (s : Net) : Option Int → Bool
  | none => true
  | some fd => decide (0 ≤ fd) && (s.kernel fd).isNone

/-- What `socket(2)` opens. -/
def openFile (s : Net) : Option Int → Net
  | none => s
  | some fd => { s.setKernel fd (some s.nextConn) with
      nextConn := s.nextConn + 1 }

/-- `sock->fd = socket(..)`. -/
def IxfdSockObj.opened (sock : IxfdSockObj) (s : Net) (fd : Option Int) :
    IxfdSockObj :=
  { sock with
    fd := fd.getD (-1)
    file := fd.map fun _ => s.nextConn }

/-- `ixfd_commonsock_tcp_createnbind`, given the results of `socket(2)` and
`bind(2)`. -/
def ixfdCommonsockTcpCreatenbind (s : Layer) (k : Nat) (sock : IxfdSockObj)
    (fd : Option Int) (bindOk : Bool) : Layer :=
  let sock := sock.opened s.net fd
  let sock := { sock with eventAccept := some ⟨sock.fd, false⟩ }
  let sock := if bindOk then { sock with type := .tcp } else sock
  { s with net := openFile s.net fd }.setSock k sock

/-- `ixfd_commonsock_tcp_createnconnect`, given the result of `socket(2)` and
whether `connect(2)` succeeds or is in progress.  A `cb_failed` called here is
followed by nothing. -/
def ixfdCommonsockTcpCreatenconnect (s : Layer) (k : Nat) (sock : IxfdSockObj)
    (fd : Option Int) (cbConn cbFailed connecting : Bool) : Layer :=
  let sock := sock.opened s.net fd
  let a := s.nextAttempt
  let args : IxfdConnectArgs :=
    { sock := k
      cbConn := cbConn
      cbFailed := cbFailed
      watcher := ⟨sock.fd, connecting⟩
      progress := if connecting then .pending else .refused }
  let s := { s with
    net := openFile s.net fd
    nextAttempt := a + 1 }
  (s.setAttempt a args).setSock k { sock with eventConnect := some a }

/-- `ixfd_commonsock_tcp_listen`. -/
def ixfdCommonsockTcpListen (s : Layer) (k : Nat) (sock : IxfdSockObj) :
    Layer :=
  s.setSock k
    { sock with
      eventAccept := sock.eventAccept.map EvIo.start
      listens := true }

/-- `close(sock->fd)`. -/
def closeSockFd (s : Layer) (k : Nat) (sock : IxfdSockObj) : Layer :=
  { s with
    net := s.net.setKernel sock.fd none
    closes := s.closes ++
      [⟨.sock k, sock.fd, sock.file, s.net.kernel sock.fd⟩] }

/-- `ixfd_commonsock_unbind`. -/
def ixfdCommonsockUnbind (s : Layer) (k : Nat) (sock : IxfdSockObj) : Layer :=
  closeSockFd
    (s.setSock k
      { sock with
        eventAccept := sock.eventAccept.map EvIo.stop
        listens := false })
    k sock

/-- The default context, where the application may still use it. -/
def defaultConn (s : Layer) (sock : IxfdSockObj) :
    Option (Nat × IxfdConnCtx) :=
  match sock.defaultCtx with
  | none => none
  | some c =>
      if s.freedCtx c then none
      else (s.net.conns c).map fun ctx => (c, ctx)

/-- `ixfd_commonsock_close(sock->default_ctx)` if that is active. -/
def closeDefault (s : Layer) (sock : IxfdSockObj) : Layer :=
  match defaultConn s sock with
  | none => s
  | some (c, ctx) =>
      if ctx.active then s.withNet (ixfdCommonsockClose s.net c ctx) else s

/-- `ixfd_commonsock_disconnect`. -/
def ixfdCommonsockDisconnect (s : Layer) (k : Nat) (sock : IxfdSockObj) :
    Layer :=
  closeSockFd (closeDefault s sock) k sock

/-- `ixfd_commonsock_freectx`.  `ixut_cycqueue_free` drops the nodes of the
queue. -/
def ixfdCommonsockFreectx (s : Layer) (c : Nat) (ctx : IxfdConnCtx) : Layer :=
  { s with
    net := s.net.emit [.free (.connCtx c)]
    freedCtx := Function.update s.freedCtx c true
    releases := s.releases ++
      [⟨.eventRead c, ctx.eventRead.active⟩,
        ⟨.eventWrite c, ctx.eventWrite.active⟩] }

/-- The release of `sock->default_ctx`. -/
def freeDefault (s : Layer) (sock : IxfdSockObj) : Layer :=
  match defaultConn s sock with
  | none => s
  | some (c, ctx) => ixfdCommonsockFreectx s c ctx

/-- The release of `sock->event_accept`. -/
def releaseAccept (k : Nat) : Option EvIo → List Release
  | none => []
  | some w => [⟨.eventAccept k, w.active⟩]

/-- The release of `sock->event_connect`. -/
def releaseConnect (s : Layer) : Option Nat → List Release
  | none => []
  | some a =>
      match s.attempts a with
      | none => []
      | some args => [⟨.eventConnect a, args.watcher.active⟩]

/-- `ixfd_commonsock_free`. -/
def ixfdCommonsockFree (s : Layer) (k : Nat) (sock : IxfdSockObj) : Layer :=
  let t := freeDefault s sock
  { t with
    freedSock := Function.update t.freedSock k true
    releases := t.releases ++ releaseAccept k sock.eventAccept ++
      releaseConnect s sock.eventConnect }

/-- A new context gets the next number. -/
def addConn (s : Net) (ctx : IxfdConnCtx) : Net :=
  (({ s with nextConn := s.nextConn + 1 }).emit
    [.malloc (.connCtx s.nextConn)]).setConn s.nextConn ctx

/-- `ixfd_commonsock_accept_cb` up to its callback, where `accept(2)` gives
-1. -/
def ixfdCommonsockAcceptFailed (sock : IxfdSock) (s : Net)
    (mallocOk : Bool) : Net :=
  let c := s.nextConn
  let ctx := ixfdCommonsockCreateCtx sock (-1) mallocOk
  if sock.cbAccept then
    (addConn s ctx).withStack (.acceptDone c :: s.stack)
  else addConn s (activateCtx ctx)

/-- The new context belongs to socket `k`, and its number was opened for
`file`. -/
def Layer.own (s : Layer) (c k : Nat) (file : Option Nat) : Layer :=
  { s with
    owner := Function.update s.owner c (some k)
    file := Function.update s.file c file }

/-- The end of `ixfd_commonsock_connect_cb`. -/
def endConnectCb (s : Layer) (a : Nat) (args : IxfdConnectArgs) : Layer :=
  { s.setAttempt a
      { args with
        watcher := args.watcher.stop
        progress := .over } with
    reporting := none }

/-- `ixfd_commonsock_connect_cb` up to its callback; `failed` says that the
socket has a pending error.  An error of `getsockopt(2)` leaves `optval` zero
and is not equal to 1. -/
def ixfdCommonsockConnectCb (s : Layer) (a : Nat) (args : IxfdConnectArgs)
    (sock : IxfdSockObj) (failed mallocOk : Bool) : Layer :=
  if failed then
    if args.cbFailed then { s with reporting := some a }
    else endConnectCb s a args
  else
    let c := s.net.nextConn
    let ctx :=
      activateCtx (ixfdCommonsockCreateCtx sock.callbacks sock.fd mallocOk)
    let s := (s.withNet (addConn s.net ctx)).own c args.sock sock.file
    let s := s.setSock args.sock
      { sock with
        type := .tcp
        defaultCtx := some c }
    if args.cbConn then { s with reporting := some a }
    else endConnectCb s a args

/-- Steps of the socket layer. -/
inductive Label where
  /-- a step of the connection layer -/
  | conn (l : Sock.Label)
  /-- call of `ixfd_commonsock_create` -/
  | create
  /-- the application assigns the callbacks and `passive_read` -/
  | configure (k : Nat) (callbacks : IxfdSock)
  /-- call of `ixfd_commonsock_tcp_createnbind` -/
  | createnbind (k : Nat) (fd : Option Int) (bindOk : Bool)
  /-- call of `ixfd_commonsock_tcp_createnconnect` -/
  | createnconnect (k : Nat) (fd : Option Int)
      (cbConn cbFailed connecting : Bool)
  /-- call of `ixfd_commonsock_tcp_listen` -/
  | listen (k : Nat)
  /-- call of `ixfd_commonsock_unbind` -/
  | unbind (k : Nat)
  /-- call of `ixfd_commonsock_disconnect` -/
  | disconnect (k : Nat)
  /-- call of `ixfd_commonsock_freectx` -/
  | freectx (c : Nat)
  /-- call of `ixfd_commonsock_free` -/
  | free (k : Nat)
  /-- the accept watcher fires and `accept(2)` returns a free number -/
  | accept (k : Nat) (fd : Int) (mallocOk : Bool)
  /-- the accept watcher fires and `accept(2)` returns -1 -/
  | acceptFailed (k : Nat) (mallocOk : Bool)
  /-- the watcher of a connect attempt fires -/
  | connectReady (a : Nat) (failed mallocOk : Bool)
  /-- the callback of `ixfd_commonsock_connect_cb` returns -/
  | connectReturns

/-- A call of the application on a socket, enabled where the socket exists, has
not been freed and meets a test. -/
def onSock (s : Layer) (k : Nat)
    (ok : IxfdSockObj → Bool) (f : IxfdSockObj → Layer) : Option Layer :=
  match s.socks k with
  | none => none
  | some sock =>
      if callerRuns s.net.stack && !s.freedSock k && ok sock then
        some (f sock)
      else none

/-- The accept watcher of a socket fires. -/
def onAccept (s : Layer) (k : Nat)
    (f : IxfdSockObj → Option Layer) : Option Layer :=
  match s.socks k with
  | none => none
  | some sock =>
      match sock.eventAccept with
      | none => none
      | some w =>
          if s.idle && w.active && (s.net.kernel w.fd).isSome then f sock
          else none

/-- The connection layer may take the step: the application passes no freed
context, and events wait for the callback of `connect_cb`.  Accepting is a step
of a socket. -/
def connEnabled (s : Layer) : Sock.Label → Bool
  | .write c _ _ _ _ => !s.freedCtx c
  | .read c _ _ => !s.freedCtx c
  | .close c => !s.freedCtx c
  | .setBufreadLen c _ _ => !s.freedCtx c
  | .readReady _ _ => s.reporting.isNone
  | .writeReady _ => s.reporting.isNone
  | .accept _ _ => false
  | _ => true

/-- The fields of `ctx->sock` that a step of the connection layer reads. -/
def connSock (s : Layer) : Sock.Label → IxfdSock
  | .readReady c _ =>
      match (s.owner c).bind s.socks with
      | some sock => sock.callbacks
      | none => ⟨false, false, false, false⟩
  | _ => ⟨false, false, false, false⟩

/-- The step function; `none` where the label is not enabled. -/
def step (s : Layer) : Label → Option Layer
  | .conn l =>
      if connEnabled s l then
        (Sock.step (connSock s l) s.net l).map s.withNet
      else none
  | .create =>
      if callerRuns s.net.stack then some (ixfdCommonsockCreate s) else none
  | .configure k callbacks =>
      onSock s k (fun _ => true)
        (fun sock => s.setSock k { sock with callbacks := callbacks })
  | .createnbind k fd bindOk =>
      onSock s k
        (fun sock => decide (sock.type = .unknown) && socketRet s.net fd &&
          (!bindOk || fd.isSome))
        (fun sock => ixfdCommonsockTcpCreatenbind s k sock fd bindOk)
  | .createnconnect k fd cbConn cbFailed connecting =>
      onSock s k
        (fun sock => decide (sock.type = .unknown) && socketRet s.net fd &&
          (!connecting || fd.isSome))
        (fun sock => ixfdCommonsockTcpCreatenconnect s k sock fd
          cbConn cbFailed connecting)
  | .listen k =>
      onSock s k
        (fun sock => decide (sock.type = .tcp) && decide (sock.fd ≠ 0) &&
          sock.eventAccept.isSome)
        (fun sock => ixfdCommonsockTcpListen s k sock)
  | .unbind k =>
      onSock s k (fun _ => true) (fun sock => ixfdCommonsockUnbind s k sock)
  | .disconnect k =>
      onSock s k (fun sock => (defaultConn s sock).isSome)
        (fun sock => ixfdCommonsockDisconnect s k sock)
  | .freectx c =>
      match s.net.conns c with
      | none => none
      | some ctx =>
          if callerRuns s.net.stack && !s.freedCtx c then
            some (ixfdCommonsockFreectx s c ctx)
          else none
  | .free k =>
      onSock s k
        (fun sock =>
          (sock.eventAccept.isSome || sock.eventConnect.isSome) &&
            (sock.defaultCtx.isNone || (defaultConn s sock).isSome))
        (fun sock => ixfdCommonsockFree s k sock)
  | .accept k fd mallocOk =>
      onAccept s k fun sock =>
        (Sock.step sock.callbacks s.net (.accept fd mallocOk)).map fun net =>
          (s.withNet net).own s.net.nextConn k (some s.net.nextConn)
  | .acceptFailed k mallocOk =>
      onAccept s k fun sock =>
        some ((s.withNet
          (ixfdCommonsockAcceptFailed sock.callbacks s.net mallocOk)).own
            s.net.nextConn k none)
  | .connectReady a failed mallocOk =>
      match s.attempts a with
      | none => none
      | some args =>
          match s.socks args.sock with
          | none => none
          | some sock =>
              if s.idle && args.watcher.active &&
                  (s.net.kernel args.watcher.fd).isSome &&
                  (!failed || (s.net.kernel sock.fd).isSome) then
                some (ixfdCommonsockConnectCb s a args sock failed mallocOk)
              else none
  | .connectReturns =>
      match s.reporting with
      | none => none
      | some a =>
          match s.attempts a with
          | none => none
          | some args =>
              if s.net.stack.isEmpty then some (endConnectCb s a args)
              else none

end Socket
end Iojxd
