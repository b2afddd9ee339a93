import Iojxd.TransitionRun

/-!
# The connection layer of `sock.cxx`

Connection contexts, their write queues and the functions that read, write and
close them, as a transition system over any number of connections.

The process has one thread.  `stack` says where it stands: empty in the event
loop, otherwise inside `write_cb` or inside a callback of the application.
While the loop is idle or an application callback runs, the application may
call any function of the interface; a callback may do so any number of times
before it returns.  A label carries the answers of the system calls that the
step makes.

`kernel` is the descriptor table: which kernel connection an open number
names.  The connection accepted as context `c` is named `c`.  A started watcher
runs its callback only while its number is open.  `log` records calls, system
calls, callbacks and the allocations of contexts and queued writes; storage
that was freed keeps its contents.
-/

namespace Iojxd
namespace Sock

/-- The number of values of `size_t`. -/
def sizeMod : Nat := 18446744073709551616

/-- The `ssize_t` result of a system call stored in a `size_t`. -/
def toSizeT (r : Int) : Nat :=
  (r % 18446744073709551616).toNat

/-- Bytes whose number is a `size_t`. -/
structure Buffer where
  bytes : List UInt8
  fits : bytes.length < sizeMod

/-- A libev `ev_io` watcher. -/
structure EvIo where
  fd : Int
  active : Bool
deriving DecidableEq

namespace EvIo

def start (w : EvIo) : EvIo :=
  { w with active := true }

def stop (w : EvIo) : EvIo :=
  { w with active := false }

end EvIo

/-- `ixfd_sock_write_ctx`: `data` is an offset into the block `data_org`.
`call` numbers the call that queued the write; `cbArgs` is `none` while the
field has never been assigned. -/
structure IxfdSockWriteCtx where
  call : Nat
  dataOrg : List UInt8
  data : Nat
  lenRemain : Nat
  cb : Option Nat
  cbArgs : Option Nat
  inside : data + lenRemain = dataOrg.length
  nonempty : 0 < lenRemain
  fits : lenRemain < sizeMod

namespace IxfdSockWriteCtx

/-- The bytes that `write_cb` hands to `write(2)`. -/
def remaining (w : IxfdSockWriteCtx) : List UInt8 :=
  (w.dataOrg.drop w.data).take w.lenRemain

/-- The entry made when the kernel took `n` bytes of a call. -/
def ofCall (call : Nat) (data : Buffer) (n : Nat)
    (h : n < data.bytes.length) (cb : Option Nat) : IxfdSockWriteCtx where
  call := call
  dataOrg := data.bytes.drop n
  data := 0
  lenRemain := data.bytes.length - n
  cb := cb
  cbArgs := none
  inside := by simp
  nonempty := by omega
  fits := by
    have := data.fits
    omega

/-- `len_remain -= n; data += n`. -/
def advance (w : IxfdSockWriteCtx) (n : Nat) (h : n < w.lenRemain) :
    IxfdSockWriteCtx :=
  { w with
    data := w.data + n
    lenRemain := w.lenRemain - n
    inside := by
      have := w.inside
      omega
    nonempty := by omega
    fits := by
      have := w.fits
      omega }

end IxfdSockWriteCtx

/-- `ixfd_conn_ctx`.  `cbRead` says whether the pointer is set, `bufRead` is the
capacity of the block it points to. -/
structure IxfdConnCtx where
  fd : Int
  eventRead : EvIo
  eventWrite : EvIo
  bufWrite : List IxfdSockWriteCtx
  sizeBufread : Nat
  bufRead : Option Nat
  cbRead : Bool
  active : Bool
  writeLaunched : Bool

/-- The fields of `ixfd_sock` that its connections read. -/
structure IxfdSock where
  cbRead : Bool
  cbAccept : Bool
  cbClose : Bool
  passiveRead : Bool
deriving DecidableEq

/-- `ixfd_commonsock_set_bufread_len`, given whether `malloc` succeeds. -/
def ixfdCommonsockSetBufreadLen
    (conn : IxfdConnCtx) (len : Nat) (mallocOk : Bool) : IxfdConnCtx :=
  if mallocOk then
    { conn with
      bufRead := some ((len + 1) % sizeMod)
      sizeBufread := len }
  else conn

/-- `ixfd_commonsock_create_ctx`. -/
def ixfdCommonsockCreateCtx
    (sock : IxfdSock) (fd : Int) (mallocOk : Bool) : IxfdConnCtx :=
  ixfdCommonsockSetBufreadLen
    { fd := fd
      eventRead := ⟨fd, false⟩
      eventWrite := ⟨fd, false⟩
      bufWrite := []
      sizeBufread := 0
      bufRead := none
      cbRead := sock.cbRead
      active := false
      writeLaunched := false }
    4096 mallocOk

/-- What `ixfd_commonsock_close` does to the context. -/
def closeCtx (ctx : IxfdConnCtx) : IxfdConnCtx :=
  { ctx with
    active := false
    eventRead := ctx.eventRead.stop }

/-- The end of `ixfd_commonsock_accept_cb`. -/
def activateCtx (ctx : IxfdConnCtx) : IxfdConnCtx :=
  { ctx with
    eventRead := ctx.eventRead.start
    active := true }

/-- The end of `ixfd_commonsock_write_cb`. -/
def quietCtx (ctx : IxfdConnCtx) : IxfdConnCtx :=
  { ctx with
    writeLaunched := false
    eventWrite := ctx.eventWrite.stop }

/-- `ixut_cycqueue_enqueue` on the context, and the start of `event_write`
unless `write_launched` is set. -/
def enqueueCtx (ctx : IxfdConnCtx) (w : IxfdSockWriteCtx) : IxfdConnCtx :=
  let ctx := { ctx with bufWrite := ctx.bufWrite ++ [w] }
  if ctx.writeLaunched then ctx
  else
    { ctx with
      writeLaunched := true
      eventWrite := ctx.eventWrite.start }

/-- Allocated blocks that are tracked. -/
inductive Block where
  | connCtx (c : Nat)
  | writeCtx (j : Nat)
  | dataCopy (j : Nat)
deriving DecidableEq

/-- What the process does, in order.  `j` numbers the calls of
`ixfd_commonsock_write`; `peer` is the connection the number named. -/
inductive Effect where
  | accepted (c : Nat) (fd : Int)
  | call (c j : Nat) (data : List UInt8)
  | write (c j : Nat) (fd : Int) (peer : Option Nat)
      (given : List UInt8) (ret : Int)
  | read (c : Nat) (fd : Int) (peer : Option Nat)
  | received (c : Nat) (data : List UInt8)
  | close (c : Nat) (fd : Int)
  | callback (c j cb : Nat) (args : Option Nat)
  | returned (j : Nat) (value : Bool)
  | malloc (b : Block)
  | free (b : Block)
deriving DecidableEq

/-- Where the thread stands above the event loop. -/
inductive Frame where
  /-- completion callback called by `ixfd_commonsock_write` -/
  | writeDone (j : Nat)
  /-- before the loop test of `ixfd_commonsock_write_cb` -/
  | drain (c : Nat)
  /-- completion callback called by `ixfd_commonsock_write_cb` -/
  | drainDone (c j : Nat)
  /-- `cb_accept` called by `ixfd_commonsock_accept_cb` -/
  | acceptDone (c : Nat)
  /-- `cb_read` called by `ixfd_commonsock_read_cb` -/
  | readDone (c : Nat)
  /-- `cb_close` called by `ixfd_commonsock_read_cb` -/
  | closeDone (c : Nat)
deriving DecidableEq

/-- The state of the connection layer. -/
structure Net where
  conns : Nat → Option IxfdConnCtx
  nextConn : Nat
  calls : Nat
  kernel : Int → Option Nat
  stack : List Frame
  log : List Effect

namespace Net

def init : Net where
  conns := fun _ => none
  nextConn := 0
  calls := 0
  kernel := fun _ => none
  stack := []
  log := []

@[simps] def setConn (s : Net) (c : Nat) (ctx : IxfdConnCtx) : Net :=
  { s with conns := Function.update s.conns c (some ctx) }

@[simps] def setKernel (s : Net) (fd : Int) (peer : Option Nat) : Net :=
  { s with kernel := Function.update s.kernel fd peer }

@[simps] def emit (s : Net) (es : List Effect) : Net :=
  { s with log := s.log ++ es }

@[simps] def withStack (s : Net) (stack : List Frame) : Net :=
  { s with stack := stack }

end Net

/-- The application runs: the loop is idle or a callback is on top. -/
def callerRuns : List Frame → Bool
  | .drain _ :: _ => false
  | _ => true

/-- Results `write(2)` can give on a number for `len` bytes. -/
def writeRet (peer : Option Nat) (len : Nat) (ret : Int) : Bool :=
  match peer with
  | none => ret == -1
  | some _ => ret == -1 || (decide (0 ≤ ret) && decide (ret ≤ len))

/-- Result of `read(2)`: an error, or the bytes read, none at end of file. -/
inductive ReadRet where
  | error
  | data (bytes : List UInt8)
deriving DecidableEq

/-- Results `read(2)` can give on a number for a request of `len` bytes. -/
def readRet (peer : Option Nat) (len : Nat) : ReadRet → Bool
  | .error => true
  | .data bytes => peer.isSome && decide (bytes.length ≤ len)

/-- `ixfd_commonsock_write` up to its completion callback. -/
def ixfdCommonsockWrite
    (s : Net) (c : Nat) (ctx : IxfdConnCtx) (data : Buffer)
    (cb : Option Nat) (args : Nat) (ret : Int) : Net :=
  let j := s.calls
  let s := { s with calls := j + 1 }
  let s := s.emit
    [.call c j data.bytes,
      .write c j ctx.fd (s.kernel ctx.fd) data.bytes ret]
  let n := toSizeT ret
  if h : n < data.bytes.length then
    (s.setConn c (enqueueCtx ctx (.ofCall j data n h cb))).emit
      [.malloc (.writeCtx j), .malloc (.dataCopy j), .returned j false]
  else
    match cb with
    | some f =>
        (s.emit [.callback c j f (some args)]).withStack
          (.writeDone j :: s.stack)
    | none => s.emit [.returned j true]

/-- `ixfd_commonsock_close`. -/
def ixfdCommonsockClose (s : Net) (c : Nat) (ctx : IxfdConnCtx) : Net :=
  ((s.setConn c (closeCtx ctx)).setKernel ctx.fd none).emit [.close c ctx.fd]

/-- One iteration of `ixfd_commonsock_write_cb` on the front entry `w`, up to
the completion callback. -/
def ixfdCommonsockWriteCbIter
    (s : Net) (c : Nat) (ctx : IxfdConnCtx)
    (w : IxfdSockWriteCtx) (rest : List IxfdSockWriteCtx) (ret : Int) : Net :=
  let s := s.emit
    [.write c w.call ctx.fd (s.kernel ctx.fd) w.remaining ret]
  let n := toSizeT ret
  if h : n < w.lenRemain then
    s.setConn c { ctx with bufWrite := w.advance n h :: rest }
  else
    let s := s.setConn c { ctx with bufWrite := rest }
    match w.cb with
    | some f =>
        (s.emit [.callback c w.call f w.cbArgs]).withStack
          (.drainDone c w.call :: s.stack)
    | none => s.emit [.free (.dataCopy w.call), .free (.connCtx c)]

/-- `ixfd_commonsock_accept_cb` up to its callback, for a successful
`accept(2)`. -/
def ixfdCommonsockAcceptCb
    (sock : IxfdSock) (s : Net) (fd : Int) (mallocOk : Bool) : Net :=
  let c := s.nextConn
  let ctx := ixfdCommonsockCreateCtx sock fd mallocOk
  let s := { s with nextConn := c + 1 }
  let s := (s.setKernel fd (some c)).emit
    [.malloc (.connCtx c), .accepted c fd]
  if sock.cbAccept then
    (s.setConn c ctx).withStack (.acceptDone c :: s.stack)
  else s.setConn c (activateCtx ctx)

/-- `ixfd_commonsock_read_cb` up to its callback; with `passive_read` set, and
without it for the given result of `read(2)`. -/
def ixfdCommonsockReadCb
    (sock : IxfdSock) (s : Net) (c : Nat) (ctx : IxfdConnCtx)
    (ret : ReadRet) : Net :=
  if sock.passiveRead then s.withStack (.readDone c :: s.stack)
  else
    let s := s.emit [.read c ctx.fd (s.kernel ctx.fd)]
    match ret with
    | .error => s
    | .data [] =>
        if sock.cbClose then s.withStack (.closeDone c :: s.stack)
        else ixfdCommonsockClose s c ctx
    | .data (b :: bs) =>
        if ctx.cbRead then
          (s.emit [.received c (b :: bs)]).withStack (.readDone c :: s.stack)
        else s

/-- `ixfd_commonsock_read`. -/
def ixfdCommonsockRead
    (s : Net) (c : Nat) (ctx : IxfdConnCtx) (ret : ReadRet) : Net :=
  let s := s.emit [.read c ctx.fd (s.kernel ctx.fd)]
  match ret with
  | .data [] => ixfdCommonsockClose s c ctx
  | _ => s

/-- The code after a callback. -/
def afterCallback (s : Net) : Option Net :=
  match s.stack with
  | .writeDone j :: stack =>
      some ((s.withStack stack).emit [.returned j true])
  | .drainDone c j :: stack =>
      some ((s.withStack stack).emit
        [.free (.dataCopy j), .free (.connCtx c)])
  | .acceptDone c :: stack =>
      (s.conns c).map fun ctx =>
        (s.withStack stack).setConn c (activateCtx ctx)
  | .readDone _ :: stack => some (s.withStack stack)
  | .closeDone c :: stack =>
      (s.conns c).map fun ctx =>
        ixfdCommonsockClose (s.withStack stack) c ctx
  | _ => none

/-- Steps of the connection layer. -/
inductive Label where
  /-- call of `ixfd_commonsock_write`, with the result of its `write(2)` -/
  | write (c : Nat) (data : Buffer) (cb : Option Nat) (args : Nat) (ret : Int)
  /-- call of `ixfd_commonsock_read`, with the result of its `read(2)` -/
  | read (c len : Nat) (ret : ReadRet)
  /-- call of `ixfd_commonsock_close` -/
  | close (c : Nat)
  /-- call of `ixfd_commonsock_set_bufread_len` -/
  | setBufreadLen (c len : Nat) (mallocOk : Bool)
  /-- the running callback returns -/
  | callbackReturns
  /-- the listening socket accepts a connection on a free number -/
  | accept (fd : Int) (mallocOk : Bool)
  /-- the read watcher of a connection fires -/
  | readReady (c : Nat) (ret : ReadRet)
  /-- the write watcher of a connection fires -/
  | writeReady (c : Nat)
  /-- an iteration of `write_cb` on a non-empty queue -/
  | drainWrite (ret : Int)
  /-- `write_cb` finds the queue empty -/
  | drainEnd

/-- A step on a context, enabled where it exists and meets a test. -/
def onConn (s : Net) (c : Nat)
    (ok : IxfdConnCtx → Bool) (f : IxfdConnCtx → Net) : Option Net :=
  match s.conns c with
  | none => none
  | some ctx => if ok ctx then some (f ctx) else none

/-- `ixfd_commonsock_read_cb` follows no null pointer: the callback in passive
mode, the buffer otherwise. -/
def readCbDefined (sock : IxfdSock) (ctx : IxfdConnCtx) : Bool :=
  if sock.passiveRead then ctx.cbRead else ctx.bufRead.isSome

/-- The step function; `none` where the label is not enabled. -/
def step (sock : IxfdSock) (s : Net) : Label → Option Net
  | .write c data cb args ret =>
      onConn s c
        (fun ctx => callerRuns s.stack &&
          writeRet (s.kernel ctx.fd) data.bytes.length ret)
        (fun ctx => ixfdCommonsockWrite s c ctx data cb args ret)
  | .read c len ret =>
      onConn s c
        (fun ctx => callerRuns s.stack && readRet (s.kernel ctx.fd) len ret)
        (fun ctx => ixfdCommonsockRead s c ctx ret)
  | .close c =>
      onConn s c
        (fun _ => callerRuns s.stack)
        (fun ctx => ixfdCommonsockClose s c ctx)
  | .setBufreadLen c len mallocOk =>
      onConn s c
        (fun _ => callerRuns s.stack && decide (0 < len))
        (fun ctx =>
          s.setConn c (ixfdCommonsockSetBufreadLen ctx len mallocOk))
  | .callbackReturns => afterCallback s
  | .accept fd mallocOk =>
      if s.stack.isEmpty && (s.kernel fd).isNone && decide (0 ≤ fd) then
        some (ixfdCommonsockAcceptCb sock s fd mallocOk)
      else none
  | .readReady c ret =>
      onConn s c
        (fun ctx => s.stack.isEmpty && ctx.eventRead.active &&
          (s.kernel ctx.fd).isSome && readCbDefined sock ctx &&
          readRet (s.kernel ctx.fd) ctx.sizeBufread ret)
        (fun ctx => ixfdCommonsockReadCb sock s c ctx ret)
  | .writeReady c =>
      onConn s c
        (fun ctx => s.stack.isEmpty && ctx.eventWrite.active &&
          (s.kernel ctx.fd).isSome)
        (fun _ => s.withStack (.drain c :: s.stack))
  | .drainWrite ret =>
      match s.stack with
      | .drain c :: _ =>
          match s.conns c with
          | none => none
          | some ctx =>
              match ctx.bufWrite with
              | [] => none
              | w :: rest =>
                  if writeRet (s.kernel ctx.fd) w.lenRemain ret then
                    some (ixfdCommonsockWriteCbIter s c ctx w rest ret)
                  else none
      | _ => none
  | .drainEnd =>
      match s.stack with
      | .drain c :: stack =>
          onConn s c
            (fun ctx => ctx.bufWrite.isEmpty)
            (fun ctx => (s.withStack stack).setConn c (quietCtx ctx))
      | _ => none

end Sock
end Iojxd
