import Iojxd.CycQueueFamily
import Iojxd.SockModel

/-!
# The connection layer with its queues in memory

`SockModel` keeps the writes of a connection as a list.  In `sock.cxx` the field
`buf_write` points to a cyclic queue of `util.cxx`, whose nodes point to the write
contexts.  Here the same functions work on that memory: the queues of all
connections lie in one heap, and `ixfd_commonsock_write_cb` changes a write
context where it lies.

A write context has the number of its call as address.  The two functions that
use a queue and the one that makes it are written again; what the others do to
the contexts is taken from `SockModel`.
-/

namespace Iojxd
namespace Sock

open LinkedCells CycQueue

/-- The state with the queues in memory.  The contexts of `net` have empty lists;
`bufWrite c` is the pointer that context `c` has instead. -/
structure HeapNet where
  net : Net
  bufWrite : Nat → Nat
  heap : Heap Nat
  writeCtxs : Nat → Option IxfdSockWriteCtx

namespace HeapNet

def init (heap : Heap Nat) : HeapNet where
  net := .init
  bufWrite := fun _ => 0
  heap := heap
  writeCtxs := fun _ => none

end HeapNet

/-- The bytes that `memset` stores into the values that are not used. -/
def filler : Nat := 0x0F0F0F0F0F0F0F0F

/-- The start of `event_write` unless `write_launched` is set. -/
def launchCtx (ctx : IxfdConnCtx) : IxfdConnCtx :=
  if ctx.writeLaunched then ctx
  else
    { ctx with
      writeLaunched := true
      eventWrite := ctx.eventWrite.start }

/-- `ixfd_commonsock_write` up to its completion callback. -/
def ixfdCommonsockWriteHeap
    (s : HeapNet) (c : Nat) (ctx : IxfdConnCtx) (data : Buffer)
    (cb : Option Nat) (args : Nat) (ret : Int) (newNode : Nat) :
    Option HeapNet :=
  let j := s.net.calls
  let n := toSizeT ret
  if h : n < data.bytes.length then
    if Fresh s.heap newNode then
      let net := ({ s.net with calls := j + 1 }).emit
        [.call c j data.bytes,
          .write c j ctx.fd (s.net.kernel ctx.fd) data.bytes ret]
      -- ixut_cycqueue_enqueue(ctx->buf_write, ctx_write)
      (ixutCycqueueEnqueue s.heap (s.bufWrite c) j newNode).map fun heap =>
        { s with
          net := (net.setConn c (launchCtx ctx)).emit
            [.malloc (.writeCtx j), .malloc (.dataCopy j), .returned j false]
          heap := heap
          writeCtxs := Function.update s.writeCtxs j
            (some (.ofCall j data n h cb)) }
    else none
  else some { s with net := ixfdCommonsockWrite s.net c ctx data cb args ret }

/-- One iteration of `ixfd_commonsock_write_cb` on the write context `w` that the
front node points to, up to the completion callback. -/
def ixfdCommonsockWriteCbIterHeap
    (s : HeapNet) (c : Nat) (ctx : IxfdConnCtx) (front : Nat)
    (w : IxfdSockWriteCtx) (ret : Int) : Option HeapNet :=
  let net := s.net.emit
    [.write c w.call ctx.fd (s.net.kernel ctx.fd) w.remaining ret]
  let n := toSizeT ret
  if h : n < w.lenRemain then
    some { s with
      net := net
      writeCtxs := Function.update s.writeCtxs front (some (w.advance n h)) }
  else
    (ixutCycqueueDequeue s.heap (s.bufWrite c)).map fun r =>
      { s with
        net := match w.cb with
          | some f =>
              (net.emit [.callback c w.call f w.cbArgs]).withStack
                (.drainDone c w.call :: net.stack)
          | none => net.emit [.free (.dataCopy w.call), .free (.connCtx c)]
        heap := r.1 }

/-- A label with the addresses that `malloc` returns in the step. -/
structure HeapLabel where
  base : Label
  first : Nat
  second : Nat

/-- The step function with the queues in memory. -/
def heapStep (sock : IxfdSock) (s : HeapNet) (l : HeapLabel) :
    Option HeapNet :=
  match l.base with
  | .write c data cb args ret =>
      (s.net.conns c).bind fun ctx =>
        if callerRuns s.net.stack &&
            writeRet (s.net.kernel ctx.fd) data.bytes.length ret then
          ixfdCommonsockWriteHeap s c ctx data cb args ret l.first
        else none
  | .accept fd mallocOk =>
      if Fresh s.heap l.first ∧ Fresh s.heap l.second ∧
          l.first ≠ l.second then
        -- ctx->buf_write = ixut_cycqueue_create()
        (step sock s.net (.accept fd mallocOk)).map fun net =>
          { s with
            net := net
            bufWrite := Function.update s.bufWrite s.net.nextConn l.first
            heap := ixutCycqueueCreate s.heap filler l.first l.second }
      else none
  | .drainWrite ret =>
      match s.net.stack with
      | .drain c :: _ => do
          let ctx ← s.net.conns c
          guard (!(← ixutCycqueueEmpty s.heap (s.bufWrite c)))
          let front ← ixutCycqueueFront s.heap (s.bufWrite c)
          let w ← s.writeCtxs front
          guard (writeRet (s.net.kernel ctx.fd) w.lenRemain ret)
          ixfdCommonsockWriteCbIterHeap s c ctx front w ret
      | _ => none
  | .drainEnd =>
      match s.net.stack with
      | .drain c :: stack => do
          let ctx ← s.net.conns c
          guard (← ixutCycqueueEmpty s.heap (s.bufWrite c))
          return { s with
            net := (s.net.withStack stack).setConn c (quietCtx ctx) }
      | _ => none
  | base => (step sock s.net base).map fun net => { s with net := net }

end Sock
end Iojxd
