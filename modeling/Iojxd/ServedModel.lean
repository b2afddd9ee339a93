import Iojxd.DaemonModel

/-!
# The daemon over the connection layer

`DaemonModel` says what the handlers of `oj/iojxd.lua` do on each event.  Here
they run on the connection layer: the watchers enter the callbacks of
`ixlbx_tcp_base`, `ctx:write` and `ctx:close` call the interface of `sock.cxx`,
with the answers of their system calls, and between the events the write watchers
drain what the kernel did not take.

The process has one thread and no handler runs the event loop, so an event is one
step together with its handler.  The handlers pass no Lua function to `ctx:write`:
the completion callback of a reply that is taken whole returns at once.  For a
queued reply it gets a pointer that was never assigned and follows it, so a run
ends with the write that completes a queued reply.  The wrappers of closed
connections are not collected.
-/

namespace Iojxd
namespace Daemon

open Sock (Net)

/-- The connection layer, the field `data` of each wrapper, and what else the
daemon keeps. -/
structure Served where
  net : Net
  data : Nat → Option SessionData
  envs : List Nat
  listening : Bool
  alive : Bool
  log : List Event

namespace Served

def init : Served where
  net := .init
  data := fun _ => none
  envs := []
  listening := true
  alive := true
  log := []

@[simps] def withNet (s : Served) (net : Net) : Served :=
  { s with net := net }

@[simps] def emit (s : Served) (es : List Event) : Served :=
  { s with log := s.log ++ es }

/-- The connection layer takes a step. -/
def onNet (s : Served) (l : Sock.Label) : Option Served :=
  (Sock.step tcpBaseSock s.net l).map s.withNet

end Served

/-- `ixlbx_socket_context::write`, with its completion callback. -/
def writeReply
    (s : Served) (c : Nat) (reply : LuaString) (ret : Int) : Option Served :=
  if h : reply.length < Sock.sizeMod then do
    let s ← s.onNet (.write c ⟨reply, h⟩ (some 0) 0 ret)
    if Sock.toSizeT ret < reply.length then return s
    else s.onNet .callbackReturns
  else none

/-- An iteration of `write_cb`.  The completion callback of a queued reply reads
`cb_args`, which `ixfd_commonsock_write` has not assigned: nothing is known of the
process from there on. -/
def drainReply (s : Served) (ret : Int) : Option Served := do
  let s ← s.onNet (.drainWrite ret)
  match s.net.stack with
  | .drainDone _ _ :: _ => return { s with alive := false }
  | _ => return s

/-- What an action does to the daemon and the connection layer. -/
def applyOn
    (c : Nat) (ret : Int) (s : Served) : Action → Option Served
  | .write reply => writeReply s c reply ret
  | .close => s.onNet (.close c)
  | .setData session =>
      some { s with
        data := Function.update s.data c (some session)
        envs := session.context :: s.envs }
  | .closeServer => some { s with listening := false }
  | _ => some s

/-- One action of the handler of `c`. -/
def performOn
    (c : Nat) (ret : Int) (s : Served) (a : Action) : Option Served :=
  (applyOn c ret s a).map fun s => s.emit [.act c a]

/-- The actions of the handler of `c`, and its return or its error. -/
def handleOn
    (c : Nat) (ret : Int) (s : Served) (r : Handled) : Option Served := do
  let s ← r.actions.foldlM (performOn c ret) s
  match r.error with
  | none => s.onNet .callbackReturns
  | some error => return { s.emit [.raised c error] with alive := false }

/-- Events of the loop, with the results of the `write(2)` that they lead to. -/
inductive ServedLabel where
  | accept (fd : Int) (mallocOk : Bool)
  | chunk (c : Nat) (data : List UInt8) (env : Nat) (ending : ChunkEnd)
      (ret : Int)
  | eof (c : Nat)
  | readError (c : Nat)
  | writeReady (c : Nat)
  | drainWrite (ret : Int)
  | drainEnd

/-- The step function; `none` where the label is not enabled. -/
def serve (tostringNumber : ℚ → LuaString) (s : Served) :
    ServedLabel → Option Served
  | .accept fd mallocOk => do
      guard (s.alive && s.listening)
      -- `on_accept` prints and returns
      let t ← s.onNet (.accept fd mallocOk)
      let t ← t.onNet .callbackReturns
      return { t.emit [.accepted s.net.nextConn fd] with
        data := Function.update s.data s.net.nextConn none }
  | .chunk c data env ending ret => do
      guard (s.alive && !data.isEmpty && !s.envs.contains env)
      let ctx ← s.net.conns c
      let peer ← s.net.kernel ctx.fd
      let t ← s.onNet (.readReady c (.data data))
      handleOn c ret (t.emit [.received c peer data])
        (cbRead tostringNumber (s.data c) data env ending)
  | .eof c => do
      guard s.alive
      let t ← s.onNet (.readReady c (.data []))
      -- `on_close`, then `read_cb` closes the connection
      let t ← handleOn c 0 t ⟨[.delayedGc], none⟩
      return t.emit [.act c .close]
  | .readError c => do
      guard s.alive
      s.onNet (.readReady c .error)
  | .writeReady c => do
      guard s.alive
      s.onNet (.writeReady c)
  | .drainWrite ret => do
      guard s.alive
      drainReply s ret
  | .drainEnd => do
      guard s.alive
      s.onNet .drainEnd

end Daemon
end Iojxd
