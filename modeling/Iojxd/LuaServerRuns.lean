import Iojxd.LuaServerModel
import Iojxd.LuaConnLifetime
import Iojxd.SocketRuns

/-!
# Steps of the servers

The inversion of the step function.  A step of a connection leaves all servers
alone: it changes neither their sockets nor their references.
-/

namespace Iojxd
namespace LuaServer

open Sock Socket LuaRef TransitionRun World
open LuaConn (IxlbxTcpBase luaSock draining Unused)

/-! ## Inversion of a step -/

/-- The targets of the steps, with what the steps require. -/
inductive Move (w : World) : Label → World → Prop
  | construct :
      Move w .construct w.ixlbxTcpBase
  | register
      {k : Nat} {sock : IxfdSockObj} {base : IxlbxTcpBase}
      (hk : w.layer.socks k = some sock)
      (hfreed : w.layer.freedSock k = false) :
      Move w (.register k base)
        { w with bases := Function.update w.bases k base }
  | start
      {k : Nat} {sock : IxfdSockObj} {fd : Option Int} {bindOk : Bool}
      (hk : w.layer.socks k = some sock)
      (hfreed : w.layer.freedSock k = false)
      (hstarted : w.started k = false)
      (hfd : (!bindOk || fd.isSome) = true) :
      Move w (.start k fd bindOk) (w.startServer k sock fd bindOk)
  | closeServer
      {k : Nat} {sock : IxfdSockObj}
      (hk : w.layer.socks k = some sock)
      (hfreed : w.layer.freedSock k = false) :
      Move w (.closeServer k) (w.closeServer k sock)
  | collectServer
      {k : Nat} {sock : IxfdSockObj}
      (hk : w.layer.socks k = some sock)
      (hfreed : w.layer.freedSock k = false)
      (hhandles : 0 < (w.servers k).handles) :
      Move w (.collectServer k) (w.collectServer k)
  | accept
      {k : Nat} {sock : IxfdSockObj} {watcher : EvIo} {fd : Int}
      {mallocOk : Bool} {net : Net}
      (hk : w.layer.socks k = some sock)
      (haccept : sock.eventAccept = some watcher)
      (hactive : watcher.active = true)
      (hidle : w.layer.net.stack = [])
      (hnet : Sock.step luaSock w.layer.net (.accept fd mallocOk) = some net) :
      Move w (.accept k fd mallocOk)
        (acceptCb w k net (some w.layer.net.nextConn))
  | acceptFailed
      {k : Nat} {sock : IxfdSockObj} {watcher : EvIo} {mallocOk : Bool}
      (hk : w.layer.socks k = some sock)
      (haccept : sock.eventAccept = some watcher)
      (hactive : watcher.active = true)
      (hidle : w.layer.net.stack = []) :
      Move w (.acceptFailed k mallocOk)
        (acceptCb w k
          (ixfdCommonsockAcceptFailed luaSock w.layer.net mallocOk) none)
  | readReady
      {c : Nat} {ret : ReadRet} {net : Net}
      (hnet : Sock.step luaSock w.layer.net (.readReady c ret) = some net) :
      Move w (.readReady c ret) (readCb w c ret net)
  | write
      {c : Nat} {content : Buffer} {cb : Bool} {args : Nat} {ret : Int}
      {net : Net} (hhandles : 0 < (w.wrappers c).handles)
      (hnet : Sock.step luaSock w.layer.net
        (.write c content (some 0) args ret) = some net) :
      Move w (.write c content cb args ret)
        ((if startsWatcher w.layer.net c content ret then w.useSockOf c
          else w).entering net c cb)
  | close
      {c : Nat} {net : Net} (hhandles : 0 < (w.wrappers c).handles)
      (hnet : Sock.step luaSock w.layer.net (.close c) = some net) :
      Move w (.close c) (((w.useSockOf c).withNet net).unRef c)
  | sock
      {c : Nat} (hhandles : 0 < (w.wrappers c).handles) :
      Move w (.sock c) (w.useSockOf c)
  | collect
      {c : Nat} (hhandles : 0 < (w.wrappers c).handles) :
      Move w (.collect c)
        ((w.setWrapper c (w.wrappers c).collect).wrapperDropped c)
  | halts
      (hhalted : w.dropTemporary.finishCallback.halted.isSome = true) :
      Move w .callbackReturns w.dropTemporary.finishCallback
  | callbackReturns
      {net : Net}
      (hhalted : w.dropTemporary.finishCallback.halted = none)
      (hnet : Sock.step luaSock w.dropTemporary.finishCallback.layer.net
        .callbackReturns = some net) :
      Move w .callbackReturns (w.dropTemporary.finishCallback.withNet net)
  | writeReady
      {c : Nat} {net : Net}
      (hnet : Sock.step luaSock w.layer.net (.writeReady c) = some net) :
      Move w (.writeReady c) { w.withNet net with held := .cxx :: w.held }
  | drainWrite
      {c : Nat} {ret : Int} {cb : Bool} {net : Net}
      (hdrain : draining w.layer.net = some c)
      (hnet : Sock.step luaSock w.layer.net (.drainWrite ret) = some net) :
      Move w (.drainWrite ret cb) (w.entering net c cb)
  | drainEnd
      {net : Net}
      (hnet : Sock.step luaSock w.layer.net .drainEnd = some net) :
      Move w .drainEnd { w.withNet net with held := w.held.tail }

theorem onServer_eq_some
    {w v : World} {k : Nat} {ok : IxfdSockObj → Bool}
    {f : IxfdSockObj → World} (h : onServer w k ok f = some v) :
    ∃ sock, w.layer.socks k = some sock ∧ w.layer.freedSock k = false ∧
      ok sock = true ∧ v = f sock := by
  unfold onServer at h
  split at h
  · cases h
  · rename_i sock hk
    split at h
    · rename_i hok
      simp only [Bool.and_eq_true, Bool.not_eq_true'] at hok
      cases h
      exact ⟨sock, hk, hok.1.2, hok.2, rfl⟩
    · cases h

theorem onAccept_eq_some
    {w v : World} {k : Nat} {f : Option World} (h : onAccept w k f = some v) :
    ∃ sock watcher, w.layer.socks k = some sock ∧
      sock.eventAccept = some watcher ∧ watcher.active = true ∧
      w.layer.net.stack = [] ∧ f = some v := by
  unfold onAccept at h
  split at h
  · cases h
  · rename_i watcher hwatcher
    obtain ⟨sock, hk, haccept⟩ := Option.bind_eq_some_iff.mp hwatcher
    split at h
    · rename_i hok
      simp only [Bool.and_eq_true, Layer.idle, List.isEmpty_iff] at hok
      exact ⟨sock, watcher, hk, haccept, hok.1.2, hok.1.1.1, h⟩
    · cases h

theorem onNet_eq_some
    {w v : World} {l : Sock.Label} {f : Net → World}
    (h : onNet w l f = some v) :
    ∃ net, Sock.step luaSock w.layer.net l = some net ∧ v = f net := by
  rcases Option.map_eq_some_iff.mp h with ⟨net, hnet, rfl⟩
  exact ⟨net, hnet, rfl⟩

theorem handles_of_reaches {w : World} {c : Nat} (h : reaches w c = true) :
    0 < (w.wrappers c).handles := by
  unfold reaches at h
  rw [Bool.and_eq_true, decide_eq_true_eq] at h
  exact h.2

/-- **Inversion rule** of the step function. -/
theorem move_of_step
    {w v : World} {l : Label} (h : step w l = some v) :
    w.halted = none ∧ Move w l v := by
  simp only [step] at h
  split at h
  · cases h
  rename_i hrunning
  refine ⟨by simpa using hrunning, ?_⟩
  cases l with
  | construct =>
      simp only [stepRunning, Option.ite_none_right_eq_some,
        Option.some.injEq] at h
      rw [← h.2]
      exact .construct
  | register k base =>
      obtain ⟨sock, hk, hfreed, _, rfl⟩ := onServer_eq_some h
      exact .register hk hfreed
  | start k fd bindOk =>
      obtain ⟨sock, hk, hfreed, hok, rfl⟩ := onServer_eq_some h
      simp only [Bool.and_eq_true, Bool.not_eq_true'] at hok
      exact .start hk hfreed hok.1.1 hok.2
  | closeServer k =>
      obtain ⟨sock, hk, hfreed, _, rfl⟩ := onServer_eq_some h
      exact .closeServer hk hfreed
  | collectServer k =>
      obtain ⟨sock, hk, hfreed, hok, rfl⟩ := onServer_eq_some h
      exact .collectServer hk hfreed (of_decide_eq_true hok)
  | accept k fd mallocOk =>
      obtain ⟨sock, watcher, hk, haccept, hactive, hidle, hf⟩ :=
        onAccept_eq_some h
      obtain ⟨net, hnet, rfl⟩ := onNet_eq_some hf
      exact .accept hk haccept hactive hidle hnet
  | acceptFailed k mallocOk =>
      obtain ⟨sock, watcher, hk, haccept, hactive, hidle, hf⟩ :=
        onAccept_eq_some h
      rw [← Option.some.inj hf]
      exact .acceptFailed hk haccept hactive hidle
  | readReady c ret =>
      obtain ⟨net, hnet, rfl⟩ := onNet_eq_some h
      exact .readReady hnet
  | write c content cb args ret =>
      simp only [stepRunning, Option.ite_none_right_eq_some] at h
      obtain ⟨net, hnet, rfl⟩ := onNet_eq_some h.2
      exact .write (handles_of_reaches h.1) hnet
  | close c =>
      simp only [stepRunning, Option.ite_none_right_eq_some] at h
      obtain ⟨net, hnet, rfl⟩ := onNet_eq_some h.2
      exact .close (handles_of_reaches h.1) hnet
  | sock c =>
      simp only [stepRunning, Option.ite_none_right_eq_some,
        Option.some.injEq] at h
      rw [← h.2]
      exact .sock (handles_of_reaches h.1)
  | collect c =>
      simp only [stepRunning, Option.ite_none_right_eq_some,
        Option.some.injEq] at h
      rw [← h.2]
      exact .collect (handles_of_reaches h.1)
  | callbackReturns =>
      simp only [stepRunning] at h
      split at h
      · rename_i hhalted
        cases h
        exact .halts hhalted
      · rename_i hhalted
        obtain ⟨net, hnet, rfl⟩ := onNet_eq_some h
        exact .callbackReturns (by simpa using hhalted) hnet
  | writeReady c =>
      obtain ⟨net, hnet, rfl⟩ := onNet_eq_some h
      exact .writeReady hnet
  | drainWrite ret cb =>
      obtain ⟨c, hdrain, hnext⟩ := Option.bind_eq_some_iff.mp h
      obtain ⟨net, hnet, rfl⟩ := onNet_eq_some hnext
      exact .drainWrite hdrain hnet
  | drainEnd =>
      obtain ⟨net, hnet, rfl⟩ := onNet_eq_some h
      exact .drainEnd hnet

/-- The steps other than accepts make no context. -/
theorem nextConn_step
    {s t : Net} {l : Sock.Label}
    (hl : ∀ fd mallocOk, l ≠ .accept fd mallocOk)
    (ht : Sock.step luaSock s l = some t) :
    t.nextConn = s.nextConn := by
  cases connMove_of_step hl ht with
  | still hnone hstill => exact hstill.nextConn
  | closes hsome hstill hd => exact hstill.nextConn
  | activates hnone hstack hd => rfl

theorem layer_useSockOf (w : World) (c : Nat) :
    (w.useSockOf c).layer = w.layer := by
  unfold World.useSockOf
  split <;> rfl

/-! ## References to wrappers -/

/-- Only references to wrappers have changed, of `m_this_ref` only that of
`dropped`; a wrapper that is destroyed does not hold itself. -/
structure OnlyRefs (dropped : Option Nat) (w v : World) : Prop where
  conns : v.layer.net.conns = w.layer.net.conns
  stack : v.layer.net.stack = w.layer.net.stack
  nextConn : v.layer.net.nextConn = w.layer.net.nextConn
  socks : v.layer.socks = w.layer.socks
  freedSock : v.layer.freedSock = w.layer.freedSock
  servers : v.servers = w.servers
  started : v.started = w.started
  data : v.data = w.data
  greeted : v.greeted = w.greeted
  dataUses : v.dataUses = w.dataUses
  halted : v.halted = w.halted
  thisRef : ∀ c, dropped ≠ some c →
    (v.wrappers c).thisRef = (w.wrappers c).thisRef
  unRef : ∀ c, (w.wrappers c).thisRef = false →
    (v.wrappers c).thisRef = false
  freed : ∀ c, v.layer.freedCtx c = true → w.layer.freedCtx c = true ∨
    ((v.wrappers c).thisRef = false ∧ (w.layer.net.conns c).isSome = true)

namespace OnlyRefs

variable {dropped : Option Nat} {w m : World}

theorem refl (w : World) :
    OnlyRefs dropped w w :=
  ⟨rfl, rfl, rfl, rfl, rfl, rfl, rfl, rfl, rfl, rfl, rfl, fun _ _ => rfl,
    fun _ h => h, fun _ h => Or.inl h⟩

theorem trans
    {v : World} (h : OnlyRefs dropped w m) (h' : OnlyRefs dropped m v) :
    OnlyRefs dropped w v where
  conns := h'.conns.trans h.conns
  stack := h'.stack.trans h.stack
  nextConn := h'.nextConn.trans h.nextConn
  socks := h'.socks.trans h.socks
  freedSock := h'.freedSock.trans h.freedSock
  servers := h'.servers.trans h.servers
  started := h'.started.trans h.started
  data := h'.data.trans h.data
  greeted := h'.greeted.trans h.greeted
  dataUses := h'.dataUses.trans h.dataUses
  halted := h'.halted.trans h.halted
  thisRef c hc := (h'.thisRef c hc).trans (h.thisRef c hc)
  unRef c hc := h'.unRef c (h.unRef c hc)
  freed := by
    intro c hfreed
    rcases h'.freed c hfreed with hold | ⟨hthis, hconn⟩
    · rcases h.freed c hold with hfirst | ⟨hthis, hconn⟩
      · exact Or.inl hfirst
      · exact Or.inr ⟨h'.unRef c hthis, hconn⟩
    · rw [h.conns] at hconn
      exact Or.inr ⟨hthis, hconn⟩

theorem weaken (h : OnlyRefs none w m) :
    OnlyRefs dropped w m where
  conns := h.conns
  stack := h.stack
  nextConn := h.nextConn
  socks := h.socks
  freedSock := h.freedSock
  servers := h.servers
  started := h.started
  data := h.data
  greeted := h.greeted
  dataUses := h.dataUses
  halted := h.halted
  thisRef c _ := h.thisRef c (by simp)
  unRef := h.unRef
  freed := h.freed

theorem withHeld (h : OnlyRefs dropped w m) (held : List Held) :
    OnlyRefs dropped w { m with held := held } :=
  h.trans ⟨rfl, rfl, rfl, rfl, rfl, rfl, rfl, rfl, rfl, rfl, rfl,
    fun _ _ => rfl, fun _ h => h, fun _ h => Or.inl h⟩

/-- A wrapper changes, but does not come to hold itself. -/
theorem setWrapper
    (h : OnlyRefs dropped w m) {d : Nat} {p : IxlbxRefBase}
    (hsame : dropped ≠ some d → p.thisRef = (m.wrappers d).thisRef)
    (hunref : (m.wrappers d).thisRef = false → p.thisRef = false) :
    OnlyRefs dropped w (m.setWrapper d p) := by
  apply h.trans
  refine ⟨rfl, rfl, rfl, rfl, rfl, rfl, rfl, rfl, rfl, rfl, rfl, ?_, ?_,
    fun _ h => Or.inl h⟩
  · intro c hc
    by_cases hcd : c = d
    · subst hcd
      rw [World.setWrapper_wrappers, Function.update_self]
      exact hsame hc
    · rw [World.setWrapper_wrappers, Function.update_of_ne hcd]
  · intro c hc
    by_cases hcd : c = d
    · subst hcd
      rw [World.setWrapper_wrappers, Function.update_self]
      exact hunref hc
    · rw [World.setWrapper_wrappers, Function.update_of_ne hcd]
      exact hc

theorem useSockOf (h : OnlyRefs dropped w m) (c : Nat) :
    OnlyRefs dropped w (m.useSockOf c) := by
  unfold World.useSockOf
  split
  · exact h
  · exact h.trans ⟨rfl, rfl, rfl, rfl, rfl, rfl, rfl, rfl, rfl, rfl, rfl,
      fun _ _ => rfl, fun _ h => h, fun _ h => Or.inl h⟩

theorem wrapperDropped (h : OnlyRefs dropped w m) (d : Nat) :
    OnlyRefs dropped w (m.wrapperDropped d) := by
  unfold World.wrapperDropped
  split
  · rename_i hrefs
    split
    · exact h
    · rename_i ctx hd
      apply h.trans
      refine ⟨rfl, rfl, rfl, rfl, rfl, rfl, rfl, rfl, rfl, rfl, rfl,
        fun _ _ => rfl, fun _ h => h, ?_⟩
      intro c hfreed
      by_cases hcd : c = d
      · subst hcd
        refine Or.inr ⟨IxlbxRefBase.thisRef_of_refs hrefs, ?_⟩
        rw [hd]
        rfl
      · simp only [ixfdCommonsockFreectx, Function.update_of_ne hcd] at hfreed
        exact Or.inl hfreed
  · exact h

theorem unRef_self (h : OnlyRefs none w m) (d : Nat) :
    OnlyRefs (some d) w (m.unRef d) := by
  unfold World.unRef
  split
  · apply wrapperDropped
    apply h.weaken.setWrapper
    · intro hd
      exact absurd rfl hd
    · intro _
      rfl
  · exact h.weaken

theorem enter (h : OnlyRefs dropped w m) (c : Nat) (registered : Bool) :
    OnlyRefs dropped w (m.enter c registered) := by
  unfold World.enter
  split
  · split
    · exact h.withHeld _
    · rename_i d _
      have hset := h.setWrapper (d := d) (p := (m.wrappers d).lend)
        (fun _ => rfl) (fun h => h)
      exact hset.withHeld _
  · exact h.withHeld _

/-- The collector drops a handle. -/
theorem collect (w : World) (c : Nat) :
    OnlyRefs none w
      ((w.setWrapper c (w.wrappers c).collect).wrapperDropped c) := by
  have hset : OnlyRefs none w (w.setWrapper c (w.wrappers c).collect) :=
    (refl w).setWrapper (fun _ => rfl) (fun h => h)
  exact hset.wrapperDropped c

theorem dropTemporary (w : World) :
    OnlyRefs dropped w w.dropTemporary := by
  unfold World.dropTemporary
  split
  · rename_i d held _
    have hheld : OnlyRefs dropped w { w with held := held } :=
      (refl w).withHeld held
    have hset := hheld.setWrapper (d := d) (p := (w.wrappers d).giveBack)
      (fun _ => rfl) (fun h => h)
    exact hset.wrapperDropped d
  · exact (refl w).withHeld _
  · exact refl w

end OnlyRefs

/-! ## Servers that are left alone -/

/-- No server has changed, and no assertion has failed. -/
structure SameServers (w v : World) : Prop where
  socks : v.layer.socks = w.layer.socks
  freed : v.layer.freedSock = w.layer.freedSock
  servers : v.servers = w.servers
  started : v.started = w.started
  halted : v.halted = w.halted ∨ v.halted = some .nullPointer

namespace SameServers

theorem refl (w : World) :
    SameServers w w :=
  ⟨rfl, rfl, rfl, rfl, Or.inl rfl⟩

variable {w m : World}

theorem trans {v : World} (h : SameServers w m) (h' : SameServers m v) :
    SameServers w v where
  socks := h'.socks.trans h.socks
  freed := h'.freed.trans h.freed
  servers := h'.servers.trans h.servers
  started := h'.started.trans h.started
  halted := by
    rcases h'.halted with hsame | hnull
    · rw [hsame]
      exact h.halted
    · exact Or.inr hnull

/-- References to wrappers are none to a server. -/
theorem onlyRefs
    {dropped : Option Nat} {v : World} (h : SameServers w m)
    (hrefs : OnlyRefs dropped m v) :
    SameServers w v :=
  h.trans ⟨hrefs.socks, hrefs.freedSock, hrefs.servers, hrefs.started,
    Or.inl hrefs.halted⟩

theorem withNet (h : SameServers w m) (net : Net) :
    SameServers w (m.withNet net) :=
  h.trans ⟨rfl, rfl, rfl, rfl, Or.inl rfl⟩

theorem withHeld (h : SameServers w m) (held : List Held) :
    SameServers w { m with held := held } :=
  h.trans ⟨rfl, rfl, rfl, rfl, Or.inl rfl⟩

theorem useSockOf (w : World) (c : Nat) :
    SameServers w (w.useSockOf c) := by
  have hrefs : OnlyRefs none w (w.useSockOf c) := (OnlyRefs.refl w).useSockOf c
  exact (refl w).onlyRefs hrefs

theorem entering
    (h : SameServers w m) (net : Net) (c : Nat) (registered : Bool) :
    SameServers w (m.entering net c registered) := by
  have henter : OnlyRefs none (m.withNet net)
      ((m.withNet net).enter c registered) :=
    (OnlyRefs.refl _).enter c registered
  unfold World.entering
  split
  · exact (h.withNet net).onlyRefs henter
  · exact h.withNet net

theorem useData (h : SameServers w m) (c : Nat) :
    SameServers w (m.useData c) :=
  h.trans ⟨rfl, rfl, rfl, rfl, Or.inl rfl⟩

theorem finishCallback (h : SameServers w m) :
    SameServers w m.finishCallback := by
  unfold World.finishCallback
  split
  · split
    · exact h.trans ⟨rfl, rfl, rfl, rfl, Or.inr rfl⟩
    · rename_i d _
      have hunref := (OnlyRefs.refl m).unRef_self d
      exact h.onlyRefs (hunref.useSockOf _)
  · exact h

theorem dropTemporary_finishCallback (w : World) :
    SameServers w w.dropTemporary.finishCallback := by
  have hrefs : OnlyRefs none w w.dropTemporary := .dropTemporary w
  exact ((refl w).onlyRefs hrefs).finishCallback

theorem acceptCb (w : World) (k : Nat) (net : Net) (file : Option Nat) :
    SameServers w (acceptCb w k net file) := by
  have hnew : SameServers w (newContext w k net file) :=
    ⟨rfl, rfl, rfl, rfl, Or.inl rfl⟩
  have hwrapper : SameServers w (newSocketContext (newContext w k net file)
      w.layer.net.nextConn) :=
    ⟨rfl, rfl, rfl, rfl, Or.inl rfl⟩
  have henter : ∀ m registered, OnlyRefs none m
      (World.enter m w.layer.net.nextConn registered) :=
    fun m registered => (OnlyRefs.refl m).enter _ registered
  unfold LuaServer.acceptCb
  simp only
  split
  · exact hwrapper.onlyRefs (henter _ true)
  · exact hnew.onlyRefs (henter _ false)

theorem readCb (w : World) (c : Nat) (ret : ReadRet) (net : Net) :
    SameServers w (readCb w c ret net) := by
  have huse := useSockOf w c
  unfold LuaServer.readCb
  rcases ret with _ | _ | ⟨b, bs⟩
  · exact huse.withNet net
  · exact (huse.useData c).entering net c _
  · exact (huse.useData c).entering net c _

end SameServers

/-- Steps of a server itself. -/
def ofServer : Label → Bool
  | .construct => true
  | .register _ _ => true
  | .start _ _ _ => true
  | .closeServer _ => true
  | .collectServer _ => true
  | _ => false

/-- **Frame rule**: the other steps leave all servers alone. -/
theorem sameServers_of_move
    {w v : World} {l : Label} (h : Move w l v) (hl : ofServer l = false) :
    SameServers w v := by
  cases h with
  | construct => cases hl
  | register => cases hl
  | start => cases hl
  | closeServer => cases hl
  | collectServer => cases hl
  | accept => exact .acceptCb ..
  | acceptFailed => exact .acceptCb ..
  | readReady => exact .readCb ..
  | @write c content cb args ret net =>
      have huse : SameServers w
          (if startsWatcher w.layer.net c content ret then w.useSockOf c
            else w) := by
        split
        · exact .useSockOf w c
        · exact .refl w
      exact huse.entering net c cb
  | @close c net =>
      have hclosed := (SameServers.useSockOf w c).withNet net
      exact hclosed.onlyRefs ((OnlyRefs.refl _).unRef_self c)
  | sock => exact .useSockOf w _
  | @collect c =>
      exact (SameServers.refl w).onlyRefs (OnlyRefs.collect w c)
  | halts => exact .dropTemporary_finishCallback w
  | callbackReturns =>
      exact (SameServers.dropTemporary_finishCallback w).withNet _
  | writeReady => exact ((SameServers.refl w).withNet _).withHeld _
  | drainWrite => exact (SameServers.refl w).entering _ _ _
  | drainEnd => exact ((SameServers.refl w).withNet _).withHeld _

/-! ## Connections that are left alone -/

/-- No connection has changed. -/
structure SameConns (w v : World) : Prop where
  conns : v.layer.net.conns = w.layer.net.conns
  stack : v.layer.net.stack = w.layer.net.stack
  nextConn : w.layer.net.nextConn ≤ v.layer.net.nextConn
  owner : v.layer.owner = w.layer.owner
  freed : v.layer.freedCtx = w.layer.freedCtx
  wrappers : v.wrappers = w.wrappers
  data : v.data = w.data
  greeted : v.greeted = w.greeted
  sockUses : v.sockUses = w.sockUses
  dataUses : v.dataUses = w.dataUses

/-- The socket of a server has no default context. -/
def NoDefault (w : World) : Prop :=
  ∀ k sock, w.layer.socks k = some sock → sock.defaultCtx = none

namespace SameConns

variable {w m : World}

theorem trans {v : World} (h : SameConns w m) (h' : SameConns m v) :
    SameConns w v where
  conns := h'.conns.trans h.conns
  stack := h'.stack.trans h.stack
  nextConn := h.nextConn.trans h'.nextConn
  owner := h'.owner.trans h.owner
  freed := h'.freed.trans h.freed
  wrappers := h'.wrappers.trans h.wrappers
  data := h'.data.trans h.data
  greeted := h'.greeted.trans h.greeted
  sockUses := h'.sockUses.trans h.sockUses
  dataUses := h'.dataUses.trans h.dataUses

theorem serverDropped
    (h : SameConns w m) (hnone : NoDefault m) (k : Nat) :
    SameConns w (m.serverDropped k) := by
  unfold World.serverDropped
  split
  · unfold World.destroyServer
    split
    · exact h
    · rename_i sock hk
      split
      · have hdefault : freeDefault m.layer sock = m.layer := by
          simp [freeDefault, defaultConn, hnone k sock hk]
        apply h.trans
        simp only [ixfdCommonsockFree, hdefault]
        exact ⟨rfl, rfl, le_rfl, rfl, rfl, rfl, rfl, rfl, rfl, rfl⟩
      · exact h.trans ⟨rfl, rfl, le_rfl, rfl, rfl, rfl, rfl, rfl, rfl, rfl⟩
  · exact h

theorem startServer
    (w : World) (k : Nat) (sock : IxfdSockObj) (fd : Option Int)
    (bindOk : Bool) :
    SameConns w (w.startServer k sock fd bindOk) := by
  have hopen : w.layer.net.nextConn ≤ (openFile w.layer.net fd).nextConn := by
    cases fd with
    | none => exact le_rfl
    | some n => exact Nat.le_succ _
  have hconns : (openFile w.layer.net fd).conns = w.layer.net.conns := by
    cases fd <;> rfl
  have hstack : (openFile w.layer.net fd).stack = w.layer.net.stack := by
    cases fd <;> rfl
  unfold World.startServer
  dsimp only
  split
  · split
    · exact ⟨hconns, hstack, hopen, rfl, rfl, rfl, rfl, rfl, rfl, rfl⟩
    · split
      · exact ⟨hconns, hstack, hopen, rfl, rfl, rfl, rfl, rfl, rfl, rfl⟩
      · exact ⟨hconns, hstack, hopen, rfl, rfl, rfl, rfl, rfl, rfl, rfl⟩
  · exact ⟨rfl, rfl, le_rfl, rfl, rfl, rfl, rfl, rfl, rfl, rfl⟩

end SameConns

/-! ## Null pointers -/

theorem halted_serverDropped (w : World) (k : Nat) :
    (w.serverDropped k).halted = w.halted ∨
      (w.serverDropped k).halted = some .assertion := by
  unfold World.serverDropped World.destroyServer
  split
  · split
    · exact Or.inl rfl
    · split
      · exact Or.inl rfl
      · exact Or.inr rfl
  · exact Or.inl rfl

/-- The steps of a server follow no null pointer. -/
theorem halted_of_server
    {w v : World} {l : Label} (hmove : Move w l v) (hl : ofServer l = true) :
    v.halted = w.halted ∨ v.halted = some .assertion := by
  cases hmove with
  | construct => exact Or.inl rfl
  | register hk hfreed => exact Or.inl rfl
  | start hk hfreed hstarted hfd =>
      unfold World.startServer
      dsimp only
      split
      · split
        · exact Or.inl rfl
        · split
          · exact Or.inl rfl
          · exact Or.inr rfl
      · exact Or.inr rfl
  | closeServer hk hfreed =>
      unfold World.closeServer
      dsimp only
      split
      · exact halted_serverDropped _ _
      · exact Or.inl rfl
  | collectServer hk hfreed hhandles => exact halted_serverDropped _ _
  | _ => cases hl

/-! ## Default contexts -/

section Default

variable {w v : World} {k : Nat} {sock : IxfdSockObj}

theorem noDefault_init :
    NoDefault .init := by
  intro k sock hk
  cases hk

theorem NoDefault.congr
    (h : NoDefault w) (hsocks : v.layer.socks = w.layer.socks) :
    NoDefault v := by
  intro j other hj
  rw [hsocks] at hj
  exact h j other hj

theorem NoDefault.update
    (h : NoDefault w)
    (hsocks : v.layer.socks = Function.update w.layer.socks k (some sock))
    (hnone : sock.defaultCtx = none) :
    NoDefault v := by
  intro j other hj
  rw [hsocks] at hj
  rcases update_eq_some hj with ⟨_, rfl⟩ | ⟨_, hold⟩
  · exact hnone
  · exact h j other hold

theorem socks_free (s : Layer) (k : Nat) (sock : IxfdSockObj) :
    (ixfdCommonsockFree s k sock).socks = s.socks := by
  unfold ixfdCommonsockFree
  rcases freeDefault_cases s sock with ⟨c, ctx, _, heq⟩ | ⟨_, heq⟩
  · rw [heq]
    rfl
  · rw [heq]

theorem freedSock_free (s : Layer) (k : Nat) (sock : IxfdSockObj) :
    (ixfdCommonsockFree s k sock).freedSock =
      Function.update s.freedSock k true := by
  unfold ixfdCommonsockFree
  rcases freeDefault_cases s sock with ⟨c, ctx, _, heq⟩ | ⟨_, heq⟩
  · rw [heq]
    rfl
  · rw [heq]

theorem socks_serverDropped (w : World) (k : Nat) :
    (w.serverDropped k).layer.socks = w.layer.socks := by
  unfold World.serverDropped World.destroyServer
  split
  · split
    · rfl
    · split
      · exact socks_free ..
      · rfl
  · rfl

/-- The socket that `ixfd_commonsock_create` makes. -/
theorem socks_ixlbxTcpBase (w : World) :
    w.ixlbxTcpBase.layer.socks =
      Function.update w.layer.socks w.layer.nextSock
        (some ⟨luaSock, 0, none, .unknown, none, none, none, false⟩) := by
  simp only [World.ixlbxTcpBase, ixfdCommonsockCreate, Layer.setSock,
    Function.update_self, Function.update_idem, Option.map_some]

/-- What `start` does to the socket and to the references of a server: it fails
an assertion at once, or it binds the socket and maybe listens. -/
theorem startServer_cases
    (w : World) (k : Nat) (sock : IxfdSockObj) (fd : Option Int)
    (bindOk : Bool) :
    ((w.startServer k sock fd bindOk).layer.socks = w.layer.socks ∧
      (w.startServer k sock fd bindOk).servers = w.servers) ∨
    ∃ bound, bound.defaultCtx = sock.defaultCtx ∧
      (w.startServer k sock fd bindOk).layer.socks =
        Function.update w.layer.socks k (some bound) ∧
      ((w.startServer k sock fd bindOk).servers = w.servers ∧
          (∀ watcher, bound.eventAccept = some watcher →
            watcher.active = false) ∨
        (w.startServer k sock fd bindOk).servers =
          Function.update w.servers k (w.servers k).ref) := by
  have hsock : ∃ bound,
      (ixfdCommonsockTcpCreatenbind w.layer k sock fd bindOk).socks =
        Function.update w.layer.socks k (some bound) ∧
      bound.defaultCtx = sock.defaultCtx ∧
      ∀ watcher, bound.eventAccept = some watcher →
        watcher.active = false := by
    refine ⟨_, rfl, ?_, ?_⟩
    · cases bindOk <;> rfl
    · intro watcher haccept
      cases bindOk <;> cases haccept <;> rfl
  obtain ⟨bound, hbound, hdefault, hstopped⟩ := hsock
  have hk : (ixfdCommonsockTcpCreatenbind w.layer k sock fd bindOk).socks k =
      some bound := by
    rw [hbound, Function.update_self]
  unfold World.startServer
  dsimp only
  split
  · rw [hk]
    dsimp only
    split
    · have hlisten : (ixfdCommonsockTcpListen
          (ixfdCommonsockTcpCreatenbind w.layer k sock fd bindOk) k
          bound).socks = Function.update w.layer.socks k
            (some { bound with
              eventAccept := bound.eventAccept.map EvIo.start
              listens := true }) := by
        simp only [ixfdCommonsockTcpListen, Layer.setSock, hbound,
          Function.update_idem]
      exact Or.inr
        ⟨{ bound with
            eventAccept := bound.eventAccept.map EvIo.start
            listens := true }, hdefault, hlisten, Or.inr rfl⟩
    · exact Or.inr ⟨bound, hdefault, hbound, Or.inl ⟨rfl, hstopped⟩⟩
  · exact Or.inl ⟨rfl, rfl⟩

theorem noDefault_startServer
    (h : NoDefault w) (hk : w.layer.socks k = some sock)
    (fd : Option Int) (bindOk : Bool) :
    NoDefault (w.startServer k sock fd bindOk) := by
  rcases startServer_cases w k sock fd bindOk with
    ⟨hsocks, _⟩ | ⟨bound, hdefault, hsocks, _⟩
  · exact h.congr hsocks
  · exact h.update hsocks (hdefault.trans (h k sock hk))

theorem noDefault_unbind
    (h : NoDefault w) (hk : w.layer.socks k = some sock) :
    NoDefault { w with layer := ixfdCommonsockUnbind w.layer k sock } :=
  h.update (k := k) rfl (h k sock hk)

theorem noDefault_step
    {l : Label} (h : NoDefault w) (hmove : Move w l v) :
    NoDefault v := by
  by_cases hserver : ofServer l = true
  · cases hmove with
    | construct => exact h.update (socks_ixlbxTcpBase w) rfl
    | register hk hfreed => exact h
    | start hk hfreed hstarted hfd => exact noDefault_startServer h hk _ _
    | @closeServer k sock hk hfreed =>
        have hunbound := noDefault_unbind h hk
        unfold World.closeServer
        dsimp only
        split
        · exact hunbound.congr (socks_serverDropped _ k)
        · exact hunbound
    | collectServer hk hfreed hhandles =>
        exact h.congr (socks_serverDropped _ _)
    | _ => cases hserver
  · have hsame := sameServers_of_move hmove (Bool.not_eq_true _ ▸ hserver)
    exact h.congr hsame.socks

/-- **Frame rule**: the steps of a server leave all connections alone. -/
theorem sameConns_of_move
    {l : Label} (hmove : Move w l v) (h : NoDefault w)
    (hl : ofServer l = true) :
    SameConns w v := by
  cases hmove with
  | construct =>
      exact ⟨rfl, rfl, le_rfl, rfl, rfl, rfl, rfl, rfl, rfl, rfl⟩
  | register hk hfreed =>
      exact ⟨rfl, rfl, le_rfl, rfl, rfl, rfl, rfl, rfl, rfl, rfl⟩
  | start hk hfreed hstarted hfd => exact .startServer ..
  | @closeServer k sock hk hfreed =>
      have hunbound : SameConns w
          { w with layer := ixfdCommonsockUnbind w.layer k sock } :=
        ⟨rfl, rfl, le_rfl, rfl, rfl, rfl, rfl, rfl, rfl, rfl⟩
      have hnone := noDefault_unbind h hk
      unfold World.closeServer
      dsimp only
      split
      · have hset : SameConns w (World.setServer
            { w with layer := ixfdCommonsockUnbind w.layer k sock } k
            (w.servers k).unRef) :=
          ⟨rfl, rfl, le_rfl, rfl, rfl, rfl, rfl, rfl, rfl, rfl⟩
        exact hset.serverDropped (hnone.congr rfl) k
      · exact hunbound
  | @collectServer k sock hk hfreed hhandles =>
      have hset : SameConns w (w.setServer k (w.servers k).collect) :=
        ⟨rfl, rfl, le_rfl, rfl, rfl, rfl, rfl, rfl, rfl, rfl⟩
      exact hset.serverDropped (h.congr rfl) k
  | _ => cases hl

end Default

end LuaServer
end Iojxd
