import Iojxd.LuaServerRuns

/-!
# The last use of a server

`ixlbx_tcp_base` is released when Lua has collected its handle and `close` has
dropped `m_this_ref`, whatever becomes of the connections, which keep following
`ctx->sock`.  A run keeps clear of this if the last reference to a server goes
only when all of its connections are finished: neither the loop nor the code on
the stack is going to use them, and Lua has no handle to them.  Then no use of
`ctx->sock` is of a server that has been released.
-/

namespace Iojxd
namespace LuaServer

open Sock Socket LuaRef TransitionRun World
open LuaConn (IxlbxTcpBase luaSock draining Unused used_of_watcher used_of_head
  draining_eq_some)

/-- No use of `ctx->sock` so far was of a released server. -/
def SocksLive (w : World) : Prop :=
  ∀ u ∈ w.sockUses, u.released = false

/-- The server whose last reference goes. -/
def releases (w : World) : Label → Option Nat
  | .collectServer k =>
      if (w.servers k).collect.refs = 0 then some k else none
  | .closeServer k =>
      if (w.servers k).thisRef = true ∧ (w.servers k).unRef.refs = 0 then
        some k
      else none
  | _ => none

/-- All connections of the server are unused, and Lua has no handle to them. -/
def Finished (w : World) (k : Nat) : Prop :=
  ∀ c < w.layer.net.nextConn, w.layer.owner c = some k →
    Unused w.layer.net c ∧ (w.wrappers c).handles = 0

/-- A server is released only when its connections are finished. -/
def ReleasesFinished (w : World) (l : Label) : Prop :=
  ∀ k ∈ releases w l, Finished w k

instance (w : World) (k : Nat) : Decidable (Finished w k) :=
  inferInstanceAs (Decidable (∀ _, _ → _ → _))

instance (w : World) (l : Label) : Decidable (ReleasesFinished w l) :=
  inferInstanceAs (Decidable (∀ _, _ → _))

/-- The server of the connection has been released. -/
def Orphan (w : World) (c : Nat) : Prop :=
  ∃ k, w.layer.owner c = some k ∧ w.layer.freedSock k = true

theorem orphan_useSockOf (w : World) (c d : Nat) :
    Orphan (w.useSockOf c) d ↔ Orphan w d := by
  rw [Orphan, layer_useSockOf]
  exact Iff.rfl

theorem orphan_unRef (w : World) (c d : Nat) :
    Orphan (w.unRef c) d ↔ Orphan w d := by
  unfold World.unRef World.wrapperDropped
  split
  · split
    · split <;> exact Iff.rfl
    · exact Iff.rfl
  · exact Iff.rfl

/-- The connections of released servers are finished. -/
structure Outlived (w : World) : Prop where
  live : SocksLive w
  gone : ∀ c, Orphan w c →
    Unused w.layer.net c ∧ (w.wrappers c).handles = 0
  owned : ∀ c k, w.layer.owner c = some k → c < w.layer.net.nextConn
  met : ∀ c d, w.data c = some d → d = c

/-- A server that does not hold itself accepts nothing, and one that has been
released does not hold itself. -/
structure Quiet (w : World) : Prop where
  stopped : ∀ k sock watcher, w.layer.socks k = some sock →
    (w.servers k).thisRef = false → sock.eventAccept = some watcher →
    watcher.active = false
  freed : ∀ k, w.layer.freedSock k = true → (w.servers k).thisRef = false

/-- The accept watcher of a released server is stopped. -/
theorem Quiet.not_freed
    {w : World} (h : Quiet w) {k : Nat} {sock : IxfdSockObj} {watcher : EvIo}
    (hk : w.layer.socks k = some sock)
    (haccept : sock.eventAccept = some watcher)
    (hactive : watcher.active = true) :
    w.layer.freedSock k = false := by
  by_contra hfreed
  have hthis := h.freed k (Bool.not_eq_false _ ▸ hfreed)
  rw [h.stopped k sock watcher hk hthis haccept] at hactive
  cases hactive

theorem outlived_init :
    Outlived .init where
  live := by simp [SocksLive, World.init]
  gone := by
    rintro c ⟨k, hk, _⟩
    cases hk
  owned := by
    intro c k hk
    cases hk
  met := by
    intro c d hd
    cases hd

theorem quiet_init :
    Quiet .init where
  stopped := by
    intro k sock watcher hk
    cases hk
  freed := by
    intro k hk
    cases hk

/-! ## Rules for connections -/

namespace Outlived

variable {w : World} {c : Nat}

theorem not_orphan_of_used
    (h : Outlived w) (hc : ¬ Unused w.layer.net c) :
    ¬ Orphan w c :=
  fun horphan => hc (h.gone c horphan).1

theorem not_orphan_of_handles
    (h : Outlived w) (hc : 0 < (w.wrappers c).handles) :
    ¬ Orphan w c := by
  intro horphan
  have hzero := (h.gone c horphan).2
  omega

theorem useSockOf (h : Outlived w) (hc : ¬ Orphan w c) :
    Outlived (w.useSockOf c) := by
  unfold World.useSockOf
  split
  · exact h
  · rename_i k hk
    refine ⟨?_, h.gone, h.owned, h.met⟩
    intro u hu
    rcases List.mem_append.mp hu with hold | hnew
    · exact h.live u hold
    · rw [List.mem_singleton] at hnew
      rw [hnew]
      by_contra hfreed
      exact hc ⟨k, hk, Bool.not_eq_false _ ▸ hfreed⟩

theorem useData (h : Outlived w) (c : Nat) :
    Outlived (w.useData c) :=
  ⟨h.live, h.gone, h.owned, h.met⟩

theorem withHeld (h : Outlived w) (held : List Held) :
    Outlived { w with held := held } :=
  ⟨h.live, h.gone, h.owned, h.met⟩

/-- The connection layer acts on no connection of a released server. -/
theorem withNet
    (h : Outlived w) {l : Sock.Label} {net : Net}
    (hl : ∀ fd mallocOk, l ≠ .accept fd mallocOk)
    (hnet : Sock.step luaSock w.layer.net l = some net)
    (hacts : ∀ d, actsOn w.layer.net l = some d → ¬ Orphan w d) :
    Outlived (w.withNet net) where
  live := h.live
  gone := by
    intro d horphan
    have hgone := h.gone d horphan
    refine ⟨hgone.1.spared (spares_step ?_ hnet), hgone.2⟩
    intro hact
    exact hacts d hact horphan
  owned := by
    intro d k hd
    have hnext := nextConn_step hl hnet
    exact hnext ▸ h.owned d k hd
  met := h.met

/-- A wrapper of a released server gets no handle. -/
theorem setWrapper
    (h : Outlived w) {d : Nat} {p : IxlbxRefBase}
    (hp : Orphan w d → p.handles = 0) :
    Outlived (w.setWrapper d p) where
  live := h.live
  gone := by
    intro c horphan
    refine ⟨(h.gone c horphan).1, ?_⟩
    by_cases hcd : c = d
    · subst hcd
      rw [World.setWrapper_wrappers, Function.update_self]
      exact hp horphan
    · rw [World.setWrapper_wrappers, Function.update_of_ne hcd]
      exact (h.gone c horphan).2
  owned := h.owned
  met := h.met

/-- `ixfd_commonsock_freectx` follows no `ctx->sock`. -/
theorem wrapperDropped (h : Outlived w) (d : Nat) :
    Outlived (w.wrapperDropped d) := by
  unfold World.wrapperDropped
  split
  · split
    · exact h
    · exact ⟨h.live, h.gone, h.owned, h.met⟩
  · exact h

theorem unRef (h : Outlived w) (d : Nat) :
    Outlived (w.unRef d) := by
  unfold World.unRef
  split
  · have hset : Outlived (w.setWrapper d (w.wrappers d).unRef) :=
      h.setWrapper fun horphan => (h.gone d horphan).2
    exact hset.wrapperDropped d
  · exact h

theorem enter (h : Outlived w) (hc : ¬ Orphan w c) (registered : Bool) :
    Outlived (w.enter c registered) := by
  unfold World.enter
  split
  · split
    · exact h.withHeld _
    · rename_i d hd
      obtain rfl := h.met c d hd
      have hset : Outlived (w.setWrapper d (w.wrappers d).lend) :=
        h.setWrapper fun horphan => absurd horphan hc
      exact hset.withHeld _
  · exact h.withHeld _

theorem entering
    {net : Net} (hnet : Outlived (w.withNet net)) (hc : ¬ Orphan w c)
    (registered : Bool) :
    Outlived (w.entering net c registered) := by
  unfold World.entering
  split
  · exact hnet.enter hc registered
  · exact hnet

theorem dropTemporary (h : Outlived w) :
    Outlived w.dropTemporary := by
  unfold World.dropTemporary
  split
  · rename_i d held _
    have hset : Outlived (World.setWrapper { w with held := held } d
        (w.wrappers d).giveBack) :=
      (h.withHeld held).setWrapper fun horphan => (h.gone d horphan).2
    exact hset.wrapperDropped d
  · exact h.withHeld _
  · exact h

end Outlived

/-! ## Steps of connections -/

section Connections

variable {w v : World}

/-- A new connection leaves the others alone. -/
theorem spares_newConn
    {s t : Net} {fd : Int} {ctx : IxfdConnCtx} {c : Nat}
    (hnew : NewConn s t fd ctx) (hc : c ≠ s.nextConn) :
    Spares s t c where
  conns := by
    rw [hnew.conns, Function.update_of_ne hc]
  stack := by
    intro frame hframe hresumes
    rcases hnew.entered with ⟨_, hstack⟩ | ⟨_, hstack⟩
    · rw [hstack] at hframe
      rcases List.mem_cons.mp hframe with rfl | hold
      · cases hresumes
        exact absurd rfl hc
      · exact hold
    · rw [hstack] at hframe
      exact hframe

/-- The connection that is accepted is one of a server that exists. -/
theorem outlived_newContext
    (h : Outlived w) {k : Nat} {net : Net} {fd : Int} {ctx : IxfdConnCtx}
    (hk : w.layer.freedSock k = false)
    (hnew : NewConn w.layer.net net fd ctx) (file : Option Nat) :
    Outlived (newContext w k net file) ∧
      ¬ Orphan (newContext w k net file) w.layer.net.nextConn := by
  have howner : (newContext w k net file).layer.owner =
      Function.update w.layer.owner w.layer.net.nextConn (some k) := rfl
  have hnot : ¬ Orphan (newContext w k net file) w.layer.net.nextConn := by
    rintro ⟨j, hj, hfreed⟩
    rw [howner, Function.update_self] at hj
    cases hj
    change w.layer.freedSock k = true at hfreed
    rw [hk] at hfreed
    cases hfreed
  refine ⟨⟨?_, ?_, ?_, ?_⟩, hnot⟩
  · intro u hu
    rcases List.mem_append.mp hu with hold | hlast
    · exact h.live u hold
    · rw [List.mem_singleton] at hlast
      rw [hlast]
      exact hk
  · intro c horphan
    have hne : c ≠ w.layer.net.nextConn := by
      rintro rfl
      exact hnot horphan
    obtain ⟨j, hj, hfreed⟩ := horphan
    rw [howner, Function.update_of_ne hne] at hj
    have hgone := h.gone c ⟨j, hj, hfreed⟩
    exact ⟨hgone.1.spared (spares_newConn hnew hne), hgone.2⟩
  · intro c j hj
    change c < net.nextConn
    rw [hnew.nextConn]
    rw [howner] at hj
    rcases update_eq_some hj with ⟨rfl, _⟩ | ⟨_, hold⟩
    · exact Nat.lt_succ_self _
    · exact Nat.lt_succ_of_lt (h.owned c j hold)
  · intro c d hd
    by_cases hn : c = w.layer.net.nextConn
    · subst hn
      simp [newContext] at hd
    · simp only [newContext, Function.update_of_ne hn] at hd
      exact h.met c d hd

theorem outlived_acceptCb
    (h : Outlived w) {k : Nat} {net : Net} {fd : Int} {ctx : IxfdConnCtx}
    (hk : w.layer.freedSock k = false)
    (hnew : NewConn w.layer.net net fd ctx) (file : Option Nat) :
    Outlived (acceptCb w k net file) := by
  obtain ⟨hcontext, hnot⟩ := outlived_newContext h hk hnew file
  unfold acceptCb
  dsimp only
  split
  · have hset : Outlived ((newContext w k net file).setWrapper
        w.layer.net.nextConn (IxlbxRefBase.ref ⟨0, 0, false⟩)) :=
      hcontext.setWrapper fun _ => rfl
    have hwrapper : Outlived (newSocketContext (newContext w k net file)
        w.layer.net.nextConn) := by
      refine ⟨hset.live, hset.gone, hset.owned, ?_⟩
      intro c d hd
      rcases update_eq_some hd with ⟨rfl, rfl⟩ | ⟨_, hold⟩
      · rfl
      · exact hcontext.met c d hold
    exact hwrapper.enter hnot true
  · exact hcontext.enter hnot false

/-- `ctx->sock` is followed, and the connection is acted on. -/
theorem Outlived.useSockOf_withNet
    (h : Outlived w) {c : Nat} {l : Sock.Label} {net : Net}
    (hc : ¬ Orphan w c) (hl : ∀ fd mallocOk, l ≠ .accept fd mallocOk)
    (hnet : Sock.step luaSock w.layer.net l = some net)
    (hacts : actsOn w.layer.net l = some c) :
    Outlived ((w.useSockOf c).withNet net) := by
  have hused := h.useSockOf hc
  rw [← layer_useSockOf w c] at hnet hacts
  apply hused.withNet hl hnet
  intro d hd
  obtain rfl : c = d := Option.some.inj (hacts.symm.trans hd)
  rw [orphan_useSockOf]
  exact hc

theorem outlived_readCb
    (h : Outlived w) {c : Nat} {ret : ReadRet} {net : Net}
    (hnet : Sock.step luaSock w.layer.net (.readReady c ret) = some net) :
    Outlived (readCb w c ret net) := by
  obtain ⟨ctx, hc, hok, _⟩ := onConn_eq_some hnet
  simp only [Bool.and_eq_true] at hok
  have hlive := h.not_orphan_of_used
    (used_of_watcher hc (Or.inl hok.1.1.1.2))
  have hwith := h.useSockOf_withNet hlive (by simp) hnet rfl
  have hlive' : ¬ Orphan (w.useSockOf c) c := by
    rw [orphan_useSockOf]
    exact hlive
  have hdata : Outlived (((w.useSockOf c).useData c).withNet net) :=
    hwith.useData c
  unfold readCb
  rcases ret with _ | _ | ⟨b, bs⟩
  · exact hwith
  · exact Outlived.entering hdata hlive' _
  · exact Outlived.entering hdata hlive' _

theorem outlived_write
    (h : Outlived w) {c : Nat} {content : Buffer} {f args : Nat} {ret : Int}
    {net : Net} (hhandles : 0 < (w.wrappers c).handles)
    (hnet : Sock.step luaSock w.layer.net
      (.write c content (some f) args ret) = some net) (cb : Bool) :
    Outlived ((if startsWatcher w.layer.net c content ret then w.useSockOf c
      else w).entering net c cb) := by
  have hlive := h.not_orphan_of_handles hhandles
  split
  · have hwith := h.useSockOf_withNet hlive (by simp) hnet rfl
    refine Outlived.entering hwith ?_ cb
    rw [orphan_useSockOf]
    exact hlive
  · refine Outlived.entering (h.withNet (by simp) hnet ?_) hlive cb
    rintro d ⟨⟩
    exact hlive

/-- What `cb_close` does after Lua. -/
theorem outlived_finishCallback (h : Outlived w) :
    Outlived w.finishCallback := by
  unfold World.finishCallback
  split
  · rename_i c stack hstack
    have hlive : ¬ Orphan w c := by
      apply h.not_orphan_of_used
      apply used_of_head
      rw [hstack]
      rfl
    split
    · exact ⟨h.live, h.gone, h.owned, h.met⟩
    · rename_i d hd
      obtain rfl := h.met c d hd
      apply (h.unRef d).useSockOf
      rw [orphan_unRef]
      exact hlive
  · exact h

theorem outlived_callbackReturns
    (h : Outlived w) {net : Net}
    (hnet : Sock.step luaSock w.layer.net .callbackReturns = some net) :
    Outlived (w.withNet net) := by
  apply h.withNet (by simp) hnet
  intro d hact
  exact h.not_orphan_of_used (used_of_head hact)

/-- Steps other than those of a server. -/
theorem outlived_connection
    {l : Label} (h : Outlived w) (hquiet : Quiet w) (hmove : Move w l v)
    (hl : ofServer l = false) :
    Outlived v := by
  cases hmove with
  | accept hk haccept hactive hidle hnet =>
      obtain ⟨_, _, rfl⟩ := accept_eq_some hnet
      obtain ⟨ctx, hnew⟩ := newConn_acceptCb luaSock w.layer.net _ _
      have hfreed := hquiet.not_freed hk haccept hactive
      exact outlived_acceptCb h hfreed hnew _
  | acceptFailed hk haccept hactive hidle =>
      obtain ⟨ctx, hnew⟩ := newConn_acceptFailed luaSock w.layer.net _
      have hfreed := hquiet.not_freed hk haccept hactive
      exact outlived_acceptCb h hfreed hnew _
  | readReady hnet => exact outlived_readCb h hnet
  | write hhandles hnet => exact outlived_write h hhandles hnet _
  | close hhandles hnet =>
      have hlive := h.not_orphan_of_handles hhandles
      exact (h.useSockOf_withNet hlive (by simp) hnet rfl).unRef _
  | sock hhandles => exact h.useSockOf (h.not_orphan_of_handles hhandles)
  | @collect c hhandles =>
      have hset : Outlived (w.setWrapper c (w.wrappers c).collect) :=
        h.setWrapper fun horphan =>
          absurd horphan (h.not_orphan_of_handles hhandles)
      exact hset.wrapperDropped c
  | halts hhalted => exact outlived_finishCallback h.dropTemporary
  | callbackReturns hhalted hnet =>
      exact outlived_callbackReturns
        (outlived_finishCallback h.dropTemporary) hnet
  | @writeReady c net hnet =>
      obtain ⟨ctx, hc, hok, _⟩ := onConn_eq_some hnet
      simp only [Bool.and_eq_true] at hok
      have hlive := h.not_orphan_of_used
        (used_of_watcher hc (Or.inr hok.1.2))
      have hwith := h.withNet (by simp) hnet (by
        rintro d ⟨⟩
        exact hlive)
      exact hwith.withHeld _
  | drainWrite hdrain hnet =>
      have hhead := draining_eq_some hdrain
      refine Outlived.entering (h.withNet (by simp) hnet ?_)
        (h.not_orphan_of_used (used_of_head hhead)) _
      intro d hact
      exact h.not_orphan_of_used (used_of_head hact)
  | drainEnd hnet =>
      have hwith := h.withNet (by simp) hnet
        fun d hact => h.not_orphan_of_used (used_of_head hact)
      exact hwith.withHeld _
  | _ => cases hl

end Connections

/-! ## Steps of servers -/

section Servers

variable {w v : World} {k : Nat} {sock : IxfdSockObj}

/-- A server is released where its last reference goes. -/
theorem freed_serverDropped
    {j : Nat} (h : (w.serverDropped k).layer.freedSock j = true) :
    w.layer.freedSock j = true ∨ (j = k ∧ (w.servers k).refs = 0) := by
  unfold World.serverDropped at h
  split at h
  · rename_i hrefs
    unfold World.destroyServer at h
    split at h
    · exact Or.inl h
    · split at h
      · dsimp only at h
        rw [freedSock_free] at h
        by_cases hjk : j = k
        · exact Or.inr ⟨hjk, hrefs⟩
        · rw [Function.update_of_ne hjk] at h
          exact Or.inl h
      · exact Or.inl h
  · exact Or.inl h

theorem servers_serverDropped (w : World) (k : Nat) :
    (w.serverDropped k).servers = w.servers := by
  unfold World.serverDropped World.destroyServer
  split
  · split
    · rfl
    · split <;> rfl
  · rfl

/-- `createnbind` and `listen` release nothing. -/
theorem freed_startServer
    (w : World) (k : Nat) (sock : IxfdSockObj) (fd : Option Int)
    (bindOk : Bool) :
    (w.startServer k sock fd bindOk).layer.freedSock =
      w.layer.freedSock := by
  unfold World.startServer
  dsimp only
  split
  · split
    · rfl
    · split <;> rfl
  · rfl

/-- The steps that release a server. -/
theorem freed_of_server
    {l : Label} (hmove : Move w l v) (hl : ofServer l = true) {j : Nat}
    (hj : v.layer.freedSock j = true) :
    w.layer.freedSock j = true ∨ releases w l = some j := by
  cases hmove with
  | construct => exact Or.inl hj
  | register hk hfreed => exact Or.inl hj
  | start hk hfreed hstarted hfd =>
      rw [freed_startServer] at hj
      exact Or.inl hj
  | @closeServer k sock hk hfreed =>
      unfold World.closeServer at hj
      dsimp only at hj
      split at hj
      · rename_i hthis
        rcases freed_serverDropped hj with hold | ⟨rfl, hrefs⟩
        · exact Or.inl hold
        · rw [World.setServer_servers, Function.update_self] at hrefs
          exact Or.inr (if_pos ⟨hthis, hrefs⟩)
      · exact Or.inl hj
  | @collectServer k sock hk hfreed hhandles =>
      rcases freed_serverDropped hj with hold | ⟨rfl, hrefs⟩
      · exact Or.inl hold
      · rw [World.setServer_servers, Function.update_self] at hrefs
        exact Or.inr (if_pos hrefs)
  | _ => cases hl

/-- The connections of a server that is released are finished. -/
theorem outlived_server
    {l : Label} (h : Outlived w) (hdefault : NoDefault w)
    (hfinished : ReleasesFinished w l) (hmove : Move w l v)
    (hl : ofServer l = true) :
    Outlived v := by
  have hsame := sameConns_of_move hmove hdefault hl
  constructor
  · unfold SocksLive
    rw [hsame.sockUses]
    exact h.live
  · rintro c ⟨k, hk, hfreed⟩
    rw [hsame.owner] at hk
    have hgone : Unused w.layer.net c ∧ (w.wrappers c).handles = 0 := by
      rcases freed_of_server hmove hl hfreed with hold | hnew
      · exact h.gone c ⟨k, hk, hold⟩
      · exact hfinished k hnew c (h.owned c k hk) hk
    unfold Unused
    rw [hsame.conns, hsame.stack, hsame.wrappers]
    exact hgone
  · intro c k hk
    rw [hsame.owner] at hk
    exact (h.owned c k hk).trans_le hsame.nextConn
  · rw [hsame.data]
    exact h.met

/-! ## Accept watchers -/

theorem Quiet.dropped (h : Quiet w) (k : Nat) :
    Quiet (w.serverDropped k) where
  stopped := by
    rw [socks_serverDropped, servers_serverDropped]
    exact h.stopped
  freed := by
    intro j hj
    rw [servers_serverDropped]
    rcases freed_serverDropped hj with hold | ⟨rfl, hrefs⟩
    · exact h.freed j hold
    · exact IxlbxRefBase.thisRef_of_refs hrefs

/-- One server changes. -/
theorem Quiet.update
    (h : Quiet w)
    (hsocks : v.layer.socks = Function.update w.layer.socks k (some sock))
    (hservers : ∀ j, j ≠ k → v.servers j = w.servers j)
    (hfreed : v.layer.freedSock = w.layer.freedSock)
    (hstopped : (v.servers k).thisRef = false →
      ∀ watcher, sock.eventAccept = some watcher → watcher.active = false)
    (hk : w.layer.freedSock k = true → (v.servers k).thisRef = false) :
    Quiet v where
  stopped := by
    intro j other watcher hj hthis haccept
    rw [hsocks] at hj
    rcases update_eq_some hj with ⟨rfl, rfl⟩ | ⟨hne, hold⟩
    · exact hstopped hthis watcher haccept
    · rw [hservers j hne] at hthis
      exact h.stopped j other watcher hold hthis haccept
  freed := by
    intro j hj
    rw [hfreed] at hj
    by_cases hjk : j = k
    · subst hjk
      exact hk hj
    · rw [hservers j hjk]
      exact h.freed j hj

/-- A server that listens holds itself. -/
theorem quiet_startServer
    (h : Quiet w) (hfreed : w.layer.freedSock k = false)
    (sock : IxfdSockObj) (fd : Option Int) (bindOk : Bool) :
    Quiet (w.startServer k sock fd bindOk) := by
  have hfreed' : w.layer.freedSock k ≠ true := by simp [hfreed]
  have hsame := freed_startServer w k sock fd bindOk
  rcases startServer_cases w k sock fd bindOk with
    ⟨hsocks, hservers⟩ | ⟨bound, _, hsocks, ⟨hservers, hstopped⟩ | hservers⟩
  · constructor
    · rw [hsocks, hservers]
      exact h.stopped
    · rw [hsame, hservers]
      exact h.freed
  · exact h.update hsocks (fun j _ => congrFun hservers j) hsame
      (fun _ => hstopped) fun hk => absurd hk hfreed'
  · refine h.update hsocks ?_ hsame ?_ fun hk => absurd hk hfreed'
    · intro j hj
      rw [hservers, Function.update_of_ne hj]
    · intro hthis
      simp [hservers] at hthis

theorem quiet_closeServer
    (h : Quiet w) (hfreed : w.layer.freedSock k = false)
    (sock : IxfdSockObj) :
    Quiet (w.closeServer k sock) := by
  have hfreed' : w.layer.freedSock k ≠ true := by simp [hfreed]
  have hstopped : ∀ watcher, sock.eventAccept.map EvIo.stop = some watcher →
      watcher.active = false := by
    intro watcher hwatcher
    obtain ⟨old, _, rfl⟩ := Option.map_eq_some_iff.mp hwatcher
    rfl
  unfold World.closeServer
  dsimp only
  split
  · apply Quiet.dropped
    refine h.update (k := k) rfl ?_ rfl (fun _ => hstopped) ?_
    · intro j hj
      exact Function.update_of_ne hj _ _
    · exact fun hk => absurd hk hfreed'
  · exact h.update (k := k) rfl (fun _ _ => rfl) rfl (fun _ => hstopped)
      fun hk => absurd hk hfreed'

theorem quiet_collectServer (h : Quiet w) (k : Nat) :
    Quiet (w.collectServer k) := by
  have hthis : ∀ j, ((w.setServer k (w.servers k).collect).servers
      j).thisRef = (w.servers j).thisRef := by
    intro j
    by_cases hjk : j = k
    · subst hjk
      simp
    · simp [Function.update_of_ne hjk]
  apply Quiet.dropped
  constructor
  · intro j other watcher hj hnone haccept
    rw [hthis j] at hnone
    exact h.stopped j other watcher hj hnone haccept
  · intro j hj
    rw [hthis j]
    exact h.freed j hj

theorem quiet_step
    {l : Label} (h : Quiet w) (hmove : Move w l v) :
    Quiet v := by
  by_cases hserver : ofServer l = true
  · cases hmove with
    | construct =>
        refine h.update (socks_ixlbxTcpBase w) ?_ rfl ?_ ?_
        · intro j hj
          exact Function.update_of_ne hj _ _
        · intro _ watcher hwatcher
          cases hwatcher
        · intro _
          simp [World.ixlbxTcpBase, IxlbxRefBase.make]
    | register hk hfreed => exact ⟨h.stopped, h.freed⟩
    | start hk hfreed hstarted hfd => exact quiet_startServer h hfreed _ _ _
    | closeServer hk hfreed => exact quiet_closeServer h hfreed _
    | collectServer hk hfreed hhandles => exact quiet_collectServer h _
    | _ => cases hserver
  · have hsame := sameServers_of_move hmove (Bool.not_eq_true _ ▸ hserver)
    constructor
    · rw [hsame.socks, hsame.servers]
      exact h.stopped
    · rw [hsame.freed, hsame.servers]
      exact h.freed

end Servers

/-! ## Runs -/

/-- The connections of released servers are finished, in every reachable
state. -/
structure Lifetime (w : World) : Prop where
  outlived : Outlived w
  quiet : Quiet w
  noDefault : NoDefault w

theorem lifetime_init :
    Lifetime .init :=
  ⟨outlived_init, quiet_init, noDefault_init⟩

/-- Every step keeps the invariant. -/
theorem lifetime_step
    {w v : World} {l : Label} (h : Lifetime w)
    (hfinished : ReleasesFinished w l) (hv : step w l = some v) :
    Lifetime v := by
  have hmove := (move_of_step hv).2
  refine ⟨?_, quiet_step h.quiet hmove, noDefault_step h.noDefault hmove⟩
  cases hserver : ofServer l with
  | true => exact outlived_server h.outlived h.noDefault hfinished hmove hserver
  | false => exact outlived_connection h.outlived h.quiet hmove hserver

/-- In a run that releases servers only when their connections are finished, no
connection uses a server that has been released. -/
theorem server_outlives_connections
    (ls : List Label)
    (hls : EveryStep step (fun w l _ => ReleasesFinished w l) .init ls) :
    EveryState step SocksLive .init ls := by
  apply (everyState_iff_everyStep lifetime_init.outlived.live ls).mpr
  apply everyStep_mono (I := Lifetime) _ lifetime_init hls
  intro w v l h hv hfinished
  have hlifetime := lifetime_step h hfinished hv
  exact ⟨hlifetime.outlived.live, hlifetime⟩

/-- The peer closes a connection, Lua collects its handles and closes the
server, and its handle is collected. -/
theorem server_outlives_connections_closed :
    EveryState step SocksLive .init
      [.construct, .register 0 ⟨true, true, true⟩, .start 0 (some 3) true,
        .accept 0 5 true, .callbackReturns, .readReady 1 (.data []),
        .callbackReturns, .collect 1, .collect 1, .closeServer 0,
        .collectServer 0] :=
  server_outlives_connections _ (by decide)

/-- Lua closes the server and its handle is collected while a connection is
open: the next byte that arrives goes through `ctx->sock`. -/
theorem released_server_is_used :
    let ls : List Label :=
      [.construct, .register 0 ⟨true, true, true⟩, .start 0 (some 3) true,
        .accept 0 5 true, .callbackReturns, .closeServer 0, .collectServer 0,
        .readReady 1 (.data [7])]
    (run step .init ls).map World.sockUses =
        some [⟨0, false⟩, ⟨0, true⟩] ∧
      ¬ EveryState step SocksLive .init ls := by
  refine refuted_of_run (by decide) ?_
  intro w huses hlive
  unfold SocksLive at hlive
  rw [huses] at hlive
  simp at hlive

/-! ## The condition is needed -/

section Needed

variable {w v : World} {k c : Nat}

theorem not_socksLive_useSock
    (hk : w.layer.freedSock k = true) :
    ¬ SocksLive (w.useSock k) := by
  intro hlive
  have hnew : (⟨k, w.layer.freedSock k⟩ : SockUse) ∈
      (w.useSock k).sockUses := by
    simp
  have hfalse : w.layer.freedSock k = false := hlive _ hnew
  rw [hk] at hfalse
  cases hfalse

theorem useSockOf_eq (h : w.layer.owner c = some k) :
    w.useSockOf c = w.useSock k := by
  unfold World.useSockOf
  rw [h]

/-- A connection of a released server uses it as soon as the loop reads the
connection or Lua asks for its server. -/
theorem orphan_breaks
    (horphan : Orphan v c) (hrunning : v.halted = none)
    (hopen : reaches v c = true ∨
      ∃ net, Sock.step luaSock v.layer.net (.readReady c .error) = some net) :
    ∃ l u, step v l = some u ∧ ¬ SocksLive u := by
  obtain ⟨k, howner, hfreed⟩ := horphan
  have hbad := not_socksLive_useSock hfreed
  rcases hopen with hreaches | ⟨net, hnet⟩
  · refine ⟨.sock c, v.useSock k, ?_, hbad⟩
    simp [step, stepRunning, hrunning, hreaches, useSockOf_eq howner]
  · refine ⟨.readReady c .error, (v.useSock k).withNet net, ?_, hbad⟩
    simp [step, stepRunning, onNet, hrunning, hnet, readCb,
      useSockOf_eq howner]

/-- The last reference to a server that was started goes. -/
theorem freed_of_serverDropped
    (hrefs : (w.servers k).refs = 0) {sock : IxfdSockObj}
    (hk : w.layer.socks k = some sock)
    (hrunning : (w.serverDropped k).halted = none) :
    (w.serverDropped k).layer.freedSock k = true ∧
      (w.serverDropped k).held = w.held := by
  unfold World.serverDropped at hrunning ⊢
  rw [if_pos hrefs] at hrunning ⊢
  unfold World.destroyServer at hrunning ⊢
  rw [hk] at hrunning ⊢
  dsimp only at hrunning ⊢
  split at hrunning
  · rename_i hstarted
    rw [if_pos hstarted]
    refine ⟨?_, rfl⟩
    rw [freedSock_free, Function.update_self]
  · cases hrunning

theorem luaRuns_of_onServer
    {ok : IxfdSockObj → Bool} {f : IxfdSockObj → World}
    (h : onServer w k ok f = some v) :
    w.luaRuns = true := by
  unfold onServer at h
  split at h
  · cases h
  · split at h
    · rename_i hok
      simp only [Bool.and_eq_true] at hok
      exact hok.1.1
    · cases h

/-- A step that releases a server, with Lua running before and after. -/
theorem freed_of_releases
    {l : Label} (hv : step w l = some v) (hl : releases w l = some k)
    (hrunning : v.halted = none) :
    v.layer.freedSock k = true ∧ v.held = w.held ∧ w.luaRuns = true ∧
      ofServer l = true := by
  have hhalted := (move_of_step hv).1
  simp only [step, hhalted, Option.isSome_none, Bool.false_eq_true,
    if_false] at hv
  cases l with
  | closeServer j =>
      simp only [releases, Option.ite_none_right_eq_some,
        Option.some.injEq] at hl
      obtain ⟨⟨hthis, hrefs⟩, rfl⟩ := hl
      have hlua := luaRuns_of_onServer hv
      obtain ⟨sock, hk, _, _, rfl⟩ := onServer_eq_some hv
      simp only [World.closeServer, hthis, if_true] at hrunning ⊢
      have hfreed := freed_of_serverDropped (by simpa using hrefs)
        (Function.update_self ..) hrunning
      exact ⟨hfreed.1, hfreed.2, hlua, rfl⟩
  | collectServer j =>
      simp only [releases, Option.ite_none_right_eq_some,
        Option.some.injEq] at hl
      obtain ⟨hrefs, rfl⟩ := hl
      have hlua := luaRuns_of_onServer hv
      obtain ⟨sock, hk, _, _, rfl⟩ := onServer_eq_some hv
      have hset : (w.setServer j (w.servers j).collect).layer.socks j =
          some sock := hk
      have hfreed := freed_of_serverDropped (by simpa using hrefs) hset
        hrunning
      exact ⟨hfreed.1, hfreed.2, hlua, rfl⟩
  | _ => cases hl

/-- **The condition is needed**: if a server is released while Lua has a handle
to one of its connections, or the loop still reads one, the run can go on to a
use of the released server. -/
theorem unfinished_release_breaks
    {l : Label} (hdefault : NoDefault w) (hv : step w l = some v)
    (hl : releases w l = some k) (hrunning : v.halted = none)
    (howner : w.layer.owner c = some k)
    (hopen : 0 < (w.wrappers c).handles ∨
      ∃ net, Sock.step luaSock v.layer.net (.readReady c .error) = some net) :
    ∃ m u, step v m = some u ∧ ¬ SocksLive u := by
  obtain ⟨hfreed, hheld, hlua, hserver⟩ := freed_of_releases hv hl hrunning
  have hsame := sameConns_of_move (move_of_step hv).2 hdefault hserver
  have horphan : Orphan v c := by
    refine ⟨k, ?_, hfreed⟩
    rw [hsame.owner]
    exact howner
  apply orphan_breaks horphan hrunning
  rcases hopen with hhandles | hread
  · left
    unfold World.luaRuns at hlua
    simp only [reaches, World.luaRuns, hheld, hsame.wrappers, hlua,
      Bool.true_and]
    exact decide_eq_true hhandles
  · exact Or.inr hread

end Needed

end LuaServer
end Iojxd
