import Iojxd.LuaServerRuns

/-!
# The assertions behind a server

`ixfd_commonsock_tcp_listen` asserts that the socket is bound and that its
number is not zero, and `ixfd_commonsock_free` that it has had a watcher.
`ixlbx_tcp_base` checks neither: `start` listens whatever became of `bind(2)`,
and the destructor frees a socket that was never started.
-/

namespace Iojxd
namespace LuaServer

open Sock Socket LuaRef TransitionRun World
open LuaConn (luaSock)

/-- No assertion of `sock.cxx` has failed. -/
def NoAssertion (w : World) : Prop :=
  w.halted ≠ some .assertion

/-- A server that is started gets a socket number other than zero and is bound,
and the handle of a server is collected only after `start`. -/
def StartsWell (w : World) : Label → Prop
  | .start _ fd bindOk => fd ≠ some 0 ∧ bindOk = true
  | .collectServer k => w.started k = true
  | _ => True

instance (w : World) (l : Label) : Decidable (StartsWell w l) := by
  unfold StartsWell
  split <;> infer_instance

/-- A server before and after its start. -/
structure ServerOk (w : World) (k : Nat) (sock : IxfdSockObj) : Prop where
  fresh : w.started k = false → sock.type = .unknown ∧
    sock.eventAccept = none ∧ sock.eventConnect = none ∧
    (w.servers k).thisRef = false
  listening : w.started k = true → sock.eventAccept.isSome = true
  handles : (w.servers k).handles ≤ 1
  temporaries : (w.servers k).temporaries = 0

def ServersOk (w : World) : Prop :=
  ∀ k sock, w.layer.socks k = some sock → ServerOk w k sock

theorem serversOk_init :
    ServersOk .init := by
  intro k sock hk
  cases hk

section Steps

variable {w v : World} {k : Nat} {sock : IxfdSockObj}

/-- A server is a function of its socket, its references and its start. -/
theorem ServerOk.congr
    (h : ServerOk w k sock) (hservers : v.servers k = w.servers k)
    (hstarted : v.started k = w.started k) :
    ServerOk v k sock where
  fresh := by
    rw [hservers, hstarted]
    exact h.fresh
  listening := by
    rw [hstarted]
    exact h.listening
  handles := by
    rw [hservers]
    exact h.handles
  temporaries := by
    rw [hservers]
    exact h.temporaries

theorem serversOk_same
    (h : ServersOk w) (hsame : SameServers w v) :
    ServersOk v := by
  intro j sock hj
  rw [hsame.socks] at hj
  exact (h j sock hj).congr (congrFun hsame.servers j)
    (congrFun hsame.started j)

/-- One server changes. -/
theorem ServersOk.update
    (h : ServersOk w)
    (hsocks : v.layer.socks = Function.update w.layer.socks k (some sock))
    (hservers : ∀ j, j ≠ k → v.servers j = w.servers j)
    (hstarted : ∀ j, j ≠ k → v.started j = w.started j)
    (hk : ServerOk v k sock) :
    ServersOk v := by
  intro j other hj
  rw [hsocks] at hj
  rcases update_eq_some hj with ⟨rfl, rfl⟩ | ⟨hne, hold⟩
  · exact hk
  · exact (h j other hold).congr (hservers j hne) (hstarted j hne)

/-- The destructor of a server that was started. -/
theorem destroyServer_started
    (hk : w.layer.socks k = some sock)
    (haccept : sock.eventAccept.isSome = true) :
    w.destroyServer k =
      { w with layer := ixfdCommonsockFree w.layer k sock } := by
  simp [World.destroyServer, hk, haccept]

/-- The destructor of a server that was never started. -/
theorem destroyServer_fresh
    (hk : w.layer.socks k = some sock)
    (haccept : sock.eventAccept = none) (hconnect : sock.eventConnect = none) :
    w.destroyServer k = w.halt .assertion := by
  simp [World.destroyServer, hk, haccept, hconnect]

/-- Whether the last reference goes or not, a server that was started stays
as it is. -/
theorem serversOk_dropped
    (h : ServersOk w) (hk : w.layer.socks k = some sock)
    (haccept : sock.eventAccept.isSome = true) :
    (w.serverDropped k).halted = w.halted ∧
      ServersOk (w.serverDropped k) := by
  unfold World.serverDropped
  split
  · rw [destroyServer_started hk haccept]
    refine ⟨rfl, ?_⟩
    intro j other hj
    change (ixfdCommonsockFree w.layer k sock).socks j = some other at hj
    rw [socks_free] at hj
    exact (h j other hj).congr rfl rfl
  · exact ⟨rfl, h⟩

/-- `start` on a server that is bound to a number other than zero. -/
theorem startServer_ok
    (h : ServersOk w) (hk : w.layer.socks k = some sock)
    (hstarted : w.started k = false) {fd : Option Int} {bindOk : Bool}
    (hfd : (!bindOk || fd.isSome) = true)
    (hwell : fd ≠ some 0 ∧ bindOk = true) :
    (w.startServer k sock fd bindOk).halted = w.halted ∧
      ServersOk (w.startServer k sock fd bindOk) := by
  have hserver := h k sock hk
  have htype := (hserver.fresh hstarted).1
  obtain ⟨hne, rfl⟩ := hwell
  rcases fd with _ | n
  · cases hfd
  have hn : n ≠ 0 := by
    rintro rfl
    exact hne rfl
  unfold World.startServer
  simp only [htype, ixfdCommonsockTcpCreatenbind, Layer.setSock,
    IxfdSockObj.opened, Option.getD_some, Option.map_some, if_true,
    Function.update_self, hn, ne_eq, not_false_eq_true, and_self]
  refine ⟨rfl, ?_⟩
  apply h.update (k := k)
  · simp only [ixfdCommonsockTcpListen, Layer.setSock, Function.update_idem]
    rfl
  · intro j hj
    exact Function.update_of_ne hj _ _
  · intro j hj
    exact Function.update_of_ne hj _ _
  · constructor
    · intro hfresh
      simp at hfresh
    · intro _
      rfl
    · simpa using hserver.handles
    · simpa using hserver.temporaries

/-- Otherwise it ends in an assertion. -/
theorem startServer_fails
    (h : ServersOk w) (hk : w.layer.socks k = some sock)
    (hstarted : w.started k = false) {fd : Option Int} {bindOk : Bool}
    (hwell : ¬ (fd ≠ some 0 ∧ bindOk = true)) :
    (w.startServer k sock fd bindOk).halted = some .assertion := by
  have htype := ((h k sock hk).fresh hstarted).1
  unfold World.startServer
  simp only [htype, ixfdCommonsockTcpCreatenbind, Layer.setSock,
    if_true, Function.update_self]
  rw [if_neg]
  · rfl
  · rintro ⟨htcp, hnumber⟩
    cases bindOk with
    | false => simp [IxfdSockObj.opened, htype] at htcp
    | true =>
        apply hwell
        refine ⟨?_, rfl⟩
        rintro rfl
        simp [IxfdSockObj.opened] at hnumber

theorem closeServer_ok
    (h : ServersOk w) (hk : w.layer.socks k = some sock) :
    (w.closeServer k sock).halted = w.halted ∧
      ServersOk (w.closeServer k sock) := by
  have hserver := h k sock hk
  have hunbound : ServersOk
      { w with layer := ixfdCommonsockUnbind w.layer k sock } := by
    refine ServersOk.update (k := k) h rfl (fun _ _ => rfl) (fun _ _ => rfl) ?_
    constructor
    · intro hfresh
      obtain ⟨htype, haccept, hconnect, hthis⟩ := hserver.fresh hfresh
      exact ⟨htype, by simp [haccept], hconnect, hthis⟩
    · intro hstarted
      simpa using hserver.listening hstarted
    · exact hserver.handles
    · exact hserver.temporaries
  unfold World.closeServer
  simp only
  split
  · rename_i hthis
    have hstarted : w.started k = true := by
      cases hs : w.started k with
      | true => rfl
      | false =>
          rw [(hserver.fresh hs).2.2.2] at hthis
          cases hthis
    have hclosed : ServersOk
        (World.setServer { w with layer := ixfdCommonsockUnbind w.layer k sock }
          k (w.servers k).unRef) := by
      refine ServersOk.update (k := k) h rfl ?_ (fun _ _ => rfl) ?_
      · intro j hj
        exact Function.update_of_ne hj _ _
      · constructor
        · intro hfresh
          change w.started k = false at hfresh
          rw [hstarted] at hfresh
          cases hfresh
        · intro _
          simpa using hserver.listening hstarted
        · simpa using hserver.handles
        · simpa using hserver.temporaries
    have hdropped := serversOk_dropped (k := k) hclosed
      (Function.update_self ..)
      (by simpa using hserver.listening hstarted)
    exact hdropped
  · exact ⟨rfl, hunbound⟩

/-- The handle of a server that was started is collected. -/
theorem collectServer_ok
    (h : ServersOk w) (hk : w.layer.socks k = some sock)
    (hstarted : w.started k = true) :
    (w.collectServer k).halted = w.halted ∧
      ServersOk (w.collectServer k) := by
  have hserver := h k sock hk
  have hcollected : ServersOk (w.setServer k (w.servers k).collect) := by
    intro j other hj
    by_cases hjk : j = k
    · subst hjk
      obtain rfl : sock = other := Option.some.inj (hk.symm.trans hj)
      constructor
      · intro hfresh
        change w.started j = false at hfresh
        rw [hstarted] at hfresh
        cases hfresh
      · exact hserver.listening
      · have := hserver.handles
        simp
        omega
      · simpa using hserver.temporaries
    · exact (h j other hj).congr (Function.update_of_ne hjk _ _) rfl
  exact serversOk_dropped hcollected hk (hserver.listening hstarted)

/-- The only handle of a server that was never started is collected. -/
theorem collectServer_fails
    (h : ServersOk w) (hk : w.layer.socks k = some sock)
    (hfresh : w.started k = false) :
    (w.collectServer k).halted = some .assertion := by
  have hserver := h k sock hk
  obtain ⟨_, haccept, hconnect, hthis⟩ := hserver.fresh hfresh
  have hzero : ((w.setServer k (w.servers k).collect).servers k).refs = 0 := by
    have hhandles := hserver.handles
    simp only [setServer_servers, Function.update_self, IxlbxRefBase.refs,
      IxlbxRefBase.collect_handles, IxlbxRefBase.collect_temporaries,
      IxlbxRefBase.collect_thisRef, hserver.temporaries, hthis,
      Bool.toNat_false]
    omega
  have hk' : (w.setServer k (w.servers k).collect).layer.socks k =
      some sock := hk
  unfold World.collectServer World.serverDropped
  rw [if_pos hzero, destroyServer_fresh hk' haccept hconnect]
  rfl

/-- A new server. -/
theorem ixlbxTcpBase_ok (h : ServersOk w) :
    ServersOk w.ixlbxTcpBase := by
  refine ServersOk.update h (socks_ixlbxTcpBase w) ?_ ?_ ?_
  · intro j hj
    exact Function.update_of_ne hj _ _
  · intro j hj
    exact Function.update_of_ne hj _ _
  · constructor
    · intro _
      refine ⟨rfl, rfl, rfl, ?_⟩
      simp [World.ixlbxTcpBase, IxlbxRefBase.make]
    · intro hstarted
      simp [World.ixlbxTcpBase] at hstarted
    · simp [World.ixlbxTcpBase, IxlbxRefBase.make]
    · simp [World.ixlbxTcpBase, IxlbxRefBase.make]

/-- A step fails an assertion exactly if it does not start well. -/
theorem noAssertion_step_iff
    {l : Label} (h : ServersOk w) (hv : step w l = some v) :
    (NoAssertion v ↔ StartsWell w l) ∧ (NoAssertion v → ServersOk v) := by
  obtain ⟨hrunning, hmove⟩ := move_of_step hv
  have hgood : StartsWell w l → v.halted = w.halted ∧ ServersOk v →
      (NoAssertion v ↔ StartsWell w l) ∧ (NoAssertion v → ServersOk v) := by
    rintro hwell ⟨hhalted, hok⟩
    refine ⟨iff_of_true ?_ hwell, fun _ => hok⟩
    rw [NoAssertion, hhalted, hrunning]
    simp
  have hbad : ¬ StartsWell w l → v.halted = some .assertion →
      (NoAssertion v ↔ StartsWell w l) ∧ (NoAssertion v → ServersOk v) := by
    intro hwell hhalted
    have hnot : ¬ NoAssertion v := fun hno => hno hhalted
    exact ⟨iff_of_false hnot hwell, fun hno => absurd hno hnot⟩
  by_cases hserver : ofServer l = true
  · cases hmove with
    | construct => exact hgood trivial ⟨rfl, ixlbxTcpBase_ok h⟩
    | register hk hfreed =>
        exact hgood trivial
          ⟨rfl, fun j other hj => (h j other hj).congr rfl rfl⟩
    | @start k sock fd bindOk hk hfreed hstarted hfd =>
        by_cases hwell : fd ≠ some 0 ∧ bindOk = true
        · exact hgood hwell (startServer_ok h hk hstarted hfd hwell)
        · exact hbad hwell (startServer_fails h hk hstarted hwell)
    | closeServer hk hfreed => exact hgood trivial (closeServer_ok h hk)
    | @collectServer k sock hk hfreed hhandles =>
        cases hstarted : w.started k with
        | true => exact hgood hstarted (collectServer_ok h hk hstarted)
        | false =>
            apply hbad _ (collectServer_fails h hk hstarted)
            simp [StartsWell, hstarted]
    | _ => cases hserver
  · have hsame := sameServers_of_move hmove (Bool.not_eq_true _ ▸ hserver)
    have hwell : StartsWell w l := by
      cases l <;> trivial
    refine ⟨iff_of_true ?_ hwell, fun _ => serversOk_same h hsame⟩
    rcases hsame.halted with hhalted | hhalted
    · rw [NoAssertion, hhalted, hrunning]
      simp
    · rw [NoAssertion, hhalted]
      simp

end Steps

/-- **No assertion fails** in a run exactly if every server is bound to a number
other than zero when it is started, and started before its handle is
collected. -/
theorem lifecycle_asserts_iff (ls : List Label) :
    EveryState step NoAssertion .init ls ↔
      EveryStep step (fun w l _ => StartsWell w l) .init ls := by
  rw [everyState_iff_everyStep (by simp [NoAssertion, World.init])]
  apply everyStep_congr (I := ServersOk) _ _ serversOk_init
  · exact fun w v l _ h hv => (noAssertion_step_iff h hv).1
  · exact fun w v l _ h hv hno => (noAssertion_step_iff h hv).2 hno

/-- The address is in use; and a server is collected before its start. -/
theorem lifecycle_asserts_fail :
    ((run step .init [.construct, .start 0 (some 3) false]).map World.halted =
        some (some .assertion) ∧
      ¬ EveryState step NoAssertion .init
        [.construct, .start 0 (some 3) false]) ∧
    (run step .init [.construct, .collectServer 0]).map World.halted =
        some (some .assertion) ∧
      ¬ EveryState step NoAssertion .init [.construct, .collectServer 0] := by
  constructor
  · exact refuted_of_run (by decide) fun w hhalted hno => hno hhalted
  · exact refuted_of_run (by decide) fun w hhalted hno => hno hhalted

end LuaServer
end Iojxd
