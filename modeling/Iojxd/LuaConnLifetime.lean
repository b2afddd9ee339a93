import Iojxd.LuaConnModel
import Iojxd.SockFrames

/-!
# The last use of a connection

The end of the file drops `m_this_ref` in the `cb_close` lambda.  If Lua has
collected its handles by then, `un_ref` destroys the wrapper it is running on,
and `ixfd_commonsock_close` gets a freed context.  A run keeps clear of this if
Lua still has a handle whenever the close callback of a connection returns, and
if the last reference goes only when neither the loop nor the code on the stack
is going to use the context.  Then no recorded access is to a wrapper or context
that has been destroyed.
-/

namespace Iojxd
namespace LuaConn

open Sock TransitionRun World

/-- No access so far was to a destroyed context or wrapper. -/
def AccessesLive (w : World) : Prop :=
  ∀ a ∈ w.accesses, a.destroyed = false

/-- The watchers of the context are stopped, and no code on the stack goes on to
use it. -/
def Unused (s : Net) (c : Nat) : Prop :=
  (∀ ctx ∈ s.conns c,
    ctx.eventRead.active = false ∧ ctx.eventWrite.active = false) ∧
    ∀ frame ∈ s.stack, frame.resumes ≠ some c

/-- The context whose close callback returns. -/
def closing (w : World) : Label → Option Nat
  | .callbackReturns =>
      match w.net.stack with
      | .closeDone c :: _ => some c
      | _ => none
  | _ => none

/-- The wrapper that loses a handle or a temporary. -/
def released (w : World) : Label → Option Nat
  | .collect c => some c
  | .callbackReturns => w.held.head?.join
  | _ => none

/-- Lua has a handle to a connection that is being closed, and the last handle
or temporary of a wrapper goes when its context is unused. -/
def KeepsAlive (w : World) (l : Label) : Prop :=
  (∀ c ∈ closing w l, 0 < (w.wrappers c).handles) ∧
    ∀ c ∈ released w l, w.refs c = 1 → Unused w.net c

instance (s : Net) (c : Nat) : Decidable (Unused s c) :=
  inferInstanceAs (Decidable (_ ∧ _))

instance (w : World) (l : Label) : Decidable (KeepsAlive w l) :=
  inferInstanceAs (Decidable (_ ∧ _))

/-- Destroyed wrappers have no reference and an unused context. -/
structure Kept (w : World) : Prop where
  gone : ∀ c, (w.wrappers c).destroyed = true →
    w.refs c = 0 ∧ Unused w.net c
  live : AccessesLive w

theorem kept_init :
    Kept .init where
  gone := by simp [World.init]
  live := by simp [AccessesLive, World.init]

/-- A context that is left alone stays unused. -/
theorem Unused.spared
    {s t : Net} {d : Nat} (h : Unused s d) (hst : Spares s t d) :
    Unused t d := by
  constructor
  · rw [hst.conns]
    exact h.1
  · intro frame hframe hresumes
    exact h.2 frame (hst.stack frame hframe hresumes) hresumes

/-! ## References -/

section References

variable {w : World} {c d : Nat}

theorem refs_pos (h : 0 < (w.wrappers c).handles) :
    0 < w.refs c := by
  unfold World.refs
  omega

theorem refs_setWrapper_ne (hd : d ≠ c) (p : IxlbxSocketContext) :
    (w.setWrapper c p).refs d = w.refs d := by
  simp [World.refs, Function.update_of_ne hd]

/-- One handle less. -/
theorem refs_collect (h : 0 < (w.wrappers c).handles) :
    (w.setWrapper c
      { w.wrappers c with handles := (w.wrappers c).handles - 1 }).refs c + 1 =
        w.refs c := by
  simp only [World.refs, World.setWrapper_wrappers, Function.update_self,
    World.setWrapper_held]
  omega

/-- One temporary less. -/
theorem refs_held {held : List (Option Nat)} (h : w.held = some c :: held) :
    World.refs { w with held := held } c + 1 = w.refs c := by
  simp only [World.refs, h, List.count_cons_self]
  omega

theorem dropped_of_refs (h : 0 < w.refs c) :
    w.dropped c = w := by
  unfold World.dropped
  rw [if_neg (by omega)]

/-- The stack and all handles are the same. -/
structure SameHandles (w v : World) : Prop where
  stack : v.net.stack = w.net.stack
  handles : ∀ c, (v.wrappers c).handles = (w.wrappers c).handles

theorem SameHandles.refl (w : World) :
    SameHandles w w where
  stack := rfl
  handles _ := rfl

theorem handles_setWrapper {p : IxlbxSocketContext}
    (hp : p.handles = (w.wrappers c).handles) (d : Nat) :
    ((w.setWrapper c p).wrappers d).handles = (w.wrappers d).handles := by
  by_cases hd : d = c
  · subst hd
    simp [hp]
  · simp [Function.update_of_ne hd]

theorem sameHandles_dropped (w : World) (c : Nat) :
    SameHandles w (w.dropped c) := by
  unfold World.dropped
  split
  · exact ⟨rfl, handles_setWrapper rfl⟩
  · exact .refl w

theorem sameHandles_dropTemporary (w : World) :
    SameHandles w w.dropTemporary := by
  unfold World.dropTemporary
  split
  · rename_i c held hheld
    have hdrop := sameHandles_dropped { w with held := held } c
    exact ⟨hdrop.stack, hdrop.handles⟩
  · exact ⟨rfl, fun _ => rfl⟩
  · exact .refl w

theorem sameHandles_unRef (w : World) (c : Nat) :
    SameHandles w (w.unRef c) := by
  unfold World.unRef
  simp only
  split
  · have hset : SameHandles w ((w.touch .unRef c).setWrapper c
        { w.wrappers c with thisRef := false }) :=
      ⟨rfl, handles_setWrapper rfl⟩
    have hdrop := sameHandles_dropped ((w.touch .unRef c).setWrapper c
      { w.wrappers c with thisRef := false }) c
    exact ⟨hdrop.stack.trans hset.stack,
      fun d => (hdrop.handles d).trans (hset.handles d)⟩
  · exact ⟨rfl, fun _ => rfl⟩

end References

/-! ## Rules -/

namespace Kept

variable {w : World} {c : Nat}

theorem alive_of_refs (h : Kept w) (hc : 0 < w.refs c) :
    (w.wrappers c).destroyed = false := by
  by_contra hdead
  have hzero := (h.gone c (Bool.not_eq_false _ ▸ hdead)).1
  omega

theorem alive_of_used (h : Kept w) (hc : ¬ Unused w.net c) :
    (w.wrappers c).destroyed = false := by
  by_contra hdead
  exact hc (h.gone c (Bool.not_eq_false _ ▸ hdead)).2

theorem alive_of_handles (h : Kept w) (hc : 0 < (w.wrappers c).handles) :
    (w.wrappers c).destroyed = false :=
  h.alive_of_refs (refs_pos hc)

theorem touch
    (h : Kept w) (user : User) (hc : (w.wrappers c).destroyed = false) :
    Kept (w.touch user c) where
  gone := h.gone
  live := by
    intro a ha
    rcases List.mem_append.mp ha with hold | hnew
    · exact h.live a hold
    · rw [List.mem_singleton] at hnew
      rw [hnew]
      exact hc

/-- The connection layer acts on no destroyed wrapper. -/
theorem withNet
    (h : Kept w) {l : Sock.Label} {net : Net}
    (hnet : Sock.step luaSock w.net l = some net)
    (hacts : ∀ d, actsOn w.net l = some d →
      (w.wrappers d).destroyed = false) :
    Kept (w.withNet net) where
  gone := by
    intro d hdead
    have hgone := h.gone d hdead
    refine ⟨hgone.1, hgone.2.spared (spares_step ?_ hnet)⟩
    intro hact
    rw [World.withNet_wrappers, hacts d hact] at hdead
    cases hdead
  live := h.live

theorem setWrapper
    (h : Kept w) {p : IxlbxSocketContext} (hp : p.destroyed = false) :
    Kept (w.setWrapper c p) where
  gone := by
    intro d hdead
    by_cases hd : d = c
    · subst hd
      rw [World.setWrapper_wrappers, Function.update_self, hp] at hdead
      cases hdead
    · rw [World.setWrapper_wrappers, Function.update_of_ne hd] at hdead
      rw [refs_setWrapper_ne hd]
      exact h.gone d hdead
  live := h.live

/-- The temporaries change, and none of them is of a destroyed wrapper. -/
theorem withHeld
    (h : Kept w) {held : List (Option Nat)}
    (hheld : ∀ d, some d ∈ held →
      some d ∈ w.held ∨ (w.wrappers d).destroyed = false) :
    Kept { w with held := held } where
  gone := by
    intro d hdead
    have hgone := h.gone d hdead
    refine ⟨?_, hgone.2⟩
    have hzero : (w.wrappers d).handles + (w.wrappers d).thisRef.toNat +
        w.held.count (some d) = 0 := hgone.1
    have hout : some d ∉ held := by
      intro hd
      rcases hheld d hd with hold | halive
      · have hpos := List.count_pos_iff.mpr hold
        omega
      · change (w.wrappers d).destroyed = true at hdead
        rw [halive] at hdead
        cases hdead
    have hcount := List.count_eq_zero.mpr hout
    change (w.wrappers d).handles + (w.wrappers d).thisRef.toNat +
      held.count (some d) = 0
    omega
  live := h.live

theorem enter
    (h : Kept w) (hc : (w.wrappers c).destroyed = false) (registered : Bool) :
    Kept (w.enter c registered) := by
  unfold World.enter
  split
  · have hset := h.setWrapper (c := c) (p := { w.wrappers c with
      handles := (w.wrappers c).handles + 1 }) hc
    apply hset.withHeld
    intro d hd
    rcases List.mem_cons.mp hd with heq | hold
    · cases heq
      exact Or.inr (by simpa using hc)
    · exact Or.inl hold
  · apply h.withHeld
    intro d hd
    exact Or.inl (by simpa using hd)

theorem entering
    {net : Net} (hnet : Kept (w.withNet net))
    (hc : (w.wrappers c).destroyed = false) (registered : Bool) :
    Kept (w.entering net c registered) := by
  unfold World.entering
  split
  · exact hnet.enter hc registered
  · exact hnet

/-- At count zero the context has to be unused. -/
theorem dropped
    (h : Kept w) (hc : w.refs c = 0 → Unused w.net c) :
    Kept (w.dropped c) := by
  unfold World.dropped
  split
  · rename_i hzero
    refine ⟨?_, h.live⟩
    intro d hdead
    by_cases hd : d = c
    · subst hd
      refine ⟨?_, hc hzero⟩
      simpa [World.refs] using hzero
    · rw [World.setWrapper_wrappers, Function.update_of_ne hd] at hdead
      rw [refs_setWrapper_ne hd]
      exact h.gone d hdead
  · exact h

/-- With a handle left `un_ref` destroys nothing. -/
theorem unRef (h : Kept w) (hc : 0 < (w.wrappers c).handles) :
    Kept (w.unRef c) := by
  have halive := h.alive_of_handles hc
  have htouch := h.touch .unRef halive
  unfold World.unRef
  simp only
  split
  · have hset : Kept ((w.touch .unRef c).setWrapper c
        { w.wrappers c with thisRef := false }) := htouch.setWrapper halive
    have hrefs : 0 < ((w.touch .unRef c).setWrapper c
        { w.wrappers c with thisRef := false }).refs c := by
      apply refs_pos
      simpa using hc
    have hdrop := dropped_of_refs hrefs
    simp only [World.touch_wrappers] at hdrop ⊢
    rw [hdrop]
    exact hset.touch .unRef (hset.alive_of_refs hrefs)
  · exact htouch

end Kept

/-! ## Steps -/

section Steps

variable {w v : World}

theorem onNet_eq_some
    {l : Sock.Label} {f : Net → World} (h : onNet w l f = some v) :
    ∃ net, Sock.step luaSock w.net l = some net ∧ v = f net := by
  rcases Option.map_eq_some_iff.mp h with ⟨net, hnet, rfl⟩
  exact ⟨net, hnet, rfl⟩

theorem handles_of_reaches {c : Nat} (h : reaches w c = true) :
    0 < (w.wrappers c).handles := by
  unfold reaches at h
  rw [Bool.and_eq_true, decide_eq_true_eq] at h
  exact h.2

/-- A context with a started watcher is not unused. -/
theorem used_of_watcher
    {s : Net} {c : Nat} {ctx : IxfdConnCtx} (hc : s.conns c = some ctx)
    (hactive : ctx.eventRead.active = true ∨ ctx.eventWrite.active = true) :
    ¬ Unused s c := by
  intro h
  have hstopped := h.1 ctx hc
  rcases hactive with hread | hwrite
  · rw [hstopped.1] at hread
    cases hread
  · rw [hstopped.2] at hwrite
    cases hwrite

/-- A context that the code on top of the stack goes on to use. -/
theorem used_of_head
    {s : Net} {c : Nat} (h : s.stack.head?.bind Frame.resumes = some c) :
    ¬ Unused s c := by
  intro hunused
  rcases Option.bind_eq_some_iff.mp h with ⟨frame, hhead, hresumes⟩
  exact hunused.2 frame (List.mem_of_mem_head? hhead) hresumes

theorem draining_eq_some
    {s : Net} {c : Nat} (h : draining s = some c) :
    s.stack.head?.bind Frame.resumes = some c := by
  unfold draining at h
  split at h
  · rename_i stack hstack
    rw [hstack]
    exact h
  · cases h

theorem kept_register
    (h : Kept w) (k : Nat) (base : IxlbxTcpBase) :
    Kept { w with bases := Function.update w.bases k base } :=
  ⟨h.gone, h.live⟩

/-- The new context has a new wrapper. -/
theorem kept_accept
    (h : Kept w) {k : Nat} {fd : Int} {mallocOk : Bool} {net : Net}
    (hnet : Sock.step luaSock w.net (.accept fd mallocOk) = some net) :
    Kept (((newSocketContext
      { w with owner := Function.update w.owner w.net.nextConn k }
      w.net.nextConn).withNet net).enter w.net.nextConn true) := by
  have howner : Kept
      { w with owner := Function.update w.owner w.net.nextConn k } :=
    ⟨h.gone, h.live⟩
  have hnew := howner.setWrapper (c := w.net.nextConn)
    (p := ⟨true, 0, false⟩) rfl
  have halive : ((newSocketContext
      { w with owner := Function.update w.owner w.net.nextConn k }
      w.net.nextConn).wrappers w.net.nextConn).destroyed = false := by
    simp [newSocketContext]
  have hstep := hnew.withNet hnet (by
    rintro d ⟨⟩
    exact halive)
  exact hstep.enter halive true

theorem kept_readCb
    (h : Kept w) {c : Nat} {ret : ReadRet} {net : Net}
    (hnet : Sock.step luaSock w.net (.readReady c ret) = some net) :
    Kept (readCb w c ret net) := by
  obtain ⟨ctx, hc, hok, _⟩ := onConn_eq_some hnet
  simp only [Bool.and_eq_true] at hok
  have halive := h.alive_of_used
    (used_of_watcher hc (Or.inl hok.1.1.1.2))
  have htouch := h.touch .readCb halive
  have hacts : ∀ d, actsOn w.net (.readReady c ret) = some d →
      (w.wrappers d).destroyed = false := by
    rintro d ⟨⟩
    exact halive
  unfold readCb
  rcases ret with _ | _ | ⟨b, bs⟩
  · exact htouch.withNet hnet hacts
  · have hclose := htouch.touch .cbClose (c := c) halive
    exact Kept.entering (hclose.withNet hnet hacts) halive _
  · exact Kept.entering (htouch.withNet hnet hacts) halive _

theorem kept_write
    (h : Kept w) {c : Nat} {content : Buffer} {f args : Nat} {ret : Int}
    {net : Net} (hreaches : reaches w c = true)
    (hnet : Sock.step luaSock w.net (.write c content (some f) args ret) =
      some net) (cb : Bool) :
    Kept (w.entering net c cb) := by
  have halive := h.alive_of_handles (handles_of_reaches hreaches)
  refine Kept.entering (h.withNet hnet ?_) halive cb
  rintro d ⟨⟩
  exact halive

/-- Lua closes a connection with a handle in its hands. -/
theorem kept_close
    (h : Kept w) {c : Nat} {net : Net} (hreaches : reaches w c = true)
    (hnet : Sock.step luaSock w.net (.close c) = some net) :
    Kept (((w.touch .commonsockClose c).withNet net).unRef c) := by
  have hhandles := handles_of_reaches hreaches
  have halive := h.alive_of_handles hhandles
  have htouch := h.touch .commonsockClose halive
  have hstep : Kept ((w.touch .commonsockClose c).withNet net) := by
    refine htouch.withNet hnet ?_
    rintro d ⟨⟩
    exact halive
  exact hstep.unRef hhandles

theorem kept_collect
    (h : Kept w) {c : Nat} (hreaches : reaches w c = true)
    (hkeeps : KeepsAlive w (.collect c)) :
    Kept ((w.setWrapper c
      { w.wrappers c with handles := (w.wrappers c).handles - 1 }).dropped
        c) := by
  have hhandles := handles_of_reaches hreaches
  have hset := h.setWrapper (c := c)
    (p := { w.wrappers c with handles := (w.wrappers c).handles - 1 })
    (h.alive_of_handles hhandles)
  apply hset.dropped
  intro hzero
  have hone := refs_collect hhandles
  rw [hzero] at hone
  exact hkeeps.2 c rfl hone.symm

theorem kept_dropTemporary
    (h : Kept w) (hkeeps : KeepsAlive w .callbackReturns) :
    Kept w.dropTemporary := by
  unfold World.dropTemporary
  split
  · rename_i c held hheld
    have hpop : Kept { w with held := held } := by
      apply h.withHeld
      intro d hd
      rw [hheld]
      exact Or.inl (List.mem_cons_of_mem _ hd)
    apply hpop.dropped
    intro hzero
    have hone := refs_held hheld
    rw [hzero] at hone
    refine hkeeps.2 c ?_ hone.symm
    simp [released, hheld]
  · rename_i held hheld
    apply h.withHeld
    intro d hd
    rw [hheld]
    exact Or.inl (List.mem_cons_of_mem _ hd)
  · exact h

/-- Where `cb_close` returns, Lua has a handle left. -/
theorem kept_finishCallback
    (h : Kept w)
    (hclosing : ∀ c stack, w.net.stack = .closeDone c :: stack →
      0 < (w.wrappers c).handles) :
    Kept w.finishCallback := by
  unfold World.finishCallback
  split
  · rename_i c stack hstack
    have hhandles := hclosing c stack hstack
    have hunref := h.unRef hhandles
    apply hunref.touch .commonsockClose
    apply hunref.alive_of_handles
    rw [(sameHandles_unRef w c).handles c]
    exact hhandles
  · exact h

theorem kept_callbackReturns
    (h : Kept w) (hkeeps : KeepsAlive w .callbackReturns) {net : Net}
    (hnet : Sock.step luaSock w.dropTemporary.finishCallback.net
      .callbackReturns = some net) :
    Kept (w.dropTemporary.finishCallback.withNet net) := by
  have hsame := sameHandles_dropTemporary w
  have hfinish : Kept w.dropTemporary.finishCallback := by
    apply kept_finishCallback (kept_dropTemporary h hkeeps)
    intro c stack hstack
    rw [hsame.stack] at hstack
    rw [hsame.handles c]
    apply hkeeps.1 c
    simp [closing, hstack]
  apply hfinish.withNet hnet
  intro d hact
  exact hfinish.alive_of_used (used_of_head hact)

theorem kept_writeReady
    (h : Kept w) {c : Nat} {net : Net}
    (hnet : Sock.step luaSock w.net (.writeReady c) = some net) :
    Kept { w with net := net, held := none :: w.held } := by
  obtain ⟨ctx, hc, hok, _⟩ := onConn_eq_some hnet
  simp only [Bool.and_eq_true] at hok
  have hstep := h.withNet hnet (by
    rintro d ⟨⟩
    exact h.alive_of_used (used_of_watcher hc (Or.inr hok.1.2)))
  apply hstep.withHeld
  intro d hd
  exact Or.inl (by simpa using hd)

theorem kept_drainWrite
    (h : Kept w) {c : Nat} {ret : Int} {net : Net}
    (hdrain : draining w.net = some c)
    (hnet : Sock.step luaSock w.net (.drainWrite ret) = some net)
    (cb : Bool) :
    Kept (w.entering net c cb) := by
  have hhead := draining_eq_some hdrain
  refine Kept.entering (h.withNet hnet ?_)
    (h.alive_of_used (used_of_head hhead)) cb
  intro d hact
  exact h.alive_of_used (used_of_head hact)

theorem kept_drainEnd
    (h : Kept w) {net : Net}
    (hnet : Sock.step luaSock w.net .drainEnd = some net) :
    Kept { w with net := net, held := w.held.tail } := by
  have hstep := h.withNet hnet
    (fun d hact => h.alive_of_used (used_of_head hact))
  apply hstep.withHeld
  intro d hd
  exact Or.inl (List.mem_of_mem_tail hd)

/-- Every step keeps the invariant. -/
theorem kept_step
    {l : Label} (h : Kept w) (hkeeps : KeepsAlive w l)
    (hv : step w l = some v) :
    Kept v := by
  cases l with
  | register k base =>
      simp only [step, Option.ite_none_right_eq_some, Option.some.injEq] at hv
      rw [← hv.2]
      exact kept_register h k base
  | accept k fd mallocOk =>
      simp only [step, Option.ite_none_right_eq_some] at hv
      obtain ⟨net, hnet, rfl⟩ := onNet_eq_some hv.2
      exact kept_accept h hnet
  | readReady c ret =>
      obtain ⟨net, hnet, rfl⟩ := onNet_eq_some hv
      exact kept_readCb h hnet
  | write c content cb args ret =>
      simp only [step, Option.ite_none_right_eq_some] at hv
      obtain ⟨net, hnet, rfl⟩ := onNet_eq_some hv.2
      exact kept_write h hv.1 hnet cb
  | close c =>
      simp only [step, Option.ite_none_right_eq_some] at hv
      obtain ⟨net, hnet, rfl⟩ := onNet_eq_some hv.2
      exact kept_close h hv.1 hnet
  | collect c =>
      simp only [step, Option.ite_none_right_eq_some, Option.some.injEq] at hv
      rw [← hv.2]
      exact kept_collect h hv.1 hkeeps
  | callbackReturns =>
      obtain ⟨net, hnet, rfl⟩ := onNet_eq_some hv
      exact kept_callbackReturns h hkeeps hnet
  | writeReady c =>
      obtain ⟨net, hnet, rfl⟩ := onNet_eq_some hv
      exact kept_writeReady h hnet
  | drainWrite ret cb =>
      rcases Option.bind_eq_some_iff.mp hv with ⟨c, hdrain, hnext⟩
      obtain ⟨net, hnet, rfl⟩ := onNet_eq_some hnext
      exact kept_drainWrite h hdrain hnet cb
  | drainEnd =>
      obtain ⟨net, hnet, rfl⟩ := onNet_eq_some hv
      exact kept_drainEnd h hnet

end Steps

/-! ## Runs -/

/-- In a run whose steps keep the connections alive no function uses a
connection after its wrapper was destroyed. -/
theorem accesses_live_of_keepsAlive
    (ls : List Label)
    (hls : EveryStep step (fun w l _ => KeepsAlive w l) .init ls) :
    EveryState step AccessesLive .init ls := by
  apply (everyState_iff_everyStep kept_init.live ls).mpr
  apply everyStep_mono (I := Kept) _ kept_init hls
  intro w v l h hv hkeeps
  have hkept := kept_step h hkeeps hv
  exact ⟨hkept.live, hkept⟩

/-- Lua has collected its handle when the peer closes the connection: `un_ref`
destroys the wrapper and writes to it, and the freed context is closed. -/
theorem closed_after_last_reference :
    let ls : List Label :=
      [.register 0 ⟨true, true, false⟩, .accept 0 5 true, .callbackReturns,
        .collect 0, .readReady 0 (.data []), .callbackReturns]
    (run step .init ls).map World.accesses =
        some [⟨.readCb, 0, false⟩, ⟨.cbClose, 0, false⟩, ⟨.unRef, 0, false⟩,
          ⟨.unRef, 0, true⟩, ⟨.commonsockClose, 0, true⟩] ∧
      ¬ EveryState step AccessesLive .init ls := by
  refine refuted_of_run (by decide) ?_
  intro w haccesses hlive
  unfold AccessesLive at hlive
  rw [haccesses] at hlive
  simp at hlive

/-- The peer closes the connection, and Lua collects its handles afterwards. -/
theorem accesses_live_of_keepsAlive_collected :
    EveryState step AccessesLive .init
      [.register 0 ⟨true, true, true⟩, .accept 0 5 true, .callbackReturns,
        .readReady 0 (.data []), .collect 0, .callbackReturns,
        .collect 0] :=
  accesses_live_of_keepsAlive _ (by decide)

end LuaConn
end Iojxd
