import Iojxd.SockRuns

/-!
# Watchers and flags

`write_launched` and `event_write` are changed by two functions that can run
inside each other: a completion callback of the drain loop may queue a write
while the flag is still set, and the end of the loop clears it.  The invariant
that carries the argument relates the flag to the queue and to the stack: it is
set while data is pending, and it may be set with no data only inside the
drain loop of the same context.
-/

namespace Iojxd
namespace Sock

open TransitionRun

/-! ## One context -/

/-- The flags of context `c` agree with its watchers, and pending data has a
started write watcher. -/
structure CtxAwake (stack : List Frame) (c : Nat) (ctx : IxfdConnCtx) :
    Prop where
  reading : ctx.eventRead.active = ctx.active
  launched : ctx.eventWrite.active = ctx.writeLaunched
  pending : ctx.bufWrite ≠ [] → ctx.writeLaunched = true
  drained : ctx.writeLaunched = true → ctx.bufWrite ≠ [] ∨ .drain c ∈ stack

namespace CtxAwake

variable {stack : List Frame} {c : Nat} {ctx : IxfdConnCtx}

theorem withStack
    (h : CtxAwake stack c ctx) {stack' : List Frame}
    (hstack : .drain c ∈ stack → .drain c ∈ stack') :
    CtxAwake stack' c ctx where
  reading := h.reading
  launched := h.launched
  pending := h.pending
  drained hl := (h.drained hl).imp_right hstack

/-- A change of the read side that keeps its flag and its watcher together. -/
theorem withRead
    (h : CtxAwake stack c ctx) {ctx' : IxfdConnCtx}
    (hread : ctx'.eventRead.active = ctx'.active)
    (hwrite : ctx'.eventWrite = ctx.eventWrite)
    (hflag : ctx'.writeLaunched = ctx.writeLaunched)
    (hbuf : ctx'.bufWrite = ctx.bufWrite) :
    CtxAwake stack c ctx' where
  reading := hread
  launched := by rw [hwrite, hflag, h.launched]
  pending := by
    rw [hbuf, hflag]
    exact h.pending
  drained := by
    rw [hbuf, hflag]
    exact h.drained

theorem close (h : CtxAwake stack c ctx) :
    CtxAwake stack c (closeCtx ctx) :=
  h.withRead rfl rfl rfl rfl

theorem activate (h : CtxAwake stack c ctx) :
    CtxAwake stack c (activateCtx ctx) :=
  h.withRead rfl rfl rfl rfl

theorem setBufreadLen
    (h : CtxAwake stack c ctx) (len : Nat) (mallocOk : Bool) :
    CtxAwake stack c (ixfdCommonsockSetBufreadLen ctx len mallocOk) := by
  cases mallocOk with
  | false => exact h
  | true => exact h.withRead h.reading rfl rfl rfl

theorem create
    (sock : IxfdSock) (fd : Int) (mallocOk : Bool) (stack : List Frame)
    (c : Nat) :
    CtxAwake stack c (ixfdCommonsockCreateCtx sock fd mallocOk) := by
  apply setBufreadLen
  constructor <;> simp

/-- An entry is queued and the watcher started, if it was not. -/
theorem enqueue (h : CtxAwake stack c ctx) (w : IxfdSockWriteCtx) :
    CtxAwake stack c (enqueueCtx ctx w) := by
  unfold enqueueCtx
  cases hl : ctx.writeLaunched with
  | false =>
      constructor
      · simpa using h.reading
      · simp [EvIo.start]
      · simp
      · simp
  | true =>
      have hactive := h.launched
      constructor
      · simpa using h.reading
      · simpa [hl] using hactive
      · simp
      · simp

/-- An entry shrinks. -/
theorem advance
    (h : CtxAwake stack c ctx) {w : IxfdSockWriteCtx}
    {rest : List IxfdSockWriteCtx} (hq : ctx.bufWrite = w :: rest)
    (w' : IxfdSockWriteCtx) :
    CtxAwake stack c { ctx with bufWrite := w' :: rest } where
  reading := h.reading
  launched := h.launched
  pending _ := h.pending (by simp [hq])
  drained _ := Or.inl (by simp)

/-- The drain loop takes the front entry. -/
theorem pop
    (h : CtxAwake stack c ctx) {w : IxfdSockWriteCtx}
    {rest : List IxfdSockWriteCtx} (hq : ctx.bufWrite = w :: rest)
    (hdrain : .drain c ∈ stack) :
    CtxAwake stack c { ctx with bufWrite := rest } where
  reading := h.reading
  launched := h.launched
  pending _ := h.pending (by simp [hq])
  drained _ := Or.inr hdrain

/-- The drain loop ends with an empty queue. -/
theorem quiet
    (h : CtxAwake stack c ctx) (hq : ctx.bufWrite = []) (stack' : List Frame) :
    CtxAwake stack' c (quietCtx ctx) where
  reading := h.reading
  launched := rfl
  pending hne := absurd hq hne
  drained hl := by cases hl

end CtxAwake

/-! ## All contexts -/

/-- Every context is awake. -/
def Awake (s : Net) : Prop :=
  ∀ c ctx, s.conns c = some ctx → CtxAwake s.stack c ctx

theorem awake_init :
    Awake .init := by
  intro c ctx hc
  cases hc

namespace Awake

variable {s t : Net}

/-- Only the contexts and the drain loops matter. -/
theorem congr
    (h : Awake s) (hconns : t.conns = s.conns)
    (hstack : ∀ c, .drain c ∈ s.stack → .drain c ∈ t.stack) :
    Awake t := by
  intro c ctx hc
  rw [hconns] at hc
  exact (h c ctx hc).withStack (hstack c)

theorem setConn
    (h : Awake s) {c : Nat} {ctx : IxfdConnCtx}
    (hctx : CtxAwake s.stack c ctx) :
    Awake (s.setConn c ctx) := by
  intro d x hd
  by_cases hdc : d = c
  · subst hdc
    rw [Net.setConn_conns, Function.update_self] at hd
    cases hd
    exact hctx
  · rw [Net.setConn_conns, Function.update_of_ne hdc] at hd
    exact h d x hd

theorem close
    (h : Awake s) {c : Nat} {ctx : IxfdConnCtx}
    (hc : s.conns c = some ctx) :
    Awake (ixfdCommonsockClose s c ctx) := by
  have hset := h.setConn (h c ctx hc).close
  exact hset.congr rfl fun _ hd => hd

/-- A frame other than a drain loop is left. -/
theorem pop
    (h : Awake s) {frame : Frame} {stack : List Frame}
    (hstack : s.stack = frame :: stack)
    (hframe : ∀ c, frame ≠ .drain c) :
    Awake (s.withStack stack) := by
  refine h.congr (t := s.withStack stack) rfl ?_
  intro c hd
  rw [hstack] at hd
  rcases List.mem_cons.mp hd with hd | hd
  · exact absurd hd.symm (hframe c)
  · exact hd

end Awake

/-! ## The steps -/

section Steps

variable {s : Net} {c : Nat} {ctx : IxfdConnCtx}

theorem awake_write
    (h : Awake s) (hc : s.conns c = some ctx)
    (data : Buffer) (cb : Option Nat) (args : Nat) (ret : Int) :
    Awake (ixfdCommonsockWrite s c ctx data cb args ret) := by
  by_cases hlt : toSizeT ret < data.bytes.length
  · rw [write_queued _ _ _ _ _ _ hlt]
    have hset := h.setConn ((h c ctx hc).enqueue
      (.ofCall s.calls data (toSizeT ret) hlt cb))
    exact hset.congr rfl fun _ hd => hd
  · rw [write_complete _ _ _ _ _ _ hlt]
    cases cb with
    | none => exact h.congr rfl fun _ hd => hd
    | some f => exact h.congr rfl fun _ hd => List.mem_cons_of_mem _ hd

theorem awake_writeCbIter
    (h : Awake s) (hc : s.conns c = some ctx)
    {w : IxfdSockWriteCtx} {rest : List IxfdSockWriteCtx}
    (hq : ctx.bufWrite = w :: rest) (hdrain : .drain c ∈ s.stack)
    (ret : Int) :
    Awake (ixfdCommonsockWriteCbIter s c ctx w rest ret) := by
  by_cases hlt : toSizeT ret < w.lenRemain
  · rw [writeCbIter_advanced _ _ _ _ _ hlt]
    have hset := h.setConn ((h c ctx hc).advance hq
      (w.advance (toSizeT ret) hlt))
    exact hset.congr rfl fun _ hd => hd
  · rw [writeCbIter_complete _ _ _ _ _ hlt]
    have hset := h.setConn ((h c ctx hc).pop hq hdrain)
    rcases w.cb with _ | f
    · exact hset.congr rfl fun _ hd => hd
    · exact hset.congr rfl fun _ hd => List.mem_cons_of_mem _ hd

theorem awake_acceptCb
    (sock : IxfdSock) (h : Awake s) (fd : Int) (mallocOk : Bool) :
    Awake (ixfdCommonsockAcceptCb sock s fd mallocOk) := by
  have hnew := CtxAwake.create sock fd mallocOk s.stack s.nextConn
  unfold ixfdCommonsockAcceptCb
  split
  · have hset := h.setConn hnew
    exact hset.congr rfl fun _ hd => List.mem_cons_of_mem _ hd
  · have hset := h.setConn hnew.activate
    exact hset.congr rfl fun _ hd => hd

theorem awake_readCb
    (sock : IxfdSock) (h : Awake s) (hc : s.conns c = some ctx)
    (ret : ReadRet) :
    Awake (ixfdCommonsockReadCb sock s c ctx ret) := by
  have hread : Awake (s.emit [.read c ctx.fd (s.kernel ctx.fd)]) :=
    h.congr rfl fun _ hd => hd
  unfold ixfdCommonsockReadCb
  split
  · exact h.congr rfl fun _ hd => List.mem_cons_of_mem _ hd
  · split
    · exact hread
    · split
      · exact h.congr rfl fun _ hd => List.mem_cons_of_mem _ hd
      · exact hread.close hc
    · split
      · exact h.congr rfl fun _ hd => List.mem_cons_of_mem _ hd
      · exact hread

theorem awake_afterCallback
    {t : Net} (h : Awake s) (ht : afterCallback s = some t) :
    Awake t := by
  unfold afterCallback at ht
  split at ht
  case h_1 j stack hstack =>
      cases ht
      exact (h.pop hstack (by simp)).congr rfl fun _ hd => hd
  case h_2 d j stack hstack =>
      cases ht
      exact (h.pop hstack (by simp)).congr rfl fun _ hd => hd
  case h_3 d stack hstack =>
      obtain ⟨x, hd, rfl⟩ := Option.map_eq_some_iff.mp ht
      have hpop := h.pop hstack (by simp)
      exact hpop.setConn (hpop d x hd).activate
  case h_4 d stack hstack =>
      cases ht
      exact h.pop hstack (by simp)
  case h_5 d stack hstack =>
      obtain ⟨x, hd, rfl⟩ := Option.map_eq_some_iff.mp ht
      exact (h.pop hstack (by simp)).close hd
  case h_6 => cases ht

/-- The end of the drain loop: the queue of its own context is empty there. -/
theorem awake_drainEnd
    {stack : List Frame} (h : Awake s) (hstack : s.stack = .drain c :: stack)
    (hc : s.conns c = some ctx) (hq : ctx.bufWrite = []) :
    Awake ((s.withStack stack).setConn c (quietCtx ctx)) := by
  intro d x hd
  by_cases hdc : d = c
  · subst hdc
    rw [Net.setConn_conns, Function.update_self] at hd
    cases hd
    exact (h d ctx hc).quiet hq _
  · rw [Net.setConn_conns, Function.update_of_ne hdc] at hd
    apply (h d x hd).withStack
    intro hmem
    rw [hstack] at hmem
    rcases List.mem_cons.mp hmem with hmem | hmem
    · cases hmem
      exact absurd rfl hdc
    · exact hmem

/-- **Step lemma**: every step keeps all contexts awake. -/
theorem awake_step
    {sock : IxfdSock} {t : Net} {l : Label}
    (h : Awake s) (ht : step sock s l = some t) :
    Awake t := by
  cases l with
  | write d data cb args ret =>
      obtain ⟨x, hd, _, rfl⟩ := onConn_eq_some ht
      exact awake_write h hd data cb args ret
  | read d len ret =>
      obtain ⟨x, hd, _, rfl⟩ := onConn_eq_some ht
      have hread : Awake (s.emit [.read d x.fd (s.kernel x.fd)]) :=
        h.congr rfl fun _ hd => hd
      unfold ixfdCommonsockRead
      split
      · exact hread.close hd
      · exact hread
  | close d =>
      obtain ⟨x, hd, _, rfl⟩ := onConn_eq_some ht
      exact h.close hd
  | setBufreadLen d len mallocOk =>
      obtain ⟨x, hd, _, rfl⟩ := onConn_eq_some ht
      exact h.setConn ((h d x hd).setBufreadLen len mallocOk)
  | callbackReturns => exact awake_afterCallback h ht
  | accept fd mallocOk =>
      obtain ⟨_, _, rfl⟩ := accept_eq_some ht
      exact awake_acceptCb sock h fd mallocOk
  | readReady d ret =>
      obtain ⟨x, hd, _, rfl⟩ := onConn_eq_some ht
      exact awake_readCb sock h hd ret
  | writeReady d =>
      obtain ⟨x, _, _, rfl⟩ := onConn_eq_some ht
      exact h.congr rfl fun _ hd => List.mem_cons_of_mem _ hd
  | drainWrite ret =>
      obtain ⟨d, stack, x, w, rest, hstack, hd, hq, _, rfl⟩ :=
        drainWrite_eq_some ht
      exact awake_writeCbIter h hd hq (by simp [hstack]) ret
  | drainEnd =>
      obtain ⟨d, stack, x, hstack, hd, hq, rfl⟩ := drainEnd_eq_some ht
      exact awake_drainEnd h hstack hd hq

end Steps

/-- **No pending data without a wake-up**: in every state between events, for
every context, `write_launched` is set exactly when `event_write` is started,
and that exactly when `buf_write` is not empty. -/
theorem wakes_up_when_pending (sock : IxfdSock) (ls : List Label) :
    EveryState (step sock)
      (fun s => s.stack = [] → ∀ c ctx, s.conns c = some ctx →
        (ctx.writeLaunched = true ↔ ctx.eventWrite.active = true) ∧
          (ctx.eventWrite.active = true ↔ ctx.bufWrite ≠ []))
      .init ls := by
  intro pre _ t hrun hidle c ctx hc
  have hawake : Awake t :=
    run_invariant (fun _ _ _ h ht => awake_step h ht) awake_init hrun
  have hctx := hawake c ctx hc
  rw [hctx.launched]
  refine ⟨Iff.rfl, ?_, hctx.pending⟩
  intro hl
  rcases hctx.drained hl with hne | hdrain
  · exact hne
  · rw [hidle] at hdrain
    cases hdrain

end Sock
end Iojxd
