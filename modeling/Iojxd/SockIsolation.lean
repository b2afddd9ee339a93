import Iojxd.LuaValue
import Iojxd.SockRuns

/-!
# Isolation of connections

After `ixfd_commonsock_close` no system call is issued for the context any more,
and every call reaches the connection that the context was made for.

`ixfd_commonsock_close` stops the read watcher and leaves the write watcher and
the queue as they are.  Isolation is therefore kept by runs in which a context
is closed only when its queue is empty, outside its accept callback, and in
which the application does not use a context after it was closed.  And
`write_cb` must finish no entry: it frees the context then, goes on with it, and
the next connection may get its storage.
-/

namespace Iojxd
namespace Sock

open TransitionRun

/-- The context that an effect closes. -/
def Effect.closes : Effect → Option Nat
  | .close c _ => some c
  | _ => none

/-- The context of a `read(2)` or `write(2)`, and the connection it reaches. -/
def Effect.io : Effect → Option (Nat × Option Nat)
  | .write c _ _ peer _ _ => some (c, peer)
  | .read c _ peer => some (c, peer)
  | _ => none

/-- `ixfd_commonsock_close` has run for the context. -/
def Closed (s : Net) (c : Nat) : Prop :=
  ∃ x ∈ s.log, x.closes = some c

instance (s : Net) (c : Nat) : Decidable (Closed s c) :=
  inferInstanceAs (Decidable (∃ x ∈ s.log, x.closes = some c))

/-- No system call for a context follows its close, and every system call for a
context reaches the connection of that context. -/
structure Isolated (log : List Effect) : Prop where
  quiet : log.Pairwise fun x y =>
    ∀ c peer, x.closes = some c → y.io ≠ some (c, peer)
  own : ∀ x ∈ log, ∀ c peer, x.io = some (c, peer) → peer = some c

/-- The context that the application passes to a read or a write. -/
def usedBy : Label → Option Nat
  | .write c _ _ _ _ => some c
  | .read c _ _ => some c
  | _ => none

/-- The context that a step closes. -/
def closedBy (sock : IxfdSock) (s : Net) : Label → Option Nat
  | .close c => some c
  | .read c _ (.data []) => some c
  | .readReady c (.data []) =>
      if sock.passiveRead || sock.cbClose then none else some c
  | .callbackReturns =>
      match s.stack with
      | .closeDone c :: _ => some c
      | _ => none
  | _ => none

/-- Nothing is pending on the context and its accept callback is over; or it
was closed before and its number has no new owner. -/
def MayClose (s : Net) (c : Nat) : Prop :=
  ∀ ctx, s.conns c = some ctx →
    (¬ Closed s c ∧ ctx.bufWrite = [] ∧ .acceptDone c ∉ s.stack) ∨
      (Closed s c ∧ s.kernel ctx.fd = none)

/-- Closed contexts are not used, and contexts are closed when they may be. -/
def ClosesSafely (sock : IxfdSock) (s : Net) (l : Label) : Prop :=
  (∀ c, usedBy l = some c → ¬ Closed s c) ∧
    ∀ c, closedBy sock s l = some c → MayClose s c

/-- Contexts are closed safely, and none is freed by `write_cb`. -/
def KeepsApart (sock : IxfdSock) (s : Net) (l : Label) : Prop :=
  ClosesSafely sock s l ∧ finishes s l = false

/-- What holds between closes. -/
structure Separate (s : Net) : Prop where
  known : Known s
  closedLt : ∀ c, Closed s c → c < s.nextConn
  own : ∀ c ctx, s.conns c = some ctx →
    ¬ Closed s c → s.kernel ctx.fd = some c
  reading : ∀ c ctx, s.conns c = some ctx →
    ctx.eventRead.active = true → ¬ Closed s c
  queued : ∀ c ctx, s.conns c = some ctx →
    ctx.bufWrite ≠ [] → ¬ Closed s c
  accepting : ∀ c, .acceptDone c ∈ s.stack → ¬ Closed s c
  isolated : Isolated s.log

theorem separate_init :
    Separate .init where
  known := known_init
  closedLt := by simp [Closed, Net.init]
  own := by simp [Net.init]
  reading := by simp [Net.init]
  queued := by simp [Net.init]
  accepting := by simp [Net.init]
  isolated := ⟨List.Pairwise.nil, by simp [Net.init]⟩

/-! ## Steps that open and close nothing -/

/-- An effect that closes nothing and stays on its own connection. -/
def OwnEffect (s : Net) (x : Effect) : Prop :=
  x.closes = none ∧
    ∀ c peer, x.io = some (c, peer) → ¬ Closed s c ∧ peer = some c

/-- Contexts that read or queue only where they did before or are open. -/
def OpenConns (s : Net) (conns : Nat → Option IxfdConnCtx) : Prop :=
  ∀ d ctx', conns d = some ctx' →
    ∃ ctx, s.conns d = some ctx ∧ ctx'.fd = ctx.fd ∧
      (ctx'.eventRead.active = true →
        ctx.eventRead.active = true ∨ ¬ Closed s d) ∧
      (ctx'.bufWrite ≠ [] → ctx.bufWrite ≠ [] ∨ ¬ Closed s d)

structure OpenStep (s t : Net) : Prop where
  conns : OpenConns s t.conns
  kernel : t.kernel = s.kernel
  nextConn : t.nextConn = s.nextConn
  stack : ∀ c, .acceptDone c ∈ t.stack → .acceptDone c ∈ s.stack
  log : ∃ es, t.log = s.log ++ es ∧ ∀ x ∈ es, OwnEffect s x

theorem openConns_same (s : Net) :
    OpenConns s s.conns := by
  intro d ctx hd
  exact ⟨ctx, hd, rfl, Or.inl, Or.inl⟩

theorem openConns_update
    {s : Net} {c : Nat} {ctx ctx' : IxfdConnCtx}
    (hc : s.conns c = some ctx)
    (hfd : ctx'.fd = ctx.fd)
    (hread : ctx'.eventRead.active = true →
      ctx.eventRead.active = true ∨ ¬ Closed s c)
    (hbuf : ctx'.bufWrite ≠ [] → ctx.bufWrite ≠ [] ∨ ¬ Closed s c) :
    OpenConns s (Function.update s.conns c (some ctx')) := by
  intro d x' hx'
  by_cases hd : d = c
  · subst hd
    rw [Function.update_self] at hx'
    cases hx'
    exact ⟨ctx, hc, hfd, hread, hbuf⟩
  · rw [Function.update_of_ne hd] at hx'
    exact openConns_same s d x' hx'

section OpenRules

variable {s m : Net}

theorem OpenStep.refl (s : Net) :
    OpenStep s s where
  conns := openConns_same s
  kernel := rfl
  nextConn := rfl
  stack _ hd := hd
  log := ⟨[], by simp, by simp⟩

theorem OpenStep.emit
    (h : OpenStep s m) {es : List Effect} (hes : ∀ x ∈ es, OwnEffect s x) :
    OpenStep s (m.emit es) where
  conns := h.conns
  kernel := h.kernel
  nextConn := h.nextConn
  stack := h.stack
  log := by
    rcases h.log with ⟨es₀, hlog, hes₀⟩
    refine ⟨es₀ ++ es, ?_, List.forall_mem_append.mpr ⟨hes₀, hes⟩⟩
    rw [Net.emit_log, hlog, List.append_assoc]

theorem OpenStep.withStack
    (h : OpenStep s m) {stack : List Frame}
    (hstack : ∀ d, .acceptDone d ∈ stack → .acceptDone d ∈ s.stack) :
    OpenStep s (m.withStack stack) where
  conns := h.conns
  kernel := h.kernel
  nextConn := h.nextConn
  stack := hstack
  log := h.log

/-- One context changes, and its watchers and its queue as `OpenConns` asks. -/
theorem OpenStep.setConn
    (h : OpenStep s m) (hm : m.conns = s.conns)
    {c : Nat} {ctx ctx' : IxfdConnCtx}
    (hc : s.conns c = some ctx)
    (hfd : ctx'.fd = ctx.fd)
    (hread : ctx'.eventRead.active = true →
      ctx.eventRead.active = true ∨ ¬ Closed s c)
    (hbuf : ctx'.bufWrite ≠ [] → ctx.bufWrite ≠ [] ∨ ¬ Closed s c) :
    OpenStep s (m.setConn c ctx') where
  conns := by
    change OpenConns s (Function.update m.conns c (some ctx'))
    rw [hm]
    exact openConns_update hc hfd hread hbuf
  kernel := h.kernel
  nextConn := h.nextConn
  stack := h.stack
  log := h.log

/-- The running callback is left. -/
theorem openStep_pop
    {frame : Frame} {stack : List Frame} (hstack : s.stack = frame :: stack) :
    OpenStep s (s.withStack stack) := by
  apply (OpenStep.refl s).withStack
  intro d hd
  rw [hstack]
  exact List.mem_cons_of_mem _ hd

end OpenRules

theorem closed_append
    {s t : Net} {es : List Effect} (hlog : t.log = s.log ++ es)
    (hes : ∀ x ∈ es, x.closes = none) (c : Nat) :
    Closed t c ↔ Closed s c := by
  unfold Closed
  rw [hlog]
  constructor
  · rintro ⟨x, hx, hcl⟩
    rcases List.mem_append.mp hx with hx | hx
    · exact ⟨x, hx, hcl⟩
    · rw [hes x hx] at hcl
      cases hcl
  · rintro ⟨x, hx, hcl⟩
    exact ⟨x, List.mem_append_left _ hx, hcl⟩

theorem isolated_append
    {s : Net} {es : List Effect} (h : Isolated s.log)
    (hes : ∀ x ∈ es, OwnEffect s x) :
    Isolated (s.log ++ es) where
  quiet := by
    apply List.pairwise_append.mpr
    refine ⟨h.quiet, ?_, ?_⟩
    · apply List.pairwise_of_forall_mem_list
      intro x hx y _ c peer hcl
      rw [(hes x hx).1] at hcl
      cases hcl
    · intro x hx y hy c peer hcl hio
      exact ((hes y hy).2 c peer hio).1 ⟨x, hx, hcl⟩
  own := by
    intro x hx c peer hio
    rcases List.mem_append.mp hx with hx | hx
    · exact h.own x hx c peer hio
    · exact ((hes x hx).2 c peer hio).2

/-- Such a step keeps the connections separate. -/
theorem Separate.openStep
    {s t : Net} (h : Separate s) (ht : OpenStep s t) :
    Separate t := by
  rcases ht.log with ⟨es, hlog, hes⟩
  have hclosed : ∀ c, Closed t c ↔ Closed s c :=
    closed_append hlog fun x hx => (hes x hx).1
  constructor
  case known =>
      intro c hc
      cases hd : t.conns c with
      | none => rfl
      | some ctx' =>
          rcases ht.conns c ctx' hd with ⟨ctx, hctx, _⟩
          rw [h.known c (ht.nextConn ▸ hc)] at hctx
          cases hctx
  case closedLt =>
      intro c hc
      rw [ht.nextConn]
      exact h.closedLt c ((hclosed c).mp hc)
  case own =>
      intro c ctx' hc hopen
      rcases ht.conns c ctx' hc with ⟨ctx, hctx, hfd, _⟩
      rw [ht.kernel, hfd]
      exact h.own c ctx hctx (fun hcl => hopen ((hclosed c).mpr hcl))
  case reading =>
      intro c ctx' hc hactive
      rcases ht.conns c ctx' hc with ⟨ctx, hctx, _, hread, _⟩
      rw [hclosed]
      rcases hread hactive with hold | hopen
      · exact h.reading c ctx hctx hold
      · exact hopen
  case queued =>
      intro c ctx' hc hne
      rcases ht.conns c ctx' hc with ⟨ctx, hctx, _, _, hbuf⟩
      rw [hclosed]
      rcases hbuf hne with hold | hopen
      · exact h.queued c ctx hctx hold
      · exact hopen
  case accepting =>
      intro c hc
      rw [hclosed]
      exact h.accepting c (ht.stack c hc)
  case isolated =>
      rw [hlog]
      exact isolated_append h.isolated hes

/-! ## Closing -/

theorem closed_close
    {s : Net} {c : Nat} {ctx : IxfdConnCtx} (d : Nat) :
    Closed (ixfdCommonsockClose s c ctx) d ↔ Closed s d ∨ d = c := by
  simp [Closed, ixfdCommonsockClose, Effect.closes, or_and_right, exists_or,
    eq_comm]

theorem separate_close
    {s : Net} {c : Nat} {ctx : IxfdConnCtx} (h : Separate s)
    (hc : s.conns c = some ctx) (hmay : MayClose s c) :
    Separate (ixfdCommonsockClose s c ctx) := by
  have hempty : ctx.bufWrite = [] := by
    rcases hmay ctx hc with ⟨_, hnil, _⟩ | ⟨hcl, _⟩
    · exact hnil
    · by_contra hne
      exact h.queued c ctx hc hne hcl
  have hnot : .acceptDone c ∉ s.stack := by
    rcases hmay ctx hc with ⟨_, _, hacc⟩ | ⟨hcl, _⟩
    · exact hacc
    · exact fun hacc => h.accepting c hacc hcl
  have hother : ∀ d x, d ≠ c →
      (ixfdCommonsockClose s c ctx).conns d = some x → s.conns d = some x := by
    intro d x hne hx
    rwa [ixfdCommonsockClose, Net.emit_conns, Net.setKernel_conns,
      Net.setConn_conns, Function.update_of_ne hne] at hx
  have hself : ∀ x, (ixfdCommonsockClose s c ctx).conns c = some x →
      x = closeCtx ctx := by
    intro x hx
    rw [ixfdCommonsockClose, Net.emit_conns, Net.setKernel_conns,
      Net.setConn_conns, Function.update_self] at hx
    exact (Option.some.inj hx).symm
  constructor
  case known => exact known_close h.known hc
  case closedLt =>
      intro d hd
      rcases (closed_close d).mp hd with hd | rfl
      · exact h.closedLt d hd
      · by_contra hge
        rw [h.known d (not_lt.mp hge)] at hc
        cases hc
  case own =>
      intro d x hx hopen
      rw [closed_close, not_or] at hopen
      have hx' := hother d x hopen.2 hx
      have hown := h.own d x hx' hopen.1
      -- the freed number is not one that `d` owns
      have hfd : x.fd ≠ ctx.fd := by
        intro heq
        rw [heq] at hown
        rcases hmay ctx hc with ⟨hopenc, _, _⟩ | ⟨_, hfree⟩
        · rw [h.own c ctx hc hopenc] at hown
          exact hopen.2 (Option.some.inj hown).symm
        · rw [hfree] at hown
          cases hown
      rw [ixfdCommonsockClose, Net.emit_kernel, Net.setKernel_kernel,
        Function.update_of_ne hfd]
      exact hown
  case reading =>
      intro d x hx hactive
      rw [closed_close, not_or]
      by_cases hd : d = c
      · subst hd
        rw [hself x hx] at hactive
        cases hactive
      · exact ⟨h.reading d x (hother d x hd hx) hactive, hd⟩
  case queued =>
      intro d x hx hne
      rw [closed_close, not_or]
      by_cases hd : d = c
      · subst hd
        rw [hself x hx] at hne
        exact absurd hempty hne
      · exact ⟨h.queued d x (hother d x hd hx) hne, hd⟩
  case accepting =>
      intro d hd
      rw [closed_close, not_or]
      refine ⟨h.accepting d hd, ?_⟩
      rintro rfl
      exact hnot hd
  case isolated =>
      constructor
      · apply List.pairwise_append.mpr
        refine ⟨h.isolated.quiet, List.pairwise_singleton _ _, ?_⟩
        intro x _ y hy e peer _ hio
        rw [List.mem_singleton.mp hy] at hio
        cases hio
      · intro x hx e peer hio
        rcases List.mem_append.mp hx with hx | hx
        · exact h.isolated.own x hx e peer hio
        · rw [List.mem_singleton.mp hx] at hio
          cases hio

/-! ## Accepting -/

theorem separate_acceptCb
    (sock : IxfdSock) {s : Net} {fd : Int} (mallocOk : Bool)
    (h : Separate s) (hfree : s.kernel fd = none) :
    Separate (ixfdCommonsockAcceptCb sock s fd mallocOk) := by
  have hclosed : ∀ c, Closed (ixfdCommonsockAcceptCb sock s fd mallocOk) c ↔
      Closed s c := by
    intro c
    unfold ixfdCommonsockAcceptCb
    split <;> exact closed_append rfl (by simp [Effect.closes]) c
  have hnew : ¬ Closed s s.nextConn := by
    intro hcl
    exact Nat.lt_irrefl _ (h.closedLt _ hcl)
  have hkernel : (ixfdCommonsockAcceptCb sock s fd mallocOk).kernel =
      Function.update s.kernel fd (some s.nextConn) := by
    unfold ixfdCommonsockAcceptCb
    split <;> rfl
  have hold : ∀ d x, d ≠ s.nextConn →
      (ixfdCommonsockAcceptCb sock s fd mallocOk).conns d = some x →
        s.conns d = some x := by
    intro d x hne hx
    unfold ixfdCommonsockAcceptCb at hx
    split at hx <;>
      simpa [Function.update_of_ne hne] using hx
  have hself : ∀ x,
      (ixfdCommonsockAcceptCb sock s fd mallocOk).conns s.nextConn = some x →
        x.fd = fd ∧ x.bufWrite = [] := by
    intro x hx
    unfold ixfdCommonsockAcceptCb at hx
    split at hx
    · simp only [Net.withStack_conns, Net.setConn_conns,
        Function.update_self, Option.some.injEq] at hx
      rw [← hx]
      simp
    · simp only [Net.setConn_conns, Function.update_self,
        Option.some.injEq] at hx
      rw [← hx]
      simp [activateCtx]
  constructor
  case known => exact known_acceptCb sock fd mallocOk h.known
  case closedLt =>
      intro c hc
      have hlt := h.closedLt c ((hclosed c).mp hc)
      have hnext : (ixfdCommonsockAcceptCb sock s fd mallocOk).nextConn =
          s.nextConn + 1 := by
        unfold ixfdCommonsockAcceptCb
        split <;> rfl
      omega
  case own =>
      intro d x hx hopen
      rw [hclosed] at hopen
      rw [hkernel]
      by_cases hd : d = s.nextConn
      · subst hd
        rw [(hself x hx).1, Function.update_self]
      · have hown := h.own d x (hold d x hd hx) hopen
        have hfd : x.fd ≠ fd := by
          intro heq
          rw [heq, hfree] at hown
          cases hown
        rw [Function.update_of_ne hfd]
        exact hown
  case reading =>
      intro d x hx hactive
      rw [hclosed]
      by_cases hd : d = s.nextConn
      · exact hd ▸ hnew
      · exact h.reading d x (hold d x hd hx) hactive
  case queued =>
      intro d x hx hne
      rw [hclosed]
      by_cases hd : d = s.nextConn
      · exact hd ▸ hnew
      · exact h.queued d x (hold d x hd hx) hne
  case accepting =>
      intro d hd
      rw [hclosed]
      have hmem : .acceptDone d ∈ s.stack ∨ d = s.nextConn := by
        unfold ixfdCommonsockAcceptCb at hd
        split at hd
        · rcases List.mem_cons.mp hd with heq | hmem
          · cases heq
            exact Or.inr rfl
          · exact Or.inl hmem
        · exact Or.inl hd
      rcases hmem with hmem | heq
      · exact h.accepting d hmem
      · exact heq ▸ hnew
  case isolated =>
      have hlog : (ixfdCommonsockAcceptCb sock s fd mallocOk).log =
          s.log ++ [Effect.malloc (.connCtx s.nextConn),
            Effect.accepted s.nextConn fd] := by
        unfold ixfdCommonsockAcceptCb
        split <;> rfl
      rw [hlog]
      exact isolated_append h.isolated
        (by simp [OwnEffect, Effect.closes, Effect.io])

/-! ## The other steps -/

section Steps

variable {s : Net} {c : Nat} {ctx : IxfdConnCtx}

/-- A `write(2)` on an open context is one of its own system calls. -/
theorem ownEffect_write
    (h : Separate s) (hc : s.conns c = some ctx) (hopen : ¬ Closed s c)
    (j : Nat) (bytes : List UInt8) (ret : Int) :
    OwnEffect s (.write c j ctx.fd (s.kernel ctx.fd) bytes ret) := by
  refine ⟨rfl, ?_⟩
  rintro d peer ⟨⟩
  exact ⟨hopen, h.own c ctx hc hopen⟩

theorem openStep_write
    (h : Separate s) (hc : s.conns c = some ctx) (hopen : ¬ Closed s c)
    (data : Buffer) (cb : Option Nat) (args : Nat) (ret : Int) :
    OpenStep s (ixfdCommonsockWrite s c ctx data cb args ret) := by
  have hcall : OpenStep s { s with calls := s.calls + 1 } :=
    { OpenStep.refl s with conns := openConns_same s }
  have hwrite : ∀ x ∈ [Effect.call c s.calls data.bytes,
      .write c s.calls ctx.fd (s.kernel ctx.fd) data.bytes ret],
      OwnEffect s x := by
    rw [List.forall_mem_cons, List.forall_mem_singleton]
    refine ⟨by simp [OwnEffect, Effect.closes, Effect.io], ?_⟩
    exact ownEffect_write h hc hopen s.calls data.bytes ret
  by_cases hlt : toSizeT ret < data.bytes.length
  · rw [write_queued _ _ _ _ _ _ hlt]
    apply OpenStep.emit
    · exact (hcall.emit hwrite).setConn rfl hc (by simp)
        (by simpa using Or.inl) (fun _ => Or.inr hopen)
    · simp [OwnEffect, Effect.closes, Effect.io]
  · rw [write_complete _ _ _ _ _ _ hlt]
    cases cb with
    | none =>
        apply (hcall.emit hwrite).emit
        simp [OwnEffect, Effect.closes, Effect.io]
    | some f =>
        apply OpenStep.withStack
        · apply (hcall.emit hwrite).emit
          simp [OwnEffect, Effect.closes, Effect.io]
        · simp

theorem openStep_writeCbIter
    (h : Separate s) (hc : s.conns c = some ctx)
    {w : IxfdSockWriteCtx} {rest : List IxfdSockWriteCtx}
    (hq : ctx.bufWrite = w :: rest) (ret : Int) :
    OpenStep s (ixfdCommonsockWriteCbIter s c ctx w rest ret) := by
  -- a queue with entries belongs to an open context
  have hopen : ¬ Closed s c := h.queued c ctx hc (by simp [hq])
  have hwrite : OpenStep s (s.emit
      [.write c w.call ctx.fd (s.kernel ctx.fd) w.remaining ret]) := by
    apply (OpenStep.refl s).emit
    rw [List.forall_mem_singleton]
    exact ownEffect_write h hc hopen w.call w.remaining ret
  have hset : ∀ ws, OpenStep s ((s.emit
      [.write c w.call ctx.fd (s.kernel ctx.fd) w.remaining ret]).setConn c
        { ctx with bufWrite := ws }) :=
    fun _ => hwrite.setConn rfl hc rfl Or.inl (fun _ => Or.inr hopen)
  by_cases hlt : toSizeT ret < w.lenRemain
  · rw [writeCbIter_advanced _ _ _ _ _ hlt]
    exact hset _
  · rw [writeCbIter_complete _ _ _ _ _ hlt]
    rcases w.cb with _ | f
    · apply (hset rest).emit
      simp [OwnEffect, Effect.closes, Effect.io]
    · apply OpenStep.withStack
      · apply (hset rest).emit
        simp [OwnEffect, Effect.closes, Effect.io]
      · simp

/-- A `read(2)` on an open context. -/
theorem openStep_emitRead
    (h : Separate s) (hc : s.conns c = some ctx) (hopen : ¬ Closed s c) :
    OpenStep s (s.emit [.read c ctx.fd (s.kernel ctx.fd)]) := by
  apply (OpenStep.refl s).emit
  simp [OwnEffect, Effect.closes, Effect.io, hopen, h.own c ctx hc hopen]

/-- A read that ends in a close of the same context. -/
theorem separate_emitRead_close
    (h : Separate s) (hc : s.conns c = some ctx) (hopen : ¬ Closed s c)
    (hmay : MayClose s c) :
    Separate (ixfdCommonsockClose
      (s.emit [.read c ctx.fd (s.kernel ctx.fd)]) c ctx) := by
  have hread := openStep_emitRead h hc hopen
  apply separate_close (h.openStep hread) hc
  intro ctx' hc'
  have hiff : Closed (s.emit [.read c ctx.fd (s.kernel ctx.fd)]) c ↔
      Closed s c :=
    closed_append rfl (by simp [Effect.closes]) c
  rw [hiff]
  exact hmay ctx' hc'

theorem separate_readCb
    (sock : IxfdSock) (h : Separate s) (hc : s.conns c = some ctx)
    (hopen : ¬ Closed s c) {ret : ReadRet}
    (hmay : ∀ d, closedBy sock s (.readReady c ret) = some d → MayClose s d) :
    Separate (ixfdCommonsockReadCb sock s c ctx ret) := by
  have hread := openStep_emitRead h hc hopen
  unfold ixfdCommonsockReadCb
  by_cases hpassive : sock.passiveRead = true
  · simp only [hpassive, if_true]
    apply h.openStep
    apply (OpenStep.refl s).withStack
    simp
  · simp only [hpassive]
    rcases ret with _ | _ | ⟨b, bs⟩
    · exact h.openStep hread
    · by_cases hclose : sock.cbClose = true
      · simp only [hclose, if_true]
        apply h.openStep
        apply hread.withStack
        simp
      · simp only [hclose]
        apply separate_emitRead_close h hc hopen
        apply hmay c
        simp [closedBy, hpassive, hclose]
    · by_cases hcb : ctx.cbRead = true
      · simp only [hcb, if_true]
        have hreceived :
            ∀ x ∈ [Effect.received c (b :: bs)], OwnEffect s x := by
          simp [OwnEffect, Effect.closes, Effect.io]
        apply h.openStep
        apply (hread.emit hreceived).withStack
        simp
      · simp only [hcb]
        exact h.openStep hread

theorem separate_afterCallback
    {t : Net} (sock : IxfdSock) (h : Separate s)
    (ht : afterCallback s = some t)
    (hmay : ∀ d, closedBy sock s .callbackReturns = some d → MayClose s d) :
    Separate t := by
  unfold afterCallback at ht
  split at ht
  case h_1 j stack hstack =>
      cases ht
      apply h.openStep
      apply (openStep_pop hstack).emit
      simp [OwnEffect, Effect.closes, Effect.io]
  case h_2 d j stack hstack =>
      cases ht
      apply h.openStep
      apply (openStep_pop hstack).emit
      simp [OwnEffect, Effect.closes, Effect.io]
  case h_3 d stack hstack =>
      rcases Option.map_eq_some_iff.mp ht with ⟨ctx, hc, rfl⟩
      -- the watcher starts on a context that its callback left open
      have hopen : ¬ Closed s d := by
        apply h.accepting d
        rw [hstack]
        exact List.mem_cons_self
      apply h.openStep
      exact (openStep_pop hstack).setConn rfl hc rfl
        (fun _ => Or.inr hopen) Or.inl
  case h_4 d stack hstack =>
      cases ht
      exact h.openStep (openStep_pop hstack)
  case h_5 d stack hstack =>
      rcases Option.map_eq_some_iff.mp ht with ⟨ctx, hc, rfl⟩
      have hpop := openStep_pop hstack
      apply separate_close (h.openStep hpop) hc
      intro ctx' hc'
      have hbefore := hmay d (by simp [closedBy, hstack]) ctx' hc'
      rcases hbefore with ⟨hopen, hnil, hacc⟩ | hclosed
      · exact Or.inl ⟨hopen, hnil, fun hd => hacc (hpop.stack d hd)⟩
      · exact Or.inr hclosed
  case h_6 => cases ht

end Steps

theorem separate_step
    {sock : IxfdSock} {s t : Net} {l : Label}
    (h : Separate s) (ht : step sock s l = some t)
    (hl : ClosesSafely sock s l) :
    Separate t := by
  cases l with
  | write c data cb args ret =>
      rcases onConn_eq_some ht with ⟨ctx, hc, _, rfl⟩
      exact h.openStep
        (openStep_write h hc (hl.1 c rfl) data cb args ret)
  | read c len ret =>
      rcases onConn_eq_some ht with ⟨ctx, hc, _, rfl⟩
      have hopen : ¬ Closed s c := hl.1 c rfl
      rcases ret with _ | _ | ⟨b, bs⟩
      · exact h.openStep (openStep_emitRead h hc hopen)
      · exact separate_emitRead_close h hc hopen (hl.2 c rfl)
      · exact h.openStep (openStep_emitRead h hc hopen)
  | close c =>
      rcases onConn_eq_some ht with ⟨ctx, hc, _, rfl⟩
      exact separate_close h hc (hl.2 c rfl)
  | setBufreadLen c len mallocOk =>
      rcases onConn_eq_some ht with ⟨ctx, hc, _, rfl⟩
      apply h.openStep
      exact (OpenStep.refl s).setConn rfl hc (by simp)
        (by simpa using Or.inl) (by simpa using Or.inl)
  | callbackReturns => exact separate_afterCallback sock h ht hl.2
  | accept fd mallocOk =>
      rcases accept_eq_some ht with ⟨_, hfree, rfl⟩
      exact separate_acceptCb sock mallocOk h hfree
  | readReady c ret =>
      rcases onConn_eq_some ht with ⟨ctx, hc, hok, rfl⟩
      simp only [Bool.and_eq_true] at hok
      have hopen : ¬ Closed s c := h.reading c ctx hc hok.1.1.1.2
      exact separate_readCb sock h hc hopen hl.2
  | writeReady c =>
      rcases onConn_eq_some ht with ⟨ctx, hc, _, rfl⟩
      apply h.openStep
      apply (OpenStep.refl s).withStack
      simp
  | drainWrite ret =>
      rcases drainWrite_eq_some ht with
        ⟨c, stack, ctx, w, rest, _, hc, hq, _, rfl⟩
      exact h.openStep (openStep_writeCbIter h hc hq ret)
  | drainEnd =>
      rcases drainEnd_eq_some ht with ⟨c, stack, ctx, hstack, hc, _, rfl⟩
      apply h.openStep
      exact (openStep_pop hstack).setConn rfl hc rfl Or.inl Or.inl

/-- **Isolation**: in a run that keeps connections apart, no state shows a system
call for a closed context or on the connection of another. -/
theorem isolated_of_keepsApart
    (sock : IxfdSock) (ls : List Label)
    (hls : EveryStep (step sock)
      (fun s l _ => KeepsApart sock s l) .init ls) :
    EveryState (step sock) (fun s => Isolated s.log) .init ls := by
  apply (everyState_iff_everyStep
    (P := fun s : Net => Isolated s.log) separate_init.isolated ls).mpr
  apply everyStep_mono (I := Separate) _ separate_init hls
  intro s t l hs ht hl
  have hsep := separate_step hs ht hl.1
  exact ⟨hsep.isolated, hsep⟩

/-- A byte queued for a closed connection is sent to the next owner of its
descriptor number. -/
theorem queued_byte_crosses :
    let ls : List Label :=
      [.accept 5 true, .write 0 ⟨bytes "ab", by decide⟩ none 0 1,
        .close 0, .accept 5 true, .writeReady 0, .drainWrite 1]
    (run (step ⟨true, false, false, false⟩) .init ls).map
        (fun t => (decide (Closed t 0),
          decide (.write 0 0 5 (some 1) (bytes "b") 1 ∈ t.log))) =
      some (true, true) ∧
      ¬ EveryState (step ⟨true, false, false, false⟩)
        (fun s => Isolated s.log) .init ls := by
  refine ⟨by decide, ?_⟩
  intro h
  have hlast := everyState_last h rfl
  have hpeer := hlast.own (.write 0 0 5 (some 1) (bytes "b") 1)
    (by decide) 0 (some 1) rfl
  cases hpeer

/-- A connection whose reply was taken whole before its close, the next owner of
its number, and a third one whose queue is written in part. -/
theorem isolated_of_keepsApart_reused :
    EveryState (step ⟨true, false, false, false⟩)
      (fun s => Isolated s.log) .init
      [.accept 5 true, .write 0 ⟨bytes "ab", by decide⟩ none 0 2,
        .close 0, .accept 5 true, .accept 6 true,
        .write 2 ⟨bytes "abc", by decide⟩ none 0 1,
        .write 1 ⟨bytes "c", by decide⟩ none 0 1,
        .writeReady 2, .drainWrite 1] := by
  apply isolated_of_keepsApart
  have hwrite : ∀ (s : Net) c data cb args ret, ¬ Closed s c →
      KeepsApart ⟨true, false, false, false⟩ s
        (.write c data cb args ret) := by
    intro s c data cb args ret hopen
    exact ⟨⟨by rintro d ⟨⟩; exact hopen, by rintro d ⟨⟩⟩, rfl⟩
  refine everyStep_cons_of_some rfl
    ⟨⟨by rintro c ⟨⟩, by rintro c ⟨⟩⟩, rfl⟩ ?_
  refine everyStep_cons_of_some rfl (hwrite _ _ _ _ _ _ (by decide)) ?_
  refine everyStep_cons_of_some rfl ⟨⟨by rintro c ⟨⟩, ?_⟩, rfl⟩ ?_
  · rintro c ⟨⟩ ctx ⟨⟩
    exact Or.inl ⟨by decide, rfl, by decide⟩
  refine everyStep_cons_of_some rfl
    ⟨⟨by rintro c ⟨⟩, by rintro c ⟨⟩⟩, rfl⟩ ?_
  refine everyStep_cons_of_some rfl
    ⟨⟨by rintro c ⟨⟩, by rintro c ⟨⟩⟩, rfl⟩ ?_
  refine everyStep_cons_of_some rfl (hwrite _ _ _ _ _ _ (by decide)) ?_
  refine everyStep_cons_of_some rfl (hwrite _ _ _ _ _ _ (by decide)) ?_
  refine everyStep_cons_of_some rfl
    ⟨⟨by rintro c ⟨⟩, by rintro c ⟨⟩⟩, rfl⟩ ?_
  exact everyStep_cons_of_some rfl
    ⟨⟨by rintro c ⟨⟩, by rintro c ⟨⟩⟩, by decide⟩ trivial

/-! ## A close with pending bytes -/

section Pending

variable {sock : IxfdSock} {s : Net}

/-- A free number can be accepted on, and the loop is idle again after that. -/
theorem accept_run
    (sock : IxfdSock) (s : Net) {fd : Int} (hstack : s.stack = []) (hfree : s.kernel fd = none)
    (hfd : 0 ≤ fd) :
    ∃ ls t, run (step sock) s (.accept fd true :: ls) = some t ∧
      t.stack = [] ∧ t.kernel fd = some s.nextConn ∧
      ∀ d, d ≠ s.nextConn → t.conns d = s.conns d := by
  have hstep : step sock s (.accept fd true) =
      some (ixfdCommonsockAcceptCb sock s fd true) := by
    simp [step, hstack, hfree, hfd]
  cases hcb : sock.cbAccept with
  | false =>
      refine ⟨[], _, by rw [run_cons, hstep]; rfl, ?_, ?_, ?_⟩
      · simp [ixfdCommonsockAcceptCb, hcb, hstack]
      · simp [ixfdCommonsockAcceptCb, hcb]
      · intro d hd
        simp [ixfdCommonsockAcceptCb, hcb, Function.update_of_ne hd]
  | true =>
      have hreturn : ∃ t,
          step sock (ixfdCommonsockAcceptCb sock s fd true)
            .callbackReturns = some t ∧
          t.stack = [] ∧ t.kernel fd = some s.nextConn ∧
          ∀ d, d ≠ s.nextConn → t.conns d = s.conns d := by
        simp only [ixfdCommonsockAcceptCb, hcb, if_true, step, afterCallback,
          Net.withStack_stack, Net.withStack_conns, Net.setConn_conns,
          Function.update_self, Option.map_some]
        refine ⟨_, rfl, ?_, ?_, ?_⟩
        · simp [hstack]
        · simp
        · intro d hd
          simp [Function.update_of_ne hd]
      rcases hreturn with ⟨t, ht, hrest⟩
      refine ⟨[.callbackReturns], t, ?_, hrest⟩
      rw [run_cons, hstep, Option.bind_some, run_cons, ht]
      rfl

/-- Every iteration of `write_cb` issues its `write(2)`. -/
theorem write_mem_writeCbIter
    (c : Nat) (ctx : IxfdConnCtx) (w : IxfdSockWriteCtx)
    (rest : List IxfdSockWriteCtx) (ret : Int) :
    .write c w.call ctx.fd (s.kernel ctx.fd) w.remaining ret ∈
      (ixfdCommonsockWriteCbIter s c ctx w rest ret).log := by
  by_cases hlt : toSizeT ret < w.lenRemain
  · rw [writeCbIter_advanced _ _ _ _ _ hlt]
    simp
  · rw [writeCbIter_complete _ _ _ _ _ hlt]
    rcases w.cb with _ | f <;> simp

/-- **The condition is needed**: whenever a context with pending bytes is closed
while its write watcher is started and the loop is idle, the run can go on to a
system call of the closed context on another connection. -/
theorem pending_close_breaks
    {c : Nat} {ctx : IxfdConnCtx} (h : Separate s) (hstack : s.stack = [])
    (hc : s.conns c = some ctx) (hq : ctx.bufWrite ≠ [])
    (hwatch : ctx.eventWrite.active = true) (hfd : 0 ≤ ctx.fd) :
    ∃ ls t, run (step sock) s (.close c :: ls) = some t ∧
      ¬ Isolated t.log := by
  obtain ⟨w, rest, hqueue⟩ := List.exists_cons_of_ne_nil hq
  have hlt : c < s.nextConn := by
    by_contra hge
    rw [h.known c (not_lt.mp hge)] at hc
    cases hc
  have hclose : step sock s (.close c) =
      some (ixfdCommonsockClose s c ctx) := by
    simp [step, onConn, hc, hstack, callerRuns]
  obtain ⟨ls, t, hrun, htstack, htkernel, htconns⟩ :=
    accept_run sock (ixfdCommonsockClose s c ctx) hstack
      (by simp [ixfdCommonsockClose]) hfd
  have htc : t.conns c = some (closeCtx ctx) := by
    rw [htconns c (Nat.ne_of_lt hlt)]
    simp [ixfdCommonsockClose]
  have hready : step sock t (.writeReady c) =
      some (t.withStack [.drain c]) := by
    have hwatch' : (closeCtx ctx).eventWrite.active = true := hwatch
    have hk : (t.kernel (closeCtx ctx).fd).isSome = true := by
      rw [show (closeCtx ctx).fd = ctx.fd from rfl, htkernel]
      rfl
    simp [step, onConn, htc, htstack, hwatch', hk]
  have hdrain : step sock (t.withStack [.drain c]) (.drainWrite (-1)) =
      some (ixfdCommonsockWriteCbIter (t.withStack [.drain c]) c
        (closeCtx ctx) w rest (-1)) := by
    have hqueue' : (closeCtx ctx).bufWrite = w :: rest := hqueue
    have hret : ∀ peer, writeRet peer w.lenRemain (-1) = true := by
      intro peer
      cases peer <;> rfl
    simp [step, htc, hqueue', hret]
  refine ⟨(Label.accept ctx.fd true :: ls) ++
      [Label.writeReady c, Label.drainWrite (-1)],
    ixfdCommonsockWriteCbIter (t.withStack [.drain c]) c (closeCtx ctx) w rest
      (-1), ?_, ?_⟩
  · rw [run_cons, hclose, Option.bind_some, run_append, hrun, Option.bind_some,
      run_cons, hready, Option.bind_some, run_cons, hdrain]
    rfl
  · intro hiso
    have hpeer := hiso.own _
      (write_mem_writeCbIter c (closeCtx ctx) w rest (-1)) c _ rfl
    rw [Net.withStack_kernel, show (closeCtx ctx).fd = ctx.fd from rfl,
      htkernel] at hpeer
    have heq : s.nextConn = c := Option.some.inj hpeer
    omega

end Pending

end Sock
end Iojxd
