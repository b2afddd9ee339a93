import Iojxd.SockModel

/-!
# Steps of the connection layer

What each step does to the write queues and to the log.  Two kinds of steps
issue `write(2)`: a call of `ixfd_commonsock_write` and an iteration of
`write_cb`.  Every other step is quiet: it keeps all queues and logs nothing
about written bytes.
-/

namespace Iojxd
namespace Sock

open TransitionRun

/-! ## Contexts -/

@[simp] theorem setBufreadLen_bufWrite
    (ctx : IxfdConnCtx) (len : Nat) (mallocOk : Bool) :
    (ixfdCommonsockSetBufreadLen ctx len mallocOk).bufWrite = ctx.bufWrite := by
  cases mallocOk <;> rfl

@[simp] theorem setBufreadLen_fd
    (ctx : IxfdConnCtx) (len : Nat) (mallocOk : Bool) :
    (ixfdCommonsockSetBufreadLen ctx len mallocOk).fd = ctx.fd := by
  cases mallocOk <;> rfl

@[simp] theorem setBufreadLen_eventRead
    (ctx : IxfdConnCtx) (len : Nat) (mallocOk : Bool) :
    (ixfdCommonsockSetBufreadLen ctx len mallocOk).eventRead =
      ctx.eventRead := by
  cases mallocOk <;> rfl

@[simp] theorem createCtx_bufWrite
    (sock : IxfdSock) (fd : Int) (mallocOk : Bool) :
    (ixfdCommonsockCreateCtx sock fd mallocOk).bufWrite = [] := by
  simp [ixfdCommonsockCreateCtx]

@[simp] theorem createCtx_fd
    (sock : IxfdSock) (fd : Int) (mallocOk : Bool) :
    (ixfdCommonsockCreateCtx sock fd mallocOk).fd = fd := by
  simp [ixfdCommonsockCreateCtx]

@[simp] theorem enqueueCtx_bufWrite
    (ctx : IxfdConnCtx) (w : IxfdSockWriteCtx) :
    (enqueueCtx ctx w).bufWrite = ctx.bufWrite ++ [w] := by
  unfold enqueueCtx
  cases ctx.writeLaunched <;> simp

@[simp] theorem enqueueCtx_fd
    (ctx : IxfdConnCtx) (w : IxfdSockWriteCtx) :
    (enqueueCtx ctx w).fd = ctx.fd := by
  unfold enqueueCtx
  cases ctx.writeLaunched <;> simp

@[simp] theorem enqueueCtx_eventRead
    (ctx : IxfdConnCtx) (w : IxfdSockWriteCtx) :
    (enqueueCtx ctx w).eventRead = ctx.eventRead := by
  unfold enqueueCtx
  cases ctx.writeLaunched <;> simp

/-! ## Sizes and entries -/

theorem toSizeT_of_nonneg
    {r : Int} (h0 : 0 ≤ r) (h : r < 18446744073709551616) :
    toSizeT r = r.toNat := by
  unfold toSizeT
  rw [Int.emod_eq_of_lt h0 h]

/-- An error is the largest `size_t`. -/
theorem toSizeT_error :
    toSizeT (-1) = 18446744073709551615 := by
  decide

/-- A result of `write(2)` is -1 or a number of bytes. -/
theorem writeRet_cases
    {peer : Option Nat} {len : Nat} {ret : Int}
    (h : writeRet peer len ret = true) :
    ret = -1 ∨ (0 ≤ ret ∧ ret ≤ len) := by
  cases peer with
  | none => exact Or.inl (by simpa [writeRet] using h)
  | some p =>
      simp only [writeRet, Bool.or_eq_true, beq_iff_eq, Bool.and_eq_true,
        decide_eq_true_eq] at h
      exact h

/-- For a result that is not an error the two readings agree. -/
theorem toSizeT_of_writeRet
    {peer : Option Nat} {len : Nat} {ret : Int}
    (h : writeRet peer len ret = true) (hlen : len < sizeMod)
    (h0 : 0 ≤ ret) :
    toSizeT ret = ret.toNat := by
  have hle : ret ≤ len := by
    rcases writeRet_cases h with h1 | h1
    · omega
    · exact h1.2
  apply toSizeT_of_nonneg h0
  unfold sizeMod at hlen
  omega

namespace IxfdSockWriteCtx

theorem remaining_eq_drop (w : IxfdSockWriteCtx) :
    w.remaining = w.dataOrg.drop w.data := by
  unfold remaining
  apply List.take_of_length_le
  rw [List.length_drop]
  have := w.inside
  omega

@[simp] theorem length_remaining (w : IxfdSockWriteCtx) :
    w.remaining.length = w.lenRemain := by
  rw [remaining_eq_drop, List.length_drop]
  have := w.inside
  omega

theorem remaining_ne_nil (w : IxfdSockWriteCtx) :
    w.remaining ≠ [] := by
  intro h
  have hlen := w.length_remaining
  rw [h] at hlen
  have := w.nonempty
  simp at hlen
  omega

@[simp] theorem remaining_ofCall
    (call : Nat) (data : Buffer) (n : Nat)
    (h : n < data.bytes.length) (cb : Option Nat) :
    (ofCall call data n h cb).remaining = data.bytes.drop n := by
  rw [remaining_eq_drop]
  simp [ofCall]

@[simp] theorem remaining_advance
    (w : IxfdSockWriteCtx) (n : Nat) (h : n < w.lenRemain) :
    (w.advance n h).remaining = w.remaining.drop n := by
  rw [remaining_eq_drop, remaining_eq_drop]
  simp [advance, List.drop_drop]

@[simp] theorem call_ofCall
    (call : Nat) (data : Buffer) (n : Nat)
    (h : n < data.bytes.length) (cb : Option Nat) :
    (ofCall call data n h cb).call = call := by
  rfl

@[simp] theorem call_advance
    (w : IxfdSockWriteCtx) (n : Nat) (h : n < w.lenRemain) :
    (w.advance n h).call = w.call := by
  rfl

end IxfdSockWriteCtx

/-! ## The two functions that write -/

theorem write_queued
    (s : Net) (c : Nat) (ctx : IxfdConnCtx) (data : Buffer)
    (cb : Option Nat) (args : Nat) {ret : Int}
    (h : toSizeT ret < data.bytes.length) :
    ixfdCommonsockWrite s c ctx data cb args ret =
      ((({ s with calls := s.calls + 1 }).emit
        [.call c s.calls data.bytes,
          .write c s.calls ctx.fd (s.kernel ctx.fd) data.bytes ret]).setConn c
          (enqueueCtx ctx (.ofCall s.calls data (toSizeT ret) h cb))).emit
        [.malloc (.writeCtx s.calls), .malloc (.dataCopy s.calls),
          .returned s.calls false] := by
  simp only [ixfdCommonsockWrite]
  exact dif_pos h

theorem write_complete
    (s : Net) (c : Nat) (ctx : IxfdConnCtx) (data : Buffer)
    (cb : Option Nat) (args : Nat) {ret : Int}
    (h : ¬ toSizeT ret < data.bytes.length) :
    ixfdCommonsockWrite s c ctx data cb args ret =
      let m := ({ s with calls := s.calls + 1 }).emit
        [.call c s.calls data.bytes,
          .write c s.calls ctx.fd (s.kernel ctx.fd) data.bytes ret]
      match cb with
      | some f =>
          (m.emit [.callback c s.calls f (some args)]).withStack
            (.writeDone s.calls :: s.stack)
      | none => m.emit [.returned s.calls true] := by
  simp only [ixfdCommonsockWrite]
  exact dif_neg h

theorem writeCbIter_advanced
    (s : Net) (c : Nat) (ctx : IxfdConnCtx) (w : IxfdSockWriteCtx)
    (rest : List IxfdSockWriteCtx) {ret : Int}
    (h : toSizeT ret < w.lenRemain) :
    ixfdCommonsockWriteCbIter s c ctx w rest ret =
      (s.emit [.write c w.call ctx.fd (s.kernel ctx.fd) w.remaining ret]).setConn
        c { ctx with bufWrite := w.advance (toSizeT ret) h :: rest } := by
  simp only [ixfdCommonsockWriteCbIter]
  exact dif_pos h

theorem writeCbIter_complete
    (s : Net) (c : Nat) (ctx : IxfdConnCtx) (w : IxfdSockWriteCtx)
    (rest : List IxfdSockWriteCtx) {ret : Int}
    (h : ¬ toSizeT ret < w.lenRemain) :
    ixfdCommonsockWriteCbIter s c ctx w rest ret =
      let m := (s.emit
        [.write c w.call ctx.fd (s.kernel ctx.fd) w.remaining ret]).setConn
          c { ctx with bufWrite := rest }
      match w.cb with
      | some f =>
          (m.emit [.callback c w.call f w.cbArgs]).withStack
            (.drainDone c w.call :: s.stack)
      | none => m.emit [.free (.dataCopy w.call), .free (.connCtx c)] := by
  simp only [ixfdCommonsockWriteCbIter]
  exact dif_neg h

/-! ## Queues -/

/-- The write queue of a connection. -/
def queue (s : Net) (c : Nat) : List IxfdSockWriteCtx :=
  match s.conns c with
  | some ctx => ctx.bufWrite
  | none => []

/-- `write_cb` is done with an entry: it has sent one without a callback to its
end, or the callback returns. -/
def finishes (s : Net) : Label → Bool
  | .drainWrite ret =>
      match s.stack with
      | .drain c :: _ =>
          match queue s c with
          | [] => false
          | w :: _ => decide (w.lenRemain ≤ toSizeT ret) && w.cb.isNone
      | _ => false
  | .callbackReturns =>
      match s.stack with
      | .drainDone _ _ :: _ => true
      | _ => false
  | _ => false

theorem queue_of_conns
    {s : Net} {c : Nat} {ctx : IxfdConnCtx}
    (h : s.conns c = some ctx) :
    queue s c = ctx.bufWrite := by
  simp [queue, h]

/-- Only the conns field matters. -/
theorem queue_congr
    {s t : Net} (h : t.conns = s.conns) (c : Nat) :
    queue t c = queue s c := by
  simp [queue, h]

theorem queue_setConn_self
    (s : Net) (c : Nat) (ctx : IxfdConnCtx) :
    queue (s.setConn c ctx) c = ctx.bufWrite := by
  simp [queue]

theorem queue_setConn_ne
    (s : Net) {c d : Nat} (ctx : IxfdConnCtx) (h : d ≠ c) :
    queue (s.setConn c ctx) d = queue s d := by
  simp [queue, Function.update_of_ne h]

/-- Replacing a context by one with the same queue keeps all queues. -/
theorem queue_setConn_same
    {s : Net} {c : Nat} {ctx : IxfdConnCtx}
    (h : ctx.bufWrite = queue s c) (d : Nat) :
    queue (s.setConn c ctx) d = queue s d := by
  by_cases hd : d = c
  · subst hd
    rw [queue_setConn_self, h]
  · exact queue_setConn_ne s ctx hd

/-! ## Quiet steps -/

/-- Effects that say nothing about written bytes.  The call whose completion
callback is running returns true when that callback does. -/
def QuietEffect (s : Net) : Effect → Prop
  | .call _ _ _ => False
  | .write _ _ _ _ _ _ => False
  | .callback _ _ _ _ => False
  | .returned j _ => .writeDone j ∈ s.stack
  | _ => True

/-- A step that issues no `write(2)`. -/
structure QuietStep (s t : Net) : Prop where
  queue : ∀ c, queue t c = queue s c
  calls : t.calls = s.calls
  log : ∃ es, t.log = s.log ++ es ∧ ∀ x ∈ es, QuietEffect s x
  stack : ∀ j, .writeDone j ∈ t.stack → .writeDone j ∈ s.stack

/-- Contexts have numbers below `nextConn`. -/
def Known (s : Net) : Prop :=
  ∀ c, s.nextConn ≤ c → s.conns c = none

theorem known_setConn
    {s : Net} (h : Known s) {c : Nat} {ctx ctx' : IxfdConnCtx}
    (hc : s.conns c = some ctx) :
    Known (s.setConn c ctx') := by
  intro d hd
  have hne : d ≠ c := by
    rintro rfl
    rw [h d hd] at hc
    cases hc
  rw [Net.setConn_conns, Function.update_of_ne hne]
  exact h d hd

section QuietRules

variable {s m : Net}

theorem QuietStep.refl (s : Net) :
    QuietStep s s where
  queue _ := rfl
  calls := rfl
  log := ⟨[], by simp, by simp⟩
  stack _ h := h

theorem QuietStep.emit
    (h : QuietStep s m) {es : List Effect}
    (hes : ∀ x ∈ es, QuietEffect s x) :
    QuietStep s (m.emit es) where
  queue d := (queue_congr rfl d).trans (h.queue d)
  calls := h.calls
  log := by
    obtain ⟨es₀, hlog, hes₀⟩ := h.log
    refine ⟨es₀ ++ es, ?_, List.forall_mem_append.mpr ⟨hes₀, hes⟩⟩
    rw [Net.emit_log, hlog, List.append_assoc]
  stack := h.stack

theorem QuietStep.withStack
    (h : QuietStep s m) {stack : List Frame}
    (hstack : ∀ j, .writeDone j ∈ stack → .writeDone j ∈ s.stack) :
    QuietStep s (m.withStack stack) where
  queue d := (queue_congr rfl d).trans (h.queue d)
  calls := h.calls
  log := h.log
  stack := hstack

theorem QuietStep.setConn
    (h : QuietStep s m) {c : Nat} {ctx : IxfdConnCtx}
    (hq : ctx.bufWrite = Sock.queue m c) :
    QuietStep s (m.setConn c ctx) where
  queue d := (queue_setConn_same hq d).trans (h.queue d)
  calls := h.calls
  log := h.log
  stack := h.stack

theorem QuietStep.setKernel
    (h : QuietStep s m) (fd : Int) (peer : Option Nat) :
    QuietStep s (m.setKernel fd peer) where
  queue d := (queue_congr rfl d).trans (h.queue d)
  calls := h.calls
  log := h.log
  stack := h.stack

/-- The running callback is left. -/
theorem quiet_pop
    {frame : Frame} {stack : List Frame} (hstack : s.stack = frame :: stack) :
    QuietStep s (s.withStack stack) := by
  apply (QuietStep.refl s).withStack
  intro j hj
  rw [hstack]
  exact List.mem_cons_of_mem _ hj

theorem QuietStep.close
    (h : QuietStep s m) {c : Nat} {ctx : IxfdConnCtx}
    (hc : m.conns c = some ctx) :
    QuietStep s (ixfdCommonsockClose m c ctx) := by
  have hq : (closeCtx ctx).bufWrite = Sock.queue m c := by
    rw [queue_of_conns hc]
    rfl
  apply ((h.setConn hq).setKernel ctx.fd none).emit
  simp [QuietEffect]

theorem quiet_emitRead (s : Net) (c : Nat) (fd : Int) :
    QuietStep s (s.emit [.read c fd (s.kernel fd)]) := by
  apply (QuietStep.refl s).emit
  simp [QuietEffect]

end QuietRules

theorem quiet_read
    {s : Net} {c : Nat} {ctx : IxfdConnCtx} (ret : ReadRet)
    (hc : s.conns c = some ctx) :
    QuietStep s (ixfdCommonsockRead s c ctx ret) := by
  have hread := quiet_emitRead s c ctx.fd
  cases ret with
  | error => exact hread
  | data bytes =>
      cases bytes with
      | nil => exact hread.close hc
      | cons b bs => exact hread

theorem quiet_readCb
    (sock : IxfdSock) {s : Net} {c : Nat} {ctx : IxfdConnCtx} (ret : ReadRet)
    (hc : s.conns c = some ctx) :
    QuietStep s (ixfdCommonsockReadCb sock s c ctx ret) := by
  have hread := quiet_emitRead s c ctx.fd
  unfold ixfdCommonsockReadCb
  split
  · apply (QuietStep.refl s).withStack
    simp
  · cases ret with
    | error => exact hread
    | data bytes =>
        cases bytes with
        | nil =>
            by_cases hclose : sock.cbClose = true
            · simp only [hclose, if_true]
              apply hread.withStack
              simp
            · simp only [hclose]
              exact hread.close hc
        | cons b bs =>
            by_cases hcb : ctx.cbRead = true
            · simp only [hcb, if_true]
              have hreceived :
                  ∀ x ∈ [Effect.received c (b :: bs)], QuietEffect s x := by
                simp [QuietEffect]
              apply (hread.emit hreceived).withStack
              simp
            · simp only [hcb]
              exact hread

theorem quiet_acceptCb
    (sock : IxfdSock) {s : Net} (fd : Int) (mallocOk : Bool)
    (hk : Known s) :
    QuietStep s (ixfdCommonsockAcceptCb sock s fd mallocOk) := by
  have hnew : queue s s.nextConn = [] := by
    simp [queue, hk s.nextConn (Nat.le_refl _)]
  have hnext : QuietStep s { s with nextConn := s.nextConn + 1 } :=
    { QuietStep.refl s with queue := queue_congr rfl }
  have heffects : ∀ x ∈ [Effect.malloc (.connCtx s.nextConn),
      .accepted s.nextConn fd], QuietEffect s x := by
    simp [QuietEffect]
  have hlogged := (hnext.setKernel fd (some s.nextConn)).emit heffects
  have hempty := (hlogged.queue s.nextConn).trans hnew
  have hctx := createCtx_bufWrite sock fd mallocOk
  unfold ixfdCommonsockAcceptCb
  split
  · apply (hlogged.setConn (hctx.trans hempty.symm)).withStack
    simp
  · apply hlogged.setConn
    exact hctx.trans hempty.symm

theorem quiet_afterCallback
    {s t : Net} (h : afterCallback s = some t) :
    QuietStep s t := by
  unfold afterCallback at h
  split at h
  case h_1 j stack hstack =>
      cases h
      apply (quiet_pop hstack).emit
      simp [QuietEffect, hstack]
  case h_2 c j stack hstack =>
      cases h
      apply (quiet_pop hstack).emit
      simp [QuietEffect]
  case h_3 c stack hstack =>
      obtain ⟨ctx, hc, rfl⟩ := Option.map_eq_some_iff.mp h
      apply (quiet_pop hstack).setConn
      exact (queue_of_conns hc).symm
  case h_4 c stack hstack =>
      cases h
      exact quiet_pop hstack
  case h_5 c stack hstack =>
      obtain ⟨ctx, hc, rfl⟩ := Option.map_eq_some_iff.mp h
      exact (quiet_pop hstack).close hc
  case h_6 => cases h

/-! ## Bytes accepted by the kernel -/

/-- Bytes the kernel has accepted from those `write(2)` whose connection and
call pass a test. -/
def acceptedWhere (p : Nat → Nat → Bool) (log : List Effect) : List UInt8 :=
  log.flatMap fun
    | .write c j _ _ given ret => if p c j then given.take ret.toNat else []
    | _ => []

@[simp] theorem acceptedWhere_append
    (p : Nat → Nat → Bool) (as bs : List Effect) :
    acceptedWhere p (as ++ bs) =
      acceptedWhere p as ++ acceptedWhere p bs := by
  exact List.flatMap_append

theorem acceptedWhere_quiet
    (p : Nat → Nat → Bool) {s : Net} {es : List Effect}
    (h : ∀ x ∈ es, QuietEffect s x) :
    acceptedWhere p es = [] := by
  apply List.flatMap_eq_nil_iff.mpr
  intro x hx
  have hq := h x hx
  cases x with
  | write => exact hq.elim
  | _ => rfl

theorem accepted_write
    (p : Nat → Nat → Bool) (s : Net) (c : Nat) (ctx : IxfdConnCtx)
    (data : Buffer) (cb : Option Nat) (args : Nat) (ret : Int) :
    acceptedWhere p (ixfdCommonsockWrite s c ctx data cb args ret).log =
      acceptedWhere p s.log ++
        if p c s.calls then data.bytes.take ret.toNat else [] := by
  by_cases hlt : toSizeT ret < data.bytes.length
  · rw [write_queued _ _ _ _ _ _ hlt]
    simp [acceptedWhere]
  · rw [write_complete _ _ _ _ _ _ hlt]
    cases cb <;> simp [acceptedWhere]

theorem accepted_writeCbIter
    (p : Nat → Nat → Bool) (s : Net) (c : Nat) (ctx : IxfdConnCtx)
    (w : IxfdSockWriteCtx) (rest : List IxfdSockWriteCtx) (ret : Int) :
    acceptedWhere p (ixfdCommonsockWriteCbIter s c ctx w rest ret).log =
      acceptedWhere p s.log ++
        if p c w.call then w.remaining.take ret.toNat else [] := by
  by_cases hlt : toSizeT ret < w.lenRemain
  · rw [writeCbIter_advanced _ _ _ _ _ hlt]
    simp [acceptedWhere]
  · rw [writeCbIter_complete _ _ _ _ _ hlt]
    rcases w.cb with _ | f <;> simp [acceptedWhere]

/-! ## Queues after the two functions -/

/-- The queue gains an entry exactly when bytes are left. -/
theorem queue_write
    {s : Net} {c : Nat} {ctx : IxfdConnCtx} (hc : s.conns c = some ctx)
    (data : Buffer) (cb : Option Nat) (args : Nat) (ret : Int) (d : Nat) :
    queue (ixfdCommonsockWrite s c ctx data cb args ret) d =
      queue s d ++
        if h : c = d ∧ toSizeT ret < data.bytes.length then
          [.ofCall s.calls data (toSizeT ret) h.2 cb]
        else [] := by
  by_cases hlt : toSizeT ret < data.bytes.length
  · rw [write_queued _ _ _ _ _ _ hlt]
    by_cases hd : d = c
    · subst hd
      simp [queue, hc, hlt]
    · have hne : ¬ c = d := fun h => hd h.symm
      simp only [hne, false_and, dite_false, List.append_nil]
      exact (queue_congr rfl d).trans
        ((queue_setConn_ne _ _ hd).trans (queue_congr rfl d))
  · rw [write_complete _ _ _ _ _ _ hlt]
    have hnot : ¬ (c = d ∧ toSizeT ret < data.bytes.length) :=
      fun h => hlt h.2
    simp only [hnot, dite_false, List.append_nil]
    cases cb <;> exact queue_congr rfl d

/-- The front entry is advanced or removed, other queues stay. -/
theorem queue_writeCbIter
    (s : Net) (c : Nat) (ctx : IxfdConnCtx) (w : IxfdSockWriteCtx)
    (rest : List IxfdSockWriteCtx) (ret : Int) (d : Nat) :
    queue (ixfdCommonsockWriteCbIter s c ctx w rest ret) d =
      if c = d then
        if h : toSizeT ret < w.lenRemain then
          w.advance (toSizeT ret) h :: rest
        else rest
      else queue s d := by
  by_cases hlt : toSizeT ret < w.lenRemain
  · rw [writeCbIter_advanced _ _ _ _ _ hlt]
    by_cases hd : c = d
    · simp [queue, hd, hlt]
    · have hne : d ≠ c := fun h => hd h.symm
      simp only [hd, if_false]
      exact (queue_setConn_ne _ _ hne).trans (queue_congr rfl d)
  · rw [writeCbIter_complete _ _ _ _ _ hlt]
    by_cases hd : c = d
    · rcases w.cb with _ | f <;> simp [queue, hd, hlt]
    · have hne : d ≠ c := fun h => hd h.symm
      simp only [hd, if_false]
      have hkept : queue ((s.emit
          [.write c w.call ctx.fd (s.kernel ctx.fd) w.remaining ret]).setConn
            c { ctx with bufWrite := rest }) d = queue s d :=
        (queue_setConn_ne _ _ hne).trans (queue_congr rfl d)
      rcases w.cb with _ | f
      · exact (queue_congr rfl d).trans hkept
      · exact (queue_congr rfl d).trans hkept

/-! ## The two kinds of steps that write -/

theorem onConn_eq_some
    {s t : Net} {c : Nat} {ok : IxfdConnCtx → Bool} {f : IxfdConnCtx → Net}
    (h : onConn s c ok f = some t) :
    ∃ ctx, s.conns c = some ctx ∧ ok ctx = true ∧ t = f ctx := by
  unfold onConn at h
  split at h
  · cases h
  · rename_i ctx hc
    split at h
    · rename_i hok
      cases h
      exact ⟨ctx, hc, hok, rfl⟩
    · cases h

theorem drainWrite_eq_some
    {sock : IxfdSock} {s t : Net} {ret : Int}
    (h : step sock s (.drainWrite ret) = some t) :
    ∃ c stack ctx w rest,
      s.stack = .drain c :: stack ∧
      s.conns c = some ctx ∧
      ctx.bufWrite = w :: rest ∧
      writeRet (s.kernel ctx.fd) w.lenRemain ret = true ∧
      t = ixfdCommonsockWriteCbIter s c ctx w rest ret := by
  simp only [step] at h
  split at h
  · rename_i c stack hstack
    split at h
    · cases h
    · rename_i ctx hc
      split at h
      · cases h
      · rename_i w rest hq
        split at h
        · rename_i hok
          cases h
          exact ⟨c, stack, ctx, w, rest, hstack, hc, hq, hok, rfl⟩
        · cases h
  · cases h

theorem drainEnd_eq_some
    {sock : IxfdSock} {s t : Net}
    (h : step sock s .drainEnd = some t) :
    ∃ c stack ctx,
      s.stack = .drain c :: stack ∧
      s.conns c = some ctx ∧
      ctx.bufWrite = [] ∧
      t = (s.withStack stack).setConn c (quietCtx ctx) := by
  simp only [step] at h
  split at h
  · rename_i c stack hstack
    obtain ⟨ctx, hc, hq, rfl⟩ := onConn_eq_some h
    exact ⟨c, stack, ctx, hstack, hc, List.isEmpty_iff.mp hq, rfl⟩
  · cases h

theorem accept_eq_some
    {sock : IxfdSock} {s t : Net} {fd : Int} {mallocOk : Bool}
    (h : step sock s (.accept fd mallocOk) = some t) :
    s.stack = [] ∧ s.kernel fd = none ∧
      t = ixfdCommonsockAcceptCb sock s fd mallocOk := by
  simp only [step] at h
  split at h
  · rename_i hok
    cases h
    simp only [Bool.and_eq_true, List.isEmpty_iff, Option.isNone_iff_eq_none]
      at hok
    exact ⟨hok.1.1, hok.1.2, rfl⟩
  · cases h

/-- **Case analysis of a step**: a call of `ixfd_commonsock_write`, an iteration
of `write_cb`, or a quiet step. -/
theorem step_cases
    {sock : IxfdSock} {s t : Net} {l : Label}
    (hk : Known s) (h : step sock s l = some t) :
    (∃ c data cb args ret ctx,
        l = .write c data cb args ret ∧
        s.conns c = some ctx ∧
        writeRet (s.kernel ctx.fd) data.bytes.length ret = true ∧
        t = ixfdCommonsockWrite s c ctx data cb args ret) ∨
      (∃ ret c stack ctx w rest,
        l = .drainWrite ret ∧
        s.stack = .drain c :: stack ∧
        s.conns c = some ctx ∧
        ctx.bufWrite = w :: rest ∧
        writeRet (s.kernel ctx.fd) w.lenRemain ret = true ∧
        t = ixfdCommonsockWriteCbIter s c ctx w rest ret) ∨
      ((∀ c data cb args ret, l ≠ .write c data cb args ret) ∧
        (∀ ret, l ≠ .drainWrite ret) ∧ QuietStep s t) := by
  cases l with
  | write c data cb args ret =>
      obtain ⟨ctx, hc, hok, rfl⟩ := onConn_eq_some h
      rw [Bool.and_eq_true] at hok
      exact Or.inl ⟨c, data, cb, args, ret, ctx, rfl, hc, hok.2, rfl⟩
  | drainWrite ret =>
      obtain ⟨c, stack, ctx, w, rest, hstack, hc, hq, hok, rfl⟩ :=
        drainWrite_eq_some h
      exact Or.inr (Or.inl
        ⟨ret, c, stack, ctx, w, rest, rfl, hstack, hc, hq, hok, rfl⟩)
  | read c len ret =>
      obtain ⟨ctx, hc, _, rfl⟩ := onConn_eq_some h
      exact Or.inr (Or.inr ⟨by simp, by simp, quiet_read ret hc⟩)
  | close c =>
      obtain ⟨ctx, hc, _, rfl⟩ := onConn_eq_some h
      exact Or.inr (Or.inr ⟨by simp, by simp, (QuietStep.refl s).close hc⟩)
  | setBufreadLen c len mallocOk =>
      obtain ⟨ctx, hc, _, rfl⟩ := onConn_eq_some h
      refine Or.inr (Or.inr ⟨by simp, by simp, ?_⟩)
      apply (QuietStep.refl s).setConn
      simp [queue_of_conns hc]
  | callbackReturns =>
      exact Or.inr (Or.inr ⟨by simp, by simp, quiet_afterCallback h⟩)
  | accept fd mallocOk =>
      obtain ⟨_, _, rfl⟩ := accept_eq_some h
      exact Or.inr (Or.inr
        ⟨by simp, by simp, quiet_acceptCb sock fd mallocOk hk⟩)
  | readReady c ret =>
      obtain ⟨ctx, hc, _, rfl⟩ := onConn_eq_some h
      exact Or.inr (Or.inr ⟨by simp, by simp, quiet_readCb sock ret hc⟩)
  | writeReady c =>
      obtain ⟨ctx, hc, _, rfl⟩ := onConn_eq_some h
      refine Or.inr (Or.inr ⟨by simp, by simp, ?_⟩)
      apply (QuietStep.refl s).withStack
      simp
  | drainEnd =>
      obtain ⟨c, stack, ctx, hstack, hc, _, rfl⟩ := drainEnd_eq_some h
      refine Or.inr (Or.inr ⟨by simp, by simp, ?_⟩)
      apply (quiet_pop hstack).setConn
      exact (queue_of_conns hc).symm

/-! ## Context numbers -/

theorem known_init :
    Known .init := by
  intro c _
  rfl

theorem known_congr
    {s t : Net} (h : Known s)
    (hconns : t.conns = s.conns) (hnext : t.nextConn = s.nextConn) :
    Known t := by
  intro c hc
  rw [hconns]
  exact h c (hnext ▸ hc)

theorem known_write
    {s : Net} {c : Nat} {ctx : IxfdConnCtx} (h : Known s)
    (hc : s.conns c = some ctx)
    (data : Buffer) (cb : Option Nat) (args : Nat) (ret : Int) :
    Known (ixfdCommonsockWrite s c ctx data cb args ret) := by
  by_cases hlt : toSizeT ret < data.bytes.length
  · rw [write_queued _ _ _ _ _ _ hlt]
    exact known_congr (known_setConn h hc) rfl rfl
  · rw [write_complete _ _ _ _ _ _ hlt]
    cases cb with
    | none => exact known_congr h rfl rfl
    | some f => exact known_congr h rfl rfl

theorem known_writeCbIter
    {s : Net} {c : Nat} {ctx : IxfdConnCtx} (h : Known s)
    (hc : s.conns c = some ctx)
    (w : IxfdSockWriteCtx) (rest : List IxfdSockWriteCtx) (ret : Int) :
    Known (ixfdCommonsockWriteCbIter s c ctx w rest ret) := by
  by_cases hlt : toSizeT ret < w.lenRemain
  · rw [writeCbIter_advanced _ _ _ _ _ hlt]
    exact known_congr (known_setConn h hc) rfl rfl
  · rw [writeCbIter_complete _ _ _ _ _ hlt]
    rcases w.cb with _ | f
    · exact known_congr (known_setConn h hc) rfl rfl
    · exact known_congr (known_setConn h hc) rfl rfl

theorem known_close
    {s : Net} {c : Nat} {ctx : IxfdConnCtx} (h : Known s)
    (hc : s.conns c = some ctx) :
    Known (ixfdCommonsockClose s c ctx) :=
  known_congr (known_setConn h hc) rfl rfl

theorem known_acceptCb
    (sock : IxfdSock) {s : Net} (fd : Int) (mallocOk : Bool)
    (h : Known s) :
    Known (ixfdCommonsockAcceptCb sock s fd mallocOk) := by
  have hnew : ∀ ctx, Known
      { s with
        conns := Function.update s.conns s.nextConn (some ctx)
        nextConn := s.nextConn + 1 } := by
    intro ctx c hc
    have hlt : s.nextConn < c := hc
    have hne : c ≠ s.nextConn := by omega
    simp only [Function.update_of_ne hne]
    exact h c (by omega)
  unfold ixfdCommonsockAcceptCb
  split
  · exact known_congr (hnew _) rfl rfl
  · exact known_congr (hnew _) rfl rfl

theorem known_afterCallback
    {s t : Net} (h : Known s) (ht : afterCallback s = some t) :
    Known t := by
  unfold afterCallback at ht
  split at ht
  case h_1 =>
      cases ht
      exact known_congr h rfl rfl
  case h_2 =>
      cases ht
      exact known_congr h rfl rfl
  case h_3 =>
      obtain ⟨ctx, hc, rfl⟩ := Option.map_eq_some_iff.mp ht
      exact known_congr (known_setConn h hc) rfl rfl
  case h_4 =>
      cases ht
      exact known_congr h rfl rfl
  case h_5 =>
      obtain ⟨ctx, hc, rfl⟩ := Option.map_eq_some_iff.mp ht
      exact known_congr (known_setConn h hc) rfl rfl
  case h_6 => cases ht

theorem known_step
    {sock : IxfdSock} {s t : Net} {l : Label}
    (h : Known s) (ht : step sock s l = some t) :
    Known t := by
  cases l with
  | write c data cb args ret =>
      obtain ⟨ctx, hc, _, rfl⟩ := onConn_eq_some ht
      exact known_write h hc data cb args ret
  | read c len ret =>
      obtain ⟨ctx, hc, _, rfl⟩ := onConn_eq_some ht
      unfold ixfdCommonsockRead
      split
      · exact known_congr (known_setConn h hc) rfl rfl
      · exact known_congr h rfl rfl
  | close c =>
      obtain ⟨ctx, hc, _, rfl⟩ := onConn_eq_some ht
      exact known_close h hc
  | setBufreadLen c len mallocOk =>
      obtain ⟨ctx, hc, _, rfl⟩ := onConn_eq_some ht
      exact known_setConn h hc
  | callbackReturns => exact known_afterCallback h ht
  | accept fd mallocOk =>
      obtain ⟨_, _, rfl⟩ := accept_eq_some ht
      exact known_acceptCb sock fd mallocOk h
  | readReady c ret =>
      obtain ⟨ctx, hc, _, rfl⟩ := onConn_eq_some ht
      unfold ixfdCommonsockReadCb
      split
      · exact known_congr h rfl rfl
      · split
        · exact known_congr h rfl rfl
        · split
          · exact known_congr h rfl rfl
          · exact known_congr (known_setConn h hc) rfl rfl
        · split <;> exact known_congr h rfl rfl
  | writeReady c =>
      obtain ⟨ctx, hc, _, rfl⟩ := onConn_eq_some ht
      exact known_congr h rfl rfl
  | drainWrite ret =>
      obtain ⟨c, stack, ctx, w, rest, _, hc, _, _, rfl⟩ :=
        drainWrite_eq_some ht
      exact known_writeCbIter h hc w rest ret
  | drainEnd =>
      obtain ⟨c, stack, ctx, _, hc, _, rfl⟩ := drainEnd_eq_some ht
      exact known_congr (known_setConn h hc) rfl rfl

end Sock
end Iojxd
