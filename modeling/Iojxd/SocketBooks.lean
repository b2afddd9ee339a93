import Iojxd.SocketRuns

/-!
# Steps and queued writes

What each step does to the queues and to the blocks that
`ixfd_commonsock_write` allocates: a call of it queues an entry under a new
number, `ixfd_commonsock_write_cb` completes or finishes the front entry, and
every other step leaves queues and blocks alone.
-/

namespace Iojxd
namespace Socket

open Sock TransitionRun

/-- The calls whose data is queued on a context. -/
def queued (s : Net) (c : Nat) : List Nat :=
  (queue s c).map IxfdSockWriteCtx.call

/-- What `ixfd_commonsock_write` allocates for call `j`. -/
def WriteBlock (j : Nat) (b : Block) : Prop :=
  b = .writeCtx j ∨ b = .dataCopy j

/-! ## Steps that leave the blocks alone -/

/-- Allocations and releases that ownership is about. -/
def Effect.tracked : Effect → Bool
  | .malloc (.writeCtx _) => true
  | .malloc (.dataCopy _) => true
  | .free _ => true
  | _ => false

theorem tracked_malloc {j : Nat} {b : Block} (hb : WriteBlock j b) :
    Effect.tracked (.malloc b) = true := by
  rcases hb with rfl | rfl <;> rfl

/-- Queues, blocks and completion callbacks of `write_cb` are left alone;
`write_cb` is entered where the write watcher is started. -/
structure SameBooks (s t : Net) : Prop where
  queued : ∀ c, queued t c = queued s c
  calls : s.calls ≤ t.calls
  done : ∀ c j, .drainDone c j ∈ t.stack ↔ .drainDone c j ∈ s.stack
  drain : ∀ c, .drain c ∈ t.stack → .drain c ∈ s.stack ∨
    ∃ ctx, s.conns c = some ctx ∧ ctx.eventWrite.active = true
  log : ∃ es, t.log = s.log ++ es ∧ ∀ x ∈ es, Effect.tracked x = false

theorem queued_congr
    {s t : Net} (h : t.conns = s.conns) (c : Nat) :
    queued t c = queued s c :=
  congrArg (List.map IxfdSockWriteCtx.call) (queue_congr h c)

theorem queued_of_conns
    {s : Net} {c : Nat} {ctx : IxfdConnCtx} (hc : s.conns c = some ctx) :
    queued s c = ctx.bufWrite.map IxfdSockWriteCtx.call :=
  congrArg (List.map IxfdSockWriteCtx.call) (queue_of_conns hc)

theorem queued_setConn
    (s : Net) (c : Nat) (ctx : IxfdConnCtx) (d : Nat) :
    queued (s.setConn c ctx) d =
      if d = c then ctx.bufWrite.map IxfdSockWriteCtx.call
      else queued s d := by
  split
  · rename_i hdc
    subst hdc
    exact congrArg _ (queue_setConn_self s d ctx)
  · rename_i hdc
    exact congrArg _ (queue_setConn_ne s ctx hdc)

namespace SameBooks

variable {s m : Net}

theorem refl (s : Net) :
    SameBooks s s where
  queued _ := rfl
  calls := le_rfl
  done _ _ := Iff.rfl
  drain _ hd := Or.inl hd
  log := ⟨[], by simp, by simp⟩

theorem emit
    (h : SameBooks s m) (es : List Effect)
    (hes : ∀ x ∈ es, Effect.tracked x = false) :
    SameBooks s (m.emit es) where
  queued d := (queued_congr rfl d).trans (h.queued d)
  calls := h.calls
  done := h.done
  drain := h.drain
  log := by
    rcases h.log with ⟨es₀, hlog, hes₀⟩
    refine ⟨es₀ ++ es, ?_, List.forall_mem_append.mpr ⟨hes₀, hes⟩⟩
    rw [Net.emit_log, hlog, List.append_assoc]

/-- A context changes and keeps the calls in its queue. -/
theorem setConn
    (h : SameBooks s m) {c : Nat} {ctx : IxfdConnCtx}
    (hq : ctx.bufWrite.map IxfdSockWriteCtx.call = Socket.queued m c) :
    SameBooks s (m.setConn c ctx) where
  queued d := by
    rw [queued_setConn, ← h.queued]
    split
    · rename_i hdc
      rw [hdc, hq]
    · rfl
  calls := h.calls
  done := h.done
  drain := h.drain
  log := h.log

/-- The other fields do not matter. -/
theorem congr
    (h : SameBooks s m) {t : Net} (hconns : t.conns = m.conns)
    (hcalls : m.calls ≤ t.calls) (hstack : t.stack = m.stack)
    (hlog : t.log = m.log) :
    SameBooks s t where
  queued d := (queued_congr hconns d).trans (h.queued d)
  calls := h.calls.trans hcalls
  done := by
    rw [hstack]
    exact h.done
  drain := by
    rw [hstack]
    exact h.drain
  log := by
    rw [hlog]
    exact h.log

/-- A frame that is not one of `write_cb` is entered. -/
theorem push
    (h : SameBooks s m) {frame : Frame}
    (hdone : ∀ c j, frame ≠ .drainDone c j) (hdrain : ∀ c, frame ≠ .drain c) :
    SameBooks s (m.withStack (frame :: m.stack)) where
  queued d := (queued_congr rfl d).trans (h.queued d)
  calls := h.calls
  done := by
    intro c j
    rw [← h.done]
    exact List.mem_cons.trans (or_iff_right (Ne.symm (hdone c j)))
  drain := by
    intro c hc
    rcases List.mem_cons.mp hc with heq | hc
    · exact absurd heq.symm (hdrain c)
    · exact h.drain c hc
  log := h.log

/-- A frame other than a completion callback of `write_cb` is left. -/
theorem pop
    {frame : Frame} {stack : List Frame} (hstack : s.stack = frame :: stack)
    (hdone : ∀ c j, frame ≠ .drainDone c j) :
    SameBooks s (s.withStack stack) where
  queued d := queued_congr rfl d
  calls := le_rfl
  done := by
    intro c j
    rw [hstack]
    exact (List.mem_cons.trans (or_iff_right (Ne.symm (hdone c j)))).symm
  drain := by
    intro c hc
    rw [hstack]
    exact Or.inl (List.mem_cons_of_mem _ hc)
  log := ⟨[], by simp, by simp⟩

theorem close
    (h : SameBooks s m) {c : Nat} {ctx : IxfdConnCtx}
    (hc : m.conns c = some ctx) :
    SameBooks s (ixfdCommonsockClose m c ctx) := by
  have hset : SameBooks s (m.setConn c (closeCtx ctx)) :=
    h.setConn (queued_of_conns hc).symm
  have hkernel : SameBooks s
      ((m.setConn c (closeCtx ctx)).setKernel ctx.fd none) :=
    hset.congr rfl le_rfl rfl rfl
  exact hkernel.emit _ (by simp [Effect.tracked])

/-- The write watcher fires. -/
theorem writeReady
    {c : Nat} {ctx : IxfdConnCtx}
    (hc : s.conns c = some ctx) (hactive : ctx.eventWrite.active = true) :
    SameBooks s (s.withStack (.drain c :: s.stack)) where
  queued d := queued_congr rfl d
  calls := le_rfl
  done d j := List.mem_cons.trans (or_iff_right (by simp))
  drain := by
    intro d hd
    rcases List.mem_cons.mp hd with heq | hd
    · cases heq
      exact Or.inr ⟨ctx, hc, hactive⟩
    · exact Or.inl hd
  log := ⟨[], by simp, by simp⟩

end SameBooks

/-! ## Steps of the connection layer -/

/-- A call of `ixfd_commonsock_write` queues what the kernel did not take. -/
structure Queues (s t : Net) (c : Nat) : Prop where
  queued : ∀ d, queued t d = queued s d ++ if d = c then [s.calls] else []
  calls : t.calls = s.calls + 1
  stack : t.stack = s.stack
  log : ∃ es, t.log = s.log ++ es ∧ (∀ b, .free b ∉ es) ∧
    ∀ b, .malloc b ∈ es ↔ WriteBlock s.calls b

/-- An iteration of `write_cb` completes the front entry and calls its
callback. -/
structure Completes (s t : Net) (c j : Nat) : Prop where
  front : ∃ js, queued s c = j :: js ∧
    ∀ d, queued t d = if d = c then js else queued s d
  calls : t.calls = s.calls
  stack : t.stack = .drainDone c j :: s.stack
  log : ∃ es, t.log = s.log ++ es ∧ ∀ x ∈ es, Effect.tracked x = false

/-- What one step of the connection layer does to queued writes. -/
inductive BookMove (s : Net) (l : Sock.Label) (t : Net) : Prop
  | same
      (hno : finishes s l = false) (h : SameBooks s t)
  | queues {c : Nat} {data : Buffer} {cb : Option Nat} {args : Nat} {ret : Int}
      (hno : finishes s l = false)
      (hl : l = .write c data cb args ret) (h : Queues s t c)
  | completes {c j : Nat}
      (hno : finishes s l = false) (h : Completes s t c j)
  | finishes {c : Nat} {es : List Effect}
      (hyes : finishes s l = true) (hlog : t.log = s.log ++ es)
      (hfree : es.count (.free (.connCtx c)) = 1)

section ConnSteps

variable {s : Net} {c : Nat} {ctx : IxfdConnCtx}

theorem sameBooks_emitRead (s : Net) (c : Nat) (fd : Int) :
    SameBooks s (s.emit [.read c fd (s.kernel fd)]) :=
  (SameBooks.refl s).emit _ (by simp [Effect.tracked])

theorem bookMove_write
    (hc : s.conns c = some ctx)
    (data : Buffer) (cb : Option Nat) (args : Nat) (ret : Int) :
    BookMove s (.write c data cb args ret)
      (ixfdCommonsockWrite s c ctx data cb args ret) := by
  by_cases hlt : toSizeT ret < data.bytes.length
  · refine .queues rfl rfl ⟨?_, ?_, ?_, ?_⟩
    · intro d
      unfold queued
      rw [queue_write hc, List.map_append]
      by_cases hdc : d = c
      · subst hdc
        simp [hlt]
      · simp [hdc, Ne.symm hdc]
    · rw [write_queued _ _ _ _ _ _ hlt]
      rfl
    · rw [write_queued _ _ _ _ _ _ hlt]
      rfl
    · refine ⟨[.call c s.calls data.bytes,
        .write c s.calls ctx.fd (s.kernel ctx.fd) data.bytes ret,
        .malloc (.writeCtx s.calls), .malloc (.dataCopy s.calls),
        .returned s.calls false], ?_, by simp, ?_⟩
      · rw [write_queued _ _ _ _ _ _ hlt]
        simp
      · intro b
        simp [WriteBlock]
  · refine .same rfl ?_
    rw [write_complete _ _ _ _ _ _ hlt]
    have hcall : SameBooks s { s with calls := s.calls + 1 } :=
      (SameBooks.refl s).congr rfl (Nat.le_succ _) rfl rfl
    have hwrite := hcall.emit
      [.call c s.calls data.bytes,
        .write c s.calls ctx.fd (s.kernel ctx.fd) data.bytes ret]
      (by simp [Effect.tracked])
    cases cb with
    | none => exact hwrite.emit _ (by simp [Effect.tracked])
    | some f =>
        exact (hwrite.emit _ (by simp [Effect.tracked])).push
          (by simp) (by simp)

theorem bookMove_writeCbIter
    {stack : List Frame} {w : IxfdSockWriteCtx}
    {rest : List IxfdSockWriteCtx} (ret : Int)
    (hstack : s.stack = .drain c :: stack)
    (hc : s.conns c = some ctx) (hq : ctx.bufWrite = w :: rest) :
    BookMove s (.drainWrite ret)
      (ixfdCommonsockWriteCbIter s c ctx w rest ret) := by
  have hqueue : queue s c = w :: rest := by rw [queue_of_conns hc, hq]
  have hqueued : queued s c = w.call :: rest.map IxfdSockWriteCtx.call := by
    simp [queued, hqueue]
  have hwrite := (SameBooks.refl s).emit
    [.write c w.call ctx.fd (s.kernel ctx.fd) w.remaining ret]
    (by simp [Effect.tracked])
  by_cases hlt : toSizeT ret < w.lenRemain
  · refine .same ?_ ?_
    · simp [finishes, hstack, hqueue, hlt]
    · rw [writeCbIter_advanced _ _ _ _ _ hlt]
      apply hwrite.setConn
      exact hqueued.symm
  · have hle : w.lenRemain ≤ toSizeT ret := not_lt.mp hlt
    rw [writeCbIter_complete _ _ _ _ _ hlt]
    cases hcb : w.cb with
    | none =>
        have hlog : ((s.emit
            [.write c w.call ctx.fd (s.kernel ctx.fd) w.remaining ret]).setConn
              c { ctx with bufWrite := rest }).log ++
              [Effect.free (.dataCopy w.call), Effect.free (.connCtx c)] =
            s.log ++
              [Effect.write c w.call ctx.fd (s.kernel ctx.fd) w.remaining ret,
                Effect.free (.dataCopy w.call), Effect.free (.connCtx c)] := by
          simp
        refine .finishes (c := c) ?_ hlog ?_
        · simp [finishes, hstack, hqueue, hle, hcb]
        · simp
    | some f =>
        refine .completes (c := c) (j := w.call) ?_ ⟨?_, rfl, rfl, ?_⟩
        · simp [finishes, hstack, hqueue, hcb]
        · refine ⟨rest.map IxfdSockWriteCtx.call, hqueued, ?_⟩
          intro d
          refine (queued_congr rfl d).trans ((queued_setConn _ c _ d).trans ?_)
          rfl
        · refine ⟨[.write c w.call ctx.fd (s.kernel ctx.fd) w.remaining ret,
            .callback c w.call f w.cbArgs], ?_, by simp [Effect.tracked]⟩
          simp

theorem sameBooks_readCb
    {sock : IxfdSock} {ret : ReadRet} (hc : s.conns c = some ctx) :
    SameBooks s (ixfdCommonsockReadCb sock s c ctx ret) := by
  have hread := sameBooks_emitRead s c ctx.fd
  unfold ixfdCommonsockReadCb
  split
  · exact (SameBooks.refl s).push (by simp) (by simp)
  · split
    · exact hread
    · split
      · exact hread.push (by simp) (by simp)
      · exact hread.close hc
    · split
      · exact (hread.emit _ (by simp [Effect.tracked])).push (by simp) (by simp)
      · exact hread

theorem bookMove_afterCallback
    {t : Net} (h : afterCallback s = some t) :
    BookMove s .callbackReturns t := by
  unfold afterCallback at h
  split at h
  case h_1 j stack hstack =>
      cases h
      refine .same (by simp [finishes, hstack]) ?_
      exact (SameBooks.pop hstack (by simp)).emit _ (by simp [Effect.tracked])
  case h_2 c j stack hstack =>
      cases h
      have hlog : ((s.withStack stack).emit
          [.free (.dataCopy j), .free (.connCtx c)]).log =
          s.log ++
            [Effect.free (.dataCopy j), Effect.free (.connCtx c)] := rfl
      exact .finishes (c := c) (by simp [finishes, hstack]) hlog (by simp)
  case h_3 c stack hstack =>
      obtain ⟨ctx, hc, rfl⟩ := Option.map_eq_some_iff.mp h
      refine .same (by simp [finishes, hstack]) ?_
      exact (SameBooks.pop hstack (by simp)).setConn (queued_of_conns hc).symm
  case h_4 c stack hstack =>
      cases h
      exact .same (by simp [finishes, hstack]) (SameBooks.pop hstack (by simp))
  case h_5 c stack hstack =>
      obtain ⟨ctx, hc, rfl⟩ := Option.map_eq_some_iff.mp h
      refine .same (by simp [finishes, hstack]) ?_
      exact (SameBooks.pop hstack (by simp)).close hc
  case h_6 => cases h

theorem bookMove_of_step
    {sock : IxfdSock} {t : Net} {l : Sock.Label}
    (hl : ∀ fd mallocOk, l ≠ .accept fd mallocOk)
    (h : Sock.step sock s l = some t) :
    BookMove s l t := by
  cases l with
  | write c data cb args ret =>
      obtain ⟨ctx, hc, _, rfl⟩ := onConn_eq_some h
      exact bookMove_write hc data cb args ret
  | read c len ret =>
      obtain ⟨ctx, hc, _, rfl⟩ := onConn_eq_some h
      refine .same rfl ?_
      have hread := sameBooks_emitRead s c ctx.fd
      unfold ixfdCommonsockRead
      split
      · exact hread.close hc
      · exact hread
  | close c =>
      obtain ⟨ctx, hc, _, rfl⟩ := onConn_eq_some h
      exact .same rfl ((SameBooks.refl s).close hc)
  | setBufreadLen c len mallocOk =>
      obtain ⟨ctx, hc, _, rfl⟩ := onConn_eq_some h
      refine .same rfl ((SameBooks.refl s).setConn ?_)
      rw [setBufreadLen_bufWrite, queued_of_conns hc]
  | callbackReturns => exact bookMove_afterCallback h
  | accept fd mallocOk => exact absurd rfl (hl fd mallocOk)
  | readReady c ret =>
      obtain ⟨ctx, hc, _, rfl⟩ := onConn_eq_some h
      exact .same rfl (sameBooks_readCb hc)
  | writeReady c =>
      obtain ⟨ctx, hc, hok, rfl⟩ := onConn_eq_some h
      simp only [Bool.and_eq_true] at hok
      exact .same rfl (SameBooks.writeReady hc hok.1.2)
  | drainWrite ret =>
      obtain ⟨c, stack, ctx, w, rest, hstack, hc, hq, _, rfl⟩ :=
        drainWrite_eq_some h
      exact bookMove_writeCbIter ret hstack hc hq
  | drainEnd =>
      obtain ⟨c, stack, ctx, hstack, hc, _, rfl⟩ := drainEnd_eq_some h
      refine .same rfl ?_
      exact (SameBooks.pop hstack (by simp)).setConn (queued_of_conns hc).symm

end ConnSteps

/-! ## Steps of the socket layer -/

theorem sameBooks_openFile (s : Net) (fd : Option Int) :
    SameBooks s (openFile s fd) := by
  cases fd with
  | none => exact SameBooks.refl s
  | some m => exact (SameBooks.refl s).congr rfl le_rfl rfl rfl

/-- A new context has an empty queue. -/
theorem sameBooks_newConn
    {s m : Net} {ctx : IxfdConnCtx} (hk : Known s) (h : SameBooks s m)
    (hconns : m.conns = s.conns) (hq : ctx.bufWrite = []) :
    SameBooks s (m.setConn s.nextConn ctx) := by
  apply h.setConn
  rw [hq, queued_congr hconns]
  simp [queued, queue, hk s.nextConn le_rfl]

theorem sameBooks_addConn
    {s : Net} {ctx : IxfdConnCtx} (hk : Known s) (hq : ctx.bufWrite = []) :
    SameBooks s (addConn s ctx) := by
  have hnext : SameBooks s { s with nextConn := s.nextConn + 1 } :=
    (SameBooks.refl s).congr rfl le_rfl rfl rfl
  have hmalloc := hnext.emit [.malloc (.connCtx s.nextConn)]
    (by simp [Effect.tracked])
  exact sameBooks_newConn hk hmalloc rfl hq

theorem sameBooks_acceptCb
    (sock : IxfdSock) {s : Net} (fd : Int) (mallocOk : Bool) (hk : Known s) :
    SameBooks s (ixfdCommonsockAcceptCb sock s fd mallocOk) := by
  have hnext : SameBooks s { s.setKernel fd (some s.nextConn) with
      nextConn := s.nextConn + 1 } :=
    (SameBooks.refl s).congr rfl le_rfl rfl rfl
  have hmalloc := hnext.emit
    [.malloc (.connCtx s.nextConn), .accepted s.nextConn fd]
    (by simp [Effect.tracked])
  have hctx := createCtx_bufWrite sock fd mallocOk
  unfold ixfdCommonsockAcceptCb
  split
  · exact (sameBooks_newConn hk hmalloc rfl hctx).push (by simp) (by simp)
  · exact sameBooks_newConn hk hmalloc rfl hctx

theorem sameBooks_acceptFailed
    (sock : IxfdSock) {s : Net} (mallocOk : Bool) (hk : Known s) :
    SameBooks s (ixfdCommonsockAcceptFailed sock s mallocOk) := by
  have hctx := createCtx_bufWrite sock (-1) mallocOk
  unfold ixfdCommonsockAcceptFailed
  split
  · exact (sameBooks_addConn hk hctx).push (by simp) (by simp)
  · exact sameBooks_addConn hk hctx

theorem sameBooks_disconnect
    (s : Layer) (k : Nat) (sock : IxfdSockObj) :
    SameBooks s.net (ixfdCommonsockDisconnect s k sock).net ∧
      (ixfdCommonsockDisconnect s k sock).freedCtx = s.freedCtx := by
  unfold ixfdCommonsockDisconnect
  rcases closeDefault_cases s sock with ⟨c, ctx, hdef, _, heq⟩ | ⟨_, heq⟩
  · have hclose := (SameBooks.refl s.net).close (defaultConn_eq_some hdef).2.2
    rw [heq]
    exact ⟨hclose.congr rfl le_rfl rfl rfl, rfl⟩
  · rw [heq]
    exact ⟨(SameBooks.refl _).congr rfl le_rfl rfl rfl, rfl⟩

theorem sameBooks_connectCb
    {s : Layer} (hk : Known s.net) (a : Nat) (args : IxfdConnectArgs)
    (sock : IxfdSockObj) (failed mallocOk : Bool) :
    SameBooks s.net
        (ixfdCommonsockConnectCb s a args sock failed mallocOk).net ∧
      (ixfdCommonsockConnectCb s a args sock failed mallocOk).freedCtx =
        s.freedCtx := by
  have hctx := createCtx_bufWrite sock.callbacks sock.fd mallocOk
  have hadd : SameBooks s.net (addConn s.net (activateCtx
      (ixfdCommonsockCreateCtx sock.callbacks sock.fd mallocOk))) :=
    sameBooks_addConn hk hctx
  unfold ixfdCommonsockConnectCb
  split
  · split <;> exact ⟨SameBooks.refl s.net, rfl⟩
  · split <;> exact ⟨hadd, rfl⟩

/-- Apart from steps of the connection layer and frees, nothing happens to the
blocks. -/
theorem sameBooks_of_step
    {s t : Layer} {l : Label} (hk : Known s.net) (ht : step s l = some t)
    (hconn : ∀ l', l ≠ .conn l') (hctx : ∀ c, l ≠ .freectx c)
    (hfree : ∀ k, l ≠ .free k) :
    SameBooks s.net t.net ∧ t.freedCtx = s.freedCtx := by
  have hrefl := SameBooks.refl s.net
  cases move_of_step ht with
  | conn hok hnet => exact absurd rfl (hconn _)
  | create => exact ⟨hrefl, rfl⟩
  | configure hk => exact ⟨hrefl, rfl⟩
  | createnbind hk htype hfd => exact ⟨sameBooks_openFile _ _, rfl⟩
  | createnconnect hk htype hfd => exact ⟨sameBooks_openFile _ _, rfl⟩
  | listen hk htype haccept => exact ⟨hrefl, rfl⟩
  | unbind hk => exact ⟨hrefl.congr rfl le_rfl rfl rfl, rfl⟩
  | disconnect hk => exact sameBooks_disconnect s _ _
  | freectx hc hfreed => exact absurd rfl (hctx _)
  | free hk => exact absurd rfl (hfree _)
  | accept hk' hidle hnet =>
      obtain ⟨_, _, rfl⟩ := accept_eq_some hnet
      exact ⟨sameBooks_acceptCb _ _ _ hk, rfl⟩
  | acceptFailed hk' hidle => exact ⟨sameBooks_acceptFailed _ _ hk, rfl⟩
  | connectReady ha hk' hidle hactive => exact sameBooks_connectCb hk _ _ _ _ _
  | connectReturns ha hreporting hstack => exact ⟨hrefl, rfl⟩

end Socket
end Iojxd
