import Iojxd.SocketModel
import Iojxd.SockIsolation
import Iojxd.SockWakeUp

/-!
# Steps of the socket layer

The inversion of the step function, and what a step of the connection layer
does to the descriptors and to the read side of the contexts: it leaves all of
them alone, closes one context, or activates the context whose accept callback
returns.
-/

namespace Iojxd
namespace Socket

open Sock TransitionRun

/-- An entry of an updated table is the new one or an old one. -/
theorem update_eq_some
    {ι α : Type} [DecidableEq ι] {table : ι → Option α} {i j : ι} {x y : α}
    (h : Function.update table i (some x) j = some y) :
    j = i ∧ y = x ∨ j ≠ i ∧ table j = some y := by
  by_cases hji : j = i
  · subst hji
    rw [Function.update_self, Option.some.injEq] at h
    exact Or.inl ⟨rfl, h.symm⟩
  · rw [Function.update_of_ne hji] at h
    exact Or.inr ⟨hji, h⟩

/-! ## Inversion of a step -/

/-- The targets of the steps, with what the steps require. -/
inductive Move (s : Layer) : Label → Layer → Prop
  | conn
      {l : Sock.Label} {net : Net}
      (hok : connEnabled s l = true)
      (hnet : Sock.step (connSock s l) s.net l = some net) :
      Move s (.conn l) (s.withNet net)
  | create :
      Move s .create (ixfdCommonsockCreate s)
  | configure
      {k : Nat} {sock : IxfdSockObj} {callbacks : IxfdSock}
      (hk : s.socks k = some sock) :
      Move s (.configure k callbacks)
        (s.setSock k { sock with callbacks := callbacks })
  | createnbind
      {k : Nat} {sock : IxfdSockObj} {fd : Option Int} {bindOk : Bool}
      (hk : s.socks k = some sock)
      (htype : sock.type = .unknown)
      (hfd : socketRet s.net fd = true) :
      Move s (.createnbind k fd bindOk)
        (ixfdCommonsockTcpCreatenbind s k sock fd bindOk)
  | createnconnect
      {k : Nat} {sock : IxfdSockObj} {fd : Option Int}
      {cbConn cbFailed connecting : Bool}
      (hk : s.socks k = some sock)
      (htype : sock.type = .unknown)
      (hfd : socketRet s.net fd = true) :
      Move s (.createnconnect k fd cbConn cbFailed connecting)
        (ixfdCommonsockTcpCreatenconnect s k sock fd
          cbConn cbFailed connecting)
  | listen
      {k : Nat} {sock : IxfdSockObj}
      (hk : s.socks k = some sock)
      (htype : sock.type = .tcp)
      (haccept : sock.eventAccept.isSome = true) :
      Move s (.listen k) (ixfdCommonsockTcpListen s k sock)
  | unbind
      {k : Nat} {sock : IxfdSockObj}
      (hk : s.socks k = some sock) :
      Move s (.unbind k) (ixfdCommonsockUnbind s k sock)
  | disconnect
      {k : Nat} {sock : IxfdSockObj}
      (hk : s.socks k = some sock) :
      Move s (.disconnect k) (ixfdCommonsockDisconnect s k sock)
  | freectx
      {c : Nat} {ctx : IxfdConnCtx}
      (hc : s.net.conns c = some ctx)
      (hfreed : s.freedCtx c = false) :
      Move s (.freectx c) (ixfdCommonsockFreectx s c ctx)
  | free
      {k : Nat} {sock : IxfdSockObj}
      (hk : s.socks k = some sock) :
      Move s (.free k) (ixfdCommonsockFree s k sock)
  | accept
      {k : Nat} {sock : IxfdSockObj} {fd : Int} {mallocOk : Bool} {net : Net}
      (hk : s.socks k = some sock)
      (hidle : s.idle = true)
      (hnet : Sock.step sock.callbacks s.net (.accept fd mallocOk) =
        some net) :
      Move s (.accept k fd mallocOk)
        ((s.withNet net).own s.net.nextConn k (some s.net.nextConn))
  | acceptFailed
      {k : Nat} {sock : IxfdSockObj} {mallocOk : Bool}
      (hk : s.socks k = some sock)
      (hidle : s.idle = true) :
      Move s (.acceptFailed k mallocOk)
        ((s.withNet (ixfdCommonsockAcceptFailed sock.callbacks s.net
          mallocOk)).own s.net.nextConn k none)
  | connectReady
      {a : Nat} {args : IxfdConnectArgs} {sock : IxfdSockObj}
      {failed mallocOk : Bool}
      (ha : s.attempts a = some args)
      (hk : s.socks args.sock = some sock)
      (hidle : s.idle = true)
      (hactive : args.watcher.active = true) :
      Move s (.connectReady a failed mallocOk)
        (ixfdCommonsockConnectCb s a args sock failed mallocOk)
  | connectReturns
      {a : Nat} {args : IxfdConnectArgs}
      (ha : s.attempts a = some args)
      (hreporting : s.reporting = some a)
      (hstack : s.net.stack = []) :
      Move s .connectReturns (endConnectCb s a args)

theorem onSock_eq_some
    {s t : Layer} {k : Nat} {ok : IxfdSockObj → Bool}
    {f : IxfdSockObj → Layer}
    (h : onSock s k ok f = some t) :
    ∃ sock, s.socks k = some sock ∧ ok sock = true ∧ t = f sock := by
  unfold onSock at h
  split at h
  · cases h
  · rename_i sock hk
    split at h
    · rename_i hok
      rw [Bool.and_eq_true] at hok
      cases h
      exact ⟨sock, hk, hok.2, rfl⟩
    · cases h

theorem onAccept_eq_some
    {s t : Layer} {k : Nat} {f : IxfdSockObj → Option Layer}
    (h : onAccept s k f = some t) :
    ∃ sock, s.socks k = some sock ∧ s.idle = true ∧ f sock = some t := by
  unfold onAccept at h
  split at h
  · cases h
  · rename_i sock hk
    split at h
    · cases h
    · split at h
      · rename_i hok
        simp only [Bool.and_eq_true] at hok
        exact ⟨sock, hk, hok.1.1, h⟩
      · cases h

/-- **Inversion rule** of the step function. -/
theorem move_of_step
    {s t : Layer} {l : Label} (h : step s l = some t) :
    Move s l t := by
  cases l with
  | conn l =>
      simp only [step, Option.ite_none_right_eq_some] at h
      rcases h with ⟨hok, hmap⟩
      rcases Option.map_eq_some_iff.mp hmap with ⟨net, hnet, rfl⟩
      exact .conn hok hnet
  | create =>
      simp only [step, Option.ite_none_right_eq_some, Option.some.injEq] at h
      rw [← h.2]
      exact .create
  | configure k callbacks =>
      obtain ⟨sock, hk, _, rfl⟩ := onSock_eq_some h
      exact .configure hk
  | createnbind k fd bindOk =>
      obtain ⟨sock, hk, hok, rfl⟩ := onSock_eq_some h
      simp only [Bool.and_eq_true, decide_eq_true_eq] at hok
      exact .createnbind hk hok.1.1 hok.1.2
  | createnconnect k fd cbConn cbFailed connecting =>
      obtain ⟨sock, hk, hok, rfl⟩ := onSock_eq_some h
      simp only [Bool.and_eq_true, decide_eq_true_eq] at hok
      exact .createnconnect hk hok.1.1 hok.1.2
  | listen k =>
      obtain ⟨sock, hk, hok, rfl⟩ := onSock_eq_some h
      simp only [Bool.and_eq_true, decide_eq_true_eq] at hok
      exact .listen hk hok.1.1 hok.2
  | unbind k =>
      obtain ⟨sock, hk, _, rfl⟩ := onSock_eq_some h
      exact .unbind hk
  | disconnect k =>
      obtain ⟨sock, hk, _, rfl⟩ := onSock_eq_some h
      exact .disconnect hk
  | freectx c =>
      simp only [step] at h
      split at h
      · cases h
      · rename_i ctx hc
        simp only [Option.ite_none_right_eq_some, Option.some.injEq,
          Bool.and_eq_true, Bool.not_eq_true'] at h
        rw [← h.2]
        exact .freectx hc h.1.2
  | free k =>
      obtain ⟨sock, hk, _, rfl⟩ := onSock_eq_some h
      exact .free hk
  | accept k fd mallocOk =>
      obtain ⟨sock, hk, hidle, hmap⟩ := onAccept_eq_some h
      rcases Option.map_eq_some_iff.mp hmap with ⟨net, hnet, rfl⟩
      exact .accept hk hidle hnet
  | acceptFailed k mallocOk =>
      obtain ⟨sock, hk, hidle, hsome⟩ := onAccept_eq_some h
      rw [Option.some.injEq] at hsome
      rw [← hsome]
      exact .acceptFailed hk hidle
  | connectReady a failed mallocOk =>
      simp only [step] at h
      split at h
      · cases h
      · rename_i args ha
        split at h
        · cases h
        · rename_i sock hk
          simp only [Option.ite_none_right_eq_some, Option.some.injEq,
            Bool.and_eq_true] at h
          rcases h with ⟨⟨⟨⟨hidle, hactive⟩, _⟩, _⟩, rfl⟩
          exact .connectReady ha hk hidle hactive
  | connectReturns =>
      simp only [step] at h
      split at h
      · cases h
      · rename_i a hreporting
        split at h
        · cases h
        · rename_i args ha
          simp only [Option.ite_none_right_eq_some, Option.some.injEq,
            List.isEmpty_iff] at h
          rw [← h.2]
          exact .connectReturns ha hreporting h.1

/-! ## The read side of the connection layer -/

/-- Numbers and flags of the contexts, descriptors and accept callbacks are left
alone, and no descriptor is closed. -/
structure Still (s t : Net) : Prop where
  conns : ∀ c, (t.conns c).map (fun ctx => (ctx.fd, ctx.active)) =
    (s.conns c).map (fun ctx => (ctx.fd, ctx.active))
  kernel : t.kernel = s.kernel
  nextConn : t.nextConn = s.nextConn
  accepting : ∀ c, .acceptDone c ∈ t.stack ↔ .acceptDone c ∈ s.stack
  log : ∃ es, t.log = s.log ++ es ∧ ∀ x ∈ es, x.closes = none

namespace Still

variable {s m : Net}

theorem refl (s : Net) :
    Still s s where
  conns _ := rfl
  kernel := rfl
  nextConn := rfl
  accepting _ := Iff.rfl
  log := ⟨[], by simp, by simp⟩

theorem emit
    (h : Still s m) (es : List Effect)
    (hes : ∀ x ∈ es, x.closes = none) :
    Still s (m.emit es) where
  conns := h.conns
  kernel := h.kernel
  nextConn := h.nextConn
  accepting := h.accepting
  log := by
    rcases h.log with ⟨es₀, hlog, hes₀⟩
    refine ⟨es₀ ++ es, ?_, List.forall_mem_append.mpr ⟨hes₀, hes⟩⟩
    rw [Net.emit_log, hlog, List.append_assoc]

theorem withStack
    (h : Still s m) {stack : List Frame}
    (hstack : ∀ c, .acceptDone c ∈ stack ↔ .acceptDone c ∈ s.stack) :
    Still s (m.withStack stack) where
  conns := h.conns
  kernel := h.kernel
  nextConn := h.nextConn
  accepting := hstack
  log := h.log

/-- A context changes its queue, its buffer or its write side. -/
theorem setConn
    (h : Still s m) {c : Nat} {ctx : IxfdConnCtx}
    (hc : m.conns c = some ctx) (ctx' : IxfdConnCtx)
    (hfd : ctx'.fd = ctx.fd) (hactive : ctx'.active = ctx.active) :
    Still s (m.setConn c ctx') where
  conns d := by
    rw [← h.conns d]
    by_cases hd : d = c
    · subst hd
      simp [hc, hfd, hactive]
    · simp [Function.update_of_ne hd]
  kernel := h.kernel
  nextConn := h.nextConn
  accepting := h.accepting
  log := h.log

theorem calls (h : Still s m) (n : Nat) :
    Still s { m with calls := n } where
  conns := h.conns
  kernel := h.kernel
  nextConn := h.nextConn
  accepting := h.accepting
  log := h.log

/-- A frame that is no accept callback is entered. -/
theorem push
    (h : Still s m) {frame : Frame} (hframe : ∀ c, frame ≠ .acceptDone c) :
    Still s (m.withStack (frame :: s.stack)) := by
  apply h.withStack
  intro c
  rw [List.mem_cons]
  exact or_iff_right (Ne.symm (hframe c))

/-- A frame that is no accept callback is left. -/
theorem pop
    {frame : Frame} {stack : List Frame} (hstack : s.stack = frame :: stack)
    (hframe : ∀ c, frame ≠ .acceptDone c) :
    Still s (s.withStack stack) := by
  apply (Still.refl s).withStack
  intro c
  rw [hstack, List.mem_cons]
  exact (or_iff_right (Ne.symm (hframe c))).symm

theorem conn
    (h : Still s m) {c : Nat} {ctx : IxfdConnCtx}
    (hc : m.conns c = some ctx) :
    ∃ ctx', s.conns c = some ctx' ∧ ctx'.fd = ctx.fd ∧
      ctx'.active = ctx.active := by
  have hview := h.conns c
  rw [hc, Option.map_some] at hview
  rcases Option.map_eq_some_iff.mp hview.symm with ⟨ctx', hc', heq⟩
  rw [Prod.mk.injEq] at heq
  exact ⟨ctx', hc', heq.1, heq.2⟩

end Still

section ConnSteps

variable {s : Net} {c : Nat} {ctx : IxfdConnCtx}

theorem still_write
    (hc : s.conns c = some ctx)
    (data : Buffer) (cb : Option Nat) (args : Nat) (ret : Int) :
    Still s (ixfdCommonsockWrite s c ctx data cb args ret) := by
  have hcall := ((Still.refl s).calls (s.calls + 1)).emit
    [.call c s.calls data.bytes,
      .write c s.calls ctx.fd (s.kernel ctx.fd) data.bytes ret]
    (by simp [Effect.closes])
  by_cases hlt : toSizeT ret < data.bytes.length
  · rw [write_queued _ _ _ _ _ _ hlt]
    have hset := hcall.setConn hc
      (enqueueCtx ctx (.ofCall s.calls data (toSizeT ret) hlt cb)) (by simp)
      (by unfold enqueueCtx; cases ctx.writeLaunched <;> rfl)
    exact hset.emit _ (by simp [Effect.closes])
  · rw [write_complete _ _ _ _ _ _ hlt]
    cases cb with
    | none => exact hcall.emit _ (by simp [Effect.closes])
    | some f =>
        exact (hcall.emit _ (by simp [Effect.closes])).push (by simp)

theorem still_writeCbIter
    (hc : s.conns c = some ctx)
    (w : IxfdSockWriteCtx) (rest : List IxfdSockWriteCtx) (ret : Int) :
    Still s (ixfdCommonsockWriteCbIter s c ctx w rest ret) := by
  have hwrite := (Still.refl s).emit
    [.write c w.call ctx.fd (s.kernel ctx.fd) w.remaining ret]
    (by simp [Effect.closes])
  by_cases hlt : toSizeT ret < w.lenRemain
  · rw [writeCbIter_advanced _ _ _ _ _ hlt]
    exact hwrite.setConn hc _ rfl rfl
  · rw [writeCbIter_complete _ _ _ _ _ hlt]
    have hset := hwrite.setConn hc { ctx with bufWrite := rest }
      rfl rfl
    rcases w.cb with _ | f
    · exact hset.emit _ (by simp [Effect.closes])
    · exact (hset.emit _ (by simp [Effect.closes])).push (by simp)

theorem still_emitRead (s : Net) (c : Nat) (fd : Int) :
    Still s (s.emit [.read c fd (s.kernel fd)]) :=
  (Still.refl s).emit _ (by simp [Effect.closes])

end ConnSteps

/-- What one step of the connection layer does to the read side. -/
inductive ConnMove (sock : IxfdSock) (s : Net) (l : Sock.Label) :
    Net → Prop
  | still {t : Net}
      (hnone : closedBy sock s l = none) (h : Still s t) :
      ConnMove sock s l t
  | closes {m : Net} {c : Nat} {ctx : IxfdConnCtx}
      (hsome : closedBy sock s l = some c) (h : Still s m)
      (hc : m.conns c = some ctx) :
      ConnMove sock s l (ixfdCommonsockClose m c ctx)
  | activates {c : Nat} {ctx : IxfdConnCtx} {stack : List Frame}
      (hnone : closedBy sock s l = none)
      (hstack : s.stack = .acceptDone c :: stack)
      (hc : s.conns c = some ctx) :
      ConnMove sock s l ((s.withStack stack).setConn c (activateCtx ctx))

theorem connMove_read
    {sock : IxfdSock} {s : Net} {c len : Nat} {ctx : IxfdConnCtx}
    {ret : ReadRet} (hc : s.conns c = some ctx) :
    ConnMove sock s (.read c len ret) (ixfdCommonsockRead s c ctx ret) := by
  have hread := still_emitRead s c ctx.fd
  cases ret with
  | error => exact .still rfl hread
  | data bytes =>
      cases bytes with
      | nil => exact .closes rfl hread hc
      | cons b bs => exact .still rfl hread

theorem connMove_readCb
    {sock : IxfdSock} {s : Net} {c : Nat} {ctx : IxfdConnCtx}
    {ret : ReadRet} (hc : s.conns c = some ctx) :
    ConnMove sock s (.readReady c ret)
      (ixfdCommonsockReadCb sock s c ctx ret) := by
  have hread := still_emitRead s c ctx.fd
  unfold ixfdCommonsockReadCb
  by_cases hpassive : sock.passiveRead = true
  · rw [if_pos hpassive]
    refine .still ?_ ((Still.refl s).push (by simp))
    rcases ret with _ | _ | _ <;> simp [closedBy, hpassive]
  · rw [if_neg hpassive]
    cases ret with
    | error => exact .still rfl hread
    | data bytes =>
        cases bytes with
        | nil =>
            by_cases hclose : sock.cbClose = true
            · simp only [hclose, if_true]
              refine .still ?_ (hread.push (by simp))
              simp [closedBy, hclose]
            · simp only [hclose]
              refine .closes ?_ hread hc
              simp [closedBy, hclose, hpassive]
        | cons b bs =>
            by_cases hcb : ctx.cbRead = true
            · simp only [hcb, if_true]
              refine .still rfl ((hread.emit _ ?_).push (by simp))
              simp [Effect.closes]
            · simp only [hcb]
              exact .still rfl hread

theorem connMove_afterCallback
    {sock : IxfdSock} {s t : Net} (h : afterCallback s = some t) :
    ConnMove sock s .callbackReturns t := by
  unfold afterCallback at h
  split at h
  case h_1 j stack hstack =>
      cases h
      refine .still (by simp [closedBy, hstack]) ?_
      exact (Still.pop hstack (by simp)).emit _ (by simp [Effect.closes])
  case h_2 c j stack hstack =>
      cases h
      refine .still (by simp [closedBy, hstack]) ?_
      exact (Still.pop hstack (by simp)).emit _ (by simp [Effect.closes])
  case h_3 c stack hstack =>
      obtain ⟨ctx, hc, rfl⟩ := Option.map_eq_some_iff.mp h
      exact .activates (by simp [closedBy, hstack]) hstack hc
  case h_4 c stack hstack =>
      cases h
      exact .still (by simp [closedBy, hstack]) (Still.pop hstack (by simp))
  case h_5 c stack hstack =>
      obtain ⟨ctx, hc, rfl⟩ := Option.map_eq_some_iff.mp h
      refine .closes ?_ (Still.pop hstack (by simp)) hc
      simp [closedBy, hstack]
  case h_6 => cases h

/-- **Case analysis of a step of the connection layer**, accepts apart. -/
theorem connMove_of_step
    {sock : IxfdSock} {s t : Net} {l : Sock.Label}
    (hl : ∀ fd mallocOk, l ≠ .accept fd mallocOk)
    (h : Sock.step sock s l = some t) :
    ConnMove sock s l t := by
  cases l with
  | write c data cb args ret =>
      obtain ⟨ctx, hc, _, rfl⟩ := onConn_eq_some h
      exact .still rfl (still_write hc data cb args ret)
  | read c len ret =>
      obtain ⟨ctx, hc, _, rfl⟩ := onConn_eq_some h
      exact connMove_read hc
  | close c =>
      obtain ⟨ctx, hc, _, rfl⟩ := onConn_eq_some h
      exact .closes rfl (Still.refl s) hc
  | setBufreadLen c len mallocOk =>
      obtain ⟨ctx, hc, _, rfl⟩ := onConn_eq_some h
      refine .still rfl ((Still.refl s).setConn hc _ (by simp) ?_)
      cases mallocOk <;> rfl
  | callbackReturns => exact connMove_afterCallback h
  | accept fd mallocOk => exact absurd rfl (hl fd mallocOk)
  | readReady c ret =>
      obtain ⟨ctx, hc, _, rfl⟩ := onConn_eq_some h
      exact connMove_readCb hc
  | writeReady c =>
      obtain ⟨ctx, _, _, rfl⟩ := onConn_eq_some h
      exact .still rfl ((Still.refl s).push (by simp))
  | drainWrite ret =>
      obtain ⟨c, stack, ctx, w, rest, _, hc, _, _, rfl⟩ :=
        drainWrite_eq_some h
      exact .still rfl (still_writeCbIter hc w rest ret)
  | drainEnd =>
      obtain ⟨c, stack, ctx, hstack, hc, _, rfl⟩ := drainEnd_eq_some h
      exact .still rfl ((Still.pop hstack (by simp)).setConn hc _ rfl rfl)

/-- Accepting is no step of a socket's connections. -/
theorem connMove_of_conn
    {s : Layer} {l : Sock.Label} {net : Net} (hok : connEnabled s l = true)
    (hnet : Sock.step (connSock s l) s.net l = some net) :
    ConnMove (connSock s l) s.net l net := by
  apply connMove_of_step _ hnet
  rintro fd mallocOk rfl
  cases hok

/-! ## New contexts -/

/-- A context is made; its accept callback runs, or it is active at once. -/
structure NewConn (s t : Net) (fd : Int) (ctx : IxfdConnCtx) : Prop where
  fd : ctx.fd = fd
  conns : t.conns = Function.update s.conns s.nextConn (some ctx)
  nextConn : t.nextConn = s.nextConn + 1
  log : ∃ es, t.log = s.log ++ es ∧ ∀ x ∈ es, x.closes = none
  entered : (ctx.active = false ∧
      t.stack = .acceptDone s.nextConn :: s.stack) ∨
    (ctx.active = true ∧ t.stack = s.stack)

theorem createCtx_active
    (sock : IxfdSock) (fd : Int) (mallocOk : Bool) :
    (ixfdCommonsockCreateCtx sock fd mallocOk).active = false := by
  cases mallocOk <;> rfl

theorem newConn_acceptCb
    (sock : IxfdSock) (s : Net) (fd : Int) (mallocOk : Bool) :
    ∃ ctx, NewConn s (ixfdCommonsockAcceptCb sock s fd mallocOk) fd ctx := by
  have hes : ∀ x ∈ [Effect.malloc (.connCtx s.nextConn),
      .accepted s.nextConn fd], x.closes = none := by
    simp [Effect.closes]
  unfold ixfdCommonsockAcceptCb
  split
  · exact ⟨ixfdCommonsockCreateCtx sock fd mallocOk, createCtx_fd ..,
      rfl, rfl, ⟨_, rfl, hes⟩, Or.inl ⟨createCtx_active .., rfl⟩⟩
  · exact ⟨activateCtx (ixfdCommonsockCreateCtx sock fd mallocOk),
      createCtx_fd .., rfl, rfl, ⟨_, rfl, hes⟩, Or.inr ⟨rfl, rfl⟩⟩

theorem kernel_acceptCb
    (sock : IxfdSock) (s : Net) (fd : Int) (mallocOk : Bool) :
    (ixfdCommonsockAcceptCb sock s fd mallocOk).kernel =
      Function.update s.kernel fd (some s.nextConn) := by
  unfold ixfdCommonsockAcceptCb
  split <;> rfl

/-- `ixfd_commonsock_connect_cb` makes an active context at once. -/
theorem newConn_connectCb
    (s : Net) (sock : IxfdSockObj) (mallocOk : Bool) :
    NewConn s
      (addConn s (activateCtx
        (ixfdCommonsockCreateCtx sock.callbacks sock.fd mallocOk)))
      sock.fd
      (activateCtx
        (ixfdCommonsockCreateCtx sock.callbacks sock.fd mallocOk)) where
  fd := createCtx_fd ..
  conns := rfl
  nextConn := rfl
  log := ⟨[.malloc (.connCtx s.nextConn)], rfl, by simp [Effect.closes]⟩
  entered := Or.inr ⟨rfl, rfl⟩

theorem newConn_acceptFailed
    (sock : IxfdSock) (s : Net) (mallocOk : Bool) :
    ∃ ctx, NewConn s (ixfdCommonsockAcceptFailed sock s mallocOk) (-1) ctx := by
  have hes : ∀ x ∈ [Effect.malloc (.connCtx s.nextConn)],
      x.closes = none := by
    simp [Effect.closes]
  unfold ixfdCommonsockAcceptFailed
  split
  · exact ⟨ixfdCommonsockCreateCtx sock (-1) mallocOk, createCtx_fd ..,
      rfl, rfl, ⟨_, rfl, hes⟩, Or.inl ⟨createCtx_active .., rfl⟩⟩
  · exact ⟨activateCtx (ixfdCommonsockCreateCtx sock (-1) mallocOk),
      createCtx_fd .., rfl, rfl, ⟨_, rfl, hes⟩, Or.inr ⟨rfl, rfl⟩⟩

theorem kernel_acceptFailed
    (sock : IxfdSock) (s : Net) (mallocOk : Bool) :
    (ixfdCommonsockAcceptFailed sock s mallocOk).kernel = s.kernel := by
  unfold ixfdCommonsockAcceptFailed
  split <;> rfl

/-! ## Flags of the contexts -/

theorem defaultConn_eq_some
    {s : Layer} {sock : IxfdSockObj} {c : Nat} {ctx : IxfdConnCtx}
    (h : defaultConn s sock = some (c, ctx)) :
    sock.defaultCtx = some c ∧ s.freedCtx c = false ∧
      s.net.conns c = some ctx := by
  unfold defaultConn at h
  split at h
  · cases h
  · rename_i d hd
    split at h
    · cases h
    · rename_i hfreed
      rcases Option.map_eq_some_iff.mp h with ⟨x, hx, heq⟩
      cases heq
      exact ⟨hd, Bool.not_eq_true _ |>.mp hfreed, hx⟩

/-- `ixfd_commonsock_free` first frees the default context, or nothing. -/
theorem freeDefault_cases (s : Layer) (sock : IxfdSockObj) :
    (∃ c ctx, defaultConn s sock = some (c, ctx) ∧
      freeDefault s sock = ixfdCommonsockFreectx s c ctx) ∨
    (defaultConn s sock = none ∧ freeDefault s sock = s) := by
  unfold freeDefault
  cases hdef : defaultConn s sock with
  | none => exact Or.inr ⟨rfl, rfl⟩
  | some p => exact Or.inl ⟨p.1, p.2, rfl, rfl⟩

/-- `ixfd_commonsock_disconnect` first closes the active default context, or
nothing. -/
theorem closeDefault_cases (s : Layer) (sock : IxfdSockObj) :
    (∃ c ctx, defaultConn s sock = some (c, ctx) ∧ ctx.active = true ∧
      closeDefault s sock = s.withNet (ixfdCommonsockClose s.net c ctx)) ∨
    ((∀ c ctx, defaultConn s sock = some (c, ctx) → ctx.active = false) ∧
      closeDefault s sock = s) := by
  unfold closeDefault
  cases hdef : defaultConn s sock with
  | none => exact Or.inr ⟨by simp, rfl⟩
  | some p =>
      obtain ⟨c, ctx⟩ := p
      cases hactive : ctx.active with
      | true => exact Or.inl ⟨c, ctx, rfl, hactive, by simp [hactive]⟩
      | false => exact Or.inr ⟨by simp [hactive], by simp [hactive]⟩

/-! ## Invariants of the connection layer -/

/-- A property that the steps of the connection layer keep, that new contexts
and closes keep, and that neither the descriptor table nor the log matters
for. -/
structure NetInvariant (P : Net → Prop) : Prop where
  step : ∀ {sock : IxfdSock} {s t : Net} {l : Sock.Label},
    P s → Sock.step sock s l = some t → P t
  congr : ∀ {s t : Net}, P s → t.conns = s.conns → t.stack = s.stack →
    s.nextConn ≤ t.nextConn → P t
  close : ∀ {s : Net} {c : Nat} {ctx : IxfdConnCtx}, P s →
    s.conns c = some ctx → P (ixfdCommonsockClose s c ctx)
  acceptFailed : ∀ {s : Net} (sock : IxfdSock) (mallocOk : Bool), P s →
    P (ixfdCommonsockAcceptFailed sock s mallocOk)
  connected : ∀ {s : Net} (sock : IxfdSock) (fd : Int) (mallocOk : Bool), P s →
    P (addConn s (activateCtx (ixfdCommonsockCreateCtx sock fd mallocOk)))

/-- **Invariant rule**: the steps of the socket layer keep what the connection
layer keeps. -/
theorem NetInvariant.of_step
    {P : Net → Prop} (hP : NetInvariant P) {s t : Layer} {l : Label}
    (h : P s.net) (ht : Socket.step s l = some t) :
    P t.net := by
  have hopen : ∀ fd, P (openFile s.net fd) := by
    intro fd
    cases fd with
    | none => exact h
    | some m => exact hP.congr h rfl rfl (Nat.le_succ _)
  cases move_of_step ht with
  | conn hok hnet => exact hP.step h hnet
  | create => exact h
  | configure hk => exact h
  | createnbind hk htype hfd => exact hopen _
  | createnconnect hk htype hfd => exact hopen _
  | listen hk htype haccept => exact h
  | unbind hk => exact hP.congr h rfl rfl le_rfl
  | @disconnect k sock hk =>
      have hclosed : P (closeDefault s sock).net := by
        rcases closeDefault_cases s sock with
          ⟨c, ctx, hdef, _, heq⟩ | ⟨_, heq⟩
        · rw [heq]
          exact hP.close h (defaultConn_eq_some hdef).2.2
        · rw [heq]
          exact h
      exact hP.congr hclosed rfl rfl le_rfl
  | freectx hc hfreed => exact hP.congr h rfl rfl le_rfl
  | @free k sock hk =>
      change P (freeDefault s sock).net
      rcases freeDefault_cases s sock with ⟨c, ctx, _, heq⟩ | ⟨_, heq⟩
      · rw [heq]
        exact hP.congr h rfl rfl le_rfl
      · rw [heq]
        exact h
  | accept hk hidle hnet => exact hP.step h hnet
  | acceptFailed hk hidle => exact hP.acceptFailed _ _ h
  | @connectReady a args sock failed mallocOk ha hk hidle hactive =>
      have hnew := hP.connected sock.callbacks sock.fd mallocOk h
      unfold ixfdCommonsockConnectCb
      split
      · split <;> exact h
      · split <;> exact hnew
  | connectReturns ha hreporting hstack => exact h

theorem known_addConn
    {s : Net} (h : Known s) (ctx : IxfdConnCtx) :
    Known (addConn s ctx) := by
  intro c hc
  have hlt : s.nextConn < c := hc
  have hne : c ≠ s.nextConn := Nat.ne_of_gt hlt
  change Function.update s.conns s.nextConn (some ctx) c = none
  rw [Function.update_of_ne hne]
  exact h c (Nat.le_of_lt hlt)

theorem netInvariant_known :
    NetInvariant Known where
  step := known_step
  congr := by
    intro s t h hconns _ hnext c hc
    rw [hconns]
    exact h c (hnext.trans hc)
  close := known_close
  acceptFailed := by
    intro s sock mallocOk h
    unfold ixfdCommonsockAcceptFailed
    split
    · exact known_congr (known_addConn h _) rfl rfl
    · exact known_addConn h _
  connected _ _ _ h := known_addConn h _

theorem known_of_step
    {s t : Layer} {l : Label} (h : Known s.net) (ht : step s l = some t) :
    Known t.net :=
  netInvariant_known.of_step h ht

theorem awake_addConn
    {s : Net} {ctx : IxfdConnCtx} (h : Awake s)
    (hctx : CtxAwake s.stack s.nextConn ctx) :
    Awake (addConn s ctx) :=
  (h.setConn hctx).congr rfl fun _ hd => hd

theorem netInvariant_awake :
    NetInvariant Awake where
  step := awake_step
  congr := by
    intro s t h hconns hstack _
    exact h.congr hconns fun _ hd => hstack ▸ hd
  close h hc := h.close hc
  acceptFailed := by
    intro s sock mallocOk h
    have hnew := CtxAwake.create sock (-1) mallocOk s.stack s.nextConn
    unfold ixfdCommonsockAcceptFailed
    split
    · exact (awake_addConn h hnew).congr rfl
        fun _ hd => List.mem_cons_of_mem _ hd
    · exact awake_addConn h hnew.activate
  connected := by
    intro s sock fd mallocOk h
    have hnew := CtxAwake.create sock fd mallocOk s.stack s.nextConn
    exact awake_addConn h hnew.activate

theorem awake_of_step
    {s t : Layer} {l : Label} (h : Awake s.net) (ht : step s l = some t) :
    Awake t.net :=
  netInvariant_awake.of_step h ht

end Socket
end Iojxd
