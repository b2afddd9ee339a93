import Iojxd.DaemonDialogue
import Iojxd.ServedModel
import Iojxd.SockStream

/-!
# The served daemon refines the daemon

What `DaemonModel` keeps of a context is its reading side.  The steps of the
connection layer that write leave it alone, those that read and close act on it
as the daemon's model says; between the events it does not change.
-/

namespace Iojxd
namespace Daemon

open TransitionRun
open Sock (Net IxfdConnCtx Frame)

/-! ## The reading side -/

/-- The context without its writing side. -/
def readingSide (ctx : IxfdConnCtx) : IxfdConnCtx :=
  { ctx with
    eventWrite := ctx.eventWrite.stop
    bufWrite := []
    writeLaunched := false }

/-- The reading sides of all contexts and the descriptor table are the same. -/
structure SameReading (s t : Net) : Prop where
  conns : ∀ c, (t.conns c).map readingSide = (s.conns c).map readingSide
  kernel : t.kernel = s.kernel

namespace SameReading

variable {s m t : Net} {c : Nat} {ctx : IxfdConnCtx}

theorem refl (s : Net) :
    SameReading s s where
  conns _ := rfl
  kernel := rfl

theorem trans (h : SameReading s m) (h' : SameReading m t) :
    SameReading s t where
  conns c := (h'.conns c).trans (h.conns c)
  kernel := h'.kernel.trans h.kernel

/-- Only the contexts and the descriptor table matter. -/
theorem congr
    (h : SameReading s m) (hconns : t.conns = m.conns)
    (hkernel : t.kernel = m.kernel) :
    SameReading s t where
  conns := by
    rw [hconns]
    exact h.conns
  kernel := hkernel.trans h.kernel

/-- A context changes on its writing side. -/
theorem setConn
    (h : SameReading s m) (hc : m.conns c = some ctx) (ctx' : IxfdConnCtx)
    (hctx : readingSide ctx' = readingSide ctx) :
    SameReading s (m.setConn c ctx') where
  conns := by
    intro d
    rw [← h.conns d]
    by_cases hd : d = c
    · subst hd
      simp [hc, hctx]
    · simp [Function.update_of_ne hd]
  kernel := h.kernel

end SameReading

section Sides

variable {s t : Net} {c : Nat} {ctx : IxfdConnCtx}

theorem sameReading_write
    (hc : s.conns c = some ctx) (data : Sock.Buffer) (cb : Option Nat)
    (args : Nat) (ret : Int) :
    SameReading s (Sock.ixfdCommonsockWrite s c ctx data cb args ret) := by
  by_cases hlt : Sock.toSizeT ret < data.bytes.length
  · rw [Sock.write_queued _ _ _ _ _ _ hlt]
    have hside : readingSide (Sock.enqueueCtx ctx
        (.ofCall s.calls data (Sock.toSizeT ret) hlt cb)) =
          readingSide ctx := by
      unfold Sock.enqueueCtx
      dsimp only
      split <;> rfl
    exact ((SameReading.refl s).setConn hc _ hside).congr rfl rfl
  · rw [Sock.write_complete _ _ _ _ _ _ hlt]
    cases cb <;> exact (SameReading.refl s).congr rfl rfl

theorem sameReading_writeCbIter
    (hc : s.conns c = some ctx) (w : Sock.IxfdSockWriteCtx)
    (rest : List Sock.IxfdSockWriteCtx) (ret : Int) :
    SameReading s (Sock.ixfdCommonsockWriteCbIter s c ctx w rest ret) := by
  by_cases hlt : Sock.toSizeT ret < w.lenRemain
  · rw [Sock.writeCbIter_advanced _ _ _ _ _ hlt]
    exact ((SameReading.refl s).setConn hc
      { ctx with bufWrite := w.advance (Sock.toSizeT ret) hlt :: rest }
      rfl).congr rfl rfl
  · rw [Sock.writeCbIter_complete _ _ _ _ _ hlt]
    have hset := (SameReading.refl s).setConn hc { ctx with bufWrite := rest }
      rfl
    rcases w.cb with _ | f <;> exact hset.congr rfl rfl

end Sides

/-! ## The served daemon and the daemon -/

/-- The daemon's state `d` is what the served daemon `s` amounts to. -/
structure Serves (s : Served) (d : State) : Prop where
  conns : ∀ c, d.conns c =
    (s.net.conns c).map fun ctx => ⟨readingSide ctx, s.data c⟩
  kernel : d.kernel = s.net.kernel
  envs : d.envs = s.envs
  listening : d.listening = s.listening
  alive : s.alive = true → d.alive = true
  log : d.log = s.log
  callbacks : ∀ c ctx, s.net.conns c = some ctx → ctx.cbRead = true
  known : Sock.Known s.net

section Steps

variable {tostringNumber : ℚ → LuaString} {s t : Served} {d : State}
  {c : Nat} {ctx : IxfdConnCtx}

/-- Numbers of contexts along a run of the connection layer. -/
theorem known_run
    {sock : Sock.IxfdSock} {net net' : Net} {ks : List Sock.Label}
    (h : Sock.Known net) (hrun : run (Sock.step sock) net ks = some net') :
    Sock.Known net' :=
  run_invariant (fun _ _ _ h ht => Sock.known_step h ht) h hrun

theorem onNet_eq_some
    {l : Sock.Label} (h : s.onNet l = some t) :
    ∃ net, Sock.step tcpBaseSock s.net l = some net ∧ t = s.withNet net := by
  obtain ⟨net, hnet, rfl⟩ := Option.map_eq_some_iff.mp h
  exact ⟨net, hnet, rfl⟩

namespace Serves

theorem init : Serves .init .init where
  conns _ := rfl
  kernel := rfl
  envs := rfl
  listening := rfl
  alive _ := rfl
  log := rfl
  callbacks := by
    intro c ctx hc
    cases hc
  known := Sock.known_init

/-- The connection layer changes on the writing side. -/
theorem same
    (h : Serves s d) {net : Net} (hsame : SameReading s.net net)
    (hknown : Sock.Known net) :
    Serves (s.withNet net) d where
  conns := by
    intro c
    have hside := hsame.conns c
    rw [h.conns c]
    simp only [Served.withNet_net, Served.withNet_data]
    have hmap : ∀ o : Option IxfdConnCtx,
        o.map (fun ctx => (⟨readingSide ctx, s.data c⟩ : Conn)) =
          (o.map readingSide).map fun side => ⟨side, s.data c⟩ := by
      intro o
      cases o <;> rfl
    rw [hmap, hmap, hside]
  kernel := h.kernel.trans hsame.kernel.symm
  envs := h.envs
  listening := h.listening
  alive := h.alive
  log := h.log
  callbacks := by
    intro c ctx' hc
    have hside := hsame.conns c
    simp only [Served.withNet_net] at hc
    rw [hc, Option.map_some, eq_comm, Option.map_eq_some_iff] at hside
    obtain ⟨ctx, hctx, heq⟩ := hside
    have hcb := congrArg IxfdConnCtx.cbRead heq
    exact hcb.symm.trans (h.callbacks c ctx hctx)
  known := hknown

/-- Events are logged on both sides. -/
theorem emit (h : Serves s d) (es : List Event) :
    Serves (s.emit es) (d.emit es) where
  conns := h.conns
  kernel := h.kernel
  envs := h.envs
  listening := h.listening
  alive := h.alive
  log := by
    rw [State.emit_log, Served.emit_log, h.log]
  callbacks := h.callbacks
  known := h.known

theorem conn (h : Serves s d) (hc : s.net.conns c = some ctx) :
    d.conns c = some ⟨readingSide ctx, s.data c⟩ := by
  rw [h.conns c, hc]
  rfl

/-- A connection is closed on both sides. -/
theorem close
    (h : Serves s d) (hc : s.net.conns c = some ctx)
    (hknown : Sock.Known (Sock.ixfdCommonsockClose s.net c ctx)) :
    Serves (s.withNet (Sock.ixfdCommonsockClose s.net c ctx))
      (applyAction d c ⟨readingSide ctx, s.data c⟩ .close) where
  conns := by
    intro e
    simp only [applyAction, State.setConn, Served.withNet_net,
      Served.withNet_data, Sock.ixfdCommonsockClose, Net.emit_conns,
      Net.setKernel_conns, Net.setConn_conns]
    by_cases he : e = c
    · subst he
      rw [Function.update_self, Function.update_self]
      rfl
    · rw [Function.update_of_ne he, Function.update_of_ne he]
      exact h.conns e
  kernel := by
    change Function.update d.kernel ctx.fd none =
      Function.update s.net.kernel ctx.fd none
    rw [h.kernel]
  envs := h.envs
  listening := h.listening
  alive := h.alive
  log := h.log
  callbacks := by
    intro e ctx' hctx'
    simp only [Served.withNet_net, Sock.ixfdCommonsockClose, Net.emit_conns,
      Net.setKernel_conns, Net.setConn_conns] at hctx'
    by_cases he : e = c
    · subst he
      rw [Function.update_self] at hctx'
      cases hctx'
      exact h.callbacks e ctx hc
    · rw [Function.update_of_ne he] at hctx'
      exact h.callbacks e ctx' hctx'
  known := hknown

end Serves

/-! ## Actions -/

/-- The steps of the connection layer that an action takes. -/
def labelsOf (c : Nat) (ret : Int) : Action → List Sock.Label
  | .write reply =>
      if h : reply.length < Sock.sizeMod then
        .write c ⟨reply, h⟩ (some 0) 0 ret ::
          if Sock.toSizeT ret < reply.length then [] else [.callbackReturns]
      else []
  | .close => [.close c]
  | _ => []

/-- What `ctx:write` does: the reply is written or queued, and the completion
callback has returned. -/
structure Wrote (c : Nat) (ret : Int) (reply : LuaString) (s t : Served) :
    Prop where
  fits : reply.length < Sock.sizeMod
  eq : t = s.withNet t.net
  run : run (Sock.step tcpBaseSock) s.net (labelsOf c ret (.write reply)) =
    some t.net
  same : SameReading s.net t.net
  stack : t.net.stack = s.net.stack

theorem writeReply_eq_some
    {reply : LuaString} {ret : Int} (h : writeReply s c reply ret = some t) :
    Wrote c ret reply s t := by
  unfold writeReply at h
  split at h
  case isFalse => cases h
  case isTrue hfits =>
      obtain ⟨m, hm, h⟩ := Option.bind_eq_some_iff.mp h
      obtain ⟨net, hnet, rfl⟩ := onNet_eq_some hm
      obtain ⟨ctx, hc, _, hwritten⟩ := Sock.onConn_eq_some hnet
      have hsame := sameReading_write hc ⟨reply, hfits⟩ (some 0) 0 ret
      rw [← hwritten] at hsame
      by_cases hlt : Sock.toSizeT ret < reply.length
      · rw [if_pos hlt] at h
        cases h
        refine ⟨hfits, rfl, ?_, hsame, ?_⟩
        · rw [labelsOf, dif_pos hfits, if_pos hlt, run_cons, hnet]
          rfl
        · rw [Served.withNet_net, hwritten,
            Sock.write_queued _ _ _ _ _ _ hlt]
          rfl
      · rw [if_neg hlt] at h
        obtain ⟨net', hnet', rfl⟩ := onNet_eq_some h
        have hreturn : net' = (net.withStack s.net.stack).emit
            [.returned s.net.calls true] := by
          have hcomplete := Sock.write_complete s.net c ctx ⟨reply, hfits⟩
            (some 0) 0 hlt
          have hstep : Sock.afterCallback net = some net' := hnet'
          rw [hwritten, hcomplete] at hstep ⊢
          exact (Option.some.inj hstep).symm
        refine ⟨hfits, rfl, ?_, ?_, ?_⟩
        · rw [labelsOf, dif_pos hfits, if_neg hlt, run_cons, hnet,
            Option.bind_some, run_cons]
          rw [Served.withNet_net] at hnet'
          rw [hnet']
          rfl
        · exact hsame.congr (by rw [hreturn]; rfl) (by rw [hreturn]; rfl)
        · rw [Served.withNet_net, hreturn]
          rfl

/-- What some actions of a handler do to the served daemon, by steps of the
connection layer that end where they began. -/
structure Acted (c : Nat) (ret : Int) (as : List Action) (s t : Served)
    (d' : State) : Prop where
  serves : Serves t d'
  made : t.net.conns c ≠ none
  stack : t.net.stack = s.net.stack
  run : run (Sock.step tcpBaseSock) s.net (as.flatMap (labelsOf c ret)) =
    some t.net
  fits : ∀ reply ∈ replies as, reply.length < Sock.sizeMod

/-- An action that leaves the connection layer alone. -/
theorem Acted.silent
    {ret : Int} {a : Action} {d' : State} (hserves : Serves t d')
    (hmade : s.net.conns c ≠ none) (hnet : t.net = s.net)
    (hlabels : labelsOf c ret a = []) (hreplies : replies [a] = []) :
    Acted c ret [a] s t d' where
  serves := hserves
  made := hnet ▸ hmade
  stack := by rw [hnet]
  run := by simp [hlabels, hnet]
  fits := by simp [hreplies]

/-- **Action lemma**: an action does the same to the served daemon and to the
daemon. -/
theorem serves_performOn
    {ret : Int} {a : Action} (hs : Serves s d)
    (hc : s.net.conns c ≠ none) (h : performOn c ret s a = some t) :
    Acted c ret [a] s t (perform c d a) := by
  obtain ⟨ctx, hctx⟩ := Option.ne_none_iff_exists'.mp hc
  obtain ⟨m, hm, rfl⟩ := Option.map_eq_some_iff.mp h
  rw [perform_of_conns (hs.conn hctx)]
  cases a with
  | write reply =>
      have hwrote := writeReply_eq_some hm
      have hknown : Sock.Known m.net := known_run hs.known hwrote.run
      have hside := hwrote.same.conns c
      rw [hctx] at hside
      constructor
      case serves =>
          have hsame := hs.same hwrote.same hknown
          rw [← hwrote.eq] at hsame
          exact hsame.emit _
      case made =>
          intro hnone
          simp only [Served.emit_net] at hnone
          rw [hnone] at hside
          cases hside
      case stack => exact hwrote.stack
      case run =>
          rw [List.flatMap_singleton]
          exact hwrote.run
      case fits => simpa [replies] using hwrote.fits
  | close =>
      obtain ⟨net, hnet, rfl⟩ := onNet_eq_some hm
      have hclose := hnet
      obtain ⟨ctx', hctx', _, rfl⟩ := Sock.onConn_eq_some hclose
      rw [hctx] at hctx'
      cases hctx'
      have hknown := Sock.known_step hs.known hnet
      constructor
      case serves => exact (hs.close hctx hknown).emit _
      case made => simp [Sock.ixfdCommonsockClose]
      case stack => rfl
      case run =>
          rw [List.flatMap_singleton, labelsOf, run_cons, hnet]
          rfl
      case fits => simp [replies]
  | setData session =>
      cases hm
      refine Acted.silent (Serves.emit ?_ _) hc rfl rfl rfl
      exact {
        conns := by
          intro e
          simp only [applyAction, State.setConn]
          by_cases he : e = c
          · subst he
            simp [hctx]
          · rw [Function.update_of_ne he, hs.conns e]
            simp [Function.update_of_ne he]
        kernel := hs.kernel
        envs := congrArg (session.context :: ·) hs.envs
        listening := hs.listening
        alive := hs.alive
        log := hs.log
        callbacks := hs.callbacks
        known := hs.known }
  | closeServer =>
      cases hm
      refine Acted.silent (Serves.emit ?_ _) hc rfl rfl rfl
      exact { hs with listening := rfl }
  | load data =>
      cases hm
      exact Acted.silent (hs.emit _) hc rfl rfl rfl
  | run data env =>
      cases hm
      exact Acted.silent (hs.emit _) hc rfl rfl rfl
  | delayedGc =>
      cases hm
      exact Acted.silent (hs.emit _) hc rfl rfl rfl

theorem replies_cons (a : Action) (as : List Action) :
    replies (a :: as) = replies [a] ++ replies as := by
  rw [← List.singleton_append]
  exact List.filterMap_append

/-- The handler's actions, one after the other. -/
theorem serves_actions
    {ret : Int} {as : List Action} (hs : Serves s d)
    (hc : s.net.conns c ≠ none)
    (h : as.foldlM (performOn c ret) s = some t) :
    Acted c ret as s t (as.foldl (perform c) d) := by
  induction as generalizing s d with
  | nil =>
      cases h
      exact ⟨hs, hc, rfl, rfl, by simp [replies]⟩
  | cons a as ih =>
      rw [List.foldlM_cons] at h
      obtain ⟨m, hm, htail⟩ := Option.bind_eq_some_iff.mp h
      have hfirst := serves_performOn hs hc hm
      have hrest := ih hfirst.serves hfirst.made htail
      constructor
      case serves => exact hrest.serves
      case made => exact hrest.made
      case stack => exact hrest.stack.trans hfirst.stack
      case run =>
          rw [List.flatMap_cons, run_append]
          have hrun := hfirst.run
          rw [List.flatMap_singleton] at hrun
          rw [hrun]
          exact hrest.run
      case fits =>
          rw [replies_cons, List.forall_mem_append]
          exact ⟨hfirst.fits, hrest.fits⟩

/-! ## Events -/

/-- The steps of the connection layer that a handler and its return take. -/
def labelsOfHandler (c : Nat) (ret : Int) (r : Handled) : List Sock.Label :=
  r.actions.flatMap (labelsOf c ret) ++
    if r.error.isNone then [.callbackReturns] else []

/-- The handler of a read, and its return. -/
theorem serves_handleOn
    {ret : Int} {r : Handled} (hs : Serves s d) (hc : s.net.conns c ≠ none)
    (hstack : s.net.stack = [.readDone c])
    (h : handleOn c ret s r = some t) :
    Serves t (performAll c d r) ∧
      run (Sock.step tcpBaseSock) s.net (labelsOfHandler c ret r) =
        some t.net ∧
      ∀ reply ∈ replies r.actions, reply.length < Sock.sizeMod := by
  obtain ⟨m, hm, h⟩ := Option.bind_eq_some_iff.mp h
  have hacted := serves_actions hs hc hm
  unfold performAll labelsOfHandler
  cases herror : r.error with
  | none =>
      rw [herror] at h
      obtain ⟨net, hnet, rfl⟩ := onNet_eq_some h
      have hreturn : net = m.net.withStack [] := by
        have hstep : Sock.afterCallback m.net = some net := hnet
        unfold Sock.afterCallback at hstep
        rw [hacted.stack, hstack] at hstep
        exact (Option.some.inj hstep).symm
      have hsame : SameReading m.net net := by
        rw [hreturn]
        exact (SameReading.refl m.net).congr rfl rfl
      refine ⟨hacted.serves.same hsame
        (Sock.known_step hacted.serves.known hnet), ?_, hacted.fits⟩
      rw [run_append, hacted.run, Option.bind_some, Option.isNone_none,
        if_pos rfl, run_cons, hnet]
      rfl
  | some error =>
      rw [herror] at h
      cases h
      refine ⟨?_, by simpa using hacted.run, hacted.fits⟩
      exact { hacted.serves.emit [.raised c error] with
        alive := fun h => by cases h }

/-- The read watcher of a context fires and there is data. -/
theorem readReady_data
    (hs : Serves s d) {data : List UInt8} (hdata : data ≠ []) {net : Net}
    (h : Sock.step tcpBaseSock s.net (.readReady c (.data data)) = some net) :
    ∃ ctx, s.net.conns c = some ctx ∧ ctx.eventRead.active = true ∧
      ctx.bufRead.isSome = true ∧ data.length ≤ ctx.sizeBufread ∧
      net.conns = s.net.conns ∧ net.kernel = s.net.kernel ∧
      net.stack = [.readDone c] := by
  obtain ⟨ctx, hc, hok, rfl⟩ := Sock.onConn_eq_some h
  simp only [Bool.and_eq_true, List.isEmpty_iff] at hok
  obtain ⟨⟨⟨⟨hstack, hactive⟩, _⟩, hbuf⟩, hret⟩ := hok
  have hlen : data.length ≤ ctx.sizeBufread := by
    simp only [Sock.readRet, Bool.and_eq_true, decide_eq_true_eq] at hret
    exact hret.2
  have hcb := hs.callbacks c ctx hc
  cases data with
  | nil => exact absurd rfl hdata
  | cons b bs =>
      have hentered : Sock.ixfdCommonsockReadCb tcpBaseSock s.net c ctx
          (.data (b :: bs)) =
            ((s.net.emit [.read c ctx.fd (s.net.kernel ctx.fd)]).emit
              [.received c (b :: bs)]).withStack
                (.readDone c :: s.net.stack) := by
        simp only [Sock.ixfdCommonsockReadCb, tcpBaseSock, hcb, if_true]
        rfl
      rw [hentered]
      refine ⟨ctx, hc, hactive, hbuf, hlen, rfl, rfl, ?_⟩
      rw [Net.withStack_stack, hstack]

/-- The read watcher of a context fires at the end of file. -/
theorem readReady_eof
    {net : Net}
    (h : Sock.step tcpBaseSock s.net (.readReady c (.data [])) = some net) :
    ∃ ctx, s.net.conns c = some ctx ∧ ctx.eventRead.active = true ∧
      ctx.bufRead.isSome = true ∧ (s.net.kernel ctx.fd).isSome = true ∧
      net = (s.net.emit [.read c ctx.fd (s.net.kernel ctx.fd)]).withStack
        [.closeDone c] := by
  obtain ⟨ctx, hc, hok, rfl⟩ := Sock.onConn_eq_some h
  simp only [Bool.and_eq_true, List.isEmpty_iff] at hok
  obtain ⟨⟨⟨⟨hstack, hactive⟩, hpeer⟩, hbuf⟩, _⟩ := hok
  refine ⟨ctx, hc, hactive, hbuf, hpeer, ?_⟩
  simp only [Sock.ixfdCommonsockReadCb, tcpBaseSock, Net.emit_stack, hstack]
  rfl

/-- The steps of the daemon that an event amounts to. -/
def daemonLabels (s : Served) : ServedLabel → List Label
  | .accept fd mallocOk => [.accept s.net.nextConn fd mallocOk]
  | .chunk c data env ending _ => [.chunk c data env ending]
  | .eof c => [.eof c]
  | _ => []

/-- The steps of the connection layer that an event takes. -/
def netLabels (tostringNumber : ℚ → LuaString) (s : Served) :
    ServedLabel → List Sock.Label
  | .accept fd mallocOk => [.accept fd mallocOk, .callbackReturns]
  | .chunk c data env ending ret =>
      .readReady c (.data data) ::
        labelsOfHandler c ret (cbRead tostringNumber (s.data c) data env ending)
  | .eof c => [.readReady c (.data []), .callbackReturns]
  | .readError c => [.readReady c .error]
  | .writeReady c => [.writeReady c]
  | .drainWrite ret => [.drainWrite ret]
  | .drainEnd => [.drainEnd]

/-- The replies that an event leads to. -/
def repliesAfter (tostringNumber : ℚ → LuaString) (s : Served) :
    ServedLabel → List LuaString
  | .chunk c data env ending _ =>
      replies (cbRead tostringNumber (s.data c) data env ending).actions
  | _ => []

/-- The daemon takes the steps that the event amounts to, and the connection
layer those that the event takes. -/
structure ServesStep (tostringNumber : ℚ → LuaString) (s : Served) (d : State)
    (l : ServedLabel) (t : Served) (d' : State) : Prop where
  daemon : run (step tostringNumber) d (daemonLabels s l) = some d'
  serves : Serves t d'
  net : run (Sock.step tcpBaseSock) s.net (netLabels tostringNumber s l) =
    some t.net
  fits : ∀ reply ∈ repliesAfter tostringNumber s l,
    reply.length < Sock.sizeMod

theorem guard_eq_some {p : Prop} [Decidable p] {u : Unit}
    (h : (guard p : Option Unit) = some u) : p := by
  by_contra hp
  simp [guard, hp] at h

/-- The new context, with its accept callback behind it. -/
theorem accepted_net
    {fd : Int} {mallocOk : Bool} {net net' : Net}
    (h : Sock.step tcpBaseSock s.net (.accept fd mallocOk) = some net)
    (h' : Sock.step tcpBaseSock net .callbackReturns = some net') :
    s.net.kernel fd = none ∧ 0 ≤ fd ∧
      net'.conns = Function.update s.net.conns s.net.nextConn
        (some (Sock.activateCtx
          (Sock.ixfdCommonsockCreateCtx tcpBaseSock fd mallocOk))) ∧
      net'.kernel = Function.update s.net.kernel fd (some s.net.nextConn) := by
  have hok := h
  simp only [Sock.step] at hok
  split at hok
  case isFalse => cases hok
  case isTrue hcond =>
      simp only [Bool.and_eq_true, List.isEmpty_iff,
        Option.isNone_iff_eq_none, decide_eq_true_eq] at hcond
      obtain ⟨⟨_, hkernel⟩, hfd⟩ := hcond
      cases hok
      have hstep : Sock.afterCallback
          (Sock.ixfdCommonsockAcceptCb tcpBaseSock s.net fd mallocOk) =
            some net' := h'
      simp only [Sock.ixfdCommonsockAcceptCb, tcpBaseSock, if_true,
        Sock.afterCallback, Net.withStack_stack, Net.withStack_conns,
        Net.setConn_conns, Function.update_self, Option.map_some,
        Option.some.injEq] at hstep
      subst hstep
      refine ⟨hkernel, hfd, ?_, rfl⟩
      exact Function.update_idem _ _ s.net.conns

theorem serves_accept
    (hs : Serves s d) {fd : Int} {mallocOk : Bool}
    (h : serve tostringNumber s (.accept fd mallocOk) = some t) :
    ∃ d', ServesStep tostringNumber s d (.accept fd mallocOk) t d' := by
  obtain ⟨_, hguard, h⟩ := Option.bind_eq_some_iff.mp h
  obtain ⟨m, hm, h⟩ := Option.bind_eq_some_iff.mp h
  obtain ⟨m', hm', h⟩ := Option.bind_eq_some_iff.mp h
  obtain ⟨net, hnet, rfl⟩ := onNet_eq_some hm
  obtain ⟨net', hnet', rfl⟩ := onNet_eq_some hm'
  cases h
  have hrun : run (Sock.step tcpBaseSock) s.net
      [.accept fd mallocOk, .callbackReturns] = some net' := by
    rw [run_cons, hnet, Option.bind_some, run_cons]
    rw [Served.withNet_net] at hnet'
    rw [hnet']
    rfl
  have hknown := known_run hs.known hrun
  obtain ⟨hkernel, hfd, hconns, hkernel'⟩ := accepted_net hnet hnet'
  have hlive := guard_eq_some hguard
  rw [Bool.and_eq_true] at hlive
  have hnone : d.conns s.net.nextConn = none := by
    rw [hs.conns, hs.known _ (Nat.le_refl _)]
    rfl
  refine ⟨accept d s.net.nextConn fd mallocOk, ?_, ?_, hrun, by
    simp [repliesAfter]⟩
  · rw [daemonLabels, run_cons]
    simp [step, hnone, hs.alive hlive.1, hs.listening, hs.kernel, hlive.2,
      hkernel, hfd]
  · constructor
    case conns =>
        intro e
        simp only [accept, State.emit_conns, State.setConn_conns,
          Served.emit_net, Served.withNet_net, hconns]
        by_cases he : e = s.net.nextConn
        · subst he
          simp only [Function.update_self, Option.map_some]
          cases mallocOk <;> rfl
        · simp only [Function.update_of_ne he]
          exact hs.conns e
    case kernel =>
        simp only [accept, Served.emit_net, Served.withNet_net, hkernel',
          hs.kernel]
    case envs => exact hs.envs
    case listening => exact hs.listening
    case alive => exact hs.alive
    case log =>
        simp only [accept, State.emit_log, State.setConn_log, Served.emit_log,
          Served.withNet_log, hs.log]
    case callbacks =>
        intro e ctx hctx
        simp only [Served.emit_net, Served.withNet_net, hconns] at hctx
        by_cases he : e = s.net.nextConn
        · subst he
          rw [Function.update_self] at hctx
          cases hctx
          cases mallocOk <;> rfl
        · rw [Function.update_of_ne he] at hctx
          exact hs.callbacks e ctx hctx
    case known => exact hknown

theorem serves_chunk
    (hs : Serves s d) {data : List UInt8} {env : Nat} {ending : ChunkEnd}
    {ret : Int}
    (h : serve tostringNumber s (.chunk c data env ending ret) = some t) :
    ∃ d', ServesStep tostringNumber s d (.chunk c data env ending ret) t d' := by
  obtain ⟨_, hguard, h⟩ := Option.bind_eq_some_iff.mp h
  obtain ⟨ctx, hctx, h⟩ := Option.bind_eq_some_iff.mp h
  obtain ⟨peer, hpeer, h⟩ := Option.bind_eq_some_iff.mp h
  obtain ⟨m, hm, h⟩ := Option.bind_eq_some_iff.mp h
  obtain ⟨net, hnet, rfl⟩ := onNet_eq_some hm
  have hcond := guard_eq_some hguard
  simp only [Bool.and_eq_true, Bool.not_eq_true', List.isEmpty_eq_false_iff,
    List.contains_eq_mem, decide_eq_false_iff_not] at hcond
  obtain ⟨⟨halive, hdata⟩, henv⟩ := hcond
  obtain ⟨ctx', hctx', hactive, hbuf, hlen, hconns, hkernel, hstack⟩ :=
    readReady_data hs hdata hnet
  rw [hctx] at hctx'
  cases hctx'
  have hsame : SameReading s.net net :=
    (SameReading.refl s.net).congr hconns hkernel
  have hread := (hs.same hsame (Sock.known_step hs.known hnet)).emit
    [.received c peer data]
  have hmade : ((s.withNet net).emit [.received c peer data]).net.conns c ≠
      none := by
    simp [hconns, hctx]
  obtain ⟨hend, hrun, hfits⟩ := serves_handleOn hread hmade hstack h
  refine ⟨_, ?_, hend, ?_, hfits⟩
  · have hd := hs.conn hctx
    have hdpeer : d.kernel (readingSide ctx).fd = some peer := by
      rw [hs.kernel]
      exact hpeer
    have hreadable : readable d ⟨readingSide ctx, s.data c⟩ = true := by
      rw [readable_iff]
      exact ⟨hs.alive halive, hactive, hbuf⟩
    have hsize : data.length ≤ (readingSide ctx).sizeBufread := hlen
    have hfresh : env ∉ d.envs := hs.envs ▸ henv
    rw [daemonLabels, run_cons]
    simp only [step, hd, hdpeer, hreadable, hsize, decide_true,
      List.contains_eq_mem, hfresh, decide_false, Bool.not_false,
      Bool.and_true, List.isEmpty_eq_false_iff.mpr hdata, if_true,
      Option.bind_some, run_nil]
  · rw [netLabels, run_cons, hnet]
    exact hrun

theorem serves_eof
    (hs : Serves s d) (h : serve tostringNumber s (.eof c) = some t) :
    ∃ d', ServesStep tostringNumber s d (.eof c) t d' := by
  obtain ⟨_, hguard, h⟩ := Option.bind_eq_some_iff.mp h
  obtain ⟨m, hm, h⟩ := Option.bind_eq_some_iff.mp h
  obtain ⟨m', hm', h⟩ := Option.bind_eq_some_iff.mp h
  cases h
  obtain ⟨net, hnet, rfl⟩ := onNet_eq_some hm
  obtain ⟨net', hnet', rfl⟩ :=
    onNet_eq_some (s := (s.withNet net).emit [.act c .delayedGc]) hm'
  obtain ⟨ctx, hctx, hactive, hbuf, hpeer, hentered⟩ := readReady_eof hnet
  have halive := guard_eq_some hguard
  have hclosed : net' = Sock.ixfdCommonsockClose (net.withStack []) c ctx := by
    have hstep : Sock.afterCallback net = some net' := hnet'
    unfold Sock.afterCallback at hstep
    rw [hentered] at hstep ⊢
    simp only [Net.withStack_stack, Net.withStack_conns, Net.emit_conns, hctx,
      Option.map_some, Option.some.injEq] at hstep
    exact hstep.symm
  have hsame : SameReading s.net (net.withStack []) := by
    rw [hentered]
    exact (SameReading.refl s.net).congr rfl rfl
  have hknown : Sock.Known net := Sock.known_step hs.known hnet
  have hknown' : Sock.Known net' := Sock.known_step hknown hnet'
  have hread := (hs.same hsame
    (Sock.known_congr hknown rfl rfl)).emit [.act c .delayedGc]
  have hctx' : (net.withStack []).conns c = some ctx := by
    rw [hentered]
    exact hctx
  rw [hclosed] at hknown'
  have hend := (hread.close hctx' hknown').emit [.act c .close]
  have hd := hs.conn hctx
  have hperformed : performAll c d ⟨[.delayedGc, .close], none⟩ =
      (applyAction (d.emit [.act c .delayedGc]) c ⟨readingSide ctx, s.data c⟩
        .close).emit [.act c .close] := by
    simp [performAll, perform, hd, applyAction]
  refine ⟨performAll c d ⟨[.delayedGc, .close], none⟩, ?_, ?_, ?_, by
    simp [repliesAfter]⟩
  · have hdpeer : (d.kernel (readingSide ctx).fd).isSome = true := by
      rw [hs.kernel]
      exact hpeer
    have hreadable : readable d ⟨readingSide ctx, s.data c⟩ = true := by
      rw [readable_iff]
      exact ⟨hs.alive halive, hactive, hbuf⟩
    rw [daemonLabels, run_cons]
    simp only [step, hd, hdpeer, hreadable, Bool.and_self, if_true,
      Option.bind_some, run_nil]
  · rw [hperformed, hclosed]
    exact hend
  · rw [netLabels, run_cons, hnet, Option.bind_some, run_cons]
    have hstep : Sock.step tcpBaseSock net .callbackReturns = some net' := hnet'
    rw [hstep]
    rfl

/-- A step of the connection layer on the writing side only. -/
theorem serves_quiet
    (hs : Serves s d) {l : ServedLabel} {net : Net}
    (hsame : SameReading s.net net)
    (hrun : run (Sock.step tcpBaseSock) s.net (netLabels tostringNumber s l) =
      some net)
    (hdaemon : daemonLabels s l = [])
    (hreplies : repliesAfter tostringNumber s l = []) :
    ServesStep tostringNumber s d l (s.withNet net) d where
  daemon := by rw [hdaemon, run_nil]
  serves := hs.same hsame (known_run hs.known hrun)
  net := hrun
  fits := by simp [hreplies]

/-- The frame that an iteration of `write_cb` adds. -/
theorem entered_writeCbIter
    (n : Net) (c : Nat) (ctx : IxfdConnCtx) (w : Sock.IxfdSockWriteCtx)
    (rest : List Sock.IxfdSockWriteCtx) (ret : Int) :
    ∃ entered, (entered = [] ∨ ∃ j, entered = [.drainDone c j]) ∧
      (Sock.ixfdCommonsockWriteCbIter n c ctx w rest ret).stack =
        entered ++ n.stack := by
  by_cases hlt : Sock.toSizeT ret < w.lenRemain
  · rw [Sock.writeCbIter_advanced _ _ _ _ _ hlt]
    exact ⟨[], Or.inl rfl, rfl⟩
  · rw [Sock.writeCbIter_complete _ _ _ _ _ hlt]
    rcases w.cb with _ | f
    · exact ⟨[], Or.inl rfl, rfl⟩
    · exact ⟨[.drainDone c w.call], Or.inr ⟨w.call, rfl⟩, rfl⟩

/-- An iteration of `write_cb` goes on, or ends the run. -/
theorem drainReply_eq_some
    {ret : Int} (h : drainReply s ret = some t) :
    ∃ net, Sock.step tcpBaseSock s.net (.drainWrite ret) = some net ∧
      SameReading s.net net ∧
      ((t = s.withNet net ∧ net.stack = s.net.stack) ∨
        t = { s.withNet net with alive := false }) := by
  obtain ⟨m, hm, h⟩ := Option.bind_eq_some_iff.mp h
  obtain ⟨net, hnet, rfl⟩ := onNet_eq_some hm
  refine ⟨net, hnet, ?_⟩
  obtain ⟨c, stack, ctx, w, rest, hdrain, hc, _, _, hiter⟩ :=
    Sock.drainWrite_eq_some hnet
  obtain ⟨entered, hentered, hstack⟩ :=
    entered_writeCbIter s.net c ctx w rest ret
  have hsame := sameReading_writeCbIter hc w rest ret
  rw [← hiter] at hstack hsame
  refine ⟨hsame, ?_⟩
  rw [Served.withNet_net] at h
  rcases hentered with rfl | ⟨j, rfl⟩
  · have htop : net.stack = .drain c :: stack := hstack.trans hdrain
    rw [htop] at h
    cases h
    exact Or.inl ⟨rfl, hstack⟩
  · have htop : net.stack = .drainDone c j :: s.net.stack := hstack
    rw [htop] at h
    cases h
    exact Or.inr rfl

/-- **Step lemma**: every event is a step of the daemon or none, and steps of the
connection layer. -/
theorem serves_step
    (hs : Serves s d) {l : ServedLabel} (h : serve tostringNumber s l = some t) :
    ∃ d', ServesStep tostringNumber s d l t d' := by
  cases l with
  | accept fd mallocOk => exact serves_accept hs h
  | chunk c data env ending ret => exact serves_chunk hs h
  | eof c => exact serves_eof hs h
  | readError c =>
      obtain ⟨_, _, h⟩ := Option.bind_eq_some_iff.mp h
      obtain ⟨net, hnet, rfl⟩ := onNet_eq_some h
      have hread := hnet
      obtain ⟨ctx, hc, _, rfl⟩ := Sock.onConn_eq_some hread
      have hsame : SameReading s.net
          (s.net.emit [.read c ctx.fd (s.net.kernel ctx.fd)]) :=
        (SameReading.refl s.net).congr rfl rfl
      refine ⟨d, serves_quiet hs hsame ?_ rfl rfl⟩
      rw [netLabels, run_cons, hnet]
      rfl
  | writeReady c =>
      obtain ⟨_, _, h⟩ := Option.bind_eq_some_iff.mp h
      obtain ⟨net, hnet, rfl⟩ := onNet_eq_some h
      have hready := hnet
      obtain ⟨ctx, _, _, rfl⟩ := Sock.onConn_eq_some hready
      refine ⟨d, serves_quiet hs ?_ ?_ rfl rfl⟩
      · exact (SameReading.refl s.net).congr rfl rfl
      · rw [netLabels, run_cons, hnet]
        rfl
  | drainWrite ret =>
      obtain ⟨_, _, h⟩ := Option.bind_eq_some_iff.mp h
      obtain ⟨net, hnet, hsame, hcases⟩ := drainReply_eq_some h
      have hrun : run (Sock.step tcpBaseSock) s.net
          (netLabels tostringNumber s (.drainWrite ret)) = some net := by
        rw [netLabels, run_cons, hnet]
        rfl
      rcases hcases with ⟨rfl, _⟩ | rfl
      · exact ⟨d, serves_quiet hs hsame hrun rfl rfl⟩
      · -- the run ends inside the completion callback
        refine ⟨d, rfl, ?_, hrun, by simp [repliesAfter]⟩
        exact { hs.same hsame (known_run hs.known hrun) with
          alive := fun h => by cases h }
  | drainEnd =>
      obtain ⟨_, _, h⟩ := Option.bind_eq_some_iff.mp h
      obtain ⟨net, hnet, rfl⟩ := onNet_eq_some h
      have hend := hnet
      obtain ⟨c, stack, ctx, _, hc, _, rfl⟩ := Sock.drainEnd_eq_some hend
      refine ⟨d, serves_quiet hs ?_ ?_ rfl rfl⟩
      · exact ((SameReading.refl s.net).setConn hc (Sock.quietCtx ctx)
          rfl).congr rfl rfl
      · rw [netLabels, run_cons, hnet]
        rfl

end Steps

end Daemon
end Iojxd
