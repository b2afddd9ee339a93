import Iojxd.SockHeapStrip

/-!
# The queues in memory refine the lists

The connection layer with its queues in memory makes the same steps as the one
with lists, and writes the same log.  The queues of all connections form a family
in the sense of `CycQueueFamily`: what a step does to one leaves the nodes of the
others alone.  The write contexts that the nodes point to are those of the lists.
-/

namespace Iojxd
namespace Sock

open LinkedCells TransitionRun CycQueue CycQueueFamily

/-- The values in the nodes of every connection's queue. -/
def pointers (s : Net) (c : Nat) : Option (List Nat) :=
  if c < s.nextConn then some ((queue s c).map IxfdSockWriteCtx.call)
  else none

/-- The memory `m` holds what the lists of `s` say. -/
structure Simulates (h₀ : Heap Nat) (s : Net) (m : HeapNet) : Prop where
  net : m.net = strip s
  queues : Family h₀ m.heap m.bufWrite (pointers s)
  held : ∀ c, ∀ w ∈ queue s c, m.writeCtxs w.call = some w
  known : Known s
  distinct : Distinct s

/-- What `malloc` returns in the step is free. -/
def Mallocs (m : HeapNet) (l : HeapLabel) : Prop :=
  match l.base with
  | .write _ data _ _ ret =>
      toSizeT ret < data.bytes.length → Fresh m.heap l.first
  | .accept _ _ =>
      Fresh m.heap l.first ∧ Fresh m.heap l.second ∧ l.first ≠ l.second
  | _ => True

section Steps

variable {h₀ : Heap Nat} {sock : IxfdSock} {s t : Net} {m : HeapNet}
  {c : Nat} {ctx : IxfdConnCtx}

theorem pointers_congr
    (hnext : t.nextConn = s.nextConn) (hqueue : ∀ c, queue t c = queue s c) :
    pointers t = pointers s := by
  funext c
  rw [pointers, pointers, hnext, hqueue c]

/-- One queue changes. -/
theorem pointers_update
    (hnext : t.nextConn = s.nextConn) (hc : c < s.nextConn)
    (hqueue : ∀ d, d ≠ c → queue t d = queue s d) :
    pointers t = Function.update (pointers s) c
      (some ((queue t c).map IxfdSockWriteCtx.call)) := by
  funext d
  by_cases hd : d = c
  · subst hd
    rw [Function.update_self, pointers, hnext, if_pos hc]
  · rw [Function.update_of_ne hd, pointers, pointers, hnext, hqueue d hd]

theorem lt_nextConn (hk : Known s) (hc : s.conns c = some ctx) :
    c < s.nextConn := by
  by_contra hge
  rw [hk c (Nat.le_of_not_lt hge)] at hc
  cases hc

theorem pointers_of_conns (hk : Known s) (hc : s.conns c = some ctx) :
    pointers s c = some (ctx.bufWrite.map IxfdSockWriteCtx.call) := by
  rw [pointers, if_pos (lt_nextConn hk hc), queue_of_conns hc]

/-! ## Steps that do not use a queue -/

theorem simulates_plain
    (hsim : Simulates h₀ s m) {l : HeapLabel} (hl : l.base.plain = true) :
    Option.Rel (Simulates h₀) (step sock s l.base) (heapStep sock m l) := by
  rw [heapStep_plain sock m hl, hsim.net, strip_step sock s hl]
  cases ht : step sock s l.base with
  | none => exact .none
  | some t =>
      have hquiet := quiet_of_plain hsim.known hl ht
      have hsame := pointers_congr (nextConn_plain hl ht) hquiet.queue
      refine .some {
        net := rfl
        queues := hsame ▸ hsim.queues
        held := ?_
        known := known_step hsim.known ht
        distinct := distinct_quiet hsim.distinct hquiet }
      intro c w hw
      rw [hquiet.queue c] at hw
      exact hsim.held c w hw

/-! ## The function that makes a queue -/

theorem simulates_accept
    (hsim : Simulates h₀ s m) {fd : Int} {mallocOk : Bool}
    {first second : Nat}
    (hmalloc : Mallocs m ⟨.accept fd mallocOk, first, second⟩) :
    Option.Rel (Simulates h₀) (step sock s (.accept fd mallocOk))
      (heapStep sock m ⟨.accept fd mallocOk, first, second⟩) := by
  have hstrip : step sock m.net (.accept fd mallocOk) =
      (step sock s (.accept fd mallocOk)).map strip := by
    rw [hsim.net]
    simp only [step, strip_stack, strip_kernel, strip_acceptCb]
    split <;> rfl
  have hheap : heapStep sock m ⟨.accept fd mallocOk, first, second⟩ =
      (step sock m.net (.accept fd mallocOk)).map fun net =>
        { m with
          net := net
          bufWrite := Function.update m.bufWrite m.net.nextConn first
          heap := ixutCycqueueCreate m.heap filler first second } :=
    if_pos hmalloc
  rw [hheap, hstrip]
  cases ht : step sock s (.accept fd mallocOk) with
  | none => exact .none
  | some t =>
      have hquiet : QuietStep s t := by
        obtain ⟨_, _, rfl⟩ := accept_eq_some ht
        exact quiet_acceptCb sock fd mallocOk hsim.known
      have hnext : t.nextConn = s.nextConn + 1 := by
        obtain ⟨_, _, rfl⟩ := accept_eq_some ht
        unfold ixfdCommonsockAcceptCb
        split <;> rfl
      have hnone : pointers s s.nextConn = none :=
        if_neg (Nat.lt_irrefl _)
      have hnew : pointers t =
          Function.update (pointers s) s.nextConn (some []) := by
        have hempty : queue s s.nextConn = [] := by
          simp [queue, hsim.known s.nextConn (Nat.le_refl _)]
        funext d
        by_cases hd : d = s.nextConn
        · subst hd
          simp [pointers, hnext, hquiet.queue, hempty]
        · have hiff : d < s.nextConn + 1 ↔ d < s.nextConn := by omega
          rw [Function.update_of_ne hd, pointers, pointers, hnext,
            hquiet.queue d]
          simp only [hiff]
      have hentry : m.net.nextConn = s.nextConn := by
        rw [hsim.net]
        rfl
      refine .some {
        net := rfl
        queues := ?_
        held := ?_
        known := known_step hsim.known ht
        distinct := distinct_quiet hsim.distinct hquiet }
      · -- the pointer of a context without a queue may be anything
        have hfam : Family h₀ m.heap
            (Function.update m.bufWrite s.nextConn first) (pointers s) := by
          apply hsim.queues.entry_congr
          intro d hd
          apply Function.update_of_ne
          rintro rfl
          exact hd hnone
        obtain ⟨hfirst, hsecond, hne⟩ := hmalloc
        have hself : Function.update m.bufWrite s.nextConn first
            s.nextConn = first := Function.update_self ..
        have hmade := hfam.create hnone filler (hself.symm ▸ hfirst) hsecond
          (hself.symm ▸ hne)
        rw [hself, ← hnew] at hmade
        simpa [hentry] using hmade
      · intro d w hw
        rw [hquiet.queue d] at hw
        exact hsim.held d w hw

/-! ## The two functions that write -/

theorem strip_enqueueCtx (ctx : IxfdConnCtx) (w : IxfdSockWriteCtx) :
    stripCtx (enqueueCtx ctx w) = launchCtx (stripCtx ctx) := by
  unfold enqueueCtx launchCtx stripCtx
  dsimp only
  split <;> rfl

/-- A call that leaves nothing to queue. -/
theorem simulates_write_complete
    (hsim : Simulates h₀ s m) (hc : s.conns c = some ctx)
    {data : Buffer} {ret : Int} (hlt : ¬ toSizeT ret < data.bytes.length)
    (cb : Option Nat) (args : Nat)
    (ht : step sock s (.write c data cb args ret) =
      some (ixfdCommonsockWrite s c ctx data cb args ret)) :
    Simulates h₀ (ixfdCommonsockWrite s c ctx data cb args ret)
      { m with
        net := ixfdCommonsockWrite m.net c (stripCtx ctx) data cb args ret }
    where
  net := by
    rw [hsim.net, write_complete _ _ _ _ _ _ hlt,
      write_complete _ _ _ _ _ _ hlt]
    cases cb <;> rfl
  queues := by
    have hsame : pointers (ixfdCommonsockWrite s c ctx data cb args ret) =
        pointers s := by
      apply pointers_congr
      · rw [write_complete _ _ _ _ _ _ hlt]
        cases cb <;> rfl
      · intro d
        simp [queue_write hc, hlt]
    rw [hsame]
    exact hsim.queues
  held := by
    intro d w hw
    rw [queue_write hc] at hw
    simp only [hlt, and_false, dite_false, List.append_nil] at hw
    exact hsim.held d w hw
  known := known_step hsim.known ht
  distinct := distinct_step hsim.known hsim.distinct ht

/-- A call that queues what the kernel did not take: the new node points to the
new write context. -/
theorem simulates_write_queued
    (hsim : Simulates h₀ s m) (hc : s.conns c = some ctx)
    {data : Buffer} {ret : Int} (hlt : toSizeT ret < data.bytes.length)
    (cb : Option Nat) (args : Nat) {newNode : Nat}
    (hfresh : Fresh m.heap newNode)
    (ht : step sock s (.write c data cb args ret) =
      some (ixfdCommonsockWrite s c ctx data cb args ret)) :
    ∃ m', ixfdCommonsockWriteHeap m c (stripCtx ctx) data cb args ret newNode =
        some m' ∧
      Simulates h₀ (ixfdCommonsockWrite s c ctx data cb args ret) m' := by
  obtain ⟨base, placeHolder, cells, hrep, hback, _⟩ :=
    hsim.queues.focus (pointers_of_conns hsim.known hc)
  obtain ⟨heap, heq, hrep'⟩ := represents_enqueue hrep s.calls hfresh
  have hqueue := queue_write hc data cb args ret
  have hself : queue (ixfdCommonsockWrite s c ctx data cb args ret) c =
      ctx.bufWrite ++ [.ofCall s.calls data (toSizeT ret) hlt cb] := by
    simp [hqueue, hlt, queue_of_conns hc]
  have hother : ∀ d, d ≠ c →
      queue (ixfdCommonsockWrite s c ctx data cb args ret) d = queue s d := by
    intro d hd
    simp [hqueue, hd.symm]
  have hwrite := write_queued s c ctx data cb args hlt
  have hrun : ixfdCommonsockWriteHeap m c (stripCtx ctx) data cb args ret
      newNode = some
        { m with
          net := strip (ixfdCommonsockWrite s c ctx data cb args ret)
          heap := heap
          writeCtxs := Function.update m.writeCtxs s.calls
            (some (.ofCall s.calls data (toSizeT ret) hlt cb)) } := by
    rw [ixfdCommonsockWriteHeap, dif_pos hlt, if_pos hfresh, hsim.net,
      strip_calls, heq, hwrite, strip_emit, strip_setConn, strip_enqueueCtx]
    rfl
  refine ⟨_, hrun, {
    net := rfl
    queues := ?_
    held := ?_
    known := known_step hsim.known ht
    distinct := distinct_step hsim.known hsim.distinct ht }⟩
  · have hnew := pointers_update
      (t := ixfdCommonsockWrite s c ctx data cb args ret)
      (by rw [hwrite]; rfl) (lt_nextConn hsim.known hc) hother
    rw [hself, List.map_append] at hnew
    rw [hnew]
    exact hback heap placeHolder _ _ hrep'
  · intro d w hw
    dsimp only
    by_cases hd : d = c
    · subst hd
      rw [hself, List.mem_append, List.mem_singleton] at hw
      rcases hw with hw | rfl
      · have hmade := hsim.distinct.made d w (queue_of_conns hc ▸ hw)
        rw [Function.update_of_ne (Nat.ne_of_lt hmade)]
        exact hsim.held d w (queue_of_conns hc ▸ hw)
      · exact Function.update_self ..
    · rw [hother d hd] at hw
      have hmade := hsim.distinct.made d w hw
      rw [Function.update_of_ne (Nat.ne_of_lt hmade)]
      exact hsim.held d w hw

theorem simulates_write
    (hsim : Simulates h₀ s m) {data : Buffer} {cb : Option Nat} {args : Nat}
    {ret : Int} {first second : Nat}
    (hmalloc : Mallocs m ⟨.write c data cb args ret, first, second⟩) :
    Option.Rel (Simulates h₀) (step sock s (.write c data cb args ret))
      (heapStep sock m ⟨.write c data cb args ret, first, second⟩) := by
  have hnet := hsim.net
  simp only [heapStep, step, onConn, hnet, strip_conns, strip_stack,
    strip_kernel]
  cases hc : s.conns c with
  | none => exact .none
  | some ctx =>
      simp only [Option.map_some, Option.bind_some]
      have hfd : (stripCtx ctx).fd = ctx.fd := rfl
      rw [hfd]
      split
      case isFalse => exact .none
      case isTrue hok =>
          have ht : step sock s (.write c data cb args ret) =
              some (ixfdCommonsockWrite s c ctx data cb args ret) := by
            simp only [step, onConn, hc, hok, if_true]
          by_cases hlt : toSizeT ret < data.bytes.length
          · obtain ⟨m', hm', hsim'⟩ := simulates_write_queued hsim hc hlt cb
              args (hmalloc hlt) ht
            rw [hm']
            exact .some hsim'
          · rw [ixfdCommonsockWriteHeap, dif_neg hlt]
            exact .some (simulates_write_complete hsim hc hlt cb args ht)

/-- The kernel takes a part: the write context is changed where it lies. -/
theorem simulates_advanced
    (hsim : Simulates h₀ s m) (hc : s.conns c = some ctx)
    {w : IxfdSockWriteCtx} {rest : List IxfdSockWriteCtx}
    (hq : ctx.bufWrite = w :: rest) {ret : Int}
    (hlt : toSizeT ret < w.lenRemain)
    (ht : step sock s (.drainWrite ret) =
      some (ixfdCommonsockWriteCbIter s c ctx w rest ret)) :
    ∃ m', ixfdCommonsockWriteCbIterHeap m c (stripCtx ctx) w.call w ret =
        some m' ∧
      Simulates h₀ (ixfdCommonsockWriteCbIter s c ctx w rest ret) m' := by
  have hwrite := writeCbIter_advanced s c ctx w rest hlt
  have hqueue := queue_writeCbIter s c ctx w rest ret
  have hself : queue (ixfdCommonsockWriteCbIter s c ctx w rest ret) c =
      w.advance (toSizeT ret) hlt :: rest := by
    simp [hqueue, hlt]
  have hother : ∀ d, d ≠ c →
      queue (ixfdCommonsockWriteCbIter s c ctx w rest ret) d = queue s d := by
    intro d hd
    simp [hqueue, hd.symm]
  have hold := queue_of_conns hc
  rw [hq] at hold
  have hrun : ixfdCommonsockWriteCbIterHeap m c (stripCtx ctx) w.call w ret =
      some
        { m with
          net := strip (ixfdCommonsockWriteCbIter s c ctx w rest ret)
          writeCtxs := Function.update m.writeCtxs w.call
            (some (w.advance (toSizeT ret) hlt)) } := by
    have hkept := setConn_strip
      (s := s.emit [.write c w.call ctx.fd (s.kernel ctx.fd) w.remaining ret])
      hc { ctx with bufWrite := w.advance (toSizeT ret) hlt :: rest } rfl
    rw [ixfdCommonsockWriteCbIterHeap, dif_pos hlt, hwrite, strip_setConn,
      hkept, hsim.net]
    rfl
  refine ⟨_, hrun, {
    net := rfl
    queues := ?_
    held := ?_
    known := known_step hsim.known ht
    distinct := distinct_step hsim.known hsim.distinct ht }⟩
  · have hsame : pointers (ixfdCommonsockWriteCbIter s c ctx w rest ret) =
        pointers s := by
      have hnext : (ixfdCommonsockWriteCbIter s c ctx w rest ret).nextConn =
          s.nextConn := by
        rw [hwrite]
        rfl
      funext d
      by_cases hd : d = c
      · subst hd
        simp [pointers, hnext, hself, hold]
      · simp [pointers, hnext, hother d hd]
    rw [hsame]
    exact hsim.queues
  · -- only the front's context has this number
    intro d v hv
    dsimp only
    have hnodup := hsim.distinct.nodup c
    rw [hold, List.map_cons, List.nodup_cons] at hnodup
    by_cases hd : d = c
    · subst hd
      rw [hself, List.mem_cons] at hv
      rcases hv with rfl | hv
      · exact Function.update_self ..
      · have hne : v.call ≠ w.call := by
          intro heq
          apply hnodup.1
          rw [← heq]
          exact List.mem_map_of_mem hv
        rw [Function.update_of_ne hne]
        exact hsim.held d v (hold ▸ List.mem_cons_of_mem w hv)
    · rw [hother d hd] at hv
      have hne := hsim.distinct.apart d c hd v hv w
        (hold ▸ List.mem_cons_self)
      rw [Function.update_of_ne hne]
      exact hsim.held d v hv

/-- The kernel takes all: the front node is removed. -/
theorem simulates_completed
    (hsim : Simulates h₀ s m) (hc : s.conns c = some ctx)
    {w : IxfdSockWriteCtx} {rest : List IxfdSockWriteCtx}
    (hq : ctx.bufWrite = w :: rest) {ret : Int}
    (hlt : ¬ toSizeT ret < w.lenRemain)
    (ht : step sock s (.drainWrite ret) =
      some (ixfdCommonsockWriteCbIter s c ctx w rest ret)) :
    ∃ m', ixfdCommonsockWriteCbIterHeap m c (stripCtx ctx) w.call w ret =
        some m' ∧
      Simulates h₀ (ixfdCommonsockWriteCbIter s c ctx w rest ret) m' := by
  have hpointers := pointers_of_conns hsim.known hc
  rw [hq, List.map_cons] at hpointers
  obtain ⟨base, placeHolder, cells, hrep, hback, _⟩ :=
    hsim.queues.focus hpointers
  obtain ⟨heap, _, cells', _, hdeq, hrep'⟩ := represents_dequeue hrep
  have hwrite := writeCbIter_complete s c ctx w rest hlt
  have hqueue := queue_writeCbIter s c ctx w rest ret
  have hself : queue (ixfdCommonsockWriteCbIter s c ctx w rest ret) c =
      rest := by
    simp [hqueue, hlt]
  have hother : ∀ d, d ≠ c →
      queue (ixfdCommonsockWriteCbIter s c ctx w rest ret) d = queue s d := by
    intro d hd
    simp [hqueue, hd.symm]
  have hold := queue_of_conns hc
  rw [hq] at hold
  have hrun : ixfdCommonsockWriteCbIterHeap m c (stripCtx ctx) w.call w ret =
      some
        { m with
          net := strip (ixfdCommonsockWriteCbIter s c ctx w rest ret)
          heap := heap } := by
    have hkept := setConn_strip
      (s := s.emit [.write c w.call ctx.fd (s.kernel ctx.fd) w.remaining ret])
      hc { ctx with bufWrite := rest } rfl
    rw [ixfdCommonsockWriteCbIterHeap, dif_neg hlt, hdeq, hwrite, hsim.net]
    rcases w.cb with _ | f
    · simp only [strip_emit, strip_setConn] at hkept ⊢
      rw [hkept]
      rfl
    · simp only [strip_emit, strip_withStack, strip_setConn] at hkept ⊢
      rw [hkept]
      rfl
  refine ⟨_, hrun, {
    net := rfl
    queues := ?_
    held := ?_
    known := known_step hsim.known ht
    distinct := distinct_step hsim.known hsim.distinct ht }⟩
  · have hnext : (ixfdCommonsockWriteCbIter s c ctx w rest ret).nextConn =
        s.nextConn := by
      rw [hwrite]
      rcases w.cb with _ | f <;> rfl
    rw [pointers_update hnext (lt_nextConn hsim.known hc) hother, hself]
    exact hback heap placeHolder _ _ hrep'
  · intro d v hv
    by_cases hd : d = c
    · subst hd
      rw [hself] at hv
      exact hsim.held d v (hold ▸ List.mem_cons_of_mem w hv)
    · rw [hother d hd] at hv
      exact hsim.held d v hv

theorem simulates_writeCbIter
    (hsim : Simulates h₀ s m) (hc : s.conns c = some ctx)
    {w : IxfdSockWriteCtx} {rest : List IxfdSockWriteCtx}
    (hq : ctx.bufWrite = w :: rest) {ret : Int}
    (ht : step sock s (.drainWrite ret) =
      some (ixfdCommonsockWriteCbIter s c ctx w rest ret)) :
    Option.Rel (Simulates h₀)
      (some (ixfdCommonsockWriteCbIter s c ctx w rest ret))
      (ixfdCommonsockWriteCbIterHeap m c (stripCtx ctx) w.call w ret) := by
  by_cases hlt : toSizeT ret < w.lenRemain
  · obtain ⟨m', hm', hsim'⟩ := simulates_advanced hsim hc hq hlt ht
    rw [hm']
    exact .some hsim'
  · obtain ⟨m', hm', hsim'⟩ := simulates_completed hsim hc hq hlt ht
    rw [hm']
    exact .some hsim'

/-- `write_cb` ends. -/
theorem simulates_drained
    (hsim : Simulates h₀ s m) {stack : List Frame}
    (htop : s.stack = .drain c :: stack) (hc : s.conns c = some ctx)
    (ht : step sock s .drainEnd =
      some ((s.withStack stack).setConn c (quietCtx ctx))) :
    Simulates h₀ ((s.withStack stack).setConn c (quietCtx ctx))
      { m with
        net := (m.net.withStack stack).setConn c
          (quietCtx (stripCtx ctx)) } := by
  have hquiet : QuietStep s ((s.withStack stack).setConn c (quietCtx ctx)) := by
    apply (quiet_pop htop).setConn
    exact (queue_of_conns hc).symm
  constructor
  case net =>
      rw [hsim.net, strip_setConn]
      rfl
  case queues =>
      have hsame := pointers_congr (by rfl) hquiet.queue
      rw [hsame]
      exact hsim.queues
  case held =>
      intro d w hw
      rw [hquiet.queue d] at hw
      exact hsim.held d w hw
  case known => exact known_step hsim.known ht
  case distinct => exact distinct_quiet hsim.distinct hquiet

/-- What the two tests of the queue say. -/
theorem empty_of_simulates
    (hsim : Simulates h₀ s m) (hc : s.conns c = some ctx) :
    ixutCycqueueEmpty m.heap (m.bufWrite c) = some ctx.bufWrite.isEmpty := by
  obtain ⟨_, _, _, hrep, _⟩ :=
    hsim.queues.focus (pointers_of_conns hsim.known hc)
  rw [empty_eq hrep, List.isEmpty_map]

theorem front_of_simulates
    (hsim : Simulates h₀ s m) (hc : s.conns c = some ctx)
    {w : IxfdSockWriteCtx} {rest : List IxfdSockWriteCtx}
    (hq : ctx.bufWrite = w :: rest) :
    ixutCycqueueFront m.heap (m.bufWrite c) = some w.call ∧
      m.writeCtxs w.call = some w := by
  have hpointers := pointers_of_conns hsim.known hc
  rw [hq, List.map_cons] at hpointers
  obtain ⟨_, _, _, hrep, _⟩ := hsim.queues.focus hpointers
  refine ⟨front_eq hrep, hsim.held c w ?_⟩
  rw [queue_of_conns hc, hq]
  exact List.mem_cons_self

/-- The two levels stand at the same place. -/
theorem stack_of_simulates (hsim : Simulates h₀ s m) :
    m.net.stack = s.stack := by
  rw [hsim.net]
  rfl

theorem conns_of_simulates (hsim : Simulates h₀ s m) (c : Nat) :
    m.net.conns c = (s.conns c).map stripCtx := by
  rw [hsim.net]
  rfl

theorem heapStep_drainWrite_nil
    (hsim : Simulates h₀ s m) {stack : List Frame}
    (htop : s.stack = .drain c :: stack) (hc : s.conns c = some ctx)
    (hq : ctx.bufWrite = []) (ret : Int) (first second : Nat) :
    heapStep sock m ⟨.drainWrite ret, first, second⟩ = none := by
  have hempty := empty_of_simulates hsim hc
  rw [hq] at hempty
  have hconns := conns_of_simulates hsim c
  rw [hc] at hconns
  simp only [heapStep, stack_of_simulates hsim, htop, hconns, hempty,
    Option.map_some, Option.bind_eq_bind, Option.bind_some]
  rfl

theorem heapStep_drainWrite_cons
    (hsim : Simulates h₀ s m) {stack : List Frame}
    (htop : s.stack = .drain c :: stack) (hc : s.conns c = some ctx)
    {w : IxfdSockWriteCtx} {rest : List IxfdSockWriteCtx}
    (hq : ctx.bufWrite = w :: rest) (ret : Int) (first second : Nat) :
    heapStep sock m ⟨.drainWrite ret, first, second⟩ =
      if writeRet (s.kernel ctx.fd) w.lenRemain ret then
        ixfdCommonsockWriteCbIterHeap m c (stripCtx ctx) w.call w ret
      else none := by
  have hempty := empty_of_simulates hsim hc
  obtain ⟨hfront, hheld⟩ := front_of_simulates hsim hc hq
  rw [hq] at hempty
  have hconns := conns_of_simulates hsim c
  rw [hc] at hconns
  have hpeer : m.net.kernel (stripCtx ctx).fd = s.kernel ctx.fd := by
    rw [hsim.net]
    rfl
  simp only [heapStep, stack_of_simulates hsim, htop, hconns, hempty, hfront,
    hheld, hpeer, Option.map_some, Option.bind_eq_bind, Option.bind_some,
    List.isEmpty_cons, Bool.not_false, guard, if_true]
  split <;> rfl

theorem simulates_drainWrite
    (hsim : Simulates h₀ s m) (ret : Int) (first second : Nat) :
    Option.Rel (Simulates h₀) (step sock s (.drainWrite ret))
      (heapStep sock m ⟨.drainWrite ret, first, second⟩) := by
  cases htop : s.stack with
  | nil =>
      simp only [heapStep, step, stack_of_simulates hsim, htop]
      exact .none
  | cons frame stack =>
      cases frame with
      | drain c =>
          cases hc : s.conns c with
          | none =>
              simp only [heapStep, step, stack_of_simulates hsim, htop,
                conns_of_simulates hsim, hc]
              exact .none
          | some ctx =>
              cases hq : ctx.bufWrite with
              | nil =>
                  rw [heapStep_drainWrite_nil hsim htop hc hq]
                  simp only [step, htop, hc, hq]
                  exact .none
              | cons w rest =>
                  rw [heapStep_drainWrite_cons hsim htop hc hq]
                  have ht : step sock s (.drainWrite ret) =
                      if writeRet (s.kernel ctx.fd) w.lenRemain ret then
                        some (ixfdCommonsockWriteCbIter s c ctx w rest ret)
                      else none := by
                    simp only [step, htop, hc, hq]
                  rw [ht]
                  split at ht
                  case isFalse hok =>
                      simp only [hok]
                      exact .none
                  case isTrue hok =>
                      simp only [hok, if_true]
                      exact simulates_writeCbIter hsim hc hq ht
      | _ =>
          simp only [heapStep, step, stack_of_simulates hsim, htop]
          exact .none

theorem simulates_drainEnd
    (hsim : Simulates h₀ s m) (first second : Nat) :
    Option.Rel (Simulates h₀) (step sock s .drainEnd)
      (heapStep sock m ⟨.drainEnd, first, second⟩) := by
  cases htop : s.stack with
  | nil =>
      simp only [heapStep, step, stack_of_simulates hsim, htop]
      exact .none
  | cons frame stack =>
      cases frame with
      | drain c =>
          simp only [heapStep, step, stack_of_simulates hsim, htop, onConn,
            conns_of_simulates hsim]
          cases hc : s.conns c with
          | none => exact .none
          | some ctx =>
              simp only [Option.map_some, Option.bind_eq_bind,
                Option.bind_some, empty_of_simulates hsim hc]
              by_cases hq : ctx.bufWrite.isEmpty = true
              · have ht : step sock s .drainEnd =
                    some ((s.withStack stack).setConn c (quietCtx ctx)) := by
                  simp only [step, htop, onConn, hc, hq, if_true]
                simp only [hq, if_true]
                exact .some (simulates_drained hsim htop hc ht)
              · simp only [hq]
                exact .none
      | _ =>
          simp only [heapStep, step, stack_of_simulates hsim, htop]
          exact .none

/-- **Step lemma**: with addresses as `malloc` returns them, the two levels take
the same step, or neither takes one. -/
theorem simulates_step
    (hsim : Simulates h₀ s m) {l : HeapLabel} (hmalloc : Mallocs m l) :
    Option.Rel (Simulates h₀) (step sock s l.base) (heapStep sock m l) := by
  obtain ⟨base, first, second⟩ := l
  cases base with
  | write c data cb args ret => exact simulates_write hsim hmalloc
  | accept fd mallocOk => exact simulates_accept hsim hmalloc
  | drainWrite ret => exact simulates_drainWrite hsim ret first second
  | drainEnd => exact simulates_drainEnd hsim first second
  | read c len ret => exact simulates_plain hsim rfl
  | close c => exact simulates_plain hsim rfl
  | setBufreadLen c len mallocOk => exact simulates_plain hsim rfl
  | callbackReturns => exact simulates_plain hsim rfl
  | readReady c ret => exact simulates_plain hsim rfl
  | writeReady c => exact simulates_plain hsim rfl

/-- A step is taken only with addresses as `malloc` returns them. -/
theorem mallocs_of_heapStep
    {m' : HeapNet} {l : HeapLabel} (h : heapStep sock m l = some m') :
    Mallocs m l := by
  obtain ⟨base, first, second⟩ := l
  cases base with
  | write c data cb args ret =>
      intro hlt
      obtain ⟨ctx, _, hrun⟩ := Option.bind_eq_some_iff.mp h
      split at hrun
      case isFalse => cases hrun
      case isTrue =>
          rw [ixfdCommonsockWriteHeap, dif_pos hlt] at hrun
          by_contra hfresh
          rw [if_neg hfresh] at hrun
          cases hrun
  | accept fd mallocOk =>
      by_contra hfresh
      have hnone : heapStep sock m ⟨.accept fd mallocOk, first, second⟩ =
          none := if_neg hfresh
      rw [hnone] at h
      cases h
  | _ => trivial

end Steps

/-! ## Runs -/

theorem simulates_init (h₀ : Heap Nat) :
    Simulates h₀ .init (.init h₀) where
  net := rfl
  queues := by
    have hnone : pointers .init = fun _ => none := by
      funext c
      exact if_neg (Nat.not_lt_zero c)
    rw [hnone]
    exact Family.start h₀ _
  held := by simp [queue, Net.init]
  known := known_init
  distinct := distinct_init

theorem simulates_run
    {h₀ : Heap Nat} {sock : IxfdSock} {s : Net} {m m' : HeapNet}
    {ls : List HeapLabel} (hsim : Simulates h₀ s m)
    (hrun : run (heapStep sock) m ls = some m') :
    ∃ s', run (step sock) s (ls.map HeapLabel.base) = some s' ∧
      Simulates h₀ s' m' := by
  induction ls generalizing s m with
  | nil =>
      cases hrun
      exact ⟨s, rfl, hsim⟩
  | cons l ls ih =>
      obtain ⟨u, hu, htail⟩ := run_cons_success _ hrun
      have hrel : Option.Rel (Simulates h₀) (step sock s l.base)
          (heapStep sock m l) := simulates_step hsim (mallocs_of_heapStep hu)
      rw [hu] at hrel
      obtain ⟨t, ht, hsim'⟩ :
          ∃ t, step sock s l.base = some t ∧ Simulates h₀ t u := by
        generalize step sock s l.base = before at hrel
        cases hrel with
        | some hsim' => exact ⟨_, rfl, hsim'⟩
      obtain ⟨s', hs', hfinal⟩ := ih hsim' htail
      refine ⟨s', ?_, hfinal⟩
      rw [List.map_cons, run_cons, ht]
      exact hs'

/-- **The queues in memory refine the lists**: every run of the connection layer
with its queues in memory, whatever the addresses that `malloc` returns, is a run
of the one with lists: with the same contexts, the same log and the same place on
the stack.  In the state reached the nodes of each connection's queue point to
its pending writes in order, apart from the nodes of all other connections, and
the two levels go on with the same steps: no assertion of `util.cxx` fails and no
node is used that is not there. -/
theorem queues_in_memory_refine
    (sock : IxfdSock) (h₀ : Heap Nat) (ls : List HeapLabel) (m : HeapNet)
    (hrun : run (heapStep sock) (.init h₀) ls = some m) :
    ∃ s, run (step sock) .init (ls.map HeapLabel.base) = some s ∧
      m.net = strip s ∧
      Family h₀ m.heap m.bufWrite (pointers s) ∧
      (∀ c, ∀ w ∈ queue s c, m.writeCtxs w.call = some w) ∧
      ∀ l, Mallocs m l →
        (heapStep sock m l).isSome = (step sock s l.base).isSome := by
  obtain ⟨s, hs, hsim⟩ := simulates_run (simulates_init h₀) hrun
  refine ⟨s, hs, hsim.net, hsim.queues, hsim.held, ?_⟩
  intro l hmalloc
  have hrel : Option.Rel (Simulates h₀) (step sock s l.base)
      (heapStep sock m l) := simulates_step hsim hmalloc
  generalize step sock s l.base = before at *
  generalize heapStep sock m l = after at *
  cases hrel <;> rfl

/-- Two connections with a pending write each; the first one is drained. -/
theorem queues_in_memory_refine_two :
    ∃ m s,
      run (heapStep ⟨true, false, false, false⟩) (.init fun _ => none)
        [⟨.accept 7 true, 1, 2⟩, ⟨.accept 8 true, 3, 4⟩,
          ⟨.write 0 ⟨[97, 98, 99], by decide⟩ none 0 1, 5, 0⟩,
          ⟨.write 1 ⟨[100, 101], by decide⟩ none 0 0, 6, 0⟩,
          ⟨.writeReady 0, 0, 0⟩, ⟨.drainWrite 1, 0, 0⟩,
          ⟨.drainWrite 1, 0, 0⟩] = some m ∧
      m.net = strip s ∧
      pointers s 0 = some [] ∧
      pointers s 1 = some [1] ∧
      Family (fun _ => none) m.heap m.bufWrite (pointers s) := by
  have hsome : (run (heapStep ⟨true, false, false, false⟩)
      (.init fun _ => none)
      [⟨.accept 7 true, 1, 2⟩, ⟨.accept 8 true, 3, 4⟩,
        ⟨.write 0 ⟨[97, 98, 99], by decide⟩ none 0 1, 5, 0⟩,
        ⟨.write 1 ⟨[100, 101], by decide⟩ none 0 0, 6, 0⟩,
        ⟨.writeReady 0, 0, 0⟩, ⟨.drainWrite 1, 0, 0⟩,
        ⟨.drainWrite 1, 0, 0⟩]).isSome = true := by
    decide +kernel
  obtain ⟨m, hm⟩ := Option.isSome_iff_exists.mp hsome
  obtain ⟨s, hs, hnet, hfam, _⟩ := queues_in_memory_refine _ _ _ m hm
  cases hs
  exact ⟨m, _, hm, hnet, rfl, rfl, hfam⟩

end Sock
end Iojxd
