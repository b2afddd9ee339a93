import Iojxd.SockStream
import Iojxd.SockTranscript

/-!
# Draining the queue

One event of the write watcher, with callbacks that issue no writes and a kernel
that accepts at least one byte of every request.  `write_cb` then ends after at
most one iteration per byte that was queued.  The invariant is that transcript
and waiting entries, taken together, stay what they were when the event began;
at the end nothing waits.
-/

namespace Iojxd
namespace Sock

open TransitionRun

/-- The steps of the event before its end: the kernel accepts some bytes, and
callbacks do anything but write. -/
def Inside : Label → Prop
  | .drainWrite ret => 1 ≤ ret
  | .write _ _ _ _ _ => False
  | .drainEnd => False
  | _ => True

def isIteration : Label → Bool
  | .drainWrite _ => true
  | _ => false

/-- A state reached from `s` inside the event of `c`, after `n` iterations. -/
structure InEvent (s : Net) (c n : Nat) (t : Net) : Prop where
  stack : t.stack = [.drain c] ∨ ∃ j, t.stack = [.drainDone c j, .drain c]
  conn : (t.conns c).isSome = true
  settled : transcript t.log ++ waiting t c = transcript s.log ++ waiting s c
  count : n + (pending t c).length ≤ (pending s c).length

/-- Everything that waited was seen, in its order, and the watcher rests. -/
structure Drained (s : Net) (c : Nat) (t : Net) : Prop where
  seen : transcript t.log = transcript s.log ++ waiting s c
  stack : t.stack = []
  resting : ∃ ctx, t.conns c = some ctx ∧ ctx.bufWrite = [] ∧
    ctx.writeLaunched = false ∧ ctx.eventWrite.active = false

/-- The next step of `write_cb` is possible, whatever the kernel answers. -/
def GoesOn (sock : IxfdSock) (c : Nat) (t : Net) : Prop :=
  (∃ u, step sock t .callbackReturns = some u) ∨
  (∃ u, step sock t .drainEnd = some u) ∨
  ∃ ctx w rest, t.conns c = some ctx ∧ ctx.bufWrite = w :: rest ∧
    ∀ ret, writeRet (t.kernel ctx.fd) w.lenRemain ret = true →
      ∃ u, step sock t (.drainWrite ret) = some u

/-- `ixfd_commonsock_write_cb` with callbacks that return at once; `accept` says
how many bytes of a request the kernel accepts. -/
def ixfdCommonsockWriteCb (sock : IxfdSock) (accept : Nat → Nat → Nat) :
    Nat → Nat → Net → Option Net
  | 0, _, _ => none
  | fuel + 1, i, s =>
      match s.stack with
      | .drainDone _ _ :: _ =>
          (step sock s .callbackReturns).bind
            (ixfdCommonsockWriteCb sock accept fuel i)
      | .drain c :: _ =>
          match queue s c with
          | [] => step sock s .drainEnd
          | w :: _ =>
              (step sock s (.drainWrite (accept i w.lenRemain))).bind
                (ixfdCommonsockWriteCb sock accept fuel (i + 1))
      | _ => none

/-! ## Steps inside the event -/

section Steps

variable {s t u : Net} {c n : Nat}

theorem isSome_setConn
    (h : (t.conns c).isSome = true) (d : Nat) (ctx : IxfdConnCtx) :
    ((t.setConn d ctx).conns c).isSome = true := by
  by_cases hcd : c = d
  · subst hcd
    simp
  · simpa [Function.update_of_ne hcd] using h

/-- A step that writes nothing and stays in its callback. -/
theorem InEvent.quiet
    (h : InEvent s c n t) (hquiet : QuietStep t u)
    (hstack : u.stack = [.drain c] ∨ ∃ j, u.stack = [.drainDone c j, .drain c])
    (hconn : (u.conns c).isSome = true) :
    InEvent s c n u where
  stack := hstack
  conn := hconn
  settled := by
    rw [transcript_quietStep hquiet, waiting_quietStep hquiet]
    exact h.settled
  count := by
    have hsame : pending u c = pending t c := by
      rw [pending, pending, hquiet.queue c]
    rw [hsame]
    exact h.count

theorem inEvent_read
    (h : InEvent s c n t) {d : Nat} {ctx : IxfdConnCtx}
    (hd : t.conns d = some ctx) (ret : ReadRet) :
    InEvent s c n (ixfdCommonsockRead t d ctx ret) := by
  have hquiet := quiet_read ret hd
  rcases ret with _ | _ | ⟨b, bs⟩
  · exact h.quiet hquiet h.stack h.conn
  · exact h.quiet hquiet h.stack (isSome_setConn h.conn d (closeCtx ctx))
  · exact h.quiet hquiet h.stack h.conn

/-- A completion callback returns to the loop. -/
theorem inEvent_callbackReturns
    (h : InEvent s c n t) (hu : afterCallback t = some u) :
    InEvent s c n u := by
  have hquiet := quiet_afterCallback hu
  rcases h.stack with hstack | ⟨j, hstack⟩
  · simp [afterCallback, hstack] at hu
  · simp only [afterCallback, hstack, Option.some.injEq] at hu
    subst hu
    exact h.quiet hquiet (Or.inl rfl) h.conn

theorem stack_of_drain
    (h : InEvent s c n t) {d : Nat} {stack : List Frame}
    (hstack : t.stack = .drain d :: stack) :
    d = c ∧ stack = [] := by
  rcases h.stack with hdrain | ⟨j, hdone⟩
  · rw [hstack, List.cons.injEq, Frame.drain.injEq] at hdrain
    exact hdrain
  · rw [hstack, List.cons.injEq] at hdone
    cases hdone.1

/-- An iteration settles some bytes. -/
theorem inEvent_writeCbIter
    (h : InEvent s c n t) {ctx : IxfdConnCtx} {w : IxfdSockWriteCtx}
    {rest : List IxfdSockWriteCtx} {ret : Int}
    (hstack : t.stack = [.drain c])
    (hc : t.conns c = some ctx) (hq : ctx.bufWrite = w :: rest)
    (hret : writeRet (t.kernel ctx.fd) w.lenRemain ret = true)
    (hone : 1 ≤ ret) :
    InEvent s c (n + 1) (ixfdCommonsockWriteCbIter t c ctx w rest ret) := by
  have h0 : 0 ≤ ret := by omega
  have hsettled := settled_writeCbIter hc hq hret h0
  constructor
  case stack =>
      by_cases hlt : toSizeT ret < w.lenRemain
      · rw [writeCbIter_advanced _ _ _ _ _ hlt]
        exact Or.inl hstack
      · rw [writeCbIter_complete _ _ _ _ _ hlt]
        rcases w.cb with _ | f
        · exact Or.inl hstack
        · exact Or.inr ⟨w.call, by simp [hstack]⟩
  case conn =>
      by_cases hlt : toSizeT ret < w.lenRemain
      · rw [writeCbIter_advanced _ _ _ _ _ hlt]
        exact isSome_setConn h.conn c _
      · rw [writeCbIter_complete _ _ _ _ _ hlt]
        have hset := isSome_setConn h.conn c { ctx with bufWrite := rest }
        rcases w.cb with _ | f
        · exact hset
        · exact hset
  case settled => exact hsettled.trans h.settled
  case count =>
      have hcount := h.count
      have hn := toSizeT_of_writeRet hret w.fits h0
      have hlen := w.length_remaining
      have hpos := w.nonempty
      have hbefore : (pending t c).length = w.lenRemain +
          (rest.flatMap IxfdSockWriteCtx.remaining).length := by
        rw [pending, queue_of_conns hc, hq, List.flatMap_cons,
          List.length_append, hlen]
      rw [pending_writeCbIter, if_pos rfl, List.length_append,
        List.length_drop, hlen, hn]
      omega

/-- **Step rule**: inside the event every step keeps the invariant and counts
its iteration. -/
theorem inEvent_step
    {sock : IxfdSock} {l : Label} (h : InEvent s c n t)
    (hl : Inside l) (hu : step sock t l = some u) :
    InEvent s c (n + [l].countP isIteration) u := by
  have hbusy : t.stack ≠ [] := by
    rcases h.stack with hstack | ⟨j, hstack⟩
    · simp [hstack]
    · simp [hstack]
  cases l with
  | write d data cb args ret => exact hl.elim
  | drainEnd => exact hl.elim
  | read d len ret =>
      obtain ⟨ctx, hd, _, rfl⟩ := onConn_eq_some hu
      exact inEvent_read h hd ret
  | close d =>
      obtain ⟨ctx, hd, _, rfl⟩ := onConn_eq_some hu
      exact h.quiet ((QuietStep.refl t).close hd) h.stack
        (isSome_setConn h.conn d (closeCtx ctx))
  | setBufreadLen d len mallocOk =>
      obtain ⟨ctx, hd, _, rfl⟩ := onConn_eq_some hu
      have hquiet : QuietStep t
          (t.setConn d (ixfdCommonsockSetBufreadLen ctx len mallocOk)) :=
        (QuietStep.refl t).setConn (by simp [queue_of_conns hd])
      exact h.quiet hquiet h.stack (isSome_setConn h.conn d _)
  | callbackReturns => exact inEvent_callbackReturns h hu
  | accept fd mallocOk => exact absurd (accept_eq_some hu).1 hbusy
  | readReady d ret =>
      obtain ⟨ctx, _, hok, _⟩ := onConn_eq_some hu
      simp only [Bool.and_eq_true, List.isEmpty_iff] at hok
      exact absurd hok.1.1.1.1 hbusy
  | writeReady d =>
      obtain ⟨ctx, _, hok, _⟩ := onConn_eq_some hu
      simp only [Bool.and_eq_true, List.isEmpty_iff] at hok
      exact absurd hok.1.1 hbusy
  | drainWrite ret =>
      obtain ⟨d, stack, ctx, w, rest, hstack, hd, hq, hret, rfl⟩ :=
        drainWrite_eq_some hu
      obtain ⟨rfl, rfl⟩ := stack_of_drain h hstack
      exact inEvent_writeCbIter h hstack hd hq hret hl

theorem inEvent_run
    {sock : IxfdSock} {ls : List Label} (h : InEvent s c n t)
    (hls : ∀ l ∈ ls, Inside l) (hu : run (step sock) t ls = some u) :
    InEvent s c (n + ls.countP isIteration) u := by
  induction ls generalizing n t with
  | nil =>
      rw [run_nil] at hu
      cases hu
      exact h
  | cons l ls ih =>
      rcases run_cons_success (step sock) hu with ⟨m, hm, htail⟩
      have hstep := inEvent_step h (hls l (by simp)) hm
      have hrest := ih hstep (fun k hk => hls k (by simp [hk])) htail
      have hcount : (l :: ls).countP isIteration =
          [l].countP isIteration + ls.countP isIteration := by
        rw [← List.countP_append, List.singleton_append]
      rw [hcount, ← Nat.add_assoc]
      exact hrest

/-- Inside the event `write_cb` is never stuck. -/
theorem goesOn_of_inEvent (sock : IxfdSock) (h : InEvent s c n t) :
    GoesOn sock c t := by
  obtain ⟨ctx, hc⟩ := Option.isSome_iff_exists.mp h.conn
  rcases h.stack with hstack | ⟨j, hstack⟩
  · cases hq : ctx.bufWrite with
    | nil =>
        refine Or.inr (Or.inl ⟨(t.withStack []).setConn c (quietCtx ctx), ?_⟩)
        simp [step, hstack, onConn, hc, hq]
    | cons w rest =>
        refine Or.inr (Or.inr ⟨ctx, w, rest, hc, hq, ?_⟩)
        intro ret hret
        exact ⟨ixfdCommonsockWriteCbIter t c ctx w rest ret,
          by simp [step, hstack, hc, hq, hret]⟩
  · refine Or.inl ⟨(t.withStack [.drain c]).emit
      [.free (.dataCopy j), .free (.connCtx c)], ?_⟩
    simp [step, afterCallback, hstack]

/-- The loop is left with an empty queue. -/
theorem drained_of_drainEnd
    {sock : IxfdSock} (h : InEvent s c n t)
    (hu : step sock t .drainEnd = some u) :
    Drained s c u := by
  obtain ⟨d, stack, ctx, hstack, hd, hq, rfl⟩ := drainEnd_eq_some hu
  obtain ⟨rfl, rfl⟩ := stack_of_drain h hstack
  have hnothing : waiting t d = [] := by
    rw [waiting, queue_of_conns hd, hq, List.flatMap_nil]
  have hsettled := h.settled
  rw [hnothing, List.append_nil] at hsettled
  exact ⟨hsettled, rfl, quietCtx ctx, Function.update_self .., hq, rfl, rfl⟩

end Steps

/-! ## The whole event -/

section Event

variable {sock : IxfdSock} {s t u : Net} {c : Nat} {ctx : IxfdConnCtx}

theorem inEvent_refl
    (hc : t.conns c = some ctx)
    (hstack : t.stack = [.drain c] ∨
      ∃ j, t.stack = [.drainDone c j, .drain c]) :
    InEvent t c 0 t where
  stack := hstack
  conn := by simp [hc]
  settled := rfl
  count := by omega

/-- An iteration leaves the descriptor of the context and the kernel. -/
theorem open_writeCbIter
    (w : IxfdSockWriteCtx) (rest : List IxfdSockWriteCtx) (ret : Int)
    (hopen : (t.kernel ctx.fd).isSome = true) :
    ∃ ctx', (ixfdCommonsockWriteCbIter t c ctx w rest ret).conns c =
        some ctx' ∧
      ((ixfdCommonsockWriteCbIter t c ctx w rest ret).kernel
        ctx'.fd).isSome = true := by
  by_cases hlt : toSizeT ret < w.lenRemain
  · rw [writeCbIter_advanced _ _ _ _ _ hlt]
    exact ⟨_, Function.update_self .., hopen⟩
  · rw [writeCbIter_complete _ _ _ _ _ hlt]
    rcases w.cb with _ | f
    · exact ⟨_, Function.update_self .., hopen⟩
    · exact ⟨_, Function.update_self .., hopen⟩

/-- The function returns, and what it does is a run of the event. -/
def LoopReturns (sock : IxfdSock) (accept : Nat → Nat → Nat) (fuel i : Nat)
    (t : Net) : Prop :=
  ∃ ls u, ixfdCommonsockWriteCb sock accept fuel i t = some u ∧
    run (step sock) t (ls ++ [.drainEnd]) = some u ∧ ∀ l ∈ ls, Inside l

/-- One more step of the event, and one more unit of fuel. -/
theorem LoopReturns.cons
    {accept : Nat → Nat → Nat} {fuel i i' : Nat} {l : Label}
    (h : LoopReturns sock accept fuel i' u)
    (hstep : step sock t l = some u) (hl : Inside l)
    (hloop : ixfdCommonsockWriteCb sock accept (fuel + 1) i t =
      ixfdCommonsockWriteCb sock accept fuel i' u) :
    LoopReturns sock accept (fuel + 1) i t := by
  obtain ⟨ls, v, hreturn, hrun, hls⟩ := h
  refine ⟨l :: ls, v, hloop.trans hreturn, ?_, ?_⟩
  · rw [List.cons_append, run_cons, hstep]
    exact hrun
  · intro k hk
    rcases List.mem_cons.mp hk with rfl | hk
    · exact hl
    · exact hls k hk

variable (sock) in
/-- On an open descriptor the kernel may accept any part of a request. -/
theorem step_drainWrite
    {w : IxfdSockWriteCtx} {rest : List IxfdSockWriteCtx} {n : Nat}
    (hstack : t.stack = [.drain c]) (hc : t.conns c = some ctx)
    (hq : ctx.bufWrite = w :: rest)
    (hopen : (t.kernel ctx.fd).isSome = true) (hn : n ≤ w.lenRemain) :
    writeRet (t.kernel ctx.fd) w.lenRemain n = true ∧
      step sock t (.drainWrite n) =
        some (ixfdCommonsockWriteCbIter t c ctx w rest n) := by
  have hret : writeRet (t.kernel ctx.fd) w.lenRemain n = true := by
    obtain ⟨peer, hpeer⟩ := Option.isSome_iff_exists.mp hopen
    rw [hpeer]
    simp [writeRet, hn]
  refine ⟨hret, ?_⟩
  simp [step, hstack, hc, hq, hret]

variable (sock) in
/-- **The loop returns**: two units of fuel for every byte and one for the end
are enough. -/
theorem writeCb_returns
    {accept : Nat → Nat → Nat}
    (haccept : ∀ i n, 0 < n → 1 ≤ accept i n ∧ accept i n ≤ n)
    {fuel : Nat} (i : Nat)
    (hc : t.conns c = some ctx) (hopen : (t.kernel ctx.fd).isSome = true)
    (hfuel : (t.stack = [.drain c] ∧
        2 * (pending t c).length + 1 ≤ fuel) ∨
      (∃ j, t.stack = [.drainDone c j, .drain c]) ∧
        2 * (pending t c).length + 2 ≤ fuel) :
    LoopReturns sock accept fuel i t := by
  induction fuel generalizing i t ctx with
  | zero => omega
  | succ fuel ih =>
      rcases hfuel with ⟨hstack, hcost⟩ | ⟨⟨j, hstack⟩, hcost⟩
      · cases hq : ctx.bufWrite with
        | nil =>
            have hend : step sock t .drainEnd =
                some ((t.withStack []).setConn c (quietCtx ctx)) := by
              simp [step, hstack, onConn, hc, hq]
            refine ⟨[], (t.withStack []).setConn c (quietCtx ctx), ?_,
              by simp [run_cons, hend], by simp⟩
            simp [ixfdCommonsockWriteCb, hstack, queue_of_conns hc, hq, hend]
        | cons w rest =>
            have hrange := haccept i w.lenRemain w.nonempty
            obtain ⟨hret, hiter⟩ :=
              step_drainWrite sock hstack hc hq hopen hrange.2
            have hone : (1 : Int) ≤ accept i w.lenRemain := by omega
            have hin := inEvent_writeCbIter
              (inEvent_refl hc (Or.inl hstack)) hstack hc hq hret hone
            have hcount := hin.count
            obtain ⟨ctx', hc', hopen'⟩ := open_writeCbIter (c := c)
              w rest (accept i w.lenRemain) hopen
            have hrest := ih (i + 1) hc' hopen' (by
              rcases hin.stack with hdrain | hdone
              · exact Or.inl ⟨hdrain, by omega⟩
              · exact Or.inr ⟨hdone, by omega⟩)
            apply hrest.cons hiter hone
            simp [ixfdCommonsockWriteCb, hstack, queue_of_conns hc, hq, hiter]
      · have hreturn : step sock t .callbackReturns =
            some ((t.withStack [.drain c]).emit
              [.free (.dataCopy j), .free (.connCtx c)]) := by
          simp [step, afterCallback, hstack]
        have hsame : pending ((t.withStack [.drain c]).emit
            [.free (.dataCopy j), .free (.connCtx c)]) c = pending t c := rfl
        have hrest := ih (t := (t.withStack [.drain c]).emit
            [.free (.dataCopy j), .free (.connCtx c)])
          i hc hopen (Or.inl ⟨rfl, by
            rw [hsame]
            omega⟩)
        apply hrest.cons hreturn trivial
        simp [ixfdCommonsockWriteCb, hstack, hreturn]

/-- `write_cb` drains the queue of `c` in the event that takes `s` to `m`. -/
structure DrainsQueue (sock : IxfdSock) (s m : Net) (c : Nat) : Prop where
  /-- no run has more iterations than bytes were queued -/
  bounded : ∀ ls t, run (step sock) m ls = some t → (∀ l ∈ ls, Inside l) →
    ls.countP isIteration ≤ (pending s c).length
  /-- no run gets stuck before the end -/
  goesOn : ∀ ls t, run (step sock) m ls = some t → (∀ l ∈ ls, Inside l) →
    GoesOn sock c t
  /-- the end of every run -/
  result : ∀ ls t, run (step sock) m (ls ++ [.drainEnd]) = some t →
    (∀ l ∈ ls, Inside l) → Drained s c t
  /-- the function returns, whatever the kernel accepts -/
  returns : ∀ accept : Nat → Nat → Nat,
    (∀ i n, 0 < n → 1 ≤ accept i n ∧ accept i n ≤ n) →
    ∃ t, ixfdCommonsockWriteCb sock accept
        (2 * (pending s c).length + 1) 0 m = some t ∧
      Drained s c t

/-- **The queue is drained** whenever the write watcher fires. -/
theorem write_cb_drains
    (hm : step sock s (.writeReady c) = some t) :
    DrainsQueue sock s t c := by
  obtain ⟨ctx, hc, hok, rfl⟩ := onConn_eq_some hm
  simp only [Bool.and_eq_true, List.isEmpty_iff] at hok
  have hstack : (s.withStack (.drain c :: s.stack)).stack = [.drain c] := by
    simp [hok.1.1]
  have hin : InEvent s c 0 (s.withStack (.drain c :: s.stack)) := by
    have hrefl : InEvent (s.withStack (.drain c :: s.stack)) c 0
        (s.withStack (.drain c :: s.stack)) :=
      inEvent_refl hc (Or.inl hstack)
    exact ⟨hrefl.stack, hrefl.conn, rfl, le_of_eq (Nat.zero_add _)⟩
  have hresult : ∀ ls u,
      run (step sock) (s.withStack (.drain c :: s.stack))
        (ls ++ [.drainEnd]) = some u →
      (∀ l ∈ ls, Inside l) → Drained s c u := by
    intro ls u hrun hls
    rw [run_append] at hrun
    rcases Option.bind_eq_some_iff.mp hrun with ⟨v, hv, hend⟩
    rcases run_cons_success (step sock) hend with ⟨x, hx, hnil⟩
    rw [run_nil, Option.some.injEq] at hnil
    subst hnil
    exact drained_of_drainEnd (inEvent_run hin hls hv) hx
  refine ⟨?_, ?_, hresult, ?_⟩
  · intro ls u hu hls
    have hcount := (inEvent_run hin hls hu).count
    omega
  · intro ls u hu hls
    exact goesOn_of_inEvent sock (inEvent_run hin hls hu)
  · intro accept haccept
    obtain ⟨ls, u, hloop, hrun, hls⟩ := writeCb_returns sock
      haccept 0 (t := s.withStack (.drain c :: s.stack)) hc hok.2
      (Or.inl ⟨hstack, le_rfl⟩)
    exact ⟨u, hloop, hresult ls u hrun hls⟩

/-- Two queued writes with callbacks, and a kernel that takes what it likes. -/
theorem write_cb_drains_two :
    ∃ s t, run (step ⟨true, false, false, false⟩) .init
        [.accept 5 true, .write 0 ⟨bytes "abc", by decide⟩ (some 7) 9 1,
          .write 0 ⟨bytes "de", by decide⟩ (some 8) 9 0] = some s ∧
      (pending s 0).length = 4 ∧
      DrainsQueue ⟨true, false, false, false⟩ s t 0 :=
  ⟨_, _, rfl, by decide, write_cb_drains rfl⟩

end Event

end Sock
end Iojxd
