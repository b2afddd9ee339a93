import Iojxd.SockCompletion
import Iojxd.SockTranscript

/-!
# One write, direct or queued

The outcome of a call of `ixfd_commonsock_write` is the part of the transcript
that belongs to it.  Compared are the run in which the kernel accepts all bytes
at once and the runs in which it accepts them piece by piece.  Outcome and
waiting part of the call, taken together, are settled when the call returns.
The entry of a queue has the callback of its call and not the argument.
-/

namespace Iojxd
namespace Sock

open TransitionRun

/-- What belongs to call `j` on connection `c`. -/
def ofCall (c j : Nat) (x : Seen) : Bool :=
  x.conn == c && x.call == j

def outcome (c j : Nat) (s : Net) : List Seen :=
  (transcript s.log).filter (ofCall c j)

/-- What is still to be seen of call `j` on connection `c`. -/
def outstanding (c j : Nat) (s : Net) : List Seen :=
  (waiting s c).filter (ofCall c j)

/-- Every `write(2)` made by `write_cb` for `c` accepts at least one byte. -/
def Accepts (c : Nat) (s : Net) (l : Label) (_ : Net) : Prop :=
  ∀ ret stack, l = .drainWrite ret → s.stack = .drain c :: stack → 1 ≤ ret

theorem accepts_drainWrite
    {c : Nat} {s t : Net} {ret : Int} (h : 1 ≤ ret) :
    Accepts c s (.drainWrite ret) t := by
  rintro ret' stack heq _
  cases heq
  exact h

/-! ## Calls by their number -/

section Calls

variable {c j : Nat}

theorem ofCall_of_ne
    {x : Seen} (h : x.call ≠ j) :
    ofCall c j x = false := by
  simp [ofCall, h]

theorem filter_ahead_self (w : IxfdSockWriteCtx) :
    (ahead c w).filter (ofCall c w.call) = ahead c w := by
  apply List.filter_eq_self.mpr
  intro x hx
  obtain ⟨hconn, hcall⟩ := ahead_conn x hx
  simp [ofCall, hconn, hcall]

theorem filter_ahead_ne
    {d : Nat} {w : IxfdSockWriteCtx} (h : w.call ≠ j) :
    (ahead d w).filter (ofCall c j) = [] := by
  apply List.filter_eq_nil_iff.mpr
  intro x hx
  have hne : x.call ≠ j := by
    rw [(ahead_conn x hx).2]
    exact h
  simp [ofCall_of_ne hne]

/-- Nothing is outstanding once no entry of the call is queued. -/
theorem outstanding_nil
    {s : Net} (h : ∀ w ∈ queue s c, w.call ≠ j) :
    outstanding c j s = [] := by
  rw [outstanding, waiting, List.filter_flatMap]
  apply List.flatMap_eq_nil_iff.mpr
  intro w hw
  exact filter_ahead_ne (h w hw)

theorem filter_bytes_self (bs : List UInt8) :
    (bs.map (Seen.byte c j)).filter (ofCall c j) = bs.map (.byte c j) := by
  apply List.filter_eq_self.mpr
  intro x hx
  obtain ⟨b, _, rfl⟩ := List.mem_map.mp hx
  simp [ofCall, Seen.conn, Seen.call]

theorem filter_completion_self (cb args : Option Nat) :
    (completion c j cb args).filter (ofCall c j) = completion c j cb args := by
  cases cb <;> simp [completion, ofCall, Seen.conn, Seen.call]

/-- A list of things of one other call has nothing of call `j`. -/
theorem filter_other
    {xs : List Seen} {i : Nat} (h : ∀ x ∈ xs, x.call = i) (hne : i ≠ j) :
    xs.filter (ofCall c j) = [] := by
  apply List.filter_eq_nil_iff.mpr
  intro x hx
  have hcall : x.call ≠ j := by
    rw [h x hx]
    exact hne
  simp [ofCall_of_ne hcall]

end Calls

/-! ## The call itself -/

section TheCall

variable {s : Net} {c : Nat} {ctx : IxfdConnCtx}

/-- What a call on an empty queue shows at once and leaves to be seen. -/
theorem settled_write
    (hc : s.conns c = some ctx) (hq : ctx.bufWrite = [])
    (data : Buffer) (cb : Option Nat) (args : Nat) {ret : Int}
    (hn : toSizeT ret = ret.toNat) :
    outcome c s.calls (ixfdCommonsockWrite s c ctx data cb args ret) ++
        outstanding c s.calls
          (ixfdCommonsockWrite s c ctx data cb args ret) =
      outcome c s.calls s ++
        (data.bytes.map (.byte c s.calls) ++
          completion c s.calls cb
            (if ret.toNat < data.bytes.length then none else some args)) := by
  have hempty : queue s c = [] := by
    rw [queue_of_conns hc, hq]
  by_cases hlt : ret.toNat < data.bytes.length
  · have hqueued : toSizeT ret < data.bytes.length := hn.symm ▸ hlt
    have hrest : outstanding c s.calls
        (ixfdCommonsockWrite s c ctx data cb args ret) =
          (data.bytes.drop ret.toNat).map (.byte c s.calls) ++
            completion c s.calls cb none := by
      rw [outstanding, waiting, queue_write hc, hempty, dif_pos ⟨rfl, hqueued⟩]
      simp only [List.nil_append, List.flatMap_cons, List.flatMap_nil,
        List.append_nil]
      refine (filter_ahead_self (.ofCall s.calls data (toSizeT ret) hqueued
        cb)).trans ?_
      simp [ahead, IxfdSockWriteCtx.remaining, IxfdSockWriteCtx.ofCall, hn]
    rw [hrest, outcome, transcript_write_queued _ _ _ hqueued,
      List.filter_append, filter_bytes_self, if_pos hlt, outcome]
    simp only [List.append_assoc, List.append_cancel_left_eq]
    rw [← List.append_assoc, ← List.map_append, List.take_append_drop]
  · have hdirect : ¬ toSizeT ret < data.bytes.length := hn.symm ▸ hlt
    have htake : data.bytes.take ret.toNat = data.bytes :=
      List.take_of_length_le (by omega)
    have hrest : outstanding c s.calls
        (ixfdCommonsockWrite s c ctx data cb args ret) = [] := by
      rw [outstanding, waiting, queue_write hc, hempty,
        dif_neg fun h => hdirect h.2]
      rfl
    rw [hrest, outcome, transcript_write_complete _ _ _ hdirect,
      List.filter_append, List.filter_append, filter_bytes_self,
      filter_completion_self, if_neg hlt, htake, outcome, List.append_nil]

end TheCall

/-! ## Later steps -/

/-- Outcome and outstanding part of call `j` are as in `s`; `j` was made. -/
structure Settled (c j : Nat) (s t : Net) : Prop where
  same : outcome c j t ++ outstanding c j t =
    outcome c j s ++ outstanding c j s
  made : j < t.calls

section Later

variable {s t : Net} {c j : Nat}

theorem settled_quiet
    (hmade : j < s.calls) (h : QuietStep s t) :
    Settled c j s t where
  same := by
    rw [outcome, outcome, outstanding, outstanding, transcript_quietStep h,
      waiting_quietStep h]
  made := by
    rw [h.calls]
    exact hmade

/-- A later call shows and queues what belongs to itself. -/
theorem settled_laterWrite
    (hmade : j < s.calls)
    {d : Nat} {ctx : IxfdConnCtx} (hd : s.conns d = some ctx)
    (data : Buffer) (cb : Option Nat) (args : Nat) (ret : Int) :
    Settled c j s (ixfdCommonsockWrite s d ctx data cb args ret) where
  same := by
    have hne : s.calls ≠ j := by omega
    have hshown : outcome c j (ixfdCommonsockWrite s d ctx data cb args ret) =
        outcome c j s := by
      by_cases hlt : toSizeT ret < data.bytes.length
      · have hcall : ∀ x ∈ (data.bytes.take ret.toNat).map
            (Seen.byte d s.calls), x.call = s.calls := by
          intro x hx
          obtain ⟨b, _, rfl⟩ := List.mem_map.mp hx
          rfl
        rw [outcome, transcript_write_queued _ _ _ hlt, List.filter_append,
          filter_other hcall hne, List.append_nil, outcome]
      · have hcall : ∀ x ∈ (data.bytes.take ret.toNat).map
            (Seen.byte d s.calls) ++ completion d s.calls cb (some args),
            x.call = s.calls := by
          intro x hx
          simp only [completion, List.mem_append, List.mem_map] at hx
          rcases hx with ⟨b, _, rfl⟩ | ⟨f, _, rfl⟩
          · rfl
          · rfl
        rw [outcome, transcript_write_complete _ _ _ hlt, List.filter_append,
          filter_other hcall hne, List.append_nil, outcome]
    have hleft : outstanding c j
        (ixfdCommonsockWrite s d ctx data cb args ret) =
          outstanding c j s := by
      rw [outstanding, waiting, queue_write hd, List.flatMap_append,
        List.filter_append]
      split
      · rename_i h
        rw [List.flatMap_singleton, filter_ahead_ne hne, List.append_nil]
        rfl
      · rw [List.flatMap_nil, List.filter_nil, List.append_nil]
        rfl
    rw [hshown, hleft]
  made := by
    rw [calls_write]
    omega

/-- An iteration of `write_cb` moves things from the queue to the transcript. -/
theorem settled_laterIter
    (hmade : j < s.calls)
    {d : Nat} {ctx : IxfdConnCtx} {w : IxfdSockWriteCtx}
    {rest : List IxfdSockWriteCtx} {ret : Int}
    (hd : s.conns d = some ctx) (hq : ctx.bufWrite = w :: rest)
    (hret : writeRet (s.kernel ctx.fd) w.lenRemain ret = true)
    (h0 : d = c → 0 ≤ ret) :
    Settled c j s (ixfdCommonsockWriteCbIter s d ctx w rest ret) where
  same := by
    by_cases hdc : d = c
    · subst hdc
      rw [outcome, outstanding, ← List.filter_append,
        settled_writeCbIter hd hq hret (h0 rfl), List.filter_append]
      rfl
    · have hshown : outcome c j (ixfdCommonsockWriteCbIter s d ctx w rest ret) =
          outcome c j s := by
        apply transcript_other_writeCbIter
        intro x hx
        simp [ofCall, hx, hdc]
      rw [hshown, outstanding, waiting, queue_writeCbIter, if_neg hdc]
      rfl
  made := by
    rw [calls_writeCbIter]
    exact hmade

theorem settled_step
    {sock : IxfdSock} {l : Label}
    (hmade : j < s.calls) (hk : Known s)
    (h : step sock s l = some t) (haccepts : Accepts c s l t) :
    Settled c j s t := by
  rcases step_cases hk h with
    ⟨d, data, cb, args, ret, ctx, _, hd, _, rfl⟩ |
    ⟨ret, d, stack, ctx, w, rest, rfl, hstack, hd, hq, hret, rfl⟩ |
    ⟨_, _, hquiet⟩
  · exact settled_laterWrite hmade hd data cb args ret
  · apply settled_laterIter hmade hd hq hret
    rintro rfl
    have := haccepts ret stack rfl hstack
    omega
  · exact settled_quiet hmade hquiet

theorem settled_run
    {sock : IxfdSock} {ls : List Label}
    (hmade : j < s.calls) (hk : Known s)
    (haccepts : EveryStep (step sock) (Accepts c) s ls)
    (h : run (step sock) s ls = some t) :
    Settled c j s t := by
  induction ls generalizing s with
  | nil =>
      rw [run_nil, Option.some.injEq] at h
      subst h
      exact ⟨rfl, hmade⟩
  | cons l ls ih =>
      obtain ⟨m, hm, hrest⟩ := run_cons_success (step sock) h
      obtain ⟨hhead, htail⟩ := haccepts m hm
      have hstep := settled_step hmade hk hm hhead
      have hlater := ih hstep.made (known_step hk hm) htail hrest
      exact ⟨hlater.same.trans hstep.same, hlater.made⟩

end Later

/-! ## The two ways compared -/

section Agreement

variable {sock : IxfdSock} {s t u : Net} {c : Nat} {ctx : IxfdConnCtx}
variable {data : Buffer} {cb : Option Nat} {args : Nat} {ret : Int}

/-- The outcome of a call on an empty queue, once all its bytes are accepted. -/
theorem outcome_of_write
    {ls : List Label}
    (hk : Known s) (hc : s.conns c = some ctx) (hq : ctx.bufWrite = [])
    (h0 : 0 ≤ ret)
    (ht : run (step sock) s (.write c data cb args ret :: ls) = some t)
    (haccepts : EveryStep (step sock) (Accepts c) s
      (.write c data cb args ret :: ls))
    (hall : ∀ w ∈ queue t c, w.call ≠ s.calls) :
    outcome c s.calls t = outcome c s.calls s ++
      (data.bytes.map (.byte c s.calls) ++
        completion c s.calls cb
          (if ret.toNat < data.bytes.length then none else some args)) := by
  obtain ⟨m, hm, hrest⟩ := run_cons_success (step sock) ht
  have hk' := known_step hk hm
  have hlater := (haccepts m hm).2
  obtain ⟨ctx', hc', hok, rfl⟩ := onConn_eq_some hm
  obtain rfl : ctx' = ctx := Option.some.inj (hc'.symm.trans hc)
  rw [Bool.and_eq_true] at hok
  have hn := toSizeT_of_writeRet hok.2 data.fits h0
  have hmade : s.calls <
      (ixfdCommonsockWrite s c ctx' data cb args ret).calls := by
    rw [calls_write]
    omega
  have hsettled := (settled_run hmade hk' hlater hrest).same
  rw [outstanding_nil hall, List.append_nil] at hsettled
  rw [hsettled, settled_write hc hq data cb args hn]

/-- A call that may write some bytes may write them all. -/
theorem writeRet_full
    {peer : Option Nat} {len : Nat} (h : writeRet peer len ret = true)
    (h0 : 0 ≤ ret) :
    writeRet peer len len = true := by
  cases peer with
  | none =>
      have hfail : ret = -1 := by simpa [writeRet] using h
      omega
  | some p => simp [writeRet]

/-- Callback and argument of the two ways agree only if there is no callback. -/
theorem completion_eq_iff
    (c j : Nat) (cb : Option Nat) (args : Nat) (P : Prop) [Decidable P] :
    completion c j cb (if P then none else some args) =
      completion c j cb (some args) ↔ cb = none ∨ ¬ P := by
  by_cases hP : P
  · cases cb <;> simp [completion, hP]
  · simp [hP]

/-- **The queued path agrees with the direct path** exactly if there is no
callback, or nothing had to be queued. -/
theorem queued_agrees_iff
    {ks ls : List Label}
    (hs : run (step sock) .init ks = some s)
    (hc : s.conns c = some ctx) (hq : ctx.bufWrite = [])
    (h0 : 0 ≤ ret)
    (ht : run (step sock) s (.write c data cb args ret :: ls) = some t)
    (haccepts : EveryStep (step sock) (Accepts c) s
      (.write c data cb args ret :: ls))
    (hall : ∀ w ∈ queue t c, w.call ≠ s.calls) :
    ∃ u, step sock s (.write c data cb args data.bytes.length) = some u ∧
      (outcome c s.calls t = outcome c s.calls u ↔
        cb = none ∨ ret = data.bytes.length) := by
  have hk : Known s :=
    run_invariant (fun _ _ _ h hm => known_step h hm) known_init hs
  obtain ⟨m, hm, _⟩ := run_cons_success (step sock) ht
  obtain ⟨ctx', hc', hok, _⟩ := onConn_eq_some hm
  rw [Bool.and_eq_true] at hok
  have hfull := writeRet_full hok.2 h0
  have hn := toSizeT_of_writeRet hfull data.fits (Int.natCast_nonneg _)
  have hle : ret ≤ data.bytes.length := by
    rcases writeRet_cases hok.2 with hfail | hrange
    · omega
    · exact hrange.2
  have hu : step sock s (.write c data cb args data.bytes.length) =
      some (ixfdCommonsockWrite s c ctx' data cb args data.bytes.length) := by
    simp [step, onConn, hc', hok.1, hfull]
  have hnone : queue
      (ixfdCommonsockWrite s c ctx' data cb args data.bytes.length) c = [] := by
    rw [queue_write hc', queue_of_conns hc, hq, dif_neg]
    · rfl
    · omega
  have hrun : run (step sock) s
      [.write c data cb args data.bytes.length] =
        some (ixfdCommonsockWrite s c ctx' data cb args data.bytes.length) := by
    rw [run_cons, hu]
    rfl
  have hdirect := outcome_of_write hk hc hq
    (Int.natCast_nonneg data.bytes.length) hrun
    (everyStep_cons_of_some hu (by simp [Accepts]) trivial)
    (by simp [hnone])
  refine ⟨_, hu, ?_⟩
  rw [outcome_of_write hk hc hq h0 ht haccepts hall, hdirect]
  simp only [List.append_cancel_left_eq, Int.toNat_natCast, Nat.lt_irrefl,
    if_false]
  rw [completion_eq_iff]
  constructor
  · rintro (hcb | hge)
    · exact Or.inl hcb
    · right
      omega
  · rintro (hcb | rfl)
    · exact Or.inl hcb
    · right
      simp

end Agreement

/-- One byte of three is accepted by the call and two by the event: the same
callback is made without the argument. -/
theorem queued_argument_lost :
    ∃ s t u,
      run (step ⟨true, false, false, false⟩) .init [.accept 5 true] = some s ∧
      run (step ⟨true, false, false, false⟩) s
        [.write 0 ⟨bytes "abc", by decide⟩ (some 7) 9 1, .writeReady 0,
          .drainWrite 2] = some t ∧
      step ⟨true, false, false, false⟩ s
        (.write 0 ⟨bytes "abc", by decide⟩ (some 7) 9 3) = some u ∧
      queue t 0 = [] ∧
      outcome 0 0 t =
        [.byte 0 0 97, .byte 0 0 98, .byte 0 0 99, .callback 0 0 7 none] ∧
      outcome 0 0 u =
        [.byte 0 0 97, .byte 0 0 98, .byte 0 0 99, .callback 0 0 7 (some 9)] ∧
      outcome 0 0 t ≠ outcome 0 0 u :=
  ⟨_, _, _, rfl, rfl, rfl, rfl, by decide, by decide, by decide⟩

/-- A call without a callback that is queued and drained in two pieces. -/
theorem queued_agrees_iff_pieces :
    ∃ s t u,
      run (step ⟨true, false, false, false⟩) .init [.accept 5 true] = some s ∧
      run (step ⟨true, false, false, false⟩) s
        [.write 0 ⟨bytes "abc", by decide⟩ none 9 1, .writeReady 0,
          .drainWrite 1, .drainWrite 1] = some t ∧
      step ⟨true, false, false, false⟩ s
        (.write 0 ⟨bytes "abc", by decide⟩ none 9 3) = some u ∧
      (outcome 0 0 t = outcome 0 0 u ↔ (none : Option Nat) = none ∨
        (1 : Int) = 3) := by
  obtain ⟨u, hu, hiff⟩ := @queued_agrees_iff
    ⟨true, false, false, false⟩ _ _ 0 _ ⟨bytes "abc", by decide⟩ none 9 1
    [.accept 5 true] [.writeReady 0, .drainWrite 1, .drainWrite 1]
    rfl rfl rfl (by decide) rfl
    (by
      refine everyStep_cons_of_some rfl (by simp [Accepts]) ?_
      refine everyStep_cons_of_some rfl (by simp [Accepts]) ?_
      refine everyStep_cons_of_some rfl (accepts_drainWrite le_rfl) ?_
      exact everyStep_cons_of_some rfl (accepts_drainWrite le_rfl) trivial)
    (by decide)
  exact ⟨_, _, u, rfl, rfl, hu, hiff⟩

end Sock
end Iojxd
