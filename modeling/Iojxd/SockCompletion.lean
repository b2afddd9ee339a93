import Iojxd.LuaValue
import Iojxd.SockRuns

/-!
# Completion of writes

A call of `ixfd_commonsock_write` is reported complete when it returns true or
when its callback runs.  The report is honest if the kernel has accepted every
byte of the call by then, and a failed `write(2)` must leave its bytes in the
queue.  Both hold along a run exactly when no `write(2)` that is given bytes
fails: the error -1 is stored in a `size_t` and there passes for a complete
write.

The invariant is a ledger: for every queued entry, the accepted bytes of its
call followed by the remaining ones are the data of the call.
-/

namespace Iojxd
namespace Sock

open TransitionRun

/-- Bytes of a call that the kernel has accepted. -/
def acceptedOf (j : Nat) (log : List Effect) : List UInt8 :=
  acceptedWhere (fun _ j' => j' == j) log

/-- The call returned true or its callback was invoked. -/
def Reported (j : Nat) (log : List Effect) : Prop :=
  .returned j true ∈ log ∨ ∃ c cb args, .callback c j cb args ∈ log

/-- Every reported call has all its bytes accepted. -/
def Honest (s : Net) : Prop :=
  ∀ c j data,
    .call c j data ∈ s.log →
    Reported j s.log →
    acceptedOf j s.log = data

/-- The effects that a step adds to the log. -/
def newEffects (s t : Net) : List Effect :=
  t.log.drop s.log.length

/-- Bytes given to a `write(2)` that fails in the step are queued after it. -/
def FailedKept (s t : Net) : Prop :=
  ∀ c j fd peer given ret,
    .write c j fd peer given ret ∈ newEffects s t →
    ret < 0 →
    given = [] ∨ ∃ w ∈ queue t c, w.call = j ∧ w.remaining = given

/-- No `write(2)` of the step that is given bytes fails. -/
def NoBytesFail : Label → Prop
  | .write _ data _ _ ret => 0 ≤ ret ∨ data.bytes = []
  | .drainWrite ret => 0 ≤ ret
  | _ => True

/-- What the log and the queues say about the same calls. -/
structure Ledger (s : Net) : Prop where
  callLt : ∀ c j data, .call c j data ∈ s.log → j < s.calls
  callUnique : ∀ c j data c' data',
    .call c j data ∈ s.log → .call c' j data' ∈ s.log →
      c = c' ∧ data = data'
  fresh : ∀ j, s.calls ≤ j → acceptedOf j s.log = []
  reportedLt : ∀ j, Reported j s.log → j < s.calls
  queued : ∀ c, ∀ w ∈ queue s c,
    .call c w.call (acceptedOf w.call s.log ++ w.remaining) ∈ s.log
  nodup : ∀ c, ((queue s c).map IxfdSockWriteCtx.call).Nodup
  done : ∀ j, .writeDone j ∈ s.stack → Reported j s.log
  honest : Honest s

theorem ledger_init :
    Ledger .init where
  callLt := by simp [Net.init]
  callUnique := by simp [Net.init]
  fresh _ _ := rfl
  reportedLt := by simp [Net.init, Reported]
  queued := by simp [Net.init, queue]
  nodup := by simp [Net.init, queue]
  done := by simp [Net.init]
  honest := by simp [Net.init, Honest]

/-! ## Logs -/

theorem newEffects_of_log
    {s t : Net} {es : List Effect} (h : t.log = s.log ++ es) :
    newEffects s t = es := by
  rw [newEffects, h, List.drop_left]

theorem reported_append (j : Nat) (as bs : List Effect) :
    Reported j (as ++ bs) ↔ Reported j as ∨ Reported j bs := by
  simp only [Reported, List.mem_append]
  constructor
  · rintro ((h | h) | ⟨c, cb, args, h | h⟩)
    · exact Or.inl (Or.inl h)
    · exact Or.inr (Or.inl h)
    · exact Or.inl (Or.inr ⟨c, cb, args, h⟩)
    · exact Or.inr (Or.inr ⟨c, cb, args, h⟩)
  · rintro ((h | ⟨c, cb, args, h⟩) | (h | ⟨c, cb, args, h⟩))
    · exact Or.inl (Or.inl h)
    · exact Or.inr ⟨c, cb, args, Or.inl h⟩
    · exact Or.inl (Or.inr h)
    · exact Or.inr ⟨c, cb, args, Or.inr h⟩

theorem acceptedOf_append (j : Nat) (as bs : List Effect) :
    acceptedOf j (as ++ bs) = acceptedOf j as ++ acceptedOf j bs := by
  exact acceptedWhere_append _ as bs

theorem call_notMem_quiet
    {s : Net} {es : List Effect} (h : ∀ x ∈ es, QuietEffect s x)
    (c j : Nat) (data : List UInt8) :
    .call c j data ∉ es := by
  intro hmem
  exact h _ hmem

/-- A quiet step reports no call that was not reported before. -/
theorem reported_quiet
    {s : Net} {es : List Effect} {j : Nat}
    (h : ∀ x ∈ es, QuietEffect s x) (hrep : Reported j es) :
    .writeDone j ∈ s.stack := by
  rcases hrep with hret | ⟨c, cb, args, hcb⟩
  · exact h _ hret
  · exact (h _ hcb).elim

/-! ## The ledger after each kind of step -/

theorem ledger_quiet
    {s t : Net} (h : Ledger s) (hq : QuietStep s t) :
    Ledger t := by
  obtain ⟨es, hlog, hes⟩ := hq.log
  have hacc : ∀ j, acceptedOf j t.log = acceptedOf j s.log := by
    intro j
    rw [hlog, acceptedOf_append, acceptedOf, acceptedOf,
      acceptedWhere_quiet _ hes, List.append_nil]
  have hcall : ∀ c j data,
      .call c j data ∈ t.log ↔ .call c j data ∈ s.log := by
    intro c j data
    rw [hlog, List.mem_append]
    exact or_iff_left (call_notMem_quiet hes c j data)
  have hrep : ∀ j, Reported j t.log ↔ Reported j s.log := by
    intro j
    rw [hlog, reported_append]
    constructor
    · rintro (hold | hnew)
      · exact hold
      · exact h.done j (reported_quiet hes hnew)
    · exact Or.inl
  constructor
  case callLt =>
      intro c j data hc
      rw [hq.calls]
      exact h.callLt c j data ((hcall c j data).mp hc)
  case callUnique =>
      intro c j data c' data' hc hc'
      exact h.callUnique c j data c' data'
        ((hcall c j data).mp hc) ((hcall c' j data').mp hc')
  case fresh =>
      intro j hj
      rw [hacc]
      exact h.fresh j (hq.calls ▸ hj)
  case reportedLt =>
      intro j hj
      rw [hq.calls]
      exact h.reportedLt j ((hrep j).mp hj)
  case queued =>
      intro c w hw
      rw [hq.queue] at hw
      rw [hcall, hacc]
      exact h.queued c w hw
  case nodup =>
      intro c
      rw [hq.queue]
      exact h.nodup c
  case done =>
      intro j hj
      exact (hrep j).mpr (h.done j (hq.stack j hj))
  case honest =>
      intro c j data hc hj
      rw [hacc]
      exact h.honest c j data ((hcall c j data).mp hc) ((hrep j).mp hj)

section Write

variable {s : Net} {c : Nat} {ctx : IxfdConnCtx}
variable (data : Buffer) (cb : Option Nat) (args : Nat) (ret : Int)

theorem calls_write :
    (ixfdCommonsockWrite s c ctx data cb args ret).calls = s.calls + 1 := by
  by_cases hlt : toSizeT ret < data.bytes.length
  · rw [write_queued _ _ _ _ _ _ hlt]
    rfl
  · rw [write_complete _ _ _ _ _ _ hlt]
    cases cb <;> rfl

theorem call_mem_write (c' j : Nat) (d : List UInt8) :
    .call c' j d ∈ (ixfdCommonsockWrite s c ctx data cb args ret).log ↔
      .call c' j d ∈ s.log ∨ (c' = c ∧ j = s.calls ∧ d = data.bytes) := by
  by_cases hlt : toSizeT ret < data.bytes.length
  · rw [write_queued _ _ _ _ _ _ hlt]
    simp
  · rw [write_complete _ _ _ _ _ _ hlt]
    cases cb <;> simp

/-- The call is reported exactly when it passes for complete. -/
theorem reported_write (j : Nat) :
    Reported j (ixfdCommonsockWrite s c ctx data cb args ret).log ↔
      Reported j s.log ∨
        (j = s.calls ∧ ¬ toSizeT ret < data.bytes.length) := by
  by_cases hlt : toSizeT ret < data.bytes.length
  · rw [write_queued _ _ _ _ _ _ hlt]
    simp [Reported, hlt]
  · rw [write_complete _ _ _ _ _ _ hlt]
    cases cb with
    | none => simp [Reported, hlt, or_right_comm]
    | some f => simp [Reported, hlt, exists_or, or_assoc]

theorem stack_write (j : Nat)
    (h : .writeDone j ∈ (ixfdCommonsockWrite s c ctx data cb args ret).stack) :
    .writeDone j ∈ s.stack ∨
      (j = s.calls ∧ ¬ toSizeT ret < data.bytes.length) := by
  by_cases hlt : toSizeT ret < data.bytes.length
  · rw [write_queued _ _ _ _ _ _ hlt] at h
    exact Or.inl h
  · rw [write_complete _ _ _ _ _ _ hlt] at h
    cases cb with
    | none => exact Or.inl h
    | some f =>
        rcases List.mem_cons.mp h with heq | hmem
        · cases heq
          exact Or.inr ⟨rfl, hlt⟩
        · exact Or.inl hmem

theorem acceptedOf_write (j : Nat) :
    acceptedOf j (ixfdCommonsockWrite s c ctx data cb args ret).log =
      acceptedOf j s.log ++
        if s.calls = j then data.bytes.take ret.toNat else [] := by
  rw [acceptedOf, accepted_write]
  simp [acceptedOf]

end Write

theorem ledger_write
    {s : Net} {c : Nat} {ctx : IxfdConnCtx} (h : Ledger s)
    (hc : s.conns c = some ctx)
    {data : Buffer} (cb : Option Nat) (args : Nat) {ret : Int}
    (hret : writeRet (s.kernel ctx.fd) data.bytes.length ret = true)
    (hok : 0 ≤ ret ∨ data.bytes = []) :
    Ledger (ixfdCommonsockWrite s c ctx data cb args ret) := by
  have hold : ∀ j, j < s.calls →
      acceptedOf j (ixfdCommonsockWrite s c ctx data cb args ret).log =
        acceptedOf j s.log := by
    intro j hj
    have hne : s.calls ≠ j := by omega
    rw [acceptedOf_write, if_neg hne, List.append_nil]
  have hnew : acceptedOf s.calls
      (ixfdCommonsockWrite s c ctx data cb args ret).log =
        data.bytes.take ret.toNat := by
    rw [acceptedOf_write, h.fresh s.calls (Nat.le_refl _)]
    simp
  -- an empty call has nothing to accept, otherwise the result is a count
  have hcount : data.bytes ≠ [] → toSizeT ret = ret.toNat := by
    intro hne
    exact toSizeT_of_writeRet hret data.fits (hok.resolve_right hne)
  constructor
  case callLt =>
      intro c' j d hj
      rw [calls_write]
      rcases (call_mem_write data cb args ret c' j d).mp hj with
        hj | ⟨_, rfl, _⟩
      · exact Nat.lt_succ_of_lt (h.callLt c' j d hj)
      · exact Nat.lt_succ_self _
  case callUnique =>
      intro c1 j d1 c2 d2 h1 h2
      rcases (call_mem_write data cb args ret c1 j d1).mp h1 with
        old1 | ⟨hc1, hj, hd1⟩ <;>
      rcases (call_mem_write data cb args ret c2 j d2).mp h2 with
        old2 | ⟨hc2, hj', hd2⟩
      · exact h.callUnique c1 j d1 c2 d2 old1 old2
      · have := h.callLt _ _ _ old1
        omega
      · have := h.callLt _ _ _ old2
        omega
      · exact ⟨hc1.trans hc2.symm, hd1.trans hd2.symm⟩
  case fresh =>
      intro j hj
      rw [calls_write] at hj
      have hne : s.calls ≠ j := by omega
      rw [acceptedOf_write, if_neg hne, List.append_nil]
      exact h.fresh j (by omega)
  case reportedLt =>
      intro j hj
      rw [calls_write]
      rcases (reported_write data cb args ret j).mp hj with hj | ⟨rfl, _⟩
      · exact Nat.lt_succ_of_lt (h.reportedLt j hj)
      · exact Nat.lt_succ_self _
  case queued =>
      intro c' w hw
      rw [queue_write hc] at hw
      rw [call_mem_write]
      rcases List.mem_append.mp hw with hw | hw
      · have hmem := h.queued c' w hw
        rw [hold w.call (h.callLt _ _ _ hmem)]
        exact Or.inl hmem
      · split at hw
        · rename_i hlt
          have hne : data.bytes ≠ [] := by
            intro hnil
            simp [hnil] at hlt
          rw [List.mem_singleton.mp hw]
          refine Or.inr ⟨hlt.1.symm, rfl, ?_⟩
          rw [IxfdSockWriteCtx.remaining_ofCall,
            IxfdSockWriteCtx.call_ofCall, hnew, hcount hne]
          exact List.take_append_drop ret.toNat data.bytes
        · cases hw
  case nodup =>
      intro c'
      rw [queue_write hc, List.map_append]
      apply List.Nodup.append (h.nodup c')
      · split <;> simp
      · intro j hj hj'
        obtain ⟨w, hw, rfl⟩ := List.mem_map.mp hj
        have hlt := h.callLt _ _ _ (h.queued c' w hw)
        split at hj'
        · simp only [List.map_cons, List.map_nil, List.mem_singleton,
            IxfdSockWriteCtx.call_ofCall] at hj'
          omega
        · cases hj'
  case done =>
      intro j hj
      rw [reported_write]
      rcases stack_write data cb args ret j hj with hj | hj
      · exact Or.inl (h.done j hj)
      · exact Or.inr hj
  case honest =>
      intro c' j d hj hrep
      rw [reported_write] at hrep
      rcases (call_mem_write data cb args ret c' j d).mp hj with
        hj | ⟨rfl, rfl, rfl⟩
      · have hlt := h.callLt c' j d hj
        rw [hold j hlt]
        rcases hrep with hrep | ⟨he, _⟩
        · exact h.honest c' j d hj hrep
        · omega
      · rw [hnew]
        rcases hrep with hrep | ⟨_, hge⟩
        · exact absurd (h.reportedLt _ hrep) (by omega)
        · by_cases hnil : data.bytes = []
          · simp [hnil]
          · apply List.take_of_length_le
            rw [hcount hnil] at hge
            omega

section WriteCb

variable {s : Net} {c : Nat} {ctx : IxfdConnCtx}
variable (w : IxfdSockWriteCtx) (rest : List IxfdSockWriteCtx) (ret : Int)

theorem calls_writeCbIter :
    (ixfdCommonsockWriteCbIter s c ctx w rest ret).calls = s.calls := by
  by_cases hlt : toSizeT ret < w.lenRemain
  · rw [writeCbIter_advanced _ _ _ _ _ hlt]
    rfl
  · rw [writeCbIter_complete _ _ _ _ _ hlt]
    rcases w.cb with _ | f <;> rfl

theorem call_mem_writeCbIter (c' j : Nat) (d : List UInt8) :
    .call c' j d ∈ (ixfdCommonsockWriteCbIter s c ctx w rest ret).log ↔
      .call c' j d ∈ s.log := by
  by_cases hlt : toSizeT ret < w.lenRemain
  · rw [writeCbIter_advanced _ _ _ _ _ hlt]
    simp
  · rw [writeCbIter_complete _ _ _ _ _ hlt]
    rcases w.cb with _ | f <;> simp

theorem reported_writeCbIter_mono {j : Nat} (h : Reported j s.log) :
    Reported j (ixfdCommonsockWriteCbIter s c ctx w rest ret).log := by
  by_cases hlt : toSizeT ret < w.lenRemain
  · rw [writeCbIter_advanced _ _ _ _ _ hlt]
    exact (reported_append j _ _).mpr (Or.inl h)
  · rw [writeCbIter_complete _ _ _ _ _ hlt]
    rcases w.cb with _ | f <;>
      exact (reported_append j _ _).mpr
        (Or.inl ((reported_append j _ _).mpr (Or.inl h)))

/-- Only the call of an entry that passes for complete is newly reported. -/
theorem reported_writeCbIter {j : Nat}
    (h : Reported j (ixfdCommonsockWriteCbIter s c ctx w rest ret).log) :
    Reported j s.log ∨ (j = w.call ∧ ¬ toSizeT ret < w.lenRemain) := by
  by_cases hlt : toSizeT ret < w.lenRemain
  · rw [writeCbIter_advanced _ _ _ _ _ hlt] at h
    exact Or.inl (by simpa [Reported] using h)
  · rw [writeCbIter_complete _ _ _ _ _ hlt] at h
    rcases hcb : w.cb with _ | f
    · exact Or.inl (by simpa [Reported, hcb] using h)
    · simpa [Reported, hcb, hlt, exists_or, or_assoc] using h

theorem stack_writeCbIter {j : Nat}
    (h : .writeDone j ∈ (ixfdCommonsockWriteCbIter s c ctx w rest ret).stack) :
    .writeDone j ∈ s.stack := by
  by_cases hlt : toSizeT ret < w.lenRemain
  · rw [writeCbIter_advanced _ _ _ _ _ hlt] at h
    exact h
  · rw [writeCbIter_complete _ _ _ _ _ hlt] at h
    rcases hcb : w.cb with _ | f
    · rw [hcb] at h
      exact h
    · simpa [hcb] using h

theorem acceptedOf_writeCbIter (j : Nat) :
    acceptedOf j (ixfdCommonsockWriteCbIter s c ctx w rest ret).log =
      acceptedOf j s.log ++
        if w.call = j then w.remaining.take ret.toNat else [] := by
  rw [acceptedOf, accepted_writeCbIter]
  simp [acceptedOf]

end WriteCb

/-- Entries of different connections belong to different calls. -/
theorem Ledger.call_ne
    {s : Net} (h : Ledger s) {c c' : Nat} {w w' : IxfdSockWriteCtx}
    (hw : w ∈ queue s c) (hw' : w' ∈ queue s c') (hne : c' ≠ c) :
    w.call ≠ w'.call := by
  intro heq
  have hcall := h.queued c w hw
  have hcall' := h.queued c' w' hw'
  rw [heq] at hcall
  exact hne (h.callUnique _ _ _ _ _ hcall' hcall).1

theorem ledger_writeCbIter
    {s : Net} {c : Nat} {ctx : IxfdConnCtx} (h : Ledger s)
    (hc : s.conns c = some ctx)
    {w : IxfdSockWriteCtx} {rest : List IxfdSockWriteCtx}
    (hq : ctx.bufWrite = w :: rest) {ret : Int}
    (hret : writeRet (s.kernel ctx.fd) w.lenRemain ret = true)
    (hok : 0 ≤ ret) :
    Ledger (ixfdCommonsockWriteCbIter s c ctx w rest ret) := by
  have hqueue : queue s c = w :: rest := by
    rw [queue_of_conns hc, hq]
  have hfront : w ∈ queue s c := by
    rw [hqueue]
    exact List.mem_cons_self
  have hcall := h.queued c w hfront
  have hcount : toSizeT ret = ret.toNat :=
    toSizeT_of_writeRet hret w.fits hok
  have hold : ∀ j, w.call ≠ j →
      acceptedOf j (ixfdCommonsockWriteCbIter s c ctx w rest ret).log =
        acceptedOf j s.log := by
    intro j hne
    rw [acceptedOf_writeCbIter, if_neg hne, List.append_nil]
  have hnodup : w.call ∉ rest.map IxfdSockWriteCtx.call ∧
      (rest.map IxfdSockWriteCtx.call).Nodup := by
    have hn := h.nodup c
    rw [hqueue, List.map_cons] at hn
    exact List.nodup_cons.mp hn
  -- a call with bytes left in the queue has not been reported
  have hopen : ¬ Reported w.call s.log := by
    intro hrep
    have heq := h.honest c w.call _ hcall hrep
    exact w.remaining_ne_nil (List.self_eq_append_right.mp heq)
  constructor
  case callLt =>
      intro c' j d hj
      rw [calls_writeCbIter]
      exact h.callLt c' j d ((call_mem_writeCbIter w rest ret c' j d).mp hj)
  case callUnique =>
      intro c1 j d1 c2 d2 h1 h2
      exact h.callUnique c1 j d1 c2 d2
        ((call_mem_writeCbIter w rest ret c1 j d1).mp h1)
        ((call_mem_writeCbIter w rest ret c2 j d2).mp h2)
  case fresh =>
      intro j hj
      rw [calls_writeCbIter] at hj
      have hlt := h.callLt _ _ _ hcall
      rw [hold j (by omega)]
      exact h.fresh j hj
  case reportedLt =>
      intro j hj
      rw [calls_writeCbIter]
      rcases reported_writeCbIter w rest ret hj with hj | ⟨rfl, _⟩
      · exact h.reportedLt j hj
      · exact h.callLt _ _ _ hcall
  case queued =>
      intro c' w' hw'
      rw [call_mem_writeCbIter]
      have hkept : w' ∈ queue s c' → w.call ≠ w'.call →
          .call c' w'.call
            (acceptedOf w'.call
              (ixfdCommonsockWriteCbIter s c ctx w rest ret).log ++
                w'.remaining) ∈ s.log := by
        intro hmem hne
        rw [hold w'.call hne]
        exact h.queued c' w' hmem
      have hrest : w' ∈ rest → c = c' →
          .call c' w'.call
            (acceptedOf w'.call
              (ixfdCommonsockWriteCbIter s c ctx w rest ret).log ++
                w'.remaining) ∈ s.log := by
        rintro hmem rfl
        apply hkept
        · rw [hqueue]
          exact List.mem_cons_of_mem _ hmem
        · intro heq
          apply hnodup.1
          rw [heq]
          exact List.mem_map_of_mem hmem
      rw [queue_writeCbIter] at hw'
      split at hw'
      · rename_i hcc
        split at hw'
        · rcases List.mem_cons.mp hw' with rfl | hmem
          · rw [IxfdSockWriteCtx.call_advance, acceptedOf_writeCbIter,
              if_pos rfl, IxfdSockWriteCtx.remaining_advance, hcount,
              List.append_assoc, List.take_append_drop, ← hcc]
            exact hcall
          · exact hrest hmem hcc
        · exact hrest hw' hcc
      · rename_i hcc
        exact hkept hw' (h.call_ne hfront hw' (Ne.symm hcc))
  case nodup =>
      intro c'
      rw [queue_writeCbIter]
      split
      · split
        · rw [List.map_cons, IxfdSockWriteCtx.call_advance]
          exact List.nodup_cons.mpr hnodup
        · exact hnodup.2
      · exact h.nodup c'
  case done =>
      intro j hj
      exact reported_writeCbIter_mono w rest ret
        (h.done j (stack_writeCbIter w rest ret hj))
  case honest =>
      intro c' j d hj hrep
      rw [call_mem_writeCbIter] at hj
      rcases reported_writeCbIter w rest ret hrep with hrep | ⟨rfl, hge⟩
      · rw [hold j (fun heq => hopen (heq ▸ hrep))]
        exact h.honest c' j d hj hrep
      · have hd := (h.callUnique _ _ _ _ _ hj hcall).2
        rw [acceptedOf_writeCbIter, if_pos rfl, hd]
        congr 1
        apply List.take_of_length_le
        rw [w.length_remaining]
        omega

/-! ## Steps and runs -/

/-- A step without a failed write keeps the ledger. -/
theorem ledger_step
    {sock : IxfdSock} {s t : Net} {l : Label}
    (hk : Known s) (h : Ledger s) (hl : NoBytesFail l)
    (ht : step sock s l = some t) :
    Ledger t := by
  rcases step_cases hk ht with
    ⟨c, data, cb, args, ret, ctx, rfl, hc, hret, rfl⟩ |
    ⟨ret, c, stack, ctx, w, rest, rfl, _, hc, hq, hret, rfl⟩ |
    ⟨_, _, hquiet⟩
  · exact ledger_write h hc cb args hret hl
  · exact ledger_writeCbIter h hc hq hret hl
  · exact ledger_quiet h hquiet

/-- The part of a step that decides whether failed bytes are kept. -/
theorem failedKept_iff
    {sock : IxfdSock} {s t : Net} {l : Label}
    (hk : Known s) (h : Ledger s) (ht : step sock s l = some t) :
    FailedKept s t ↔ NoBytesFail l := by
  rcases step_cases hk ht with
    ⟨c, data, cb, args, ret, ctx, rfl, hc, hret, rfl⟩ |
    ⟨ret, c, stack, ctx, w, rest, rfl, _, hc, hq, hret, rfl⟩ |
    ⟨hnw, hnd, hquiet⟩
  · have hnew : ∀ c' j fd peer given r,
        .write c' j fd peer given r ∈
            newEffects s (ixfdCommonsockWrite s c ctx data cb args ret) ↔
          c' = c ∧ j = s.calls ∧ fd = ctx.fd ∧ peer = s.kernel ctx.fd ∧
            given = data.bytes ∧ r = ret := by
      intro c' j fd peer given r
      by_cases hlt : toSizeT ret < data.bytes.length
      · rw [write_queued _ _ _ _ _ _ hlt]
        simp [newEffects]
      · rw [write_complete _ _ _ _ _ _ hlt]
        cases cb <;> simp [newEffects]
    constructor
    · intro hkept
      by_cases hneg : ret < 0
      · have hmem := (hnew c s.calls ctx.fd (s.kernel ctx.fd) data.bytes
          ret).mpr ⟨rfl, rfl, rfl, rfl, rfl, rfl⟩
        rcases hkept _ _ _ _ _ _ hmem hneg with hnil | ⟨x, hx, hxc, _⟩
        · exact Or.inr hnil
        · -- -1 is at least every length, so no entry is queued
          rw [queue_write hc] at hx
          rcases List.mem_append.mp hx with hx | hx
          · have := h.callLt _ _ _ (h.queued c x hx)
            omega
          · have hm1 : ret = -1 := by
              rcases writeRet_cases hret with h1 | h1 <;> omega
            have hfits := data.fits
            unfold sizeMod at hfits
            rw [hm1, toSizeT_error, dif_neg (by omega)] at hx
            cases hx
      · exact Or.inl (by omega)
    · rintro hok c' j fd peer given r hmem hr
      obtain ⟨_, _, _, _, rfl, rfl⟩ := (hnew c' j fd peer given r).mp hmem
      exact Or.inl (hok.resolve_left (by omega))
  · have hnew : ∀ c' j fd peer given r,
        .write c' j fd peer given r ∈
            newEffects s (ixfdCommonsockWriteCbIter s c ctx w rest ret) ↔
          c' = c ∧ j = w.call ∧ fd = ctx.fd ∧ peer = s.kernel ctx.fd ∧
            given = w.remaining ∧ r = ret := by
      intro c' j fd peer given r
      by_cases hlt : toSizeT ret < w.lenRemain
      · rw [writeCbIter_advanced _ _ _ _ _ hlt]
        simp [newEffects]
      · rw [writeCbIter_complete _ _ _ _ _ hlt]
        rcases w.cb with _ | f <;> simp [newEffects]
    constructor
    · intro hkept
      by_contra hneg
      have hneg' : ret < 0 := not_le.mp hneg
      have hmem := (hnew c w.call ctx.fd (s.kernel ctx.fd) w.remaining
        ret).mpr ⟨rfl, rfl, rfl, rfl, rfl, rfl⟩
      rcases hkept _ _ _ _ _ _ hmem hneg' with hnil | ⟨x, hx, hxc, _⟩
      · exact w.remaining_ne_nil hnil
      · -- the entry has left the queue and its call has no other entry
        have hm1 : ret = -1 := by
          rcases writeRet_cases hret with h1 | h1 <;> omega
        have hfits := w.fits
        unfold sizeMod at hfits
        rw [queue_writeCbIter, if_pos rfl, hm1, toSizeT_error,
          dif_neg (by omega)] at hx
        have hn := h.nodup c
        rw [queue_of_conns hc, hq, List.map_cons] at hn
        apply (List.nodup_cons.mp hn).1
        rw [← hxc]
        exact List.mem_map_of_mem hx
    · rintro hok c' j fd peer given r hmem hr
      obtain ⟨_, _, _, _, _, rfl⟩ := (hnew c' j fd peer given r).mp hmem
      exact absurd hr (not_lt.mpr hok)
  · obtain ⟨es, hlog, hes⟩ := hquiet.log
    constructor
    · intro _
      cases l with
      | write c data cb args ret => exact absurd rfl (hnw c data cb args ret)
      | drainWrite ret => exact absurd rfl (hnd ret)
      | _ => trivial
    · intro _ c' j fd peer given r hmem _
      rw [newEffects_of_log hlog] at hmem
      exact (hes _ hmem).elim

/-- **Completion is honest** along a run, and failed writes stay queued,
exactly when no `write(2)` that is given bytes fails. -/
theorem completion_honest_iff (sock : IxfdSock) (ls : List Label) :
    EveryStep (step sock)
        (fun s _ t => Honest t ∧ FailedKept s t) .init ls ↔
      EveryStep (step sock) (fun _ l _ => NoBytesFail l) .init ls := by
  apply everyStep_congr (I := fun s => Known s ∧ Ledger s)
  · intro s t l _ hs ht
    have hiff := failedKept_iff hs.1 hs.2 ht
    constructor
    · exact fun h => hiff.mp h.2
    · exact fun h => ⟨(ledger_step hs.1 hs.2 h ht).honest, hiff.mpr h⟩
  · intro s t l _ hs ht h
    have hl : NoBytesFail l := (failedKept_iff hs.1 hs.2 ht).mp h.2
    exact ⟨known_step hs.1 ht, ledger_step hs.1 hs.2 hl ht⟩
  · exact ⟨known_init, ledger_init⟩

/-- `EAGAIN` on the first call: the callback runs, no byte was accepted and
none is queued. -/
theorem failed_write_reported :
    let ls : List Label :=
      [.accept 5 true, .write 0 ⟨bytes "ab", by decide⟩ (some 7) 9 (-1)]
    (run (step ⟨true, false, false, false⟩) .init ls).map
        (fun t => (acceptedOf 0 t.log, (queue t 0).length,
          decide (.callback 0 0 7 (some 9) ∈ t.log))) =
      some ([], 0, true) ∧
      ¬ EveryState (step ⟨true, false, false, false⟩) Honest .init ls := by
  refine ⟨by decide, ?_⟩
  intro h
  have hlast := everyState_last h rfl
  have hdata := hlast 0 0 (bytes "ab") (by decide)
    (Or.inr ⟨0, 7, some 9, by decide⟩)
  revert hdata
  decide

end Sock
end Iojxd
