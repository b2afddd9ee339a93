import Iojxd.LuaValue
import Iojxd.SockRuns

/-!
# Stream order of one connection

The bytes that the kernel has accepted for a connection, followed by the bytes
still in its write queue, are compared with the data of all its calls of
`ixfd_commonsock_write` in call order.  An iteration of `write_cb` moves bytes
from the front of the queue to the accepted ones and keeps the order.  A call
writes directly, past the queue: it keeps the order exactly when the bytes the
kernel accepts from it commute with the queued ones.
-/

namespace Iojxd
namespace Sock

open TransitionRun

/-- Bytes the kernel has accepted from `write(2)` for a connection. -/
def acceptedBy (c : Nat) (log : List Effect) : List UInt8 :=
  acceptedWhere (fun c' _ => c' == c) log

/-- Data of the calls of `ixfd_commonsock_write` for a connection. -/
def submittedTo (c : Nat) (log : List Effect) : List UInt8 :=
  log.flatMap fun
    | .call c' _ data => if c' = c then data else []
    | _ => []

/-- Bytes waiting in the write queue of a connection. -/
def pending (s : Net) (c : Nat) : List UInt8 :=
  (queue s c).flatMap IxfdSockWriteCtx.remaining

/-- Nothing is lost, duplicated or reordered. -/
def InOrder (c : Nat) (s : Net) : Prop :=
  acceptedBy c s.log ++ pending s c = submittedTo c s.log

/-- No `write(2)` of the step fails. -/
def NoWriteError : Label → Prop
  | .write _ _ _ _ ret => 0 ≤ ret
  | .drainWrite ret => 0 ≤ ret
  | _ => True

/-- The bytes accepted directly from a call on the connection commute with the
pending ones. -/
def WriteCommutes (c : Nat) (s : Net) : Label → Prop
  | .write c' data _ _ ret =>
      c' = c →
        data.bytes.take ret.toNat ++ pending s c =
          pending s c ++ data.bytes.take ret.toNat
  | _ => True

theorem acceptedBy_append (c : Nat) (as bs : List Effect) :
    acceptedBy c (as ++ bs) = acceptedBy c as ++ acceptedBy c bs := by
  exact acceptedWhere_append _ as bs

theorem acceptedBy_quiet
    (c : Nat) {s : Net} {es : List Effect}
    (h : ∀ x ∈ es, QuietEffect s x) :
    acceptedBy c es = [] := by
  exact acceptedWhere_quiet _ h

theorem submittedTo_append (c : Nat) (as bs : List Effect) :
    submittedTo c (as ++ bs) = submittedTo c as ++ submittedTo c bs := by
  exact List.flatMap_append

theorem submittedTo_quiet
    (c : Nat) {s : Net} {es : List Effect}
    (h : ∀ x ∈ es, QuietEffect s x) :
    submittedTo c es = [] := by
  apply List.flatMap_eq_nil_iff.mpr
  intro x hx
  have hq := h x hx
  cases x with
  | call => exact hq.elim
  | _ => rfl

/-! ## What the two writing steps do to the bytes -/

theorem acceptedBy_write
    (s : Net) (c : Nat) (ctx : IxfdConnCtx) (data : Buffer)
    (cb : Option Nat) (args : Nat) (ret : Int) (d : Nat) :
    acceptedBy d (ixfdCommonsockWrite s c ctx data cb args ret).log =
      acceptedBy d s.log ++
        if c = d then data.bytes.take ret.toNat else [] := by
  rw [acceptedBy, accepted_write]
  simp [acceptedBy]

theorem submitted_write
    (s : Net) (c : Nat) (ctx : IxfdConnCtx) (data : Buffer)
    (cb : Option Nat) (args : Nat) (ret : Int) (d : Nat) :
    submittedTo d (ixfdCommonsockWrite s c ctx data cb args ret).log =
      submittedTo d s.log ++ if c = d then data.bytes else [] := by
  by_cases hlt : toSizeT ret < data.bytes.length
  · rw [write_queued _ _ _ _ _ _ hlt]
    simp [submittedTo]
  · rw [write_complete _ _ _ _ _ _ hlt]
    cases cb <;> simp [submittedTo]

theorem pending_write
    {s : Net} {c : Nat} {ctx : IxfdConnCtx} (hc : s.conns c = some ctx)
    (data : Buffer) (cb : Option Nat) (args : Nat) (ret : Int) (d : Nat) :
    pending (ixfdCommonsockWrite s c ctx data cb args ret) d =
      pending s d ++ if c = d then data.bytes.drop (toSizeT ret) else [] := by
  unfold pending
  rw [queue_write hc, List.flatMap_append]
  by_cases hd : c = d
  · by_cases hlt : toSizeT ret < data.bytes.length
    · simp [hd, hlt]
    · have hdrop : data.bytes.drop (toSizeT ret) = [] :=
        List.drop_of_length_le (by omega)
      simp [hd, hlt, hdrop]
  · simp [hd]

theorem acceptedBy_writeCbIter
    (s : Net) (c : Nat) (ctx : IxfdConnCtx) (w : IxfdSockWriteCtx)
    (rest : List IxfdSockWriteCtx) (ret : Int) (d : Nat) :
    acceptedBy d (ixfdCommonsockWriteCbIter s c ctx w rest ret).log =
      acceptedBy d s.log ++
        if c = d then w.remaining.take ret.toNat else [] := by
  rw [acceptedBy, accepted_writeCbIter]
  simp [acceptedBy]

theorem submitted_writeCbIter
    (s : Net) (c : Nat) (ctx : IxfdConnCtx) (w : IxfdSockWriteCtx)
    (rest : List IxfdSockWriteCtx) (ret : Int) (d : Nat) :
    submittedTo d (ixfdCommonsockWriteCbIter s c ctx w rest ret).log =
      submittedTo d s.log := by
  by_cases hlt : toSizeT ret < w.lenRemain
  · rw [writeCbIter_advanced _ _ _ _ _ hlt]
    simp [submittedTo]
  · rw [writeCbIter_complete _ _ _ _ _ hlt]
    rcases w.cb with _ | f <;> simp [submittedTo]

theorem pending_writeCbIter
    {s : Net} {c : Nat} {ctx : IxfdConnCtx} {w : IxfdSockWriteCtx}
    {rest : List IxfdSockWriteCtx} (ret : Int) (d : Nat) :
    pending (ixfdCommonsockWriteCbIter s c ctx w rest ret) d =
      if c = d then
        w.remaining.drop (toSizeT ret) ++
          rest.flatMap IxfdSockWriteCtx.remaining
      else pending s d := by
  unfold pending
  rw [queue_writeCbIter]
  by_cases hd : c = d
  · by_cases hlt : toSizeT ret < w.lenRemain
    · simp [hd, hlt]
    · have hdrop : w.remaining.drop (toSizeT ret) = [] := by
        apply List.drop_of_length_le
        rw [w.length_remaining]
        omega
      simp [hd, hlt, hdrop]
  · simp [hd]

/-! ## The law -/

/-- In a state in order, the next state is in order exactly when the step
commutes with the pending bytes. -/
theorem inOrder_step_iff
    {sock : IxfdSock} {s t : Net} {l : Label} (c : Nat)
    (hk : Known s) (hs : InOrder c s)
    (hl : NoWriteError l) (ht : step sock s l = some t) :
    InOrder c t ↔ WriteCommutes c s l := by
  unfold InOrder at hs ⊢
  rcases step_cases hk ht with
    ⟨c', data, cb, args, ret, ctx, rfl, hc, hret, rfl⟩ |
    ⟨ret, c', stack, ctx, w, rest, rfl, _, hc, hq, hret, rfl⟩ |
    ⟨hnw, _, hquiet⟩
  · have h0 : 0 ≤ ret := hl
    have hn := toSizeT_of_writeRet hret data.fits h0
    rw [acceptedBy_write, submitted_write, pending_write hc, hn, ← hs]
    by_cases hd : c' = c
    · simp only [hd, if_true, WriteCommutes, true_imp_iff]
      have hsplit := List.take_append_drop ret.toNat data.bytes
      constructor
      · intro h
        have h' : data.bytes.take ret.toNat ++ pending s c ++
              data.bytes.drop ret.toNat =
            pending s c ++ data.bytes.take ret.toNat ++
              data.bytes.drop ret.toNat := by
          apply List.append_right_inj (acceptedBy c s.log) |>.mp
          simpa [List.append_assoc, hsplit] using h
        exact List.append_cancel_right h'
      · intro h
        calc
          acceptedBy c s.log ++ data.bytes.take ret.toNat ++
              (pending s c ++ data.bytes.drop ret.toNat) =
            acceptedBy c s.log ++
              (data.bytes.take ret.toNat ++ pending s c) ++
              data.bytes.drop ret.toNat := by
                simp only [List.append_assoc]
          _ = acceptedBy c s.log ++ pending s c ++
              (data.bytes.take ret.toNat ++
                data.bytes.drop ret.toNat) := by
                rw [h]
                simp only [List.append_assoc]
          _ = acceptedBy c s.log ++ pending s c ++ data.bytes := by
                rw [hsplit]
    · simp [hd, WriteCommutes]
  · have h0 : 0 ≤ ret := hl
    have hn := toSizeT_of_writeRet hret w.fits h0
    have hpend : pending s c' =
        w.remaining ++ rest.flatMap IxfdSockWriteCtx.remaining := by
      simp [pending, queue_of_conns hc, hq]
    have hkept : acceptedBy c (ixfdCommonsockWriteCbIter s c' ctx w rest ret).log ++
          pending (ixfdCommonsockWriteCbIter s c' ctx w rest ret) c =
        submittedTo c (ixfdCommonsockWriteCbIter s c' ctx w rest ret).log := by
      rw [acceptedBy_writeCbIter, submitted_writeCbIter, pending_writeCbIter,
        hn, ← hs]
      by_cases hd : c' = c
      · subst hd
        simp only [if_true, hpend]
        have hsplit := List.take_append_drop ret.toNat w.remaining
        rw [List.append_assoc, ← List.append_assoc (List.take _ _), hsplit]
      · simp [hd]
    exact ⟨fun _ => trivial, fun _ => hkept⟩
  · obtain ⟨es, hlog, hes⟩ := hquiet.log
    have hkept : acceptedBy c t.log ++ pending t c = submittedTo c t.log := by
      rw [hlog, acceptedBy_append, submittedTo_append,
        acceptedBy_quiet c hes, submittedTo_quiet c hes,
        List.append_nil, List.append_nil, ← hs]
      simp [pending, hquiet.queue c]
    refine ⟨fun _ => ?_, fun _ => hkept⟩
    cases l with
    | write c' data cb args ret => exact absurd rfl (hnw c' data cb args ret)
    | _ => trivial

/-- **Stream order**: along a run in which no `write(2)` fails, a connection is
in order in every state exactly when every direct write on it commutes with
what was pending.  Completion callbacks are unrestricted. -/
theorem stream_order_iff
    (sock : IxfdSock) (c : Nat) (ls : List Label)
    (hls : ∀ l ∈ ls, NoWriteError l) :
    EveryState (step sock) (InOrder c) .init ls ↔
      EveryStep (step sock) (fun s l _ => WriteCommutes c s l) .init ls := by
  have hinit : InOrder c .init := rfl
  rw [everyState_iff_everyStep hinit]
  apply everyStep_congr (I := fun s => Known s ∧ InOrder c s)
  · intro s t l hl hs ht
    exact inOrder_step_iff c hs.1 hs.2 (hls l hl) ht
  · intro s t l _ hs ht hord
    exact ⟨known_step hs.1 ht, hord⟩
  · exact ⟨known_init, hinit⟩

/-- A call overtakes the byte that the call before it left in the queue. -/
theorem direct_write_overtakes :
    let ls : List Label :=
      [.accept 5 true,
        .write 0 ⟨bytes "ab", by decide⟩ none 0 1,
        .write 0 ⟨bytes "c", by decide⟩ none 0 1]
    (∀ l ∈ ls, NoWriteError l) ∧
      (run (step ⟨true, false, false, false⟩) .init ls).map
          (fun t => (acceptedBy 0 t.log, pending t 0, submittedTo 0 t.log)) =
        some (bytes "ac", bytes "b", bytes "abc") ∧
      ¬ EveryState (step ⟨true, false, false, false⟩) (InOrder 0) .init ls := by
  refine ⟨by simp [NoWriteError], by decide, ?_⟩
  intro h
  have hlast := everyState_last h rfl
  revert hlast
  unfold InOrder
  decide

/-- The same calls stay in order when the queue drains between them. -/
theorem stream_order_iff_drained :
    EveryState (step ⟨true, false, false, false⟩) (InOrder 0) .init
      [.accept 5 true,
        .write 0 ⟨bytes "ab", by decide⟩ none 0 1,
        .writeReady 0, .drainWrite 1, .drainEnd,
        .write 0 ⟨bytes "c", by decide⟩ none 0 1] := by
  apply (stream_order_iff ⟨true, false, false, false⟩ 0 _
    (by simp [NoWriteError])).mpr
  refine everyStep_cons_of_some rfl trivial ?_
  refine everyStep_cons_of_some rfl (by unfold WriteCommutes; decide) ?_
  refine everyStep_cons_of_some rfl trivial ?_
  refine everyStep_cons_of_some rfl trivial ?_
  refine everyStep_cons_of_some rfl trivial ?_
  exact everyStep_cons_of_some rfl (by unfold WriteCommutes; decide) trivial

end Sock
end Iojxd
