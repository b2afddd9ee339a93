import Iojxd.SockRuns

/-!
# What is seen of a write

The kernel sees the bytes it accepts, the application sees its completion
callbacks.  The transcript of a log has both, in order and with the call they
belong to.  An entry of a write queue stands for the part of the transcript that
is still to come: its remaining bytes and then its callback.

An iteration of `write_cb` moves the front of what is waiting to the end of the
transcript.  No step but a call of `ixfd_commonsock_write` changes the two taken
together.
-/

namespace Iojxd
namespace Sock

/-- A byte that the kernel accepts, or a completion callback. -/
inductive Seen where
  | byte (c j : Nat) (b : UInt8)
  | callback (c j cb : Nat) (args : Option Nat)
deriving DecidableEq

namespace Seen

def conn : Seen → Nat
  | .byte c _ _ => c
  | .callback c _ _ _ => c

def call : Seen → Nat
  | .byte _ j _ => j
  | .callback _ j _ _ => j

end Seen

/-- What is seen of an effect. -/
def seenIn : Effect → List Seen
  | .write c j _ _ given ret => (given.take ret.toNat).map (.byte c j)
  | .callback c j cb args => [.callback c j cb args]
  | _ => []

def transcript (log : List Effect) : List Seen :=
  log.flatMap seenIn

/-- The callback of a write, if it has one. -/
def completion (c j : Nat) (cb : Option Nat) (args : Option Nat) :
    List Seen :=
  cb.toList.map fun f => .callback c j f args

/-- What is still to be seen of a queued write. -/
def ahead (c : Nat) (w : IxfdSockWriteCtx) : List Seen :=
  w.remaining.map (.byte c w.call) ++ completion c w.call w.cb w.cbArgs

def waiting (s : Net) (c : Nat) : List Seen :=
  (queue s c).flatMap (ahead c)

/-! ## Logs -/

theorem transcript_append (as bs : List Effect) :
    transcript (as ++ bs) = transcript as ++ transcript bs :=
  List.flatMap_append

theorem transcript_quiet
    {s : Net} {es : List Effect} (h : ∀ x ∈ es, QuietEffect s x) :
    transcript es = [] := by
  apply List.flatMap_eq_nil_iff.mpr
  intro x hx
  have hq := h x hx
  cases x with
  | write => exact hq.elim
  | callback => exact hq.elim
  | _ => rfl

/-- A quiet step shows nothing. -/
theorem transcript_quietStep
    {s t : Net} (h : QuietStep s t) :
    transcript t.log = transcript s.log := by
  obtain ⟨es, hlog, hes⟩ := h.log
  rw [hlog, transcript_append, transcript_quiet hes, List.append_nil]

theorem waiting_quietStep
    {s t : Net} (h : QuietStep s t) (c : Nat) :
    waiting t c = waiting s c := by
  rw [waiting, waiting, h.queue c]

theorem ahead_advance
    (c : Nat) (w : IxfdSockWriteCtx) (n : Nat) (h : n < w.lenRemain) :
    ahead c (w.advance n h) =
      (w.remaining.drop n).map (.byte c w.call) ++
        completion c w.call w.cb w.cbArgs := by
  simp only [ahead, IxfdSockWriteCtx.remaining_advance]
  rfl

theorem ahead_conn {c : Nat} {w : IxfdSockWriteCtx} :
    ∀ x ∈ ahead c w, x.conn = c ∧ x.call = w.call := by
  intro x hx
  simp only [ahead, completion, List.mem_append, List.mem_map] at hx
  rcases hx with ⟨b, _, rfl⟩ | ⟨f, _, rfl⟩
  · exact ⟨rfl, rfl⟩
  · exact ⟨rfl, rfl⟩

/-! ## The two functions that write -/

section Writes

variable {s : Net} {c : Nat} {ctx : IxfdConnCtx}

/-- A call that is queued shows the bytes accepted at once. -/
theorem transcript_write_queued
    (data : Buffer) (cb : Option Nat) (args : Nat) {ret : Int}
    (h : toSizeT ret < data.bytes.length) :
    transcript (ixfdCommonsockWrite s c ctx data cb args ret).log =
      transcript s.log ++
        (data.bytes.take ret.toNat).map (.byte c s.calls) := by
  rw [write_queued _ _ _ _ _ _ h]
  simp [transcript, seenIn]

/-- A complete call shows its bytes, and then its callback. -/
theorem transcript_write_complete
    (data : Buffer) (cb : Option Nat) (args : Nat) {ret : Int}
    (h : ¬ toSizeT ret < data.bytes.length) :
    transcript (ixfdCommonsockWrite s c ctx data cb args ret).log =
      transcript s.log ++
        ((data.bytes.take ret.toNat).map (.byte c s.calls) ++
          completion c s.calls cb (some args)) := by
  rw [write_complete _ _ _ _ _ _ h]
  cases cb <;> simp [transcript, seenIn, completion]

theorem transcript_writeCbIter
    (w : IxfdSockWriteCtx) (rest : List IxfdSockWriteCtx) (ret : Int) :
    transcript (ixfdCommonsockWriteCbIter s c ctx w rest ret).log =
      transcript s.log ++
        ((w.remaining.take ret.toNat).map (.byte c w.call) ++
          if toSizeT ret < w.lenRemain then []
          else completion c w.call w.cb w.cbArgs) := by
  by_cases hlt : toSizeT ret < w.lenRemain
  · rw [writeCbIter_advanced _ _ _ _ _ hlt]
    simp [transcript, seenIn, hlt]
  · rw [writeCbIter_complete _ _ _ _ _ hlt, if_neg hlt]
    rcases w.cb with _ | f <;> simp [transcript, seenIn, completion]

/-- **An iteration of `write_cb`** moves what it does from the front of what is
waiting to the transcript. -/
theorem settled_writeCbIter
    {w : IxfdSockWriteCtx} {rest : List IxfdSockWriteCtx} {ret : Int}
    (hc : s.conns c = some ctx) (hq : ctx.bufWrite = w :: rest)
    (hret : writeRet (s.kernel ctx.fd) w.lenRemain ret = true)
    (h0 : 0 ≤ ret) :
    transcript (ixfdCommonsockWriteCbIter s c ctx w rest ret).log ++
        waiting (ixfdCommonsockWriteCbIter s c ctx w rest ret) c =
      transcript s.log ++ waiting s c := by
  have hn := toSizeT_of_writeRet hret w.fits h0
  have hfront : waiting s c = ahead c w ++ rest.flatMap (ahead c) := by
    rw [waiting, queue_of_conns hc, hq, List.flatMap_cons]
  have hsplit : w.remaining.map (Seen.byte c w.call) =
      (w.remaining.take ret.toNat).map (.byte c w.call) ++
        (w.remaining.drop ret.toNat).map (.byte c w.call) := by
    rw [← List.map_append, List.take_append_drop]
  rw [transcript_writeCbIter, waiting, queue_writeCbIter, if_pos rfl, hfront,
    hn]
  by_cases hlt : ret.toNat < w.lenRemain
  · rw [dif_pos hlt, if_pos hlt, List.flatMap_cons, ahead_advance, ahead]
    rw [hsplit]
    simp only [List.append_assoc, List.nil_append]
  · have htake : w.remaining.take ret.toNat = w.remaining := by
      apply List.take_of_length_le
      rw [w.length_remaining]
      omega
    rw [dif_neg hlt, if_neg hlt, htake, ahead]
    simp [List.append_assoc]

/-- An iteration for another connection shows only what is of that one. -/
theorem transcript_other_writeCbIter
    (w : IxfdSockWriteCtx) (rest : List IxfdSockWriteCtx) (ret : Int)
    {p : Seen → Bool} (hp : ∀ x, x.conn = c → p x = false) :
    (transcript (ixfdCommonsockWriteCbIter s c ctx w rest ret).log).filter p =
      (transcript s.log).filter p := by
  rw [transcript_writeCbIter, List.filter_append]
  have hnone : ((w.remaining.take ret.toNat).map (Seen.byte c w.call) ++
      if toSizeT ret < w.lenRemain then []
      else completion c w.call w.cb w.cbArgs).filter p = [] := by
    apply List.filter_eq_nil_iff.mpr
    intro x hx
    have hconn : x.conn = c := by
      simp only [List.mem_append, List.mem_map] at hx
      rcases hx with ⟨b, _, rfl⟩ | hcb
      · rfl
      · split at hcb
        · simp at hcb
        · simp only [completion, List.mem_map] at hcb
          rcases hcb with ⟨f, _, rfl⟩
          rfl
    simp [hp x hconn]
  rw [hnone, List.append_nil]

end Writes

end Sock
end Iojxd
