import Iojxd.SockHeapModel
import Iojxd.SockCompletion

/-!
# The connection layer without its queues

The contexts that `SockHeapModel` keeps beside the memory are those of
`SockModel` with the list of writes taken out (`strip`).  Every function that
does not use a queue commutes with that.  The writes that the lists hold are kept
apart by the numbers of their calls.
-/

namespace Iojxd
namespace Sock

open TransitionRun

/-! ## Contexts without the list -/

/-- The context without its list of writes. -/
def stripCtx (ctx : IxfdConnCtx) : IxfdConnCtx :=
  { ctx with bufWrite := [] }

/-- The state without the lists of writes. -/
@[simps] def strip (s : Net) : Net :=
  { s with conns := fun c => (s.conns c).map stripCtx }

section Strip

variable {s t : Net} {c : Nat} {ctx : IxfdConnCtx}

@[simp] theorem strip_setConn (s : Net) (c : Nat) (ctx : IxfdConnCtx) :
    strip (s.setConn c ctx) = (strip s).setConn c (stripCtx ctx) := by
  simp only [strip, Net.setConn, Net.mk.injEq, and_self, and_true]
  funext d
  by_cases hd : d = c
  · subst hd
    simp
  · simp [Function.update_of_ne hd]

@[simp] theorem strip_emit (s : Net) (es : List Effect) :
    strip (s.emit es) = (strip s).emit es := by
  rfl

@[simp] theorem strip_withStack (s : Net) (stack : List Frame) :
    strip (s.withStack stack) = (strip s).withStack stack := by
  rfl

@[simp] theorem strip_setKernel (s : Net) (fd : Int) (peer : Option Nat) :
    strip (s.setKernel fd peer) = (strip s).setKernel fd peer := by
  rfl

/-- A context that changes in its list only is not seen. -/
theorem setConn_strip
    (hc : s.conns c = some ctx) (ctx' : IxfdConnCtx)
    (hctx : stripCtx ctx' = stripCtx ctx) :
    (strip s).setConn c (stripCtx ctx') = strip s := by
  have hself : Function.update (strip s).conns c (some (stripCtx ctx')) =
      (strip s).conns := by
    apply Function.update_eq_self_iff.mpr
    simp [hc, hctx]
  simp only [Net.setConn, hself]

/-- A step on a context that neither looks at the list nor changes it. -/
theorem onConn_strip
    {ok : IxfdConnCtx → Bool} {f g : IxfdConnCtx → Net}
    (hok : ∀ ctx, ok (stripCtx ctx) = ok ctx)
    (hf : ∀ ctx, g (stripCtx ctx) = strip (f ctx)) :
    onConn (strip s) c ok g = (onConn s c ok f).map strip := by
  unfold onConn
  rw [strip_conns]
  cases s.conns c with
  | none => rfl
  | some ctx =>
      simp only [Option.map_some, hok, hf]
      split <;> rfl

theorem strip_close (s : Net) (c : Nat) (ctx : IxfdConnCtx) :
    ixfdCommonsockClose (strip s) c (stripCtx ctx) =
      strip (ixfdCommonsockClose s c ctx) := by
  simp [ixfdCommonsockClose, closeCtx, stripCtx]

theorem strip_read
    (s : Net) (c : Nat) (ctx : IxfdConnCtx) (ret : ReadRet) :
    ixfdCommonsockRead (strip s) c (stripCtx ctx) ret =
      strip (ixfdCommonsockRead s c ctx ret) := by
  unfold ixfdCommonsockRead
  split
  · rw [← strip_close]
    rfl
  · rfl

theorem strip_readCb
    (sock : IxfdSock) (s : Net) (c : Nat) (ctx : IxfdConnCtx)
    (ret : ReadRet) :
    ixfdCommonsockReadCb sock (strip s) c (stripCtx ctx) ret =
      strip (ixfdCommonsockReadCb sock s c ctx ret) := by
  unfold ixfdCommonsockReadCb
  split
  · rfl
  · split
    · rfl
    · split
      · rfl
      · rw [← strip_close]
        rfl
    · by_cases hcb : ctx.cbRead = true
      · simp only [stripCtx, hcb, if_true]
        rfl
      · simp only [stripCtx, hcb]
        rfl

theorem strip_acceptCb
    (sock : IxfdSock) (s : Net) (fd : Int) (mallocOk : Bool) :
    ixfdCommonsockAcceptCb sock (strip s) fd mallocOk =
      strip (ixfdCommonsockAcceptCb sock s fd mallocOk) := by
  have hctx : stripCtx (ixfdCommonsockCreateCtx sock fd mallocOk) =
      ixfdCommonsockCreateCtx sock fd mallocOk := by
    have hempty := createCtx_bufWrite sock fd mallocOk
    rw [stripCtx, ← hempty]
  unfold ixfdCommonsockAcceptCb
  split
  · rw [strip_withStack, strip_setConn, hctx]
    rfl
  · rw [strip_setConn]
    have hactive : stripCtx
        (activateCtx (ixfdCommonsockCreateCtx sock fd mallocOk)) =
          activateCtx (ixfdCommonsockCreateCtx sock fd mallocOk) := by
      rw [← hctx]
      rfl
    rw [hactive]
    rfl

theorem strip_afterCallback (s : Net) :
    afterCallback (strip s) = (afterCallback s).map strip := by
  unfold afterCallback
  rw [strip_stack]
  split
  case h_1 => rfl
  case h_2 => rfl
  case h_3 _ c stack _ =>
      rw [strip_conns]
      cases s.conns c with
      | none => rfl
      | some ctx =>
          simp only [Option.map_some, strip_setConn]
          rfl
  case h_4 => rfl
  case h_5 _ c stack _ =>
      rw [strip_conns]
      cases s.conns c with
      | none => rfl
      | some ctx =>
          simp only [Option.map_some, Option.some.injEq]
          exact strip_close (s.withStack stack) c ctx
  case h_6 => rfl

end Strip

/-! ## Steps that do not use a queue -/

/-- The label neither makes a queue nor looks at one. -/
def Label.plain : Label → Bool
  | .write _ _ _ _ _ => false
  | .accept _ _ => false
  | .drainWrite _ => false
  | .drainEnd => false
  | _ => true

section Plain

variable {sock : IxfdSock} {s t : Net} {l : Label}

theorem strip_step (sock : IxfdSock) (s : Net) (hl : l.plain = true) :
    step sock (strip s) l = (step sock s l).map strip := by
  cases l with
  | write c data cb args ret => cases hl
  | accept fd mallocOk => cases hl
  | drainWrite ret => cases hl
  | drainEnd => cases hl
  | read c len ret =>
      exact onConn_strip (fun _ => rfl) (fun ctx => strip_read s c ctx ret)
  | close c =>
      exact onConn_strip (fun _ => rfl) (fun ctx => strip_close s c ctx)
  | setBufreadLen c len mallocOk =>
      apply onConn_strip (fun _ => rfl)
      intro ctx
      rw [strip_setConn]
      cases mallocOk <;> rfl
  | callbackReturns => exact strip_afterCallback s
  | readReady c ret =>
      exact onConn_strip (fun _ => rfl)
        (fun ctx => strip_readCb sock s c ctx ret)
  | writeReady c => exact onConn_strip (fun _ => rfl) (fun _ => rfl)

theorem nextConn_afterCallback (h : afterCallback s = some t) :
    t.nextConn = s.nextConn := by
  unfold afterCallback at h
  split at h
  case h_1 =>
      cases h
      rfl
  case h_2 =>
      cases h
      rfl
  case h_3 =>
      obtain ⟨ctx, _, rfl⟩ := Option.map_eq_some_iff.mp h
      rfl
  case h_4 =>
      cases h
      rfl
  case h_5 =>
      obtain ⟨ctx, _, rfl⟩ := Option.map_eq_some_iff.mp h
      rfl
  case h_6 => cases h

theorem nextConn_plain
    (hl : l.plain = true) (h : step sock s l = some t) :
    t.nextConn = s.nextConn := by
  cases l with
  | write c data cb args ret => cases hl
  | accept fd mallocOk => cases hl
  | drainWrite ret => cases hl
  | drainEnd => cases hl
  | read c len ret =>
      obtain ⟨ctx, _, _, rfl⟩ := onConn_eq_some h
      unfold ixfdCommonsockRead
      split <;> rfl
  | close c =>
      obtain ⟨ctx, _, _, rfl⟩ := onConn_eq_some h
      rfl
  | setBufreadLen c len mallocOk =>
      obtain ⟨ctx, _, _, rfl⟩ := onConn_eq_some h
      rfl
  | callbackReturns => exact nextConn_afterCallback h
  | readReady c ret =>
      obtain ⟨ctx, _, _, rfl⟩ := onConn_eq_some h
      unfold ixfdCommonsockReadCb
      repeat' split
      all_goals rfl
  | writeReady c =>
      obtain ⟨ctx, _, _, rfl⟩ := onConn_eq_some h
      rfl

theorem quiet_of_plain
    (hk : Known s) (hl : l.plain = true) (h : step sock s l = some t) :
    QuietStep s t := by
  rcases step_cases hk h with
    ⟨c, data, cb, args, ret, ctx, rfl, _⟩ |
    ⟨ret, c, stack, ctx, w, rest, rfl, _⟩ |
    ⟨_, _, hquiet⟩
  · cases hl
  · cases hl
  · exact hquiet

theorem heapStep_plain
    (sock : IxfdSock) (m : HeapNet) {l : HeapLabel}
    (hl : l.base.plain = true) :
    heapStep sock m l =
      (step sock m.net l.base).map fun net => { m with net := net } := by
  obtain ⟨base, first, second⟩ := l
  cases base with
  | write c data cb args ret => cases hl
  | accept fd mallocOk => cases hl
  | drainWrite ret => cases hl
  | drainEnd => cases hl
  | _ => rfl

end Plain

/-! ## The numbers of the queued calls -/

/-- No two queued writes have the same number, and new numbers are not used. -/
structure Distinct (s : Net) : Prop where
  made : ∀ c, ∀ w ∈ queue s c, w.call < s.calls
  nodup : ∀ c, ((queue s c).map IxfdSockWriteCtx.call).Nodup
  apart : ∀ c d, c ≠ d → ∀ w ∈ queue s c, ∀ v ∈ queue s d, w.call ≠ v.call

section Numbers

variable {s t : Net}

theorem distinct_init :
    Distinct .init where
  made := by simp [queue, Net.init]
  nodup := by simp [queue, Net.init]
  apart := by simp [queue, Net.init]

/-- Queues that only lose numbers. -/
theorem Distinct.sub
    (h : Distinct s) (hcalls : s.calls ≤ t.calls)
    (hsub : ∀ c, List.Sublist ((queue t c).map IxfdSockWriteCtx.call)
      ((queue s c).map IxfdSockWriteCtx.call)) :
    Distinct t := by
  have hmem : ∀ c, ∀ w ∈ queue t c, ∃ v ∈ queue s c, v.call = w.call := by
    intro c w hw
    exact List.mem_map.mp ((hsub c).subset (List.mem_map_of_mem hw))
  constructor
  · intro c w hw
    obtain ⟨v, hv, heq⟩ := hmem c w hw
    rw [← heq]
    exact lt_of_lt_of_le (h.made c v hv) hcalls
  · intro c
    exact (h.nodup c).sublist (hsub c)
  · intro c d hcd w hw v hv
    obtain ⟨w', hw', hweq⟩ := hmem c w hw
    obtain ⟨v', hv', hveq⟩ := hmem d v hv
    rw [← hweq, ← hveq]
    exact h.apart c d hcd w' hw' v' hv'

theorem distinct_quiet (h : Distinct s) (hq : QuietStep s t) :
    Distinct t := by
  apply h.sub hq.calls.ge
  intro c
  rw [hq.queue c]

theorem distinct_write
    (h : Distinct s) {c : Nat} {ctx : IxfdConnCtx}
    (hc : s.conns c = some ctx) (data : Buffer) (cb : Option Nat)
    (args : Nat) (ret : Int) :
    Distinct (ixfdCommonsockWrite s c ctx data cb args ret) := by
  have hcalls : (ixfdCommonsockWrite s c ctx data cb args ret).calls =
      s.calls + 1 := calls_write data cb args ret
  have hqueue := queue_write hc data cb args ret
  generalize ixfdCommonsockWrite s c ctx data cb args ret = t at *
  by_cases hlt : toSizeT ret < data.bytes.length
  · have hself : queue t c =
        queue s c ++ [.ofCall s.calls data (toSizeT ret) hlt cb] := by
      simp [hqueue, hlt]
    have hother : ∀ d, d ≠ c → queue t d = queue s d := by
      intro d hd
      simp [hqueue, hd.symm]
    -- the new number is larger than all that are queued
    have hnew : ∀ d, ∀ w ∈ queue s d, w.call ≠ s.calls := by
      intro d w hw
      exact Nat.ne_of_lt (h.made d w hw)
    constructor
    · intro d w hw
      rw [hcalls]
      by_cases hd : d = c
      · subst hd
        rw [hself, List.mem_append, List.mem_singleton] at hw
        rcases hw with hw | rfl
        · exact Nat.lt_succ_of_lt (h.made d w hw)
        · exact Nat.lt_succ_self _
      · rw [hother d hd] at hw
        exact Nat.lt_succ_of_lt (h.made d w hw)
    · intro d
      by_cases hd : d = c
      · subst hd
        rw [hself, List.map_append, List.nodup_append]
        refine ⟨h.nodup d, List.nodup_singleton _, ?_⟩
        intro x hx y hy
        obtain ⟨w, hw, rfl⟩ := List.mem_map.mp hx
        rw [List.map_singleton, List.mem_singleton] at hy
        rw [hy]
        exact hnew d w hw
      · rw [hother d hd]
        exact h.nodup d
    · intro d e hde w hw v hv
      by_cases hd : d = c
      · subst hd
        rw [hother e hde.symm] at hv
        rw [hself, List.mem_append, List.mem_singleton] at hw
        rcases hw with hw | rfl
        · exact h.apart d e hde w hw v hv
        · exact (hnew e v hv).symm
      · rw [hother d hd] at hw
        by_cases he : e = c
        · subst he
          rw [hself, List.mem_append, List.mem_singleton] at hv
          rcases hv with hv | rfl
          · exact h.apart d e hde w hw v hv
          · exact hnew d w hw
        · rw [hother e he] at hv
          exact h.apart d e hde w hw v hv
  · apply h.sub (by omega)
    intro d
    simp [hqueue, hlt]

theorem distinct_writeCbIter
    (h : Distinct s) {c : Nat} {ctx : IxfdConnCtx}
    (hc : s.conns c = some ctx) {w : IxfdSockWriteCtx}
    {rest : List IxfdSockWriteCtx} (hq : ctx.bufWrite = w :: rest)
    (ret : Int) :
    Distinct (ixfdCommonsockWriteCbIter s c ctx w rest ret) := by
  apply h.sub (calls_writeCbIter w rest ret).ge
  intro d
  rw [queue_writeCbIter]
  by_cases hd : c = d
  · subst hd
    rw [queue_of_conns hc, hq, if_pos rfl]
    split <;> simp
  · rw [if_neg hd]

theorem distinct_step
    {sock : IxfdSock} {l : Label} (hk : Known s) (h : Distinct s)
    (ht : step sock s l = some t) :
    Distinct t := by
  rcases step_cases hk ht with
    ⟨c, data, cb, args, ret, ctx, rfl, hc, _, rfl⟩ |
    ⟨ret, c, stack, ctx, w, rest, rfl, _, hc, hq, _, rfl⟩ |
    ⟨_, _, hquiet⟩
  · exact distinct_write h hc data cb args ret
  · exact distinct_writeCbIter h hc hq ret
  · exact distinct_quiet h hquiet

end Numbers

end Sock
end Iojxd
