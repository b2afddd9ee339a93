import Iojxd.WaitStatus

/-!
# The end of a child process

A child ends by an exit with a code or by a signal, with or without a core dump;
the kernel packs this into the raw wait status.  The event loop stores pid and
raw status in every watcher of the child, and two interfaces hand them on: the
callback of `ixut_spawn_process` through an `ixc_termcb_args`, and
`ixut_childw_getstatus` as a decoded record.
-/

namespace Iojxd
namespace ChildTermination

open WaitStatus

/-- A signal that can terminate a process. -/
structure Signal where
  number : Nat
  pos : 0 < number
  lt : number < 127
deriving DecidableEq

def SIGABRT : Signal := ⟨6, by decide, by decide⟩
def SIGKILL : Signal := ⟨9, by decide, by decide⟩
def SIGSEGV : Signal := ⟨11, by decide, by decide⟩

/-- How a child ends. -/
inductive ChildEnd where
  | exited (code : BitVec 8)
  | signaled (sig : Signal) (core : Bool)
deriving DecidableEq

namespace ChildEnd

/-- The raw wait status. -/
def raw : ChildEnd → Word
  | .exited code => code.setWidth 32 <<< 8
  | .signaled sig core =>
      BitVec.ofNat 32 (sig.number + if core then 128 else 0)

/-- The child ended by an exit. -/
def Exits (e : ChildEnd) : Prop :=
  ∃ code, e = .exited code

/-- The child was terminated by a signal. -/
def Signaled (e : ChildEnd) : Prop :=
  ∃ sig core, e = .signaled sig core

theorem not_exits_iff (e : ChildEnd) :
    ¬ e.Exits ↔ e.Signaled := by
  cases e with
  | exited code => simp [Exits, Signaled]
  | signaled sig core => simp [Exits, Signaled]

end ChildEnd

/-! ## Reading the packed word -/

theorem wexitstatus_eq (status : Word) :
    wexitstatus status = status.toNat / 256 % 256 := by
  have hshift : (status.toNat &&& 0xff00) >>> 8 =
      status.toNat >>> 8 &&& 0xff := by
    rw [Nat.shiftRight_and_distrib]
    rfl
  simp only [wexitstatus, BitVec.toNat_ushiftRight, BitVec.toNat_and,
    BitVec.toNat_ofNat]
  rw [show 65280 % 2 ^ 32 = 0xff00 by decide, hshift,
    Nat.shiftRight_eq_div_pow]
  exact Nat.and_two_pow_sub_one_eq_mod _ 8

theorem toNat_raw_exited (code : BitVec 8) :
    (ChildEnd.exited code).raw.toNat = code.toNat * 256 := by
  have hlt := code.isLt
  simp only [ChildEnd.raw, BitVec.toNat_shiftLeft, BitVec.toNat_setWidth,
    Nat.shiftLeft_eq]
  omega

theorem toNat_raw_signaled (sig : Signal) (core : Bool) :
    (ChildEnd.signaled sig core).raw.toNat =
      sig.number + if core then 128 else 0 := by
  have hlt := sig.lt
  simp only [ChildEnd.raw, BitVec.toNat_ofNat]
  split <;> omega

@[simp] theorem wtermsig_exited (code : BitVec 8) :
    wtermsig (ChildEnd.exited code).raw = 0 := by
  rw [wtermsig_eq_mod, toNat_raw_exited]
  omega

@[simp] theorem wtermsig_signaled (sig : Signal) (core : Bool) :
    wtermsig (ChildEnd.signaled sig core).raw = sig.number := by
  have hlt := sig.lt
  rw [wtermsig_eq_mod, toNat_raw_signaled]
  split <;> omega

@[simp] theorem wexitstatus_exited (code : BitVec 8) :
    wexitstatus (ChildEnd.exited code).raw = code.toNat := by
  have hlt := code.isLt
  rw [wexitstatus_eq, toNat_raw_exited]
  omega

/-- The exit code field of a termination by a signal is zero. -/
@[simp] theorem wexitstatus_signaled (sig : Signal) (core : Bool) :
    wexitstatus (ChildEnd.signaled sig core).raw = 0 := by
  have hlt := sig.lt
  rw [wexitstatus_eq, toNat_raw_signaled]
  split <;> omega

theorem wifexited_raw_iff (e : ChildEnd) :
    wifexited e.raw = true ↔ e.Exits := by
  cases e with
  | exited code => simp [wifexited_iff, ChildEnd.Exits]
  | signaled sig core =>
      have hpos := sig.pos
      rw [wifexited_iff, wtermsig_signaled]
      simp only [ChildEnd.Exits, reduceCtorEq, exists_false, iff_false]
      omega

theorem wifsignaled_raw_iff (e : ChildEnd) :
    wifsignaled e.raw = true ↔ e.Signaled := by
  cases e with
  | exited code => simp [wifsignaled_iff, ChildEnd.Signaled]
  | signaled sig core =>
      have hpos := sig.pos
      have hlt := sig.lt
      rw [wifsignaled_iff, wtermsig_signaled]
      simp only [ChildEnd.Signaled, ChildEnd.signaled.injEq, exists_and_left,
        exists_eq', and_true, iff_true]
      omega

/-- A child that has ended is not stopped. -/
theorem not_wifstopped_raw (e : ChildEnd) :
    wifstopped e.raw = false := by
  by_contra hne
  obtain ⟨hexit, hterm⟩ :=
    not_ended_of_wifstopped (Bool.eq_true_of_not_eq_false hne)
  cases e with
  | exited code =>
      have hyes := (wifexited_raw_iff (.exited code)).mpr ⟨code, rfl⟩
      rw [hyes] at hexit
      cases hexit
  | signaled sig core =>
      have hyes :=
        (wifsignaled_raw_iff (.signaled sig core)).mpr ⟨sig, core, rfl⟩
      rw [hyes] at hterm
      cases hterm

/-! ## Watchers and what they report -/

/-- The fields of a libev `ev_child`: the awaited pid, and pid and raw status of
the child that ended. -/
structure EvChild where
  pid : Int
  rpid : Int
  rstatus : Word
deriving DecidableEq

/-- `ev_child_set`. -/
def evChildSet (pid : Int) : EvChild where
  pid := pid
  rpid := 0
  rstatus := 0

/-- The event loop has waited for a child. -/
def childReap (w : EvChild) (pid : Int) (status : Word) : EvChild :=
  if w.pid = pid ∨ w.pid = 0 then { w with rpid := pid, rstatus := status }
  else w

/-- `ixc_termcb_args`, without the callback. -/
structure IxcTermcbArgs where
  data : Nat
  pid : Int
  status : Word
  termSignal : Nat

/-- What `ixc_add_termcb` puts into the block that it has cleared. -/
def ixcAddTermcb (pid : Int) (data : Nat) : IxcTermcbArgs where
  data := data
  pid := pid
  status := 0
  termSignal := 0

/-- `ixcb_child_terminated_ev` up to its callback. -/
def ixcbChildTerminatedEv (w : EvChild) (args : IxcTermcbArgs) :
    IxcTermcbArgs :=
  { args with
    pid := w.rpid
    status := w.rstatus }

/-- The arguments of the Lua function given to `spawn_process`. -/
structure SpawnReport where
  pid : Int
  status : Word
  termSignal : Nat
deriving DecidableEq

/-- The callback of `ixlb_spawn_process`; `isNil` says that the Lua value is
nil. -/
def ixlbSpawnProcessCallback (isNil : Bool) (args : IxcTermcbArgs) :
    Option SpawnReport :=
  if isNil then none else some ⟨args.pid, args.status, args.termSignal⟩

/-- `ixut_child_exitstatus`. -/
structure IxutChildExitstatus where
  statusRaw : Word
  status : Nat
  exitCause : Nat
  termSig : Nat
deriving DecidableEq

/-- `ixut_childw_getstatus`. -/
def ixutChildwGetstatus (event : EvChild) : IxutChildExitstatus :=
  let raw := event.rstatus
  let status : IxutChildExitstatus :=
    { statusRaw := raw
      status := wexitstatus raw
      exitCause := 0
      termSig := wtermsig raw }
  let status := if wifexited raw then { status with exitCause := 0 } else status
  let status :=
    if wifsignaled raw then { status with exitCause := 1 } else status
  if wifstopped raw then { status with exitCause := 2 } else status

/-- What a spawned child reports at its end. -/
def spawnReport (pid : Int) (data : Nat) (e : ChildEnd) : Option SpawnReport :=
  ixlbSpawnProcessCallback false
    (ixcbChildTerminatedEv (childReap (evChildSet pid) pid e.raw)
      (ixcAddTermcb pid data))

/-- What the watcher of a child reports at its end. -/
def watcherReport (pid : Int) (e : ChildEnd) : IxutChildExitstatus :=
  ixutChildwGetstatus (childReap (evChildSet pid) pid e.raw)

/-- The record of a child that has ended. -/
theorem watcherReport_eq (pid : Int) (e : ChildEnd) :
    watcherReport pid e =
      { statusRaw := e.raw
        status := wexitstatus e.raw
        exitCause := if wifsignaled e.raw then 1 else 0
        termSig := wtermsig e.raw } := by
  have hstop := not_wifstopped_raw e
  simp only [watcherReport, childReap, evChildSet, true_or, if_true,
    ixutChildwGetstatus, hstop, Bool.false_eq_true, if_false, ite_self]
  split <;> rfl

theorem spawnReport_eq (pid : Int) (data : Nat) (e : ChildEnd) :
    spawnReport pid data e = some ⟨pid, e.raw, 0⟩ := by
  simp [spawnReport, ixlbSpawnProcessCallback, ixcbChildTerminatedEv, childReap,
    evChildSet, ixcAddTermcb]

/-- The record tells exits from terminations by a signal. -/
theorem exitCause_iff (pid : Int) (e : ChildEnd) :
    ((watcherReport pid e).exitCause = 0 ↔ e.Exits) ∧
      ((watcherReport pid e).exitCause = 1 ↔ e.Signaled) := by
  rw [watcherReport_eq]
  cases hterm : wifsignaled e.raw with
  | true =>
      have hsig := (wifsignaled_raw_iff e).mp hterm
      have hexit : ¬ e.Exits := (ChildEnd.not_exits_iff e).mpr hsig
      simp [hsig, hexit]
  | false =>
      have hsig : ¬ e.Signaled := by
        rw [← wifsignaled_raw_iff, hterm]
        simp
      have hexit : e.Exits := by
        by_contra hne
        exact hsig ((ChildEnd.not_exits_iff e).mp hne)
      simp [hsig, hexit]

/-- Both interfaces give the same raw status and the same termination signal,
and the record tells exits from terminations by a signal. -/
def InterfacesAgree (pid : Int) (data : Nat) (e : ChildEnd) : Prop :=
  ∃ report, spawnReport pid data e = some report ∧
    report.pid = pid ∧
    report.status = (watcherReport pid e).statusRaw ∧
    report.termSignal = (watcherReport pid e).termSig ∧
    ((watcherReport pid e).exitCause = 0 ↔ e.Exits) ∧
    ((watcherReport pid e).exitCause = 1 ↔ e.Signaled)

/-- **Agreement of the two interfaces**: nothing ever sets `term_signal`, so they
agree exactly on children that exit. -/
theorem interfaces_agree_iff (pid : Int) (data : Nat) (e : ChildEnd) :
    InterfacesAgree pid data e ↔ e.Exits := by
  constructor
  · rintro ⟨report, hreport, _, _, hsig, _⟩
    rw [spawnReport_eq] at hreport
    cases hreport
    rw [watcherReport_eq] at hsig
    exact (wifexited_raw_iff e).mp ((wifexited_iff e.raw).mpr hsig.symm)
  · intro hexit
    have hterm := (wifexited_iff e.raw).mp ((wifexited_raw_iff e).mpr hexit)
    refine ⟨⟨pid, e.raw, 0⟩, spawnReport_eq pid data e, rfl, ?_, ?_,
      exitCause_iff pid e⟩
    · rw [watcherReport_eq]
    · rw [watcherReport_eq, hterm]

/-- A child killed by SIGSEGV: the callback is told signal 0, the record says
11. -/
theorem spawn_hides_signal :
    ¬ InterfacesAgree 100 0 (.signaled SIGSEGV false) ∧
      spawnReport 100 0 (.signaled SIGSEGV false) = some ⟨100, 11, 0⟩ ∧
      watcherReport 100 (.signaled SIGSEGV false) = ⟨11, 0, 1, 11⟩ := by
  refine ⟨?_, by decide, by decide⟩
  rintro ⟨report, hreport, _, _, hsig, _⟩
  rw [spawnReport_eq] at hreport
  cases hreport
  revert hsig
  decide

end ChildTermination
end Iojxd
