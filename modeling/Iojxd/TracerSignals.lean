import Iojxd.ChildTermination
import Iojxd.TracerClassification

/-!
# Signals of the tracee

A stop of the tracee is a syscall stop, which shows SIGTRAP, or the delivery of
a signal, which shows that signal; at a delivery the tracer decides with the
data argument of its next ptrace call whether the signal gets through.
`evaluate_tracer` tells only SIGPROF from the others: every other stop is taken
for a system call, and `lutil.ptrace` passes no signal on.
-/

namespace Iojxd
namespace Tracer

open WaitStatus InputLoop ChildTermination

/-- `SIGTRAP`. -/
def SIGTRAP : Nat := 5

/-! ## Stops and runs -/

/-- A stop of the tracee: the signal it shows and the value of `orig_rax`. -/
structure TraceeStop where
  signal : Nat
  pos : 0 < signal
  lt : signal < 256
  origRax : BitVec 64
  rusage : Rusage

namespace TraceeStop

/-- The wait status of a stop. -/
def status (stop : TraceeStop) : Word :=
  BitVec.ofNat 32 (stop.signal * 256 + 127)

/-- What `wait4` reports. -/
def report (stop : TraceeStop) : Wait4 :=
  .reported ⟨stop.status, stop.rusage, stop.origRax⟩

theorem toNat_status (stop : TraceeStop) :
    stop.status.toNat = stop.signal * 256 + 127 := by
  have hlt := stop.lt
  rw [status, BitVec.toNat_ofNat]
  omega

theorem wifstopped_report (stop : TraceeStop) :
    wifstopped (statusWord stop.report) = true := by
  change wifstopped stop.status = true
  rw [wifstopped_iff, toNat_status]
  omega

theorem wstopsig_report (stop : TraceeStop) :
    wstopsig (statusWord stop.report) = stop.signal := by
  have hlt := stop.lt
  change wexitstatus stop.status = stop.signal
  rw [wexitstatus_eq, toNat_status]
  omega

/-- Only a stop that shows SIGPROF ends the loop. -/
theorem endsLoop_report (stop : TraceeStop) :
    endsLoop stop.report = (stop.signal == SIGPROF) := by
  have hstop := stop.wifstopped_report
  obtain ⟨hexit, hterm⟩ := not_ended_of_wifstopped hstop
  simp [endsLoop, hexit, hterm, hstop, wstopsig_report]

theorem judgedStop_report
    {stop : TraceeStop} (h : stop.signal ≠ SIGPROF) :
    judgedStop stop.report = true := by
  have hstop := stop.wifstopped_report
  simp [judgedStop, hstop, wstopsig_report, h]

end TraceeStop

/-- The stops of a tracee, and its end when there is one. -/
def waitResults (stops : List TraceeStop) (ending : Option (ChildEnd × Rusage)) :
    List Wait4 :=
  stops.map TraceeStop.report ++
    ending.toList.map fun e => Wait4.reported ⟨e.1.raw, e.2, 0⟩

/-- The stops that are answered with a request: those before the first that
shows SIGPROF. -/
def answered (stops : List TraceeStop) : List TraceeStop :=
  stops.takeWhile fun stop => stop.signal != SIGPROF

theorem ne_SIGPROF_of_answered
    {stops : List TraceeStop} {stop : TraceeStop} (h : stop ∈ answered stops) :
    stop.signal ≠ SIGPROF := by
  simpa using List.mem_takeWhile_imp h

theorem judgedStop_of_answered
    {stops : List TraceeStop} {w : Wait4}
    (h : w ∈ (answered stops).map TraceeStop.report) :
    judgedStop w = true := by
  obtain ⟨stop, hstop, rfl⟩ := List.mem_map.mp h
  exact TraceeStop.judgedStop_report (ne_SIGPROF_of_answered hstop)

/-- A split of the answered stops is a split of all stops. -/
theorem eq_of_answered_eq
    {stops pre post : List TraceeStop} {stop : TraceeStop}
    (h : answered stops = pre ++ stop :: post) :
    ∃ later, stops = pre ++ stop :: later := by
  have happend : answered stops ++
      stops.dropWhile (fun stop => stop.signal != SIGPROF) = stops :=
    List.takeWhile_append_dropWhile
  rw [h, List.append_assoc, List.cons_append] at happend
  exact ⟨_, happend.symm⟩

theorem endsLoop_ending (e : ChildEnd) (rusage : Rusage)
    (origRax : BitVec 64) :
    endsLoop (.reported ⟨e.raw, rusage, origRax⟩) = true := by
  have hends : wifexited e.raw = true ∨ wifsignaled e.raw = true := by
    rw [wifexited_raw_iff, wifsignaled_raw_iff, ← ChildEnd.not_exits_iff]
    exact Classical.em _
  rcases hends with h | h
  · simp [endsLoop, statusWord, h]
  · simp [endsLoop, statusWord, h]

/-- What is read before the loop ends are the answered stops. -/
theorem beforeEnd_waitResults
    (stops : List TraceeStop) (ending : Option (ChildEnd × Rusage)) :
    beforeEnd endsLoop (waitResults stops ending) =
      (answered stops).map TraceeStop.report := by
  induction stops with
  | nil =>
      cases ending with
      | none => rfl
      | some e => simp [waitResults, beforeEnd, answered, endsLoop_ending]
  | cons stop stops ih =>
      have hends := stop.endsLoop_report
      by_cases hprof : stop.signal = SIGPROF
      · simp [waitResults, beforeEnd, answered, hends, hprof]
      · have hnot : (stop.signal == SIGPROF) = false := by simpa using hprof
        have hcons : waitResults (stop :: stops) ending =
            stop.report :: waitResults stops ending := by
          rfl
        have htake : answered (stop :: stops) = stop :: answered stops := by
          simp [answered, hprof]
        rw [hcons, htake, List.map_cons, ← ih, beforeEnd, List.takeWhile_cons]
        simp [beforeEnd, hends, hnot]

/-! ## Requests that resume -/

/-- The arguments of `ptrace(2)`; the pointer `data` of a resuming request is a
signal number. -/
structure PtraceCall where
  request : PtraceRequest
  pid : Int
  addr : Nat
  data : Nat
deriving DecidableEq

/-- `lutil.ptrace`. -/
def lutilPtrace (request : PtraceRequest) (pid : Int) : PtraceCall where
  request := request
  pid := pid
  addr := 0
  data := 0

/-- The calls among the events that let the tracee go on. -/
def resumptions (es : List TracerEvent) : List PtraceCall :=
  (requests es).filterMap fun r =>
    if r.1 = .PTRACE_SYSCALL then some (lutilPtrace r.1 r.2) else none

section Signals

variable (env : TracerEnv)

/-- At a stop that the tracer answers, a resuming call carries no signal. -/
theorem resumptions_answer
    {pre : List Wait4} {s : TracerState} {w : Wait4}
    (hs : (evaluateTracer env pre).state = some s)
    (h : judgedStop w = true) :
    resumptions (answer env s w) = [] ∨
      (resumptions (answer env s w)).map PtraceCall.data = [0] := by
  rw [resumptions, requests_answer_judgedStop env hs h]
  unfold answerDue
  split
  · exact Or.inr rfl
  · split
    · exact Or.inr rfl
    · exact Or.inl rfl

theorem state_of_answered
    {stops pre : List TraceeStop} (h : ∀ stop ∈ pre, stop ∈ answered stops) :
    (evaluateTracer env (pre.map TraceeStop.report)).state =
      some (stateAfter env
        ((pre.map TraceeStop.report).map (stopName env))) := by
  apply state_of_stops
  intro w hw
  obtain ⟨stop, hstop, rfl⟩ := List.mem_map.mp hw
  exact TraceeStop.judgedStop_report (ne_SIGPROF_of_answered (h stop hstop))

/-! ## The reported name -/

theorem invalidCallLog_injective {name name' : LuaString}
    (h : invalidCallLog name = invalidCallLog name') :
    name = name' :=
  List.append_cancel_left (List.append_cancel_right h)

theorem log_of_signaledBranch
    {status : Option LuaString} {termsig : Nat} {time : ℚ} {mem : Int}
    {r : StatusRecord} {log : LuaString}
    (hr : r ∈ results (signaledBranch env status termsig time mem))
    (hlog : r.log = some log) :
    ∃ name, status = some name ∧ log = invalidCallLog name := by
  by_cases hsegv : termsig = SIGSEGV
  · simp only [signaledBranch, hsegv, if_true, results_writeStatus,
      List.mem_singleton] at hr
    subst hr
    cases hlog
  · by_cases hprof : termsig = SIGPROF
    · simp [signaledBranch, hprof, SIGPROF, SIGSEGV, SIGKILL] at hr
      subst hr
      cases hlog
    · by_cases hkill : termsig = SIGKILL
      · cases status with
        | none =>
            simp [signaledBranch, hkill, SIGPROF, SIGSEGV, SIGKILL] at hr
            subst hr
            cases hlog
        | some name =>
            simp [signaledBranch, hkill, SIGPROF, SIGSEGV, SIGKILL] at hr
            subst hr
            exact ⟨name, rfl, (Option.some.inj hlog).symm⟩
      · simp [signaledBranch, hsegv, hprof, hkill] at hr

/-- A result with a log names the call that the loop state remembers. -/
theorem log_of_result
    {s : TracerState} {w : Wait4} {r : StatusRecord} {log : LuaString}
    (hr : r ∈ results (evaluateTracerBody env s w).1)
    (hlog : r.log = some log) :
    ∃ name, s.status = some name ∧ log = invalidCallLog name := by
  cases hend : endsLoop w with
  | false =>
      rw [results_body_of_not_ends env s hend] at hr
      cases hr
  | true =>
      rcases endsLoop_cases hend with hexit | hterm | ⟨hstop, hsig⟩
      · rw [body_exited env s hexit, results_waited, exitedBranch,
          results_forked] at hr
        cases hdiff : env.diff with
        | none => simp [hdiff] at hr
        | some d =>
            simp only [hdiff, diffCallback] at hr
            cases hsize : d.size with
            | none => simp [hsize, results] at hr
            | some size =>
                simp only [hsize] at hr
                split at hr
                · rw [results_writeStatus, List.mem_singleton] at hr
                  subst hr
                  cases hlog
                · rw [results_writeStatus, List.mem_singleton] at hr
                  subst hr
                  cases hlog
      · rw [body_signaled env s hterm, results_waited] at hr
        exact log_of_signaledBranch env hr hlog
      · rw [body_profStop env s hstop hsig, results_waited, results_writeStatus,
          List.mem_singleton] at hr
        subst hr
        cases hlog

/-- An answered stop after the first whose name the tracer remembers was
answered with a kill request. -/
theorem killed_of_remembered
    {stops : List TraceeStop} {name : LuaString}
    (h : (stateAfter env
        (((answered stops).map TraceeStop.report).map (stopName env))).status =
      some name) :
    ∃ (pre : List TraceeStop) (stop : TraceeStop) (post : List TraceeStop)
      (s : TracerState), stops = pre ++ stop :: post ∧
      stop ∈ answered stops ∧
      (evaluateTracer env (pre.map TraceeStop.report)).state = some s ∧
      (PtraceRequest.PTRACE_KILL, env.pid) ∈
        requests (answer env s stop.report) ∧
      env.syscallName stop.origRax = name := by
  have hmem := List.mem_of_getLast? h
  rw [List.mem_filter] at hmem
  obtain ⟨htail, hforbidden⟩ := hmem
  cases hstops : answered stops with
  | nil =>
      rw [hstops] at htail
      cases htail
  | cons first rest =>
      rw [hstops, List.map_cons, List.map_cons, List.tail_cons, List.map_map,
        List.mem_map] at htail
      obtain ⟨stop, hstop, hname⟩ := htail
      obtain ⟨mid, post, rfl⟩ := List.append_of_mem hstop
      have hin : ∀ x ∈ first :: mid, x ∈ answered stops := by
        intro x hx
        rw [hstops]
        simp only [List.mem_cons, List.mem_append] at hx ⊢
        tauto
      have hstop' : stop ∈ answered stops := by
        rw [hstops]
        simp
      have hs := state_of_answered env hin
      have hjudged :=
        TraceeStop.judgedStop_report (ne_SIGPROF_of_answered hstop')
      obtain ⟨later, hsplit⟩ := eq_of_answered_eq
        (show answered stops = (first :: mid) ++ stop :: post from hstops)
      refine ⟨first :: mid, stop, later, _, hsplit, by simp, hs, ?_, hname⟩
      · rw [requests_answer_judgedStop env hs hjudged]
        have hfirst : judgedStop first.report = true :=
          TraceeStop.judgedStop_report
            (ne_SIGPROF_of_answered (hin first (by simp)))
        have hnot : stopName env stop.report ∉ env.args.syscallWhitelist := by
          rw [← forbidden_iff]
          rw [show stopName env stop.report = name from hname]
          exact hforbidden
        simp [answerDue, hfirst, hnot]

/-- A reported call was read at an answered stop. -/
theorem reported_answered
    {stops : List TraceeStop} {ending : Option (ChildEnd × Rusage)}
    {r : StatusRecord} {name : LuaString}
    (hr : r ∈ results (evaluateTracer env (waitResults stops ending)).effects)
    (hlog : r.log = some (invalidCallLog name)) :
    ∃ (pre : List TraceeStop) (stop : TraceeStop) (post : List TraceeStop)
      (s : TracerState), stops = pre ++ stop :: post ∧
      stop ∈ answered stops ∧
      (evaluateTracer env (pre.map TraceeStop.report)).state = some s ∧
      (PtraceRequest.PTRACE_KILL, env.pid) ∈
        requests (answer env s stop.report) ∧
      env.syscallName stop.origRax = name := by
  cases hfind : (waitResults stops ending).find? endsLoop with
  | none =>
      rw [results_of_find?_none env hfind] at hr
      cases hr
  | some e =>
      rw [results_of_find?_some env hfind] at hr
      obtain ⟨name', hstatus, heq⟩ := log_of_result env hr hlog
      have hname := invalidCallLog_injective heq
      subst hname
      have hnames : stopNames env (waitResults stops ending) =
          ((answered stops).map TraceeStop.report).map (stopName env) := by
        rw [stopNames, beforeEnd_waitResults, namesOf,
          List.filter_eq_self.mpr fun w hw => judgedStop_of_answered hw]
      rw [hnames] at hstatus
      exact killed_of_remembered env hstatus

/-- While the loop runs no stop has shown SIGPROF. -/
theorem answered_of_state
    {pre post : List TraceeStop} {stop : TraceeStop} {s : TracerState}
    (hs : (evaluateTracer env (pre.map TraceeStop.report)).state = some s)
    (hprof : stop.signal ≠ SIGPROF) :
    stop ∈ answered (pre ++ stop :: post) := by
  have hpre : ∀ x ∈ pre, (x.signal != SIGPROF) = true := by
    intro x hx
    have hends := not_ends_of_state env hs x.report (List.mem_map_of_mem hx)
    rw [TraceeStop.endsLoop_report] at hends
    simp [bne, hends]
  rw [answered, List.takeWhile_append_of_pos hpre]
  simp [hprof]

/-! ## Signals and system calls -/

/-- A forbidden system call is reported only for a name read at a syscall stop
that was answered with a kill request, and at the delivery of a signal other
than SIGPROF the tracee is resumed with that signal. -/
structure SignalsKept (stops : List TraceeStop)
    (ending : Option (ChildEnd × Rusage)) : Prop where
  reported : ∀ r ∈ results (evaluateTracer env (waitResults stops ending)).effects,
    ∀ name, r.log = some (invalidCallLog name) →
      ∃ (pre : List TraceeStop) (stop : TraceeStop) (post : List TraceeStop)
        (s : TracerState), stops = pre ++ stop :: post ∧
        stop.signal = SIGTRAP ∧
        (evaluateTracer env (pre.map TraceeStop.report)).state = some s ∧
        (PtraceRequest.PTRACE_KILL, env.pid) ∈
          requests (answer env s stop.report) ∧
        env.syscallName stop.origRax = name
  resumed : ∀ (pre : List TraceeStop) (stop : TraceeStop)
    (post : List TraceeStop) (s : TracerState), stops = pre ++ stop :: post →
    (evaluateTracer env (pre.map TraceeStop.report)).state = some s →
    stop.signal ≠ SIGTRAP → stop.signal ≠ SIGPROF →
      (resumptions (answer env s stop.report)).map PtraceCall.data =
        [stop.signal]

/-- An answered stop is resumed without a signal or not at all, so it has to be a
syscall stop. -/
theorem trap_of_signalsKept
    {stops : List TraceeStop} {ending : Option (ChildEnd × Rusage)}
    (h : SignalsKept env stops ending) :
    ∀ stop ∈ answered stops, stop.signal = SIGTRAP := by
  intro stop hstop
  by_contra htrap
  have hprof := ne_SIGPROF_of_answered hstop
  obtain ⟨pre, post, hsplit⟩ := List.append_of_mem hstop
  obtain ⟨later, hall⟩ := eq_of_answered_eq hsplit
  have hpre : ∀ x ∈ pre, x ∈ answered stops := by
    intro x hx
    rw [hsplit]
    simp [hx]
  have hs := state_of_answered env hpre
  have hdata := h.resumed pre stop later _ hall hs htrap hprof
  have hpos := stop.pos
  rcases resumptions_answer env hs (TraceeStop.judgedStop_report hprof) with
    hnone | hzero
  · rw [hnone] at hdata
    cases hdata
  · rw [hzero] at hdata
    have hsignal := (List.cons.inj hdata).1
    omega

/-- **Signals are not mistaken for system calls**, with the condition under which
the code keeps to it: every stop before the first that shows SIGPROF is a
syscall stop.  Otherwise the first delivery of another signal is either killed
or resumed without the signal. -/
theorem signals_kept_iff
    (stops : List TraceeStop) (ending : Option (ChildEnd × Rusage)) :
    SignalsKept env stops ending ↔
      ∀ stop ∈ stops.takeWhile (fun stop => stop.signal != SIGPROF),
        stop.signal = SIGTRAP := by
  constructor
  · exact trap_of_signalsKept env
  · intro h
    constructor
    case reported =>
        intro r hr name hlog
        obtain ⟨pre, stop, post, s, hsplit, hstop, hs, hkill, hcall⟩ :=
          reported_answered env hr hlog
        exact ⟨pre, stop, post, s, hsplit, h stop hstop, hs, hkill, hcall⟩
    case resumed =>
        intro pre stop post s hsplit hs htrap hprof
        have hstop : stop ∈ answered (pre ++ stop :: post) :=
          answered_of_state env hs hprof
        rw [← hsplit] at hstop
        exact absurd (h stop hstop) htrap

end Signals

/-! ## A fault -/

/-- The stop behind `exec`, and the delivery of SIGSEGV after a fault. -/
def execStop : TraceeStop :=
  ⟨SIGTRAP, by decide, by decide, 59, ⟨0, 0, 0, 0, 0⟩⟩

def faultStop : TraceeStop :=
  ⟨Tracer.SIGSEGV, by decide, by decide, BitVec.allOnes 64, ⟨0, 0, 0, 0, 0⟩⟩

/-- A program that faults is killed for a system call `unknown` that it never
made. -/
theorem fault_taken_for_call :
    ¬ SignalsKept (sampleEnv none) [execStop, faultStop]
        (some (.signaled ChildTermination.SIGKILL false, ⟨0, 0, 0, 0, 0⟩)) ∧
      (results (evaluateTracer (sampleEnv none)
          (waitResults [execStop, faultStop]
            (some (.signaled ChildTermination.SIGKILL false,
              ⟨0, 0, 0, 0, 0⟩)))).effects).map StatusRecord.log =
        [some (invalidCallLog (bytes "unknown"))] := by
  constructor
  · intro h
    have hdata := h.resumed [execStop] faultStop [] ⟨true, none⟩ rfl (by decide)
      (by decide) (by decide)
    revert hdata
    decide
  · decide

end Tracer
end Iojxd
