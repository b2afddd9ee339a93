import Iojxd.TracerVerdicts

/-!
# The tracee behind a run of the tracer

The events of `evaluate_tracer` determine what is known of the tracee: it runs,
it is stopped, a kill was requested after its last stop, or its end was
reported.  Tracing starts with `PTRACE_TRACEME` and without exit-kill, so a
tracee that is left running or stopped goes on without its tracer.
-/

namespace Iojxd
namespace Tracer

open WaitStatus InputLoop

/-- What the events so far say about the tracee. -/
inductive Tracee where
  | running
  | stopped
  | killRequested
  | ended
deriving DecidableEq

namespace Tracee

/-- A report of `wait4`. -/
def report (t : Tracee) (status : Word) : Tracee :=
  if wifexited status || wifsignaled status then .ended
  else if wifstopped status then .stopped
  else t

/-- One event; the end of the tracee is final. -/
def observe : Tracee → TracerEvent → Tracee
  | .ended, _ => .ended
  | t, .waited (.reported r) => t.report r.status
  | _, .ptrace .PTRACE_KILL _ => .killRequested
  | _, .ptrace .PTRACE_SYSCALL _ => .running
  | t, _ => t

/-- The tracee after a list of events. -/
def after (t : Tracee) (es : List TracerEvent) : Tracee :=
  es.foldl observe t

/-- The tracee cannot go on by itself. -/
def Safe (t : Tracee) : Prop :=
  t = .ended ∨ t = .killRequested

instance (t : Tracee) : Decidable t.Safe :=
  inferInstanceAs (Decidable (t = .ended ∨ t = .killRequested))

@[simp] theorem after_nil (t : Tracee) :
    t.after [] = t := by
  rfl

@[simp] theorem after_cons (t : Tracee) (x : TracerEvent) (es : List TracerEvent) :
    t.after (x :: es) = (t.observe x).after es := by
  rfl

@[simp] theorem after_append (t : Tracee) (es fs : List TracerEvent) :
    t.after (es ++ fs) = (t.after es).after fs := by
  exact List.foldl_append

/-- Events that are neither reports nor requests do not concern the tracee. -/
theorem after_eq_self
    {es : List TracerEvent} (t : Tracee)
    (hw : waits es = [])
    (hp : ∀ request pid, TracerEvent.ptrace request pid ∉ es) :
    t.after es = t := by
  induction es with
  | nil => rfl
  | cons x es ih =>
      have hobs : t.observe x = t := by
        cases x with
        | waited w => simp [waits] at hw
        | ptrace request pid => exact absurd (by simp) (hp request pid)
        | forked program args => cases t <;> rfl
        | writeStatus r => cases t <;> rfl
        | raised => cases t <;> rfl
      rw [after_cons, hobs]
      apply ih
      · cases x with
        | waited w => simp [waits] at hw
        | _ => simpa [waits] using hw
      · intro request pid hmem
        exact hp request pid (by simp [hmem])

end Tracee

section Lifecycle

variable (env : TracerEnv)

theorem ptrace_not_mem_writeStatus
    (r : StatusRecord) (request : PtraceRequest) (pid : Int) :
    TracerEvent.ptrace request pid ∉ writeStatus env r := by
  unfold writeStatus
  split <;> simp

theorem ptrace_not_mem_exitedBranch
    (time : ℚ) (mem : Int) (request : PtraceRequest) (pid : Int) :
    TracerEvent.ptrace request pid ∉ exitedBranch env time mem := by
  unfold exitedBranch
  cases env.diff with
  | none => simp
  | some d =>
      simp only [List.mem_cons, reduceCtorEq, false_or, diffCallback]
      cases d.size with
      | none => simp
      | some size =>
          by_cases hz : size = 0 <;> simp [hz, ptrace_not_mem_writeStatus]

theorem ptrace_not_mem_signaledBranch
    (status : Option LuaString) (termsig : Nat) (time : ℚ) (mem : Int)
    (request : PtraceRequest) (pid : Int) :
    TracerEvent.ptrace request pid ∉
      signaledBranch env status termsig time mem := by
  unfold signaledBranch
  cases status <;> split_ifs <;> simp [ptrace_not_mem_writeStatus]

/-- The requests that answer a stop: the tracee runs again, or its kill is
requested when the name is forbidden and the stop is not the first. -/
theorem after_stoppedBranch (names : List LuaString) (name : LuaString) :
    Tracee.stopped.after (stoppedBranch env (stateAfter env names) name).1 =
      if !names.isEmpty && forbidden env name then .killRequested
      else .running := by
  cases names with
  | nil => simp [stoppedBranch, stateAfter, Tracee.observe]
  | cons first rest =>
      cases hin : lutilInside env.args.syscallWhitelist name with
      | true => simp [stoppedBranch, stateAfter, forbidden, hin, Tracee.observe]
      | false => simp [stoppedBranch, stateAfter, forbidden, hin, Tracee.observe]

/-- The last name read after the first stop is forbidden. -/
def LastStopForbidden (ws : List Wait4) : Prop :=
  ∃ name, (stopNames env ws).tail.getLast? = some name ∧
    name ∉ env.args.syscallWhitelist

/-- The same as a test on the list of names. -/
def lastForbidden (names : List LuaString) : Bool :=
  names.tail.getLast?.any (forbidden env)

theorem lastStopForbidden_iff (ws : List Wait4) :
    LastStopForbidden env ws ↔ lastForbidden env (stopNames env ws) = true := by
  unfold LastStopForbidden lastForbidden
  cases (stopNames env ws).tail.getLast? with
  | none => simp
  | some name => simp [forbidden_iff]

theorem lastForbidden_snoc (names : List LuaString) (name : LuaString) :
    lastForbidden env (names ++ [name]) =
      (!names.isEmpty && forbidden env name) := by
  cases names with
  | nil => rfl
  | cons first rest => simp [lastForbidden]

theorem report_judgedStop
    {r : Report} (t : Tracee) (h : judgedStop (.reported r) = true) :
    t.report r.status = .stopped := by
  simp only [judgedStop, statusWord, Bool.and_eq_true] at h
  obtain ⟨hexit, hterm⟩ := not_ended_of_wifstopped h.1
  simp [Tracee.report, hexit, hterm, h.1]

/-- **The tracee before the end**: it runs, unless the last stop was answered
with a kill request. -/
theorem tracee_before_end
    {ws : List Wait4} (h : ∀ w ∈ ws, endsLoop w = false) :
    Tracee.running.after
        (loop (evaluateTracerBody env) TracerState.start ws).effects =
      if lastForbidden env (namesOf env ws) then .killRequested
      else .running := by
  induction ws using List.reverseRecOn with
  | nil => rfl
  | append_singleton ws w ih =>
      have hmem : ∀ v ∈ ws, endsLoop v = false := fun v hv => h v (by simp [hv])
      have hw : endsLoop w = false := h w (by simp)
      have hstate := loop_state env hmem
      obtain ⟨r, rfl⟩ : ∃ r, w = .reported r := by
        cases w with
        | failed => simp [endsLoop_failed] at hw
        | reported r => exact ⟨r, rfl⟩
      rw [loop_append _ [.reported r] hstate, namesOf_snoc]
      simp only [LoopRun.prepend, Tracee.after_append, ih hmem]
      cases hstop : judgedStop (.reported r) with
      | true =>
          have hb := body_judgedStop env (stateAfter env (namesOf env ws)) hstop
          rw [loop_cons_next (t := (stoppedBranch env
            (stateAfter env (namesOf env ws))
            (stopName env (.reported r))).2) _ _ (by rw [hb])]
          simp only [LoopRun.prepend, loop, List.append_nil, hb,
            Tracee.after_cons, if_true, lastForbidden_snoc]
          have hobs : ∀ t : Tracee, t ≠ .ended →
              t.observe (.waited (.reported r)) = .stopped := by
            intro t ht
            have := report_judgedStop t hstop
            cases t with
            | ended => exact absurd rfl ht
            | _ => exact this
          rw [hobs _ (by split <;> simp)]
          exact after_stoppedBranch env _ _
      | false =>
          have hb := body_ignored env (stateAfter env (namesOf env ws)) hw hstop
          rw [loop_cons_next (t := stateAfter env (namesOf env ws)) _ _ (by rw [hb])]
          have hkeep : ∀ t : Tracee,
              t.observe (.waited (.reported r)) = t := by
            intro t
            have hrep : t.report r.status = t := by
              simp only [endsLoop, statusWord, Bool.or_eq_false_iff] at hw
              obtain ⟨⟨hexit, hterm⟩, hprof⟩ := hw
              have hnot : wifstopped r.status = false := by
                by_contra hne
                have hs := Bool.eq_true_of_not_eq_false hne
                simp [judgedStop, statusWord, hs] at hstop
                simp [hs, hstop] at hprof
              simp [Tracee.report, hexit, hterm, hnot]
            cases t with
            | ended => rfl
            | _ => exact hrep
          simp only [LoopRun.prepend, loop, List.append_nil, hb,
            Tracee.after_cons, Tracee.after_nil, hkeep]
          simp

/-- The tracee after the iteration that leaves the loop. -/
theorem tracee_at_end
    {e : Wait4} (s : TracerState) (t : Tracee) (h : endsLoop e = true) :
    t.after (evaluateTracerBody env s e).1 = t.observe (.waited e) := by
  rcases endsLoop_cases h with hexit | hterm | ⟨hstop, hsig⟩
  · rw [body_exited env s hexit, Tracee.after_cons]
    exact Tracee.after_eq_self _ (waits_exitedBranch env _ _)
      (ptrace_not_mem_exitedBranch env _ _)
  · rw [body_signaled env s hterm, Tracee.after_cons]
    exact Tracee.after_eq_self _ (waits_signaledBranch env _ _ _ _)
      (ptrace_not_mem_signaledBranch env _ _ _ _)
  · rw [body_profStop env s hstop hsig, Tracee.after_cons]
    exact Tracee.after_eq_self _ (waits_writeStatus env _)
      (ptrace_not_mem_writeStatus env _)

/-- The tracee when the loop ends with the given result. -/
theorem tracee_of_find?_some
    {ws : List Wait4} {e : Wait4} (h : ws.find? endsLoop = some e) :
    Tracee.running.after (evaluateTracer env ws).effects =
      (if lastForbidden env (stopNames env ws) then Tracee.killRequested
        else .running).observe (.waited e) := by
  rw [effects_of_find?_some env h, Tracee.after_append]
  rw [tracee_before_end env fun _ hw => not_ends_of_mem_beforeEnd endsLoop hw]
  exact tracee_at_end env _ _ (List.find?_some h)

/-- A reported end other than a SIGPROF stop is the end of the tracee. -/
theorem observe_reported_end
    {r : Report} {t : Tracee} (ht : t ≠ .ended)
    (h : endsLoop (.reported r) = true) :
    (t.observe (.waited (.reported r))).Safe ↔
      wifstopped r.status = false := by
  have hobs : t.observe (.waited (.reported r)) = t.report r.status := by
    cases t with
    | ended => exact absurd rfl ht
    | _ => rfl
  rw [hobs]
  rcases endsLoop_cases h with hexit | hterm | ⟨hstop, _⟩
  · have hnot : wifstopped r.status ≠ true := by
      intro hs
      have := (not_ended_of_wifstopped hs).1
      rw [show wifexited r.status = true from hexit] at this
      cases this
    simp only [statusWord] at hexit
    simp [Tracee.report, Tracee.Safe, hexit, hnot]
  · have hnot : wifstopped r.status ≠ true := by
      intro hs
      have := (not_ended_of_wifstopped hs).2
      rw [show wifsignaled r.status = true from hterm] at this
      cases this
    simp only [statusWord] at hterm
    simp [Tracee.report, Tracee.Safe, hterm, hnot]
  · simp only [statusWord] at hstop
    obtain ⟨hexit, hterm⟩ := not_ended_of_wifstopped hstop
    simp [Tracee.report, Tracee.Safe, hexit, hterm, hstop]

/-- **No submission outlives its judgement**, with the condition under which
the code keeps to it: the loop does not end at a SIGPROF stop, and if it ends
because `wait4` failed, the last stop had been answered with a kill. -/
theorem tracee_safe_at_end_iff (ws : List Wait4) :
    ((evaluateTracer env ws).state = none →
        (Tracee.running.after (evaluateTracer env ws).effects).Safe) ↔
      ∀ e, ws.find? endsLoop = some e →
        wifstopped (statusWord e) = false ∧
          (e = .failed → LastStopForbidden env ws) := by
  rw [ended_iff]
  constructor
  · intro h e he
    have hsafe := h ⟨e, he⟩
    rw [tracee_of_find?_some env he] at hsafe
    cases e with
    | failed =>
        refine ⟨by decide, fun _ => ?_⟩
        rw [lastStopForbidden_iff]
        by_contra hne
        simp [hne, Tracee.observe, Tracee.Safe] at hsafe
    | reported r =>
        refine ⟨?_, fun hr => by cases hr⟩
        exact (observe_reported_end (by split <;> simp)
          (List.find?_some he)).mp hsafe
  · rintro h ⟨e, he⟩
    obtain ⟨hstop, hfailed⟩ := h e he
    rw [tracee_of_find?_some env he]
    cases e with
    | failed =>
        have hlast := (lastStopForbidden_iff env ws).mp (hfailed rfl)
        simp [hlast, Tracee.observe, Tracee.Safe]
    | reported r =>
        exact (observe_reported_end (by split <;> simp)
          (List.find?_some he)).mpr hstop

/-- A program stopped by SIGPROF is left alive when the loop ends. -/
theorem tracee_left_at_profStop :
    (evaluateTracer (sampleEnv none)
        [sampleReport 0x057f 59, sampleReport 0x1b7f 1]).state = none ∧
      ¬ (Tracee.running.after (evaluateTracer (sampleEnv none)
        [sampleReport 0x057f 59, sampleReport 0x1b7f 1]).effects).Safe := by
  decide

end Lifecycle

end Tracer
end Iojxd
