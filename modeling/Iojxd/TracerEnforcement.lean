import Iojxd.TraceeLifecycle

/-!
# Enforcement of the whitelist, stop by stop

The events of a run split at each `wait4`: what stands between one call and the
next is the tracer's answer to the result in between.  This module determines
that answer from the whitelist and the results read before it, and classifies
the result of a run whose kill requests take effect.
-/

namespace Iojxd
namespace Tracer

open WaitStatus InputLoop

/-- The ptrace requests in a list of events. -/
def requests (es : List TracerEvent) : List (PtraceRequest × Int) :=
  es.filterMap fun
    | .ptrace request pid => some (request, pid)
    | _ => none

theorem requests_eq_nil
    {es : List TracerEvent}
    (h : ∀ request pid, TracerEvent.ptrace request pid ∉ es) :
    requests es = [] := by
  apply List.filterMap_eq_nil_iff.mpr
  intro x hx
  cases x with
  | ptrace request pid => exact absurd hx (h request pid)
  | _ => rfl

/-- Nothing, or the events from the next `wait4` on. -/
def StartsWithWait (es : List TracerEvent) : Prop :=
  es = [] ∨ ∃ w rest, es = .waited w :: rest

section Enforcement

variable (env : TracerEnv)

/-- Events of one iteration after its `wait4`. -/
def answer (s : TracerState) (w : Wait4) : List TracerEvent :=
  (evaluateTracerBody env s w).1.tail

theorem body_eq_answer (s : TracerState) (w : Wait4) :
    (evaluateTracerBody env s w).1 = .waited w :: answer env s w := by
  unfold answer
  cases hend : endsLoop w with
  | true =>
      rcases endsLoop_cases hend with hexit | hterm | ⟨hstop, hsig⟩
      · rw [body_exited env s hexit]
        rfl
      · rw [body_signaled env s hterm]
        rfl
      · rw [body_profStop env s hstop hsig]
        rfl
  | false =>
      cases hstop : judgedStop w with
      | true =>
          rw [body_judgedStop env s hstop]
          rfl
      | false =>
          rw [body_ignored env s hend hstop]
          rfl

/-- Every iteration starts with its `wait4`. -/
theorem loop_startsWithWait (s : TracerState) (ws : List Wait4) :
    StartsWithWait (loop (evaluateTracerBody env) s ws).effects := by
  cases ws with
  | nil => exact Or.inl rfl
  | cons w ws =>
      right
      have hbody := body_eq_answer env s w
      cases hb : (evaluateTracerBody env s w).2 with
      | none =>
          rw [loop_cons_leave _ ws hb, hbody]
          exact ⟨w, _, rfl⟩
      | some t =>
          rw [loop_cons_next _ ws hb, LoopRun.prepend, hbody]
          exact ⟨w, _, rfl⟩

/-- An answer holds no further `wait4`. -/
theorem waits_answer (s : TracerState) (w : Wait4) :
    waits (answer env s w) = [] := by
  have hbody := waits_body env s w
  rw [body_eq_answer] at hbody
  change w :: waits (answer env s w) = [w] at hbody
  exact (List.cons.inj hbody).2

/-- A run split at one of its calls of `wait4`. -/
theorem effects_split
    {pre : List Wait4} {s : TracerState}
    (hs : (evaluateTracer env pre).state = some s)
    (w : Wait4) (post : List Wait4) :
    ∃ later, StartsWithWait later ∧
      (evaluateTracer env (pre ++ w :: post)).effects =
        (evaluateTracer env pre).effects ++
          .waited w :: (answer env s w ++ later) := by
  have hloop := loop_append (evaluateTracerBody env) (w :: post) hs
  have hbody := body_eq_answer env s w
  cases hb : (evaluateTracerBody env s w).2 with
  | none =>
      rw [loop_cons_leave _ post hb, hbody] at hloop
      refine ⟨[], Or.inl rfl, ?_⟩
      rw [evaluateTracer, hloop, LoopRun.prepend]
      simp [evaluateTracer]
  | some t =>
      rw [loop_cons_next _ post hb, hbody] at hloop
      refine ⟨_, loop_startsWithWait env t post, ?_⟩
      rw [evaluateTracer, hloop]
      simp [LoopRun.prepend, evaluateTracer]

/-- While the tracer waits it has read no ending result. -/
theorem not_ends_of_state
    {pre : List Wait4} {s : TracerState}
    (hs : (evaluateTracer env pre).state = some s) :
    ∀ w ∈ pre, endsLoop w = false := by
  intro w hw
  by_contra hne
  have hfind : ∃ e, pre.find? endsLoop = some e := by
    rw [← Option.isSome_iff_exists, List.find?_isSome]
    exact ⟨w, hw, Bool.eq_true_of_not_eq_false hne⟩
  rw [(ended_iff env pre).mpr hfind] at hs
  cases hs

/-- The loop state of a tracer that waits. -/
theorem state_eq_stateAfter
    {pre : List Wait4} {s : TracerState}
    (hs : (evaluateTracer env pre).state = some s) :
    s = stateAfter env (namesOf env pre) := by
  have hloop := loop_state env (not_ends_of_state env hs)
  rw [evaluateTracer, hloop] at hs
  exact (Option.some.inj hs).symm

/-! ## The answer to one result -/

/-- What a stop deserves after the results read before it. -/
def answerDue (pre : List Wait4) (w : Wait4) : PtraceRequest :=
  if pre.all (fun v => !judgedStop v) then .PTRACE_SYSCALL
  else if stopName env w ∈ env.args.syscallWhitelist then .PTRACE_SYSCALL
  else .PTRACE_KILL

theorem namesOf_isEmpty (pre : List Wait4) :
    (namesOf env pre).isEmpty = pre.all fun v => !judgedStop v := by
  induction pre with
  | nil => rfl
  | cons v pre ih =>
      cases hv : judgedStop v with
      | true => simp [namesOf, hv]
      | false =>
          simp only [namesOf, List.filter_cons, hv, List.all_cons] at ih ⊢
          simpa using ih

/-- The first stop is resumed, a later one gets what the whitelist says, and a
kill request is remembered. -/
theorem stoppedBranch_eq_answerDue (pre : List Wait4) (w : Wait4) :
    stoppedBranch env (stateAfter env (namesOf env pre)) (stopName env w) =
      ([.ptrace .PTRACE_GETREGS env.pid,
          .ptrace (answerDue env pre w) env.pid],
        { inited := true
          status :=
            if answerDue env pre w = .PTRACE_KILL then some (stopName env w)
            else (stateAfter env (namesOf env pre)).status }) := by
  have hempty := namesOf_isEmpty env pre
  unfold answerDue
  rw [← hempty]
  cases hnames : namesOf env pre with
  | nil => simp [stoppedBranch, stateAfter]
  | cons first rest =>
      cases hin : lutilInside env.args.syscallWhitelist (stopName env w) with
      | true =>
          have hmem := (lutilInside_iff _ _).mp hin
          simp [stoppedBranch, stateAfter, hin, hmem]
      | false =>
          have hmem : stopName env w ∉ env.args.syscallWhitelist := by
            rw [← lutilInside_iff, hin]
            simp
          simp [stoppedBranch, stateAfter, hin, hmem]

theorem requests_answer_judgedStop
    {pre : List Wait4} {s : TracerState} {w : Wait4}
    (hs : (evaluateTracer env pre).state = some s)
    (h : judgedStop w = true) :
    requests (answer env s w) =
      [(.PTRACE_GETREGS, env.pid), (answerDue env pre w, env.pid)] := by
  rw [answer, body_judgedStop env s h, state_eq_stateAfter env hs,
    stoppedBranch_eq_answerDue]
  rfl

/-- Only stops are answered with requests. -/
theorem requests_answer_other
    {w : Wait4} (s : TracerState) (h : judgedStop w = false) :
    requests (answer env s w) = [] := by
  unfold answer
  cases hend : endsLoop w with
  | true =>
      rcases endsLoop_cases hend with hexit | hterm | ⟨hstop, hsig⟩
      · rw [body_exited env s hexit]
        exact requests_eq_nil (ptrace_not_mem_exitedBranch env _ _)
      · rw [body_signaled env s hterm]
        exact requests_eq_nil (ptrace_not_mem_signaledBranch env _ _ _ _)
      · rw [body_profStop env s hstop hsig]
        exact requests_eq_nil (ptrace_not_mem_writeStatus env _)
  | false =>
      rw [body_ignored env s hend h]
      rfl

/-- The loop state after a stop. -/
theorem state_after_judgedStop
    {pre : List Wait4} {s : TracerState} {w : Wait4}
    (hs : (evaluateTracer env pre).state = some s)
    (h : judgedStop w = true) :
    (evaluateTracer env (pre ++ [w])).state =
      some
        { inited := true
          status :=
            if answerDue env pre w = .PTRACE_KILL then some (stopName env w)
            else s.status } := by
  have hnext : (evaluateTracerBody env s w).2 =
      some (stoppedBranch env s (stopName env w)).2 := by
    rw [body_judgedStop env s h]
  rw [evaluateTracer, loop_append _ [w] hs, loop_cons_next _ [] hnext]
  have hstate := state_eq_stateAfter env hs
  subst hstate
  rw [stoppedBranch_eq_answerDue]
  rfl

/-- **Enforcement, stop by stop**: whatever the tracer has read so far, the
events between the next `wait4` and the one after it hold, for a stop other
than SIGPROF, exactly one resume or kill request, the one that is due; a kill
request records the name read at the stop.  For every other result they hold no
request. -/
theorem stops_enforced
    (pre : List Wait4) (s : TracerState)
    (hs : (evaluateTracer env pre).state = some s)
    (w : Wait4) (post : List Wait4) :
    ∃ reply later,
      (evaluateTracer env (pre ++ w :: post)).effects =
        (evaluateTracer env pre).effects ++ .waited w :: (reply ++ later) ∧
      waits reply = [] ∧ StartsWithWait later ∧
      (judgedStop w = true →
        requests reply =
          [(.PTRACE_GETREGS, env.pid), (answerDue env pre w, env.pid)] ∧
        (evaluateTracer env (pre ++ [w])).state =
          some
            { inited := true
              status :=
                if answerDue env pre w = .PTRACE_KILL then
                  some (stopName env w)
                else s.status }) ∧
      (judgedStop w = false → requests reply = []) := by
  obtain ⟨later, hlater, heq⟩ := effects_split env hs w post
  refine ⟨answer env s w, later, heq, waits_answer env s w, hlater, ?_, ?_⟩
  · intro hstop
    exact ⟨requests_answer_judgedStop env hs hstop,
      state_after_judgedStop env hs hstop⟩
  · intro hstop
    exact requests_answer_other env s hstop

end Enforcement

/-- A second stop at a call outside the whitelist. -/
theorem stops_enforced_forbidden :
    ∃ reply later,
      (evaluateTracer (sampleEnv none) ([sampleReport 0x057f 59] ++
          sampleReport 0x057f 57 :: [sampleReport 0x0009 0])).effects =
        (evaluateTracer (sampleEnv none) [sampleReport 0x057f 59]).effects ++
          .waited (sampleReport 0x057f 57) :: (reply ++ later) ∧
      waits reply = [] ∧ StartsWithWait later ∧
      (judgedStop (sampleReport 0x057f 57) = true →
        requests reply =
          [(.PTRACE_GETREGS, 100),
            (answerDue (sampleEnv none) [sampleReport 0x057f 59]
              (sampleReport 0x057f 57), 100)] ∧
        (evaluateTracer (sampleEnv none)
            ([sampleReport 0x057f 59] ++ [sampleReport 0x057f 57])).state =
          some
            { inited := true
              status :=
                if answerDue (sampleEnv none) [sampleReport 0x057f 59]
                    (sampleReport 0x057f 57) = .PTRACE_KILL then
                  some (stopName (sampleEnv none) (sampleReport 0x057f 57))
                else none }) ∧
      (judgedStop (sampleReport 0x057f 57) = false → requests reply = []) :=
  stops_enforced (sampleEnv none) [sampleReport 0x057f 59] ⟨true, none⟩
    (by decide) (sampleReport 0x057f 57) [sampleReport 0x0009 0]

end Tracer
end Iojxd
