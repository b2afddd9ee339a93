import Iojxd.TracerEnforcement

/-!
# Classification of a run

A run whose wait results are stops and one end is classified by that end and by
the names read at the stops.  The tracer arrives at the same result with its
two loop variables, provided that a kill request takes effect: the tracee is
then terminated by SIGKILL before it stops again.
-/

namespace Iojxd
namespace Tracer

open WaitStatus InputLoop

/-- The last element that passes a test is the first one, when none but the
last element of the list can pass. -/
theorem getLast?_filter_eq_find?
    {α : Type*} {p : α → Bool} {l : List α}
    (h : ∀ pre x y post, l = pre ++ x :: y :: post → p x = false) :
    (l.filter p).getLast? = l.find? p := by
  induction l with
  | nil => rfl
  | cons x l ih =>
      cases l with
      | nil => cases hx : p x <;> simp [hx]
      | cons y l =>
          have hx : p x = false := h [] x y l rfl
          have htail := ih fun pre x' y' post heq =>
            h (x :: pre) x' y' post (by rw [heq, List.cons_append])
          simpa [hx] using htail

/-- The ends that a classification covers. -/
inductive ClassifiedEnd (e : Wait4) : Prop
  | exited (hret : e ≠ .failed) (h : wifexited (statusWord e) = true)
  | signaled (h : wifsignaled (statusWord e) = true)
      (hsig : wtermsig (statusWord e) = SIGSEGV ∨
        wtermsig (statusWord e) = SIGPROF ∨
        wtermsig (statusWord e) = SIGKILL)
  | profStop (h : wifstopped (statusWord e) = true)
      (hsig : wstopsig (statusWord e) = SIGPROF)

theorem ClassifiedEnd.endsLoop
    {e : Wait4} (h : ClassifiedEnd e) :
    endsLoop e = true := by
  cases h with
  | exited _ h => simp [Tracer.endsLoop, h]
  | signaled h => simp [Tracer.endsLoop, h]
  | profStop h hsig => simp [Tracer.endsLoop, h, hsig]

theorem not_wifexited_of_wifsignaled
    {status : Word} (h : wifsignaled status = true) :
    wifexited status = false := by
  by_contra hne
  have hnot := not_wifsignaled_of_wifexited (Bool.eq_true_of_not_eq_false hne)
  rw [h] at hnot
  cases hnot

section Classification

variable (env : TracerEnv)

/-- A kill request is followed directly by a termination by SIGKILL. -/
def KillObeyed (ws : List Wait4) : Prop :=
  ∀ pre w v post, ws = pre ++ w :: v :: post →
    (evaluateTracer env (pre ++ [w])).effects.getLast? =
      some (.ptrace .PTRACE_KILL env.pid) →
    wifsignaled (statusWord v) = true ∧ wtermsig (statusWord v) = SIGKILL

/-- The name read at a stop after the first that is not in the whitelist. -/
def offendingName (stops : List Wait4) : Option LuaString :=
  (stops.tail.map (stopName env)).find? (forbidden env)

/-- The result that a run of stops and one end deserves; `diffSize` is the size
of `diff`'s output file. -/
def classification
    (stops : List Wait4) (e : Wait4) (diffSize : Nat) :
    Caster.Status × Option LuaString :=
  if wifexited (statusWord e) then
    if diffSize = 0 then (.AC, none) else (.WA, none)
  else if wifsignaled (statusWord e) then
    if wtermsig (statusWord e) = SIGSEGV then (.RE, none)
    else if wtermsig (statusWord e) = SIGKILL then
      match offendingName env stops with
      | some name => (.RE, some (invalidCallLog name))
      | none => (.MLE, none)
    else (.TLE, none)
  else (.TLE, none)

/-- The same with the processor time and the memory of the end. -/
def classifiedRecord
    (stops : List Wait4) (e : Wait4) (diffSize : Nat) : StatusRecord :=
  let (status, log) := classification env stops e diffSize
  ⟨status, (usage env e).1, (usage env e).2, log⟩

/-- A tracer that has read stops only waits for the next result. -/
theorem state_of_stops
    {stops : List Wait4} (h : ∀ w ∈ stops, judgedStop w = true) :
    (evaluateTracer env stops).state =
      some (stateAfter env (stops.map (stopName env))) := by
  have hnot : ∀ w ∈ stops, endsLoop w = false := by
    intro w hw
    have hstop := h w hw
    simp only [judgedStop, Bool.and_eq_true, bne_iff_ne] at hstop
    obtain ⟨hexit, hterm⟩ := not_ended_of_wifstopped hstop.1
    simp [endsLoop, hexit, hterm, hstop.2]
  have hnames : namesOf env stops = stops.map (stopName env) := by
    rw [namesOf, List.filter_eq_self.mpr h]
  rw [evaluateTracer, loop_state env hnot, hnames]

/-- A run of stops and one end: the events of the stops, then the answer to the
end, and nothing is read after it. -/
theorem run_of_stops
    {stops : List Wait4} {e : Wait4}
    (hstops : ∀ w ∈ stops, judgedStop w = true) (he : endsLoop e = true)
    (rest : List Wait4) :
    evaluateTracer env (stops ++ e :: rest) =
      { effects :=
          (evaluateTracer env stops).effects ++
            (evaluateTracerBody env
              (stateAfter env (stops.map (stopName env))) e).1
        state := none
        unread := rest } := by
  have hleave := (body_ends_iff env
    (stateAfter env (stops.map (stopName env))) e).mpr he
  have hloop := loop_append (evaluateTracerBody env) (e :: rest)
    (state_of_stops env hstops)
  rw [loop_cons_leave _ rest hleave] at hloop
  exact hloop

/-! ## The offending name -/

/-- The iteration of a forbidden stop after the first ends with the kill
request. -/
theorem getLast?_effects_forbidden
    (pre : List Wait4) (w : Wait4)
    (hstops : ∀ u ∈ pre ++ [w], judgedStop u = true) (hpre : pre ≠ [])
    (hname : forbidden env (stopName env w) = true) :
    (evaluateTracer env (pre ++ [w])).effects.getLast? =
      some (.ptrace .PTRACE_KILL env.pid) := by
  have hprestops : ∀ u ∈ pre, judgedStop u = true := fun u hu =>
    hstops u (by simp [hu])
  have hjudged : judgedStop w = true := hstops w (by simp)
  have hdue : answerDue env pre w = .PTRACE_KILL := by
    have hall : (pre.all fun u => !judgedStop u) = false := by
      obtain ⟨u, rest, rfl⟩ := List.exists_cons_of_ne_nil hpre
      simp [hprestops u (by simp)]
    have hnot := (forbidden_iff env _).mp hname
    simp [answerDue, hall, hnot]
  have hnames : pre.map (stopName env) = namesOf env pre := by
    rw [namesOf, List.filter_eq_self.mpr hprestops]
  have hbody := body_judgedStop env
    (stateAfter env (pre.map (stopName env))) hjudged
  have hnext : (evaluateTracerBody env
      (stateAfter env (pre.map (stopName env))) w).2 =
        some (stoppedBranch env (stateAfter env (pre.map (stopName env)))
          (stopName env w)).2 := by
    rw [hbody]
  have hrun := loop_append (evaluateTracerBody env) [w]
    (state_of_stops env hprestops)
  rw [loop_cons_next _ [] hnext, hbody, hnames, stoppedBranch_eq_answerDue,
    hdue] at hrun
  rw [evaluateTracer, hrun]
  simp [LoopRun.prepend, loop]

/-- The name that the tracer remembers is the offending one. -/
theorem status_eq_offendingName
    {stops : List Wait4} {e : Wait4}
    (hstops : ∀ w ∈ stops, judgedStop w = true)
    (hkill : KillObeyed env (stops ++ [e])) :
    (stateAfter env (stops.map (stopName env))).status =
      offendingName env stops := by
  cases stops with
  | nil => rfl
  | cons first rest =>
      simp only [stateAfter, offendingName, List.map_cons, List.tail_cons]
      apply getLast?_filter_eq_find?
      intro pre x y post heq
      by_contra hne
      -- two stops in a row after the first: the kill request had no effect
      obtain ⟨ws, us, rfl, rfl, hus⟩ := List.map_eq_append_iff.mp heq
      obtain ⟨w, us', rfl, rfl, hus'⟩ := List.map_eq_cons_iff.mp hus
      obtain ⟨v, us'', rfl, rfl, rfl⟩ := List.map_eq_cons_iff.mp hus'
      have hlast := getLast?_effects_forbidden env (first :: ws) w
        (fun u hu => hstops u (by simp at hu ⊢; tauto)) (by simp)
        (Bool.eq_true_of_not_eq_false hne)
      have hkilled := hkill (first :: ws) w v (us'' ++ [e]) (by simp) hlast
      have hv := hstops v (by simp)
      simp only [judgedStop, Bool.and_eq_true] at hv
      rw [(not_ended_of_wifstopped hv.1).2] at hkilled
      cases hkilled.1

/-! ## The result at the end -/

/-- What the ending iteration writes, when the tracer remembers the offending
name. -/
theorem results_at_end
    {stops : List Wait4} {e : Wait4} {s : TracerState} {diffSize : Nat}
    (hs : s.status = offendingName env stops)
    (hend : ClassifiedEnd e)
    (hdiff : wifexited (statusWord e) = true →
      ∃ status, env.diff = some ⟨status, some diffSize⟩) :
    results (evaluateTracerBody env s e).1 =
      [classifiedRecord env stops e diffSize] := by
  unfold classifiedRecord classification
  cases hend with
  | exited _ h =>
      obtain ⟨status, hstatus⟩ := hdiff h
      rw [body_exited env s h, results_waited, exitedBranch, results_forked,
        hstatus]
      by_cases hsize : diffSize = 0 <;> simp [diffCallback, h, hsize]
  | signaled h hsig =>
      have hexit := not_wifexited_of_wifsignaled h
      rw [body_signaled env s h, results_waited, hs]
      rcases hsig with hsig | hsig | hsig
      · simp [signaledBranch, h, hexit, hsig]
      · simp [signaledBranch, h, hexit, hsig, SIGSEGV, SIGKILL, SIGPROF]
      · cases offendingName env stops <;>
          simp [signaledBranch, h, hexit, hsig, SIGSEGV, SIGKILL, SIGPROF]
  | profStop h hsig =>
      obtain ⟨hexit, hterm⟩ := not_ended_of_wifstopped h
      rw [body_profStop env s h hsig, results_waited, results_writeStatus]
      simp [hexit, hterm]

/-- With an `outfile` that opens, no Lua error is raised. -/
theorem raised_notMem_writeStatus
    (hopen : env.outfileOpens = true) (r : StatusRecord) :
    .raised ∉ writeStatus env r := by
  simp [writeStatus, hopen]

theorem raised_notMem_at_end
    {e : Wait4} (s : TracerState) {diffSize : Nat}
    (hopen : env.outfileOpens = true)
    (hend : ClassifiedEnd e)
    (hdiff : wifexited (statusWord e) = true →
      ∃ status, env.diff = some ⟨status, some diffSize⟩) :
    .raised ∉ (evaluateTracerBody env s e).1 := by
  have hwrite := raised_notMem_writeStatus env hopen
  cases hend with
  | exited _ h =>
      obtain ⟨status, hstatus⟩ := hdiff h
      rw [body_exited env s h, exitedBranch, hstatus]
      by_cases hsize : diffSize = 0 <;> simp [diffCallback, hsize, hwrite]
  | signaled h hsig =>
      rw [body_signaled env s h]
      unfold signaledBranch
      cases s.status <;> split_ifs <;> simp [hwrite]
  | profStop h hsig =>
      rw [body_profStop env s h hsig]
      simp [hwrite]

theorem raised_notMem_of_stops
    {stops : List Wait4} (hstops : ∀ w ∈ stops, judgedStop w = true) :
    .raised ∉ (evaluateTracer env stops).effects := by
  apply not_mem_effects_loop
  intro s w hw
  rw [body_judgedStop env s (hstops w hw)]
  unfold stoppedBranch
  split_ifs <;> simp

/-- **Classification**: a run of stops other than SIGPROF and one end of the
covered kinds, in which kill requests take effect, writes exactly the one
result that the names read at the stops and the end deserve, raises no error if
`outfile` can be opened, and reads nothing after the end. -/
theorem result_classified
    (stops : List Wait4) (hstops : ∀ w ∈ stops, judgedStop w = true)
    (e : Wait4) (hend : ClassifiedEnd e)
    (hkill : KillObeyed env (stops ++ [e]))
    (diffSize : Nat)
    (hdiff : wifexited (statusWord e) = true →
      ∃ status, env.diff = some ⟨status, some diffSize⟩)
    (rest : List Wait4) :
    results (evaluateTracer env (stops ++ e :: rest)).effects =
        [classifiedRecord env stops e diffSize] ∧
      (env.outfileOpens = true →
        .raised ∉ (evaluateTracer env (stops ++ e :: rest)).effects) ∧
      (evaluateTracer env (stops ++ e :: rest)).state = none ∧
      (evaluateTracer env (stops ++ e :: rest)).unread = rest := by
  have hrun := run_of_stops env hstops hend.endsLoop rest
  have hname := status_eq_offendingName env hstops hkill
  rw [hrun]
  refine ⟨?_, ?_, rfl, rfl⟩
  · have hbefore : results (evaluateTracer env stops).effects = [] := by
      apply results_of_find?_none
      rw [← Option.not_isSome_iff_eq_none, Option.isSome_iff_exists,
        ← ended_iff env, state_of_stops env hstops]
      simp
    rw [results_append, hbefore, List.nil_append]
    exact results_at_end env hname hend hdiff
  · intro hopen hmem
    rcases List.mem_append.mp hmem with hmem | hmem
    · exact raised_notMem_of_stops env hstops hmem
    · exact raised_notMem_at_end env _ hopen hend hdiff hmem

end Classification

/-- A stop, a second one at a call outside the whitelist, and SIGKILL. -/
theorem result_classified_forbidden :
    classification (sampleEnv none)
        [sampleReport 0x057f 59, sampleReport 0x057f 57]
        (sampleReport 0x0009 0) 0 =
      (.RE, some (bytes "Detected invalid system call 'unknown'!")) ∧
    results (evaluateTracer (sampleEnv none)
        ([sampleReport 0x057f 59, sampleReport 0x057f 57] ++
          sampleReport 0x0009 0 :: [.failed])).effects =
        [classifiedRecord (sampleEnv none)
          [sampleReport 0x057f 59, sampleReport 0x057f 57]
          (sampleReport 0x0009 0) 0] ∧
      ((sampleEnv none).outfileOpens = true →
        .raised ∉ (evaluateTracer (sampleEnv none)
          ([sampleReport 0x057f 59, sampleReport 0x057f 57] ++
            sampleReport 0x0009 0 :: [.failed])).effects) ∧
      (evaluateTracer (sampleEnv none)
        ([sampleReport 0x057f 59, sampleReport 0x057f 57] ++
          sampleReport 0x0009 0 :: [.failed])).state = none ∧
      (evaluateTracer (sampleEnv none)
        ([sampleReport 0x057f 59, sampleReport 0x057f 57] ++
          sampleReport 0x0009 0 :: [.failed])).unread = [.failed] := by
  have hkill : KillObeyed (sampleEnv none)
      ([sampleReport 0x057f 59, sampleReport 0x057f 57] ++
        [sampleReport 0x0009 0]) := by
    intro pre w v post heq hlast
    rcases pre with _ | ⟨u, _ | ⟨u', pre⟩⟩
    · cases heq
      revert hlast
      decide
    · cases heq
      decide
    · have hlength := congrArg List.length heq
      simp at hlength
      omega
  refine ⟨by decide, ?_⟩
  exact result_classified (sampleEnv none)
    [sampleReport 0x057f 59, sampleReport 0x057f 57] (by decide)
    (sampleReport 0x0009 0)
    (.signaled (by decide) (Or.inr (Or.inr (by decide)))) hkill 0
    (fun hexit => absurd hexit (by decide)) [.failed]

end Tracer
end Iojxd
