import Iojxd.TracerModel

/-!
# What a run of the tracer does

The loop of `evaluate_tracer` is split at the first wait result that ends it.
Before that point the loop state is a function of the names read at the stops
so far, and no result is written; the ending result alone, together with that
state, decides what is written.
-/

namespace Iojxd
namespace Tracer

open WaitStatus InputLoop

/-- The status word the tracer decodes. -/
def statusWord : Wait4 → Word
  | .failed => 0
  | .reported r => r.status

/-- The wait results on which an iteration leaves the loop. -/
def endsLoop (w : Wait4) : Bool :=
  wifexited (statusWord w) || wifsignaled (statusWord w) ||
    (wifstopped (statusWord w) && wstopsig (statusWord w) == SIGPROF)

/-- The stops that are answered with a resume or kill request. -/
def judgedStop (w : Wait4) : Bool :=
  wifstopped (statusWord w) && wstopsig (statusWord w) != SIGPROF

/-- The results written by a list of events. -/
def results (es : List TracerEvent) : List StatusRecord :=
  es.filterMap fun
    | .writeStatus r => some r
    | _ => none

/-- A failed call ends the loop like an exit. -/
theorem endsLoop_failed :
    endsLoop .failed = true := by
  decide

theorem lutilInside_iff (array : List LuaString) (element : LuaString) :
    lutilInside array element = true ↔ element ∈ array := by
  induction array with
  | nil => simp [lutilInside]
  | cons v array ih =>
      by_cases h : v = element
      · simp [lutilInside, h]
      · simp [lutilInside, h, ih, Ne.symm h]

@[simp] theorem results_append (es fs : List TracerEvent) :
    results (es ++ fs) = results es ++ results fs := by
  exact List.filterMap_append

@[simp] theorem results_nil :
    results [] = [] := by
  rfl

@[simp] theorem results_waited (w : Wait4) (es : List TracerEvent) :
    results (.waited w :: es) = results es := by
  rfl

@[simp] theorem results_ptrace
    (request : PtraceRequest) (pid : Int) (es : List TracerEvent) :
    results (.ptrace request pid :: es) = results es := by
  rfl

@[simp] theorem results_forked
    (program : LuaString) (args : List LuaString) (es : List TracerEvent) :
    results (.forked program args :: es) = results es := by
  rfl

section Runs

variable (env : TracerEnv)

@[simp] theorem results_writeStatus (r : StatusRecord) :
    results (writeStatus env r) = [r] := by
  unfold writeStatus
  split <;> rfl

/-- Processor time and memory of a wait result, as written to the result. -/
def usage (w : Wait4) : ℚ × Int :=
  (rusageTime (lutilWait4 env.pid w).2.2 * 1000,
    (lutilWait4 env.pid w).2.2.idrss)

theorem lutilWait4_status (w : Wait4) :
    (lutilWait4 env.pid w).2.1 = statusWord w := by
  cases w <;> rfl

/-! ## One iteration -/

theorem body_exited
    {w : Wait4} (s : TracerState)
    (h : wifexited (statusWord w) = true) :
    evaluateTracerBody env s w =
      (.waited w :: exitedBranch env (usage env w).1 (usage env w).2, none) := by
  simp [evaluateTracerBody, lutilWait4_status, h, usage]

theorem body_signaled
    {w : Wait4} (s : TracerState)
    (h : wifsignaled (statusWord w) = true) :
    evaluateTracerBody env s w =
      (.waited w ::
        signaledBranch env s.status (wtermsig (statusWord w))
          (usage env w).1 (usage env w).2, none) := by
  have hexit : wifexited (statusWord w) = false := by
    by_contra hne
    have := not_wifsignaled_of_wifexited (Bool.eq_true_of_not_eq_false hne)
    rw [h] at this
    cases this
  simp [evaluateTracerBody, lutilWait4_status, h, hexit, usage]

theorem body_profStop
    {w : Wait4} (s : TracerState)
    (hstop : wifstopped (statusWord w) = true)
    (hsig : wstopsig (statusWord w) = SIGPROF) :
    evaluateTracerBody env s w =
      (.waited w ::
        writeStatus env ⟨.TLE, (usage env w).1, (usage env w).2, none⟩,
        none) := by
  obtain ⟨hexit, hterm⟩ := not_ended_of_wifstopped hstop
  simp [evaluateTracerBody, lutilWait4_status, hexit, hterm, hstop, hsig, usage]

theorem body_judgedStop
    {w : Wait4} (s : TracerState)
    (h : judgedStop w = true) :
    evaluateTracerBody env s w =
      (.waited w :: (stoppedBranch env s (stopName env w)).1,
        some (stoppedBranch env s (stopName env w)).2) := by
  simp only [judgedStop, Bool.and_eq_true, bne_iff_ne] at h
  obtain ⟨hstop, hsig⟩ := h
  obtain ⟨hexit, hterm⟩ := not_ended_of_wifstopped hstop
  simp [evaluateTracerBody, lutilWait4_status, hexit, hterm, hstop, hsig]

theorem body_ignored
    {w : Wait4} (s : TracerState)
    (hend : endsLoop w = false) (hstop : judgedStop w = false) :
    evaluateTracerBody env s w = ([.waited w], some s) := by
  simp only [endsLoop, Bool.or_eq_false_iff] at hend
  obtain ⟨⟨hexit, hterm⟩, hprof⟩ := hend
  have hnot : wifstopped (statusWord w) = false := by
    cases hs : wifstopped (statusWord w) with
    | false => rfl
    | true =>
        simp only [judgedStop, hs, Bool.true_and, bne_eq_false_iff_eq] at hstop
        simp [hs, hstop] at hprof
  simp [evaluateTracerBody, lutilWait4_status, hexit, hterm, hnot]

/-- The three ways in which a wait result ends the loop. -/
theorem endsLoop_cases
    {w : Wait4} (h : endsLoop w = true) :
    wifexited (statusWord w) = true ∨
      wifsignaled (statusWord w) = true ∨
        (wifstopped (statusWord w) = true ∧
          wstopsig (statusWord w) = SIGPROF) := by
  simp only [endsLoop, Bool.or_eq_true, Bool.and_eq_true, beq_iff_eq] at h
  rcases h with (hexit | hterm) | hprof
  · exact Or.inl hexit
  · exact Or.inr (Or.inl hterm)
  · exact Or.inr (Or.inr hprof)

/-- The input alone decides whether the loop is left. -/
theorem body_ends_iff (s : TracerState) (w : Wait4) :
    (evaluateTracerBody env s w).2 = none ↔ endsLoop w = true := by
  constructor
  · intro h
    by_contra hne
    have hend : endsLoop w = false := Bool.eq_false_of_not_eq_true hne
    cases hstop : judgedStop w with
    | true =>
        rw [body_judgedStop env s hstop] at h
        cases h
    | false =>
        rw [body_ignored env s hend hstop] at h
        cases h
  · intro h
    rcases endsLoop_cases h with hexit | hterm | ⟨hstop, hsig⟩
    · rw [body_exited env s hexit]
    · rw [body_signaled env s hterm]
    · rw [body_profStop env s hstop hsig]

/-! ## The iterations before the end -/

/-- Names read at the stops that the tracer answers. -/
def namesOf (ws : List Wait4) : List LuaString :=
  (ws.filter judgedStop).map (stopName env)

/-- The names read before the run ends. -/
def stopNames (ws : List Wait4) : List LuaString :=
  namesOf env (beforeEnd endsLoop ws)

/-- A name outside the whitelist. -/
def forbidden (name : LuaString) : Bool :=
  !lutilInside env.args.syscallWhitelist name

theorem forbidden_iff (name : LuaString) :
    forbidden env name = true ↔ name ∉ env.args.syscallWhitelist := by
  rw [forbidden, Bool.not_eq_true', ← Bool.not_eq_true, lutilInside_iff]

/-- The loop state that belongs to the names read so far: the first stop only
sets `inited`, the last forbidden name after it is remembered. -/
def stateAfter (names : List LuaString) : TracerState :=
  { inited := !names.isEmpty
    status := (names.tail.filter (forbidden env)).getLast? }

theorem stateAfter_snoc (names : List LuaString) (name : LuaString) :
    (stoppedBranch env (stateAfter env names) name).2 =
      stateAfter env (names ++ [name]) := by
  cases names with
  | nil => simp [stoppedBranch, stateAfter]
  | cons first rest =>
      cases hin : lutilInside env.args.syscallWhitelist name with
      | true => simp [stoppedBranch, stateAfter, forbidden, hin]
      | false => simp [stoppedBranch, stateAfter, forbidden, hin]

theorem namesOf_snoc (ws : List Wait4) (w : Wait4) :
    namesOf env (ws ++ [w]) =
      namesOf env ws ++ if judgedStop w then [stopName env w] else [] := by
  cases h : judgedStop w <;> simp [namesOf, h]

/-- **State before the end**: the loop state is that of the names read. -/
theorem loop_state
    {ws : List Wait4} (h : ∀ w ∈ ws, endsLoop w = false) :
    (loop (evaluateTracerBody env) TracerState.start ws).state =
      some (stateAfter env (namesOf env ws)) := by
  induction ws using List.reverseRecOn with
  | nil => rfl
  | append_singleton ws w ih =>
      have hws := ih fun v hv => h v (by simp [hv])
      rw [loop_append _ [w] hws, namesOf_snoc]
      cases hstop : judgedStop w with
      | true =>
          have hb := body_judgedStop env (stateAfter env (namesOf env ws)) hstop
          rw [loop_cons_next (t := (stoppedBranch env
            (stateAfter env (namesOf env ws)) (stopName env w)).2) _ _ (by rw [hb])]
          simp only [if_true]
          rw [← stateAfter_snoc]
          rfl
      | false =>
          have hb := body_ignored env (stateAfter env (namesOf env ws))
            (h w (by simp)) hstop
          rw [loop_cons_next (t := stateAfter env (namesOf env ws)) _ _ (by rw [hb])]
          simp [LoopRun.prepend, loop]

/-- Nothing is written at a stop. -/
theorem results_stoppedBranch (s : TracerState) (name : LuaString) :
    results (stoppedBranch env s name).1 = [] := by
  unfold stoppedBranch
  split_ifs <;> rfl

theorem results_body_of_not_ends
    {w : Wait4} (s : TracerState) (h : endsLoop w = false) :
    results (evaluateTracerBody env s w).1 = [] := by
  cases hstop : judgedStop w with
  | true =>
      rw [body_judgedStop env s hstop, results_waited]
      exact results_stoppedBranch env s _
  | false =>
      rw [body_ignored env s h hstop]
      rfl

theorem results_loop_of_not_ends
    {ws : List Wait4} (s : TracerState) (h : ∀ w ∈ ws, endsLoop w = false) :
    results (loop (evaluateTracerBody env) s ws).effects = [] := by
  induction ws generalizing s with
  | nil => rfl
  | cons w ws ih =>
      have hw := results_body_of_not_ends env s (h w (by simp))
      cases hb : (evaluateTracerBody env s w).2 with
      | none =>
          rw [loop_cons_leave _ ws hb]
          exact hw
      | some t =>
          rw [loop_cons_next _ ws hb]
          simp only [LoopRun.prepend, results_append, hw, List.nil_append]
          exact ih t fun v hv => h v (by simp [hv])

/-! ## The end of a run -/

/-- A run that has not met an ending result has written nothing. -/
theorem results_of_find?_none
    {ws : List Wait4} (h : ws.find? endsLoop = none) :
    results (evaluateTracer env ws).effects = [] := by
  apply results_loop_of_not_ends
  intro w hw
  simpa using List.find?_eq_none.mp h w hw

/-- The state in which the ending result finds the loop. -/
theorem state_beforeEnd (ws : List Wait4) :
    (loop (evaluateTracerBody env) TracerState.start
        (beforeEnd endsLoop ws)).state =
      some (stateAfter env (stopNames env ws)) :=
  loop_state env fun _ hw => not_ends_of_mem_beforeEnd endsLoop hw

/-- Events of a run that has ended: those before the end, then those of the
iteration that leaves the loop. -/
theorem effects_of_find?_some
    {ws : List Wait4} {e : Wait4} (h : ws.find? endsLoop = some e) :
    (evaluateTracer env ws).effects =
      (loop (evaluateTracerBody env) TracerState.start
        (beforeEnd endsLoop ws)).effects ++
      (evaluateTracerBody env (stateAfter env (stopNames env ws)) e).1 :=
  (loop_of_find?_some _ (body_ends_iff env) h (state_beforeEnd env ws)).1

/-- **Results of a run**: those of the iteration that leaves the loop. -/
theorem results_of_find?_some
    {ws : List Wait4} {e : Wait4} (h : ws.find? endsLoop = some e) :
    results (evaluateTracer env ws).effects =
      results
        (evaluateTracerBody env (stateAfter env (stopNames env ws)) e).1 := by
  rw [effects_of_find?_some env h, results_append]
  rw [results_loop_of_not_ends env _
    fun _ hw => not_ends_of_mem_beforeEnd endsLoop hw]
  rfl

/-- The loop ends exactly when an ending result is read. -/
theorem ended_iff (ws : List Wait4) :
    (evaluateTracer env ws).state = none ↔
      ∃ e, ws.find? endsLoop = some e :=
  state_eq_none_iff _ (body_ends_iff env) _ ws

/-- The statuses written when the program exited. -/
def exitStatuses : List Caster.Status :=
  match env.diff with
  | none => []
  | some d =>
      match d.size with
      | none => []
      | some size => if size = 0 then [.AC] else [.WA]

/-- The statuses written when the program was terminated by a signal. -/
def signalStatuses (status : Option LuaString) (termsig : Nat) :
    List Caster.Status :=
  if termsig = SIGSEGV then [.RE]
  else if termsig = SIGPROF then [.TLE]
  else if termsig = SIGKILL then
    if status.isSome then [.RE] else [.MLE]
  else []

theorem statuses_exited
    {w : Wait4} (s : TracerState)
    (h : wifexited (statusWord w) = true) :
    (results (evaluateTracerBody env s w).1).map StatusRecord.status =
      exitStatuses env := by
  rw [body_exited env s h, results_waited, exitedBranch, results_forked,
    exitStatuses]
  cases env.diff with
  | none => rfl
  | some d =>
      simp only [diffCallback]
      cases d.size with
      | none => rfl
      | some size =>
          by_cases hz : size = 0
          · simp [hz]
          · simp [hz]

theorem statuses_signaled
    {w : Wait4} (s : TracerState)
    (h : wifsignaled (statusWord w) = true) :
    (results (evaluateTracerBody env s w).1).map StatusRecord.status =
      signalStatuses s.status (wtermsig (statusWord w)) := by
  rw [body_signaled env s h, results_waited]
  unfold signaledBranch signalStatuses
  by_cases hsegv : wtermsig (statusWord w) = SIGSEGV
  · simp [hsegv]
  · by_cases hprof : wtermsig (statusWord w) = SIGPROF
    · simp [hprof, SIGPROF, SIGSEGV, SIGKILL]
    · by_cases hkill : wtermsig (statusWord w) = SIGKILL
      · cases s.status <;> simp [hkill, SIGPROF, SIGSEGV, SIGKILL]
      · simp [hsegv, hprof, hkill]

theorem statuses_profStop
    {w : Wait4} (s : TracerState)
    (hstop : wifstopped (statusWord w) = true)
    (hsig : wstopsig (statusWord w) = SIGPROF) :
    (results (evaluateTracerBody env s w).1).map StatusRecord.status =
      [.TLE] := by
  rw [body_profStop env s hstop hsig, results_waited, results_writeStatus]
  rfl

/-- The statuses a run writes. -/
def statuses (ws : List Wait4) : List Caster.Status :=
  (results (evaluateTracer env ws).effects).map StatusRecord.status

theorem statuses_of_find?_none
    {ws : List Wait4} (h : ws.find? endsLoop = none) :
    statuses env ws = [] := by
  rw [statuses, results_of_find?_none env h]
  rfl

/-- **Statuses of a run**, by the kind of its end. -/
theorem statuses_of_find?_some
    {ws : List Wait4} {e : Wait4} (h : ws.find? endsLoop = some e) :
    statuses env ws =
      if wifexited (statusWord e) then exitStatuses env
      else if wifsignaled (statusWord e) then
        signalStatuses (stateAfter env (stopNames env ws)).status
          (wtermsig (statusWord e))
      else [.TLE] := by
  rw [statuses, results_of_find?_some env h]
  cases hexit : wifexited (statusWord e) with
  | true => simp [statuses_exited env _ hexit]
  | false =>
      cases hterm : wifsignaled (statusWord e) with
      | true => simp [statuses_signaled env _ hterm]
      | false =>
          rcases endsLoop_cases (List.find?_some h) with h1 | h2 | ⟨hstop, hsig⟩
          · rw [hexit] at h1
            cases h1
          · rw [hterm] at h2
            cases h2
          · simp [statuses_profStop env _ hstop hsig]

end Runs

end Tracer
end Iojxd
