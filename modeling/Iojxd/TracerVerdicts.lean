import Iojxd.TracerRuns

/-!
# The results the tracer writes

Three properties of every run of `evaluate_tracer`, each with the exact
condition on the wait results and on the forked `diff` under which it holds:

* AC is written only for a program that exited with the expected output;
* a run that ends writes exactly one result;
* no AC, WA or TLE is written once a forbidden system call was found.
-/

namespace Iojxd
namespace Tracer

open WaitStatus InputLoop

/-- The wait results read by a list of events. -/
def waits (es : List TracerEvent) : List Wait4 :=
  es.filterMap fun
    | .waited w => some w
    | _ => none

@[simp] theorem waits_append (es fs : List TracerEvent) :
    waits (es ++ fs) = waits es ++ waits fs := by
  exact List.filterMap_append

@[simp] theorem waits_nil :
    waits [] = [] := by
  rfl

section Waits

variable (env : TracerEnv)

@[simp] theorem waits_writeStatus (r : StatusRecord) :
    waits (writeStatus env r) = [] := by
  unfold writeStatus
  split <;> rfl

theorem waits_exitedBranch (time : ℚ) (mem : Int) :
    waits (exitedBranch env time mem) = [] := by
  unfold exitedBranch
  cases env.diff with
  | none => rfl
  | some d =>
      change waits (diffCallback env time mem d) = []
      unfold diffCallback
      cases d.size with
      | none => rfl
      | some size =>
          by_cases hz : size = 0 <;> simp [hz]

theorem waits_signaledBranch
    (status : Option LuaString) (termsig : Nat) (time : ℚ) (mem : Int) :
    waits (signaledBranch env status termsig time mem) = [] := by
  unfold signaledBranch
  cases status <;> split_ifs <;> simp

/-- Every iteration reads exactly its own input. -/
theorem waits_body (s : TracerState) (w : Wait4) :
    waits (evaluateTracerBody env s w).1 = [w] := by
  have hcons : ∀ es, waits es = [] → waits (.waited w :: es) = [w] := by
    intro es hes
    change w :: waits es = [w]
    rw [hes]
  cases hend : endsLoop w with
  | true =>
      rcases endsLoop_cases hend with hexit | hterm | ⟨hstop, hsig⟩
      · rw [body_exited env s hexit]
        exact hcons _ (waits_exitedBranch env _ _)
      · rw [body_signaled env s hterm]
        exact hcons _ (waits_signaledBranch env _ _ _ _)
      · rw [body_profStop env s hstop hsig]
        exact hcons _ (waits_writeStatus env _)
  | false =>
      cases hstop : judgedStop w with
      | true =>
          rw [body_judgedStop env s hstop]
          apply hcons
          unfold stoppedBranch
          split_ifs <;> rfl
      | false =>
          rw [body_ignored env s hend hstop]
          rfl

theorem waits_loop_of_not_ends
    {ws : List Wait4} (s : TracerState) (h : ∀ w ∈ ws, endsLoop w = false) :
    waits (loop (evaluateTracerBody env) s ws).effects = ws := by
  induction ws generalizing s with
  | nil => rfl
  | cons w ws ih =>
      cases hb : (evaluateTracerBody env s w).2 with
      | none =>
          have := (body_ends_iff env s w).mp hb
          simp [h w (by simp)] at this
      | some t =>
          rw [loop_cons_next _ ws hb]
          simp only [LoopRun.prepend, waits_append, waits_body]
          rw [ih t fun v hv => h v (by simp [hv])]
          rfl

/-- A run that has ended read the results before its end and the ending one. -/
theorem waits_of_find?_some
    {ws : List Wait4} {e : Wait4} (h : ws.find? endsLoop = some e) :
    waits (evaluateTracer env ws).effects = beforeEnd endsLoop ws ++ [e] := by
  rw [effects_of_find?_some env h, waits_append, waits_body]
  rw [waits_loop_of_not_ends env _
    fun _ hw => not_ends_of_mem_beforeEnd endsLoop hw]

end Waits

/-! ## A session for concrete runs -/

/-- A session whose whitelist is `write`, on a host that knows two calls. -/
def sampleEnv (diff : Option DiffEnd) : TracerEnv where
  args :=
    { syscallWhitelist := [bytes "write"]
      result := bytes "out.out"
      outfile := bytes "out.txt" }
  pid := 100
  paths :=
    { cclog := bytes "compiler.log"
      exec := bytes "a.out"
      output := bytes "tmp.out"
      diff := bytes "diff.diff" }
  syscallName := fun call =>
    if call = 1 then bytes "write"
    else if call = 59 then bytes "execve"
    else bytes "unknown"
  outfileOpens := true
  diff := diff

/-- A report with a status word and the system call it was read at. -/
def sampleReport (status : Word) (call : BitVec 64) : Wait4 :=
  .reported ⟨status, ⟨0, 0, 0, 0, 0⟩, call⟩

/-! ## Soundness of AC -/

/-- State of a file when `diff` looks at it. -/
inductive FileState where
  | missing
  | file (content : List UInt8) (readable : Bool)
deriving DecidableEq

/-- Both files exist and have the same bytes. -/
def SameBytes (a b : FileState) : Prop :=
  ∃ content r₁ r₂, a = .file content r₁ ∧ b = .file content r₂

/-- `diff` exited non-zero or was terminated. -/
def DiffTrouble (d : DiffEnd) : Prop :=
  wifexited d.status = false ∨ wexitstatus d.status ≠ 0

instance (d : DiffEnd) : Decidable (DiffTrouble d) :=
  inferInstanceAs (Decidable (_ ∨ _))

/-- What is assumed of the external `diff`.  In trouble, such as a missing file
or a failed `exec`, the size of its output is arbitrary. -/
inductive DiffBehaves : FileState → FileState → DiffEnd → Prop
  | equal {content : List UInt8} {status : Word}
      (hexit : wifexited status = true)
      (hcode : wexitstatus status = 0) :
      DiffBehaves (.file content true) (.file content true) ⟨status, some 0⟩
  | differ {a b : List UInt8} {status : Word} {size : Nat}
      (hne : a ≠ b)
      (hexit : wifexited status = true)
      (hcode : wexitstatus status = 1)
      (hsize : 0 < size) :
      DiffBehaves (.file a true) (.file b true) ⟨status, some size⟩
  | trouble {a b : FileState} {d : DiffEnd}
      (h : DiffTrouble d) :
      DiffBehaves a b d

/-- A `diff` that ends without trouble compared two equal files. -/
theorem DiffBehaves.sameBytes
    {a b : FileState} {d : DiffEnd}
    (h : DiffBehaves a b d) (hok : ¬ DiffTrouble d) :
    SameBytes a b := by
  cases h with
  | equal => exact ⟨_, true, true, rfl, rfl⟩
  | differ _ _ hcode _ =>
      exact absurd (Or.inr (by simp [hcode])) hok
  | trouble h => exact absurd h hok

section Accepted

variable (env : TracerEnv)

/-- The exit of the tracee was reported to the tracer. -/
def ReallyExited (ws : List Wait4) : Prop :=
  ∃ r, .reported r ∈ waits (evaluateTracer env ws).effects ∧
    wifexited r.status = true

theorem exitStatuses_accepted_iff :
    Caster.Status.AC ∈ exitStatuses env ↔
      ∃ d, env.diff = some d ∧ d.size = some 0 := by
  unfold exitStatuses
  cases env.diff with
  | none => simp
  | some d =>
      cases hs : d.size with
      | none => simp [hs]
      | some size =>
          by_cases hz : size = 0
          · simp [hs, hz]
          · simp [hs, hz]

theorem signalStatuses_not_accepted (status : Option LuaString) (termsig : Nat) :
    Caster.Status.AC ∉ signalStatuses status termsig := by
  unfold signalStatuses
  split_ifs <;> simp

/-- AC is written exactly when the ending word reads as an exit and `diff`
left an empty output file. -/
theorem accepted_mem_iff (ws : List Wait4) :
    Caster.Status.AC ∈ statuses env ws ↔
      ∃ e d, ws.find? endsLoop = some e ∧
        wifexited (statusWord e) = true ∧
        env.diff = some d ∧ d.size = some 0 := by
  cases hf : ws.find? endsLoop with
  | none => simp [statuses_of_find?_none env hf]
  | some e =>
      rw [statuses_of_find?_some env hf]
      cases hexit : wifexited (statusWord e) with
      | true => simp [exitStatuses_accepted_iff, hexit]
      | false =>
          cases hterm : wifsignaled (statusWord e) with
          | true => simp [signalStatuses_not_accepted, hexit]
          | false => simp [hexit]

/-- If the ending word reads as an exit and `diff` left its output empty, then
`wait4` did not fail there, and `diff` ran without trouble unless the files are
equal all the same. -/
def AcceptGrounded (files : LuaString → FileState) (ws : List Wait4) : Prop :=
  ∀ e d, ws.find? endsLoop = some e →
    wifexited (statusWord e) = true →
    env.diff = some d → d.size = some 0 →
    e ≠ .failed ∧
      (DiffTrouble d →
        SameBytes (files env.paths.output) (files env.args.result))

/-- The only exit a run can have read is the result that ended it. -/
theorem reallyExited_iff
    {ws : List Wait4} {e : Wait4} (h : ws.find? endsLoop = some e)
    (hexit : wifexited (statusWord e) = true) :
    ReallyExited env ws ↔ e ≠ .failed := by
  unfold ReallyExited
  rw [waits_of_find?_some env h]
  constructor
  · rintro ⟨r, hr, hrexit⟩ rfl
    have hends : endsLoop (.reported r) = true := by
      simp [endsLoop, statusWord, hrexit]
    rcases List.mem_append.mp hr with hr | hr
    · simp [not_ends_of_mem_beforeEnd endsLoop hr] at hends
    · simp at hr
  · intro hne
    cases e with
    | failed => exact absurd rfl hne
    | reported r => exact ⟨r, by simp, hexit⟩

/-- **Soundness of AC**, with the condition under which the code has it. -/
theorem accepted_sound_iff
    (files : LuaString → FileState)
    (hdiff : ∀ d, env.diff = some d →
      DiffBehaves (files env.paths.output) (files env.args.result) d)
    (ws : List Wait4) :
    (Caster.Status.AC ∈ statuses env ws →
        ReallyExited env ws ∧
          SameBytes (files env.paths.output) (files env.args.result)) ↔
      AcceptGrounded env files ws := by
  constructor
  · intro hsound e d he hexit hd hsize
    have hacc := (accepted_mem_iff env ws).mpr ⟨e, d, he, hexit, hd, hsize⟩
    obtain ⟨hreal, hsame⟩ := hsound hacc
    exact ⟨(reallyExited_iff env he hexit).mp hreal, fun _ => hsame⟩
  · intro hground hacc
    obtain ⟨e, d, he, hexit, hd, hsize⟩ := (accepted_mem_iff env ws).mp hacc
    obtain ⟨hne, htrouble⟩ := hground e d he hexit hd hsize
    refine ⟨(reallyExited_iff env he hexit).mpr hne, ?_⟩
    by_cases h : DiffTrouble d
    · exact htrouble h
    · exact (hdiff d hd).sameBytes h

/-- A failed `wait4`, and an exited program without an expected output, are
both written as AC when `diff` fails with an empty output. -/
theorem accepted_without_match :
    (Caster.Status.AC ∈ statuses (sampleEnv (some ⟨0x0200, some 0⟩)) [.failed] ∧
        waits (evaluateTracer (sampleEnv (some ⟨0x0200, some 0⟩))
          [.failed]).effects = [.failed]) ∧
      DiffBehaves (.file [52] true) .missing ⟨0x0200, some 0⟩ ∧
      Caster.Status.AC ∈ statuses (sampleEnv (some ⟨0x0200, some 0⟩))
        [sampleReport 0x057f 59, sampleReport 0x0000 0] ∧
      ¬ SameBytes (.file [52] true) .missing := by
  refine ⟨⟨by decide, by decide⟩, .trouble (by decide), by decide, ?_⟩
  rintro ⟨_, _, _, _, h⟩
  cases h

/-- A run with an equal output, where the condition holds and AC is sound. -/
theorem accepted_sound_iff_equal :
    (Caster.Status.AC ∈ statuses (sampleEnv (some ⟨0x0000, some 0⟩))
          [sampleReport 0x057f 59, sampleReport 0x0000 0] →
        ReallyExited (sampleEnv (some ⟨0x0000, some 0⟩))
            [sampleReport 0x057f 59, sampleReport 0x0000 0] ∧
          SameBytes (.file [52] true) (.file [52] true)) ↔
      AcceptGrounded (sampleEnv (some ⟨0x0000, some 0⟩))
        (fun _ => .file [52] true)
        [sampleReport 0x057f 59, sampleReport 0x0000 0] :=
  accepted_sound_iff (sampleEnv (some ⟨0x0000, some 0⟩))
    (fun _ => .file [52] true)
    (fun d hd => by
      cases hd
      exact .equal (by decide) (by decide))
    [sampleReport 0x057f 59, sampleReport 0x0000 0]

end Accepted

/-! ## One result per run -/

section OneResult

variable (env : TracerEnv)

/-- The ends for which the tracer has a result: a termination by one of the
three signals it knows, an exit whose `diff` output can be examined, a SIGPROF
stop. -/
def EndHasResult (e : Wait4) : Prop :=
  (wifsignaled (statusWord e) = true →
    wtermsig (statusWord e) ∈ [SIGSEGV, SIGPROF, SIGKILL]) ∧
  (wifexited (statusWord e) = true →
    ∀ d, env.diff = some d → d.size ≠ none)

theorem length_signalStatuses (status : Option LuaString) (termsig : Nat) :
    (signalStatuses status termsig).length = 1 ↔
      termsig ∈ [SIGSEGV, SIGPROF, SIGKILL] := by
  unfold signalStatuses
  split_ifs <;> simp_all

theorem length_exitStatuses {d : DiffEnd} (hd : env.diff = some d) :
    (exitStatuses env).length = 1 ↔ d.size ≠ none := by
  unfold exitStatuses
  rw [hd]
  cases hs : d.size with
  | none => simp [hs]
  | some size => by_cases hz : size = 0 <;> simp [hs, hz]

theorem length_statuses_of_find?_some
    {ws : List Wait4} {e : Wait4} {d : DiffEnd}
    (hd : env.diff = some d) (h : ws.find? endsLoop = some e) :
    (statuses env ws).length = 1 ↔ EndHasResult env e := by
  rw [statuses_of_find?_some env h, EndHasResult]
  cases hexit : wifexited (statusWord e) with
  | true =>
      have hterm := not_wifsignaled_of_wifexited hexit
      simp [hterm, length_exitStatuses env hd, hd]
  | false =>
      cases hterm : wifsignaled (statusWord e) with
      | true => simp [length_signalStatuses]
      | false => simp

/-- **Every judged run gets a result**, with the condition under which the code
gives exactly one: `diff`'s callback runs, and the sequence of wait results
ends with an end of the tracee or with a SIGPROF stop. -/
theorem single_result_iff
    {d : DiffEnd} (hd : env.diff = some d)
    (ws : List Wait4) {e : Wait4} (he : endsLoop e = true) :
    ((evaluateTracer env (ws ++ [e])).state = none ∧
        (results (evaluateTracer env (ws ++ [e])).effects).length = 1) ↔
      ∀ f, (ws ++ [e]).find? endsLoop = some f → EndHasResult env f := by
  have hlen : (results (evaluateTracer env (ws ++ [e])).effects).length =
      (statuses env (ws ++ [e])).length := by
    simp [statuses]
  obtain ⟨f, hf⟩ : ∃ f, (ws ++ [e]).find? endsLoop = some f := by
    rw [← Option.isSome_iff_exists, List.find?_isSome]
    exact ⟨e, by simp, he⟩
  rw [hlen, length_statuses_of_find?_some env hd hf, hf]
  constructor
  · rintro ⟨_, hres⟩ g hg
    cases hg
    exact hres
  · intro h
    exact ⟨(ended_iff env _).mpr ⟨f, hf⟩, h f rfl⟩

/-- A program that aborts, and so ends by SIGABRT, gets no result. -/
theorem no_result_on_abort :
    (evaluateTracer (sampleEnv (some ⟨0x0000, some 0⟩))
        [sampleReport 0x057f 59, sampleReport 0x0006 0]).state = none ∧
      results (evaluateTracer (sampleEnv (some ⟨0x0000, some 0⟩))
        [sampleReport 0x057f 59, sampleReport 0x0006 0]).effects = [] := by
  decide

/-- The condition at a run that ends with a normal exit. -/
theorem single_result_iff_exit :
    ((evaluateTracer (sampleEnv (some ⟨0x0000, some 0⟩))
          ([sampleReport 0x057f 59] ++ [sampleReport 0x0000 0])).state = none ∧
        (results (evaluateTracer (sampleEnv (some ⟨0x0000, some 0⟩))
          ([sampleReport 0x057f 59] ++
            [sampleReport 0x0000 0])).effects).length = 1) ↔
      ∀ f, ([sampleReport 0x057f 59] ++ [sampleReport 0x0000 0]).find?
          endsLoop = some f →
        EndHasResult (sampleEnv (some ⟨0x0000, some 0⟩)) f :=
  single_result_iff (sampleEnv (some ⟨0x0000, some 0⟩)) rfl
    [sampleReport 0x057f 59] (by decide)

end OneResult

/-! ## A violation is final -/

section Violation

variable (env : TracerEnv)

/-- A stop after the first, before the end of the run, had a name outside the
whitelist. -/
def FoundViolation (ws : List Wait4) : Prop :=
  ∃ name ∈ (stopNames env ws).tail, name ∉ env.args.syscallWhitelist

/-- The results that judge a run by its output or its time. -/
def JudgesRun (s : Caster.Status) : Prop :=
  s = .AC ∨ s = .WA ∨ s = .TLE

/-- The ends that overrule an earlier violation: an exit whose `diff` output
can be examined, a termination by SIGPROF, a SIGPROF stop. -/
def EndOverrules (e : Wait4) : Prop :=
  (wifexited (statusWord e) = true ∧
    ∃ d, env.diff = some d ∧ d.size ≠ none) ∨
  (wifsignaled (statusWord e) = true ∧ wtermsig (statusWord e) = SIGPROF) ∨
  (wifstopped (statusWord e) = true ∧ wstopsig (statusWord e) = SIGPROF)

theorem exitStatuses_judges_iff :
    (∃ s ∈ exitStatuses env, JudgesRun s) ↔
      ∃ d, env.diff = some d ∧ d.size ≠ none := by
  unfold exitStatuses
  cases env.diff with
  | none => simp
  | some d =>
      cases hs : d.size with
      | none => simp [hs]
      | some size => by_cases hz : size = 0 <;> simp [hs, hz, JudgesRun]

theorem signalStatuses_judges_iff (status : Option LuaString) (termsig : Nat) :
    (∃ s ∈ signalStatuses status termsig, JudgesRun s) ↔ termsig = SIGPROF := by
  unfold signalStatuses
  split_ifs with hsegv hprof hkill hsome
  · simp [JudgesRun, hsegv, SIGSEGV, SIGPROF]
  · simp [JudgesRun, hprof]
  · simp [JudgesRun, hprof]
  · simp [JudgesRun, hprof]
  · simp [hprof]

/-- A run writes one of the judging results exactly at such an end. -/
theorem exists_judging_status_iff
    {ws : List Wait4} {e : Wait4} (h : ws.find? endsLoop = some e) :
    (∃ s ∈ statuses env ws, JudgesRun s) ↔ EndOverrules env e := by
  rw [statuses_of_find?_some env h, EndOverrules]
  cases hexit : wifexited (statusWord e) with
  | true =>
      have hterm := not_wifsignaled_of_wifexited hexit
      have hstop : wifstopped (statusWord e) = false := by
        by_contra hne
        have := (not_ended_of_wifstopped (Bool.eq_true_of_not_eq_false hne)).1
        rw [hexit] at this
        cases this
      simp only [if_true, exitStatuses_judges_iff, hterm, hstop]
      simp
  | false =>
      cases hterm : wifsignaled (statusWord e) with
      | true =>
          have hstop : wifstopped (statusWord e) = false := by
            by_contra hne
            have := (not_ended_of_wifstopped (Bool.eq_true_of_not_eq_false hne)).2
            rw [hterm] at this
            cases this
          simp only [if_true, if_false, Bool.false_eq_true,
            signalStatuses_judges_iff, hstop]
          simp
      | false =>
          rcases endsLoop_cases (List.find?_some h) with h1 | h2 | ⟨hstop, hsig⟩
          · rw [hexit] at h1
            cases h1
          · rw [hterm] at h2
            cases h2
          · simp [JudgesRun, hstop, hsig]

/-- **A detected violation is final**, with the condition under which the code
keeps to it. -/
theorem violation_final_iff (ws : List Wait4) :
    (FoundViolation env ws → ∀ s ∈ statuses env ws, ¬ JudgesRun s) ↔
      (FoundViolation env ws →
        ∀ e, ws.find? endsLoop = some e → ¬ EndOverrules env e) := by
  apply imp_congr_right
  intro _
  constructor
  · intro h e he hover
    obtain ⟨s, hs, hjudges⟩ := (exists_judging_status_iff env he).mpr hover
    exact h s hs hjudges
  · intro h s hs hjudges
    cases hf : ws.find? endsLoop with
    | none =>
        rw [statuses_of_find?_none env hf] at hs
        cases hs
    | some e =>
        exact h e hf ((exists_judging_status_iff env hf).mp ⟨s, hs, hjudges⟩)

/-- A program that made a forbidden call, survived the kill request and then
exited is accepted. -/
theorem violation_then_accepted :
    FoundViolation (sampleEnv (some ⟨0x0000, some 0⟩))
        [sampleReport 0x057f 59, sampleReport 0x057f 57,
          sampleReport 0x0000 0] ∧
      statuses (sampleEnv (some ⟨0x0000, some 0⟩))
        [sampleReport 0x057f 59, sampleReport 0x057f 57,
          sampleReport 0x0000 0] = [.AC] := by
  refine ⟨⟨bytes "unknown", by decide, by decide⟩, by decide⟩

end Violation

end Tracer
end Iojxd
