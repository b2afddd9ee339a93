import Iojxd.SessionIsolation
import Iojxd.TracerVerdicts

/-!
# The result of a session

Over all processes that work for it, a session writes at most one result.  A
session that is over has delivered it unless a Lua error was raised on the way or
the program was killed by a signal that `evaluate_tracer` does not name.  Where
`diff` decides, the verdict depends on the two files as they were when it ran.
-/

namespace Iojxd
namespace Sessions

open Tracer WaitStatus SharedStore TransitionRun InputLoop
open ChildTermination (ChildEnd)
open JudgeCompile (CompilerChild)

/-! ## Events of a session -/

/-- What the daemon and the tracer did, among the events of a session. -/
def tracerEvents (trace : List Event) : List TracerEvent :=
  trace.filterMap fun
    | .did e => some e
    | .exec _ => none

theorem tracerEvents_did (trace : List Event) (es : List TracerEvent) :
    tracerEvents (trace ++ es.map .did) = tracerEvents trace ++ es := by
  have hmap : tracerEvents (es.map .did) = es := by
    induction es with
    | nil => rfl
    | cons e es ih => exact congrArg (e :: ·) ih
  rw [tracerEvents, List.filterMap_append]
  exact congrArg (tracerEvents trace ++ ·) hmap

theorem tracerEvents_exec
    (trace : List Event) (argv : List (Option LuaString)) :
    tracerEvents (trace ++ [.exec argv]) = tracerEvents trace := by
  simp [tracerEvents]

/-- The results that a session has been given. -/
def Session.results (x : Session) : List StatusRecord :=
  Tracer.results (tracerEvents x.trace)

/-- The program was terminated by a signal for which nothing is written. -/
def OtherSignal (w : Wait4) : Prop :=
  wifsignaled (statusWord w) = true ∧
    wtermsig (statusWord w) ∉ [SIGSEGV, SIGPROF, SIGKILL]

/-- Why a session may have no result in its outfile. -/
inductive Lost (es : List TracerEvent) : Prop
  | raised (h : .raised ∈ es) : Lost es
  | signal (w : Wait4) (h : .waited w ∈ es) (hsignal : OtherSignal w) : Lost es

/-- The only result is in the outfile. -/
def Delivered (opens : Bool) (es : List TracerEvent) : Prop :=
  opens = true ∧ ∃ r, Tracer.results es = [r]

/-- Nothing has been written yet and nothing has gone wrong. -/
structure Clean (es : List TracerEvent) : Prop where
  results : Tracer.results es = []
  kept : ¬ Lost es

theorem clean_nil : Clean [] where
  results := rfl
  kept := by
    rintro (h | ⟨w, h, _⟩)
    · cases h
    · cases h

theorem lost_append (es fs : List TracerEvent) :
    Lost (es ++ fs) ↔ Lost es ∨ Lost fs := by
  constructor
  · rintro (h | ⟨w, h, hsignal⟩)
    · rcases List.mem_append.mp h with h | h
      · exact Or.inl (.raised h)
      · exact Or.inr (.raised h)
    · rcases List.mem_append.mp h with h | h
      · exact Or.inl (.signal w h hsignal)
      · exact Or.inr (.signal w h hsignal)
  · rintro ((h | ⟨w, h, hsignal⟩) | (h | ⟨w, h, hsignal⟩))
    · exact .raised (List.mem_append_left fs h)
    · exact .signal w (List.mem_append_left fs h) hsignal
    · exact .raised (List.mem_append_right es h)
    · exact .signal w (List.mem_append_right es h) hsignal

theorem Clean.append
    {es fs : List TracerEvent} (hes : Clean es) (hfs : Clean fs) :
    Clean (es ++ fs) where
  results := by rw [results_append, hes.results, hfs.results, List.append_nil]
  kept := by
    rw [lost_append]
    rintro (h | h)
    · exact hes.kept h
    · exact hfs.kept h

/-- At most one result, and it is in the outfile unless something went wrong. -/
structure Concluded (opens : Bool) (es : List TracerEvent) : Prop where
  once : (Tracer.results es).length ≤ 1
  delivered : Delivered opens es ↔ ¬ Lost es

/-- What is concluded by the last events is concluded by all. -/
theorem Clean.concluded
    {opens : Bool} {es fs : List TracerEvent} (hes : Clean es)
    (hfs : Concluded opens fs) :
    Concluded opens (es ++ fs) := by
  have hresults : Tracer.results (es ++ fs) = Tracer.results fs := by
    rw [results_append, hes.results, List.nil_append]
  constructor
  · rw [hresults]
    exact hfs.once
  · rw [Delivered, hresults, lost_append, or_iff_right hes.kept]
    exact hfs.delivered

/-! ## The last events -/

section Last

variable (env : TracerEnv)

theorem lost_writeStatus_iff (r : StatusRecord) :
    Lost (writeStatus env r) ↔ env.outfileOpens = false := by
  constructor
  · intro h
    by_contra hopen
    rw [Bool.not_eq_false] at hopen
    rw [writeStatus, if_pos hopen] at h
    rcases h with h | ⟨w, h, _⟩
    · simp at h
    · simp at h
  · intro hclosed
    apply Lost.raised
    simp [writeStatus, hclosed]

theorem concluded_writeStatus (r : StatusRecord) :
    Concluded env.outfileOpens (writeStatus env r) := by
  constructor
  · rw [results_writeStatus]
    exact le_rfl
  · rw [lost_writeStatus_iff env, Delivered, results_writeStatus]
    simp

theorem concluded_raised (opens : Bool) : Concluded opens [.raised] := by
  have hlost : Lost [.raised] := .raised (by simp)
  refine ⟨Nat.zero_le 1, ?_⟩
  rw [iff_false_right (not_not_intro hlost)]
  rintro ⟨_, r, hr⟩
  cases hr

/-- A wait result that is no unnamed signal, alone. -/
theorem clean_waited {w : Wait4} (hw : ¬ OtherSignal w) : Clean [.waited w] where
  results := rfl
  kept := by
    rintro (h | ⟨v, h, hsignal⟩)
    · simp at h
    · obtain rfl : v = w := by simpa using h
      exact hw hsignal

theorem concluded_diffCallback (time : ℚ) (mem : Int) (d : DiffEnd) :
    Concluded env.outfileOpens (diffCallback env time mem d) := by
  unfold diffCallback
  cases d.size with
  | none => exact concluded_raised _
  | some size =>
      by_cases hz : size = 0
      · simp only [hz, if_true]
        exact concluded_writeStatus env _
      · simp only [hz, if_false]
        exact concluded_writeStatus env _

/-- An iteration that leaves the loop without forking `diff` concludes. -/
theorem concluded_body
    {w : Wait4} (s : TracerState) (hend : endsLoop w = true)
    (hexit : wifexited (statusWord w) = false) :
    Concluded env.outfileOpens (evaluateTracerBody env s w).1 := by
  rcases endsLoop_cases hend with h | hterm | ⟨hstop, hsig⟩
  · rw [hexit] at h
    cases h
  · rw [body_signaled env s hterm]
    by_cases hnamed : OtherSignal w
    · have hnone : signaledBranch env s.status (wtermsig (statusWord w))
          (usage env w).1 (usage env w).2 = [] := by
        have hnot := hnamed.2
        simp only [List.mem_cons, List.not_mem_nil, or_false, not_or] at hnot
        simp [signaledBranch, hnot]
      have hlost : Lost [.waited w] := .signal w (by simp) hnamed
      rw [hnone]
      refine ⟨Nat.zero_le 1, ?_⟩
      rw [iff_false_right (not_not_intro hlost)]
      rintro ⟨_, r, hr⟩
      cases hr
    · have hwrites : ∃ r, signaledBranch env s.status
          (wtermsig (statusWord w)) (usage env w).1 (usage env w).2 =
            writeStatus env r := by
        have hmem : wtermsig (statusWord w) ∈ [SIGSEGV, SIGPROF, SIGKILL] := by
          by_contra hnot
          exact hnamed ⟨hterm, hnot⟩
        simp only [List.mem_cons, List.not_mem_nil, or_false] at hmem
        rcases hmem with h | h | h
        · exact ⟨_, by simp [signaledBranch, h]; rfl⟩
        · exact ⟨_, by simp [signaledBranch, h, SIGPROF, SIGSEGV, SIGKILL]; rfl⟩
        · cases hs : s.status with
          | none =>
              exact ⟨_, by
                simp [signaledBranch, h, SIGPROF, SIGSEGV, SIGKILL]; rfl⟩
          | some name =>
              exact ⟨_, by
                simp [signaledBranch, h, SIGPROF, SIGSEGV, SIGKILL]; rfl⟩
      obtain ⟨r, hr⟩ := hwrites
      rw [hr]
      exact (clean_waited hnamed).concluded (concluded_writeStatus env r)
  · rw [body_profStop env s hstop hsig]
    have hnamed : ¬ OtherSignal w := by
      rintro ⟨hterm, _⟩
      rw [(not_ended_of_wifstopped hstop).2] at hterm
      cases hterm
    exact (clean_waited hnamed).concluded (concluded_writeStatus env _)

/-- Forking `diff` writes nothing. -/
theorem clean_exited
    {w : Wait4} (s : TracerState) (hdiff : env.diff = none)
    (hexit : wifexited (statusWord w) = true) :
    Clean (evaluateTracerBody env s w).1 := by
  have hnamed : ¬ OtherSignal w := by
    rintro ⟨hterm, _⟩
    rw [not_wifsignaled_of_wifexited hexit] at hterm
    cases hterm
  rw [body_exited env s hexit, exitedBranch, hdiff]
  apply (clean_waited hnamed).append
  refine ⟨rfl, ?_⟩
  rintro (h | ⟨v, h, _⟩)
  · simp at h
  · simp at h

/-- An iteration that goes on writes nothing. -/
theorem clean_body
    {w : Wait4} (s : TracerState) (hgoes : endsLoop w = false) :
    Clean (evaluateTracerBody env s w).1 := by
  refine ⟨results_body_of_not_ends env s hgoes, ?_⟩
  have hnamed : ¬ OtherSignal w := by
    rintro ⟨hterm, _⟩
    rw [endsLoop, hterm] at hgoes
    simp at hgoes
  cases hstop : judgedStop w with
  | true =>
      rw [body_judgedStop env s hstop]
      have hbranch : ¬ Lost (stoppedBranch env s (stopName env w)).1 := by
        unfold stoppedBranch
        split_ifs <;>
        · rintro (h | ⟨v, h, _⟩)
          · simp at h
          · simp at h
      exact ((clean_waited hnamed).append
        ⟨results_stoppedBranch env s _, hbranch⟩).kept
  | false =>
      rw [body_ignored env s hgoes hstop]
      exact (clean_waited hnamed).kept

end Last

/-! ## At most one result -/

/-- Before its end a session has written nothing; then it has concluded. -/
structure InOrder (h : Host) (x : Session) : Prop where
  running : x.phase ≠ .done → Clean (tracerEvents x.trace)
  concluded : x.phase = .done →
    Concluded (h.writable (cString x.args.outfile)) (tracerEvents x.trace)

section Order

variable {h : Host}

/-- Starting a program changes nothing in the order. -/
theorem InOrder.exec
    {x y : Session} (hx : InOrder h x) {argv : List (Option LuaString)}
    (hphase : y.phase = .done ↔ x.phase = .done) (hargs : y.args = x.args)
    (htrace : y.trace = x.trace ++ [.exec argv]) :
    InOrder h y := by
  have hevents : tracerEvents y.trace = tracerEvents x.trace := by
    rw [htrace, tracerEvents_exec]
  constructor
  · intro hy
    rw [hevents]
    exact hx.running fun hover => hy (hphase.mpr hover)
  · intro hy
    rw [hevents, hargs]
    exact hx.concluded (hphase.mp hy)

theorem InOrder.conclude
    {x : Session} (hx : InOrder h x) (hphase : x.phase ≠ .done)
    {es : List TracerEvent}
    (hes : Concluded (h.writable (cString x.args.outfile)) es) :
    InOrder h (x.after es .done) where
  running := fun hy => absurd rfl hy
  concluded := by
    intro _
    change Concluded _ (tracerEvents (x.trace ++ es.map .did))
    rw [tracerEvents_did]
    exact (hx.running hphase).concluded hes

theorem InOrder.goOn
    {x : Session} (hx : InOrder h x) (hphase : x.phase ≠ .done)
    {es : List TracerEvent} (hes : Clean es) {phase : Phase}
    (hnext : phase ≠ .done) :
    InOrder h (x.after es phase) where
  running := by
    intro _
    change Clean (tracerEvents (x.trace ++ es.map .did))
    rw [tracerEvents_did]
    exact (hx.running hphase).append hes
  concluded := fun hy => absurd hy hnext

/-- The callback of the compiler's watcher concludes or evaluates. -/
theorem judgeCallback_cases
    (x : Session) (m : Files) (pid : Int) (e : ChildEnd) :
    (judgeCallback h x m pid e).2 = .done ∧
        Concluded (h.writable (cString x.args.outfile))
          (judgeCallback h x m pid e).1 ∨
      judgeCallback h x m pid e = ([], .evaluating) := by
  unfold judgeCallback
  dsimp only
  split
  · left
    cases readall h m (x.paths h).cclog with
    | none => exact ⟨rfl, concluded_raised _⟩
    | some log =>
        exact ⟨rfl, concluded_writeStatus (tracerEnv h x pid) _⟩
  · exact Or.inr rfl

/-- The three ways in which an iteration of the tracer's loop ends. -/
theorem phaseAfter_cases
    (x : Session) (pid : Int) (s : TracerState) (w : Wait4) :
    (endsLoop w = false ∧ ∃ t, phaseAfter h x pid s w = .judging pid t) ∨
      (wifexited (statusWord w) = true ∧
        phaseAfter h x pid s w =
          .comparing (usage (tracerEnv h x pid) w).1
            (usage (tracerEnv h x pid) w).2 none) ∨
      (endsLoop w = true ∧ wifexited (statusWord w) = false ∧
        phaseAfter h x pid s w = .done) := by
  have hends := body_ends_iff (tracerEnv h x pid) s w
  unfold phaseAfter
  cases hb : (evaluateTracerBody (tracerEnv h x pid) s w).2 with
  | some t =>
      left
      refine ⟨?_, t, rfl⟩
      rw [hb] at hends
      by_contra hne
      cases hends.mpr (Bool.eq_true_of_not_eq_false hne)
  | none =>
      right
      cases hexit : wifexited (statusWord w) with
      | true => exact Or.inl ⟨rfl, rfl⟩
      | false => exact Or.inr ⟨hends.mp hb, rfl, rfl⟩

theorem inOrder_move
    {k : Act} {s : Option Session} {m : Files}
    {o : Outcome (Option Session) LuaString (Option LuaString)}
    (hm : Move h k s m o) (hs : ∀ x, s = some x → InOrder h x) :
    ∀ y, o.component = some y → InOrder h y := by
  intro y hy
  cases hm with
  | judge u a =>
      cases hy
      constructor
      · intro _
        exact clean_nil
      · intro hover
        unfold judge at hover
        dsimp only at hover
        split at hover
        · cases hover
        · cases hover
  | @compilerRuns x _ pid child wrote hphase =>
      cases hy
      refine (hs x rfl).exec ?_ rfl rfl
      simp [compilerRuns, hphase]
  | @compilerReaped x _ pid e hphase =>
      cases hy
      have hrunning : x.phase ≠ .done := by
        rw [hphase]
        exact Phase.noConfusion
      rcases judgeCallback_cases x m pid e with ⟨hover, hes⟩ | heval
      · rw [hover]
        exact (hs x rfl).conclude hrunning hes
      · rw [heval]
        exact (hs x rfl).goOn hrunning clean_nil (by simp)
  | @forksProgram x _ pid hphase =>
      cases hy
      have hrunning : x.phase ≠ .done := by
        rw [hphase]
        exact Phase.noConfusion
      exact ⟨fun _ => (hs x rfl).running hrunning, fun hover => by cases hover⟩
  | @programSetup x _ htracee =>
      cases hy
      exact (hs x rfl).exec Iff.rfl rfl rfl
  | programWrites _ path content htracee => exact hs y hy
  | @waited x _ w pid s' hphase =>
      cases hy
      have hrunning : x.phase ≠ .done := by
        rw [hphase]
        exact Phase.noConfusion
      have hx' : InOrder h { x with tracee := traceeAfter x.tracee w } :=
        ⟨(hs x rfl).running, (hs x rfl).concluded⟩
      rcases phaseAfter_cases (h := h) x pid s' w with
        ⟨hgoes, t, hnext⟩ | ⟨hexit, hnext⟩ | ⟨hend, hexit, hnext⟩
      · rw [hnext]
        exact hx'.goOn hrunning (clean_body (tracerEnv h x pid) s' hgoes) (by simp)
      · rw [hnext]
        exact hx'.goOn hrunning (clean_exited (tracerEnv h x pid) s' rfl hexit) (by simp)
      · rw [hnext]
        exact hx'.conclude hrunning
          (concluded_body (tracerEnv h x pid) s' hend hexit)
  | @diffRuns x _ status out time mem hphase =>
      cases hy
      refine (hs x rfl).exec ?_ rfl rfl
      simp [hphase]
  | @diffReaped x _ time mem status hphase =>
      cases hy
      have hrunning : x.phase ≠ .done := by
        rw [hphase]
        exact Phase.noConfusion
      exact (hs x rfl).conclude hrunning
        (concluded_diffCallback (tracerEnv h x 0) time mem _)

/-- Every session of every run is in order. -/
theorem inOrder_run
    {files : Files} {ls : List Label}
    {t : System Nat (Option Session) LuaString (Option LuaString)}
    (hrun : run (behaviour h).step (init files) ls = some t)
    {i : Nat} {x : Session} (hx : t.component i = some x) :
    InOrder h x := by
  refine Behaviour.component_invariant (i := i)
    (J := fun s => ∀ x, s = some x → InOrder h x) ?_ ?_ hrun x hx
  · intro k s m o _ hs ho
    exact inOrder_move (act_eq_some_iff.mp ho) hs
  · rintro x ⟨⟩

end Order

/-- **One result per request**: in every interleaving a session writes at most
one result, none before it is over, and when it is over the result is in the
outfile unless a Lua error was raised or the program was killed by a signal that
has no result. -/
theorem result_delivered_iff
    (h : Host) (files : Files) (ls : List Label)
    (t : System Nat (Option Session) LuaString (Option LuaString))
    (hrun : run (behaviour h).step (init files) ls = some t)
    (i : Nat) (x : Session) (hx : t.component i = some x) :
    x.results.length ≤ 1 ∧
      (x.phase ≠ .done → x.results = []) ∧
      (x.phase = .done →
        (Delivered (h.writable (cString x.args.outfile))
            (tracerEvents x.trace) ↔
          ¬ Lost (tracerEvents x.trace))) := by
  have horder := inOrder_run hrun hx
  have hrunning : x.phase ≠ .done → x.results = [] :=
    fun hphase => (horder.running hphase).results
  refine ⟨?_, hrunning, fun hover => (horder.concluded hover).delivered⟩
  by_cases hover : x.phase = .done
  · exact (horder.concluded hover).once
  · rw [hrunning hover]
    exact Nat.zero_le 1

/-- The first of two sessions is over, with one result. -/
theorem sampleLabels_run :
    ∃ t x, run (behaviour sampleHost).step (init sampleFiles) sampleLabels =
        some t ∧
      t.component 0 = some x ∧ x.args = sampleArgs "/a" ∧ x.phase = .done ∧
      x.results = [⟨.AC, 0, 0, none⟩] := by
  have hshown : ((run (behaviour sampleHost).step (init sampleFiles)
      sampleLabels).bind fun t => (t.component 0).map fun x =>
        (x.phase, x.results)) = some (.done, [⟨.AC, 0, 0, none⟩]) := by
    decide +kernel
  obtain ⟨t, ht, hx⟩ := Option.bind_eq_some_iff.mp hshown
  obtain ⟨x, hx, hend⟩ := Option.map_eq_some_iff.mp hx
  have hrequested := requested_run (fun _ hl => hl) ht
  have hargs := (sampleLabels_own _ _ (hrequested 0 x hx)).2
  exact ⟨t, x, ht, hx, hargs, congrArg Prod.fst hend, congrArg Prod.snd hend⟩

theorem result_delivered_iff_accepted :
    ∃ t x, run (behaviour sampleHost).step (init sampleFiles) sampleLabels =
        some t ∧
      t.component 0 = some x ∧ x.phase = .done ∧ x.results.length ≤ 1 ∧
      (Delivered true (tracerEvents x.trace) ↔
        ¬ Lost (tracerEvents x.trace)) := by
  obtain ⟨t, x, ht, hx, -, hphase, -⟩ := sampleLabels_run
  obtain ⟨honce, -, hdelivered⟩ := result_delivered_iff sampleHost sampleFiles
    sampleLabels t ht 0 x hx
  exact ⟨t, x, ht, hx, hphase, honce, hdelivered hphase⟩

/-! ## The outfile -/

section Outfile

variable {h : Host}

/-- Events without a result change no file. -/
theorem storeEvents_of_results_nil
    {es : List TracerEvent} (hes : Tracer.results es = [])
    (outfile : LuaString) (m : Files) :
    es.foldl (storeEvent h outfile) m = m := by
  induction es generalizing m with
  | nil => rfl
  | cons e es ih =>
      cases e with
      | writeStatus r => cases hes
      | _ => exact ih hes m

/-- The only result that some events write is what the outfile holds. -/
theorem storeEvents_outfile
    {outfile : LuaString} (hopen : h.writable (cString outfile) = true)
    {es : List TracerEvent} {r : StatusRecord}
    (hes : Tracer.results es = [r]) (m : Files) :
    es.foldl (storeEvent h outfile) m (cString outfile) =
      some (recordText h r) := by
  induction es generalizing m with
  | nil => cases hes
  | cons e es ih =>
      cases e with
      | writeStatus r' =>
          change r' :: Tracer.results es = [r] at hes
          obtain ⟨rfl, hrest⟩ := List.cons_eq_cons.mp hes
          rw [List.foldl_cons, storeEvents_of_results_nil hrest]
          exact openWrite_self hopen _
      | _ => exact ih hes m

/-- A session that is not over has written nothing, so the results after a step
are those of the step. -/
theorem results_after
    {x : Session} (hx : InOrder h x) (hphase : x.phase ≠ .done)
    (es : List TracerEvent) (phase : Phase) :
    (x.after es phase).results = Tracer.results es := by
  change Tracer.results (tracerEvents (x.trace ++ es.map .did)) = _
  rw [tracerEvents_did, results_append, (hx.running hphase).results,
    List.nil_append]

/-- The result of a session is in its outfile. -/
def Written (h : Host) (s : Option Session) (m : Files) : Prop :=
  ∀ x, s = some x → ∀ r, x.results = [r] →
    h.writable (cString x.args.outfile) = true →
    m (cString x.args.outfile) = some (recordText h r)

/-- The outfile is none of the files of the session itself, and its own programs
leave it alone. -/
structure OutfileApart (h : Host) (u : Uuid) (a : Args) (k : Act) : Prop where
  session : cString a.outfile ∉ sessionFiles h u
  programs : cString a.outfile ∉ programFiles k

theorem written_move
    {k : Act} {s : Option Session} {m : Files}
    {o : Outcome (Option Session) LuaString (Option LuaString)}
    (hm : Move h k s m o) (hs : ∀ x, s = some x → InOrder h x)
    (hw : Written h s m)
    (hapart : ∀ x, s = some x → OutfileApart h x.uuid x.args k) :
    Written h o.component o.store := by
  intro y hy r hr hopen
  -- a result from before the step
  have hframe : ∀ x, s = some x → y.args = x.args → y.results = x.results →
      cString x.args.outfile ∉ touched h x k →
      o.store (cString y.args.outfile) = some (recordText h r) := by
    rintro x rfl hargs hresults hnot
    rw [hargs] at hopen ⊢
    rw [store_of_notMem_touched hm hnot]
    exact hw x rfl r (hresults ▸ hr) hopen
  -- no result yet
  have hnone : ∀ x, s = some x → x.phase ≠ .done → y.results ≠ x.results := by
    rintro x rfl hphase hresults
    have hempty : x.results = [] := ((hs x rfl).running hphase).results
    rw [hresults, hempty] at hr
    cases hr
  -- a result of the step
  have hevents : ∀ (x : Session) (es : List TracerEvent) (phase : Phase),
      InOrder h x → x.phase ≠ .done → y = x.after es phase →
      es.foldl (storeEvent h x.args.outfile) m (cString y.args.outfile) =
        some (recordText h r) := by
    rintro x es phase hx hphase rfl
    rw [results_after hx hphase] at hr
    exact storeEvents_outfile hopen hr m
  cases hm with
  | judge u a =>
      cases hy
      cases hr
  | @compilerRuns x _ pid child wrote hphase =>
      cases hy
      refine absurd ?_ (hnone x rfl (by simp [hphase]))
      exact congrArg Tracer.results (tracerEvents_exec _ _)
  | @compilerReaped x _ pid e hphase =>
      cases hy
      exact hevents x _ _ (hs x rfl) (by simp [hphase]) rfl
  | @forksProgram x _ pid hphase =>
      cases hy
      exact absurd rfl (hnone x rfl (by simp [hphase]))
  | @programSetup x _ htracee =>
      cases hy
      apply hframe x rfl rfl
      · exact congrArg Tracer.results (tracerEvents_exec _ _)
      · intro hmem
        apply (hapart x rfl).session
        rw [List.mem_singleton.mp hmem]
        exact output_mem h x
  | programWrites _ path content htracee =>
      exact hframe y hy rfl rfl (hapart y hy).programs
  | @waited x _ w pid s' hphase =>
      cases hy
      exact hevents { x with tracee := traceeAfter x.tracee w } _ _
        ⟨(hs x rfl).running, (hs x rfl).concluded⟩ (by simp [hphase]) rfl
  | @diffRuns x _ status out time mem hphase =>
      cases hy
      refine absurd ?_ (hnone x rfl (by simp [hphase]))
      exact congrArg Tracer.results (tracerEvents_exec _ _)
  | @diffReaped x _ time mem status hphase =>
      cases hy
      exact hevents x _ _ (hs x rfl) (by simp [hphase]) rfl

/-- The outfile of a session in every run in which the others keep apart and its
own programs leave the outfile alone. -/
theorem written_run
    (hplain : h.PlainTmpPath) {i : Nat} {u : Uuid} {a : Args}
    {files : Files} {ls : List Label}
    (hown : ∀ u' a', (i, .judge u' a') ∈ ls → u' = u ∧ a' = a)
    (hapart : Apart h i u a ls)
    (hself : ∀ k, (i, k) ∈ ls → OutfileApart h u a k)
    {t : System Nat (Option Session) LuaString (Option LuaString)}
    (hrun : run (behaviour h).step (init files) ls = some t) :
    StartedBy u a (t.component i) ∧ Written h (t.component i) t.store := by
  -- the invariant of the system along this run
  have hinvariant : Requested ls t ∧ StartedBy u a (t.component i) ∧
      (∀ x, t.component i = some x → InOrder h x) ∧
      Written h (t.component i) t.store := by
    refine run_invariant_of_mem
      (I := fun s => Requested ls s ∧ StartedBy u a (s.component i) ∧
        (∀ x, s.component i = some x → InOrder h x) ∧
        Written h (s.component i) s.store) ?_ ?_ hrun
    · rintro s v ⟨j, k⟩ hl ⟨hreq, hstart, horder, hwritten⟩ hv
      have hreq' := requested_step hl hreq hv
      by_cases hj : j = i
      · subst hj
        obtain ⟨o, hmove, hcomponent, hstore⟩ := move_of_step hv
        rw [hcomponent, hstore]
        refine ⟨hreq', ?_, inOrder_move hmove horder,
          written_move hmove horder hwritten ?_⟩
        · apply startedBy_of_move _ hstart hmove
          rintro u' a' rfl
          exact hown u' a' hl
        · intro y hy
          obtain ⟨hu, ha⟩ := hstart y hy
          rw [hu, ha]
          exact hself k hl
      · have hkept := Behaviour.component_of_ne (i := i) hv hj
        have hspares := spares_step hplain hapart hreq hl hj hv
        rw [hkept]
        refine ⟨hreq', hstart, horder, ?_⟩
        intro y hy r hr hopen
        have hmem : cString y.args.outfile ∈ footprint h u a := by
          rw [(hstart y hy).2]
          exact Or.inr (Or.inl rfl)
        rw [hspares hmem]
        exact hwritten y hy r hr hopen
    · refine ⟨requested_init files, ?_, ?_, ?_⟩
      · rintro x ⟨⟩
      · rintro x ⟨⟩
      · rintro x ⟨⟩
  exact ⟨hinvariant.2.1, hinvariant.2.2.2⟩

/-- **What the client finds**: in every interleaving in which the others keep
apart and the programs of the session leave the outfile alone, the outfile holds
the result of the session, and nothing else. -/
theorem outfile_holds_result
    (hplain : h.PlainTmpPath) {i : Nat} {u : Uuid} {a : Args}
    {files : Files} {ls : List Label}
    (hown : ∀ u' a', (i, .judge u' a') ∈ ls → u' = u ∧ a' = a)
    (hapart : Apart h i u a ls)
    (hself : ∀ k, (i, k) ∈ ls → OutfileApart h u a k)
    {t : System Nat (Option Session) LuaString (Option LuaString)}
    (hrun : run (behaviour h).step (init files) ls = some t)
    {x : Session} (hx : t.component i = some x)
    {r : StatusRecord} (hr : x.results = [r])
    (hopen : h.writable (cString a.outfile) = true) :
    t.store (cString a.outfile) = some (recordText h r) := by
  obtain ⟨hstart, hwritten⟩ := written_run hplain hown hapart hself hrun
  have hargs : x.args = a := (hstart x hx).2
  rw [← hargs] at hopen ⊢
  exact hwritten x hx r hr hopen

/-- The programs of the sample leave the outfile alone. -/
theorem sampleLabels_self (k : Act) (h : (0, k) ∈ sampleLabels) :
    OutfileApart sampleHost sampleUuid (sampleArgs "/a") k := by
  have hk : programFiles k = [] ∨
      k = .programWrites (bytes "/tmp/iojxd/0a/tmp.out")
        (some (bytes "42")) := by
    simp [sampleLabels, sampleJudging] at h
    rcases h with rfl | rfl | rfl | rfl | rfl | rfl | rfl
    all_goals first
      | exact Or.inl rfl
      | exact Or.inr rfl
  refine ⟨?_, ?_⟩
  · simp only [sessionFiles, fileNames]
    simp
    decide
  · rcases hk with hk | rfl
    · simp [hk]
    · decide

theorem outfile_holds_result_accepted :
    ∃ t, run (behaviour sampleHost).step (init sampleFiles) sampleLabels =
        some t ∧
      t.store (bytes "/a") = some (recordText sampleHost ⟨.AC, 0, 0, none⟩) := by
  obtain ⟨t, x, ht, hx, -, -, hr⟩ := sampleLabels_run
  exact ⟨t, ht, outfile_holds_result plainTmpPath_sampleHost sampleLabels_own
    apart_sampleLabels sampleLabels_self ht hx hr rfl⟩

end Outfile

/-! ## Where `diff` decides -/

/-- `diff` prints nothing: the two files are equal, or one of them cannot be
read and only an error message is printed. -/
def DiffSilent (h : Host) (x : Session) (m : Files) : Prop :=
  ∀ output result,
    readall h m (x.paths h).output = some output →
    readall h m x.args.result = some result → output = result

section Comparison

variable {h : Host} {i : Nat}

/-- The result of the callback of `diff`. -/
theorem results_diffCallback
    (env : TracerEnv) (time : ℚ) (mem : Int) (status : Word) (out : LuaString) :
    Tracer.results (diffCallback env time mem ⟨status, some out.length⟩) =
      [⟨if out = [] then .AC else .WA, time, mem, none⟩] := by
  cases out with
  | nil => exact results_writeStatus env _
  | cons b out => exact results_writeStatus env _

/-- From the run of `diff` to the callback: the session is the same one, and the
output of `diff` is as `diff` left it. -/
def Waiting (h : Host) (i : Nat) (u : Uuid) (out : LuaString)
    (s : System Nat (Option Session) LuaString (Option LuaString)) : Prop :=
  (∃ y, s.component i = some y ∧ y.uuid = u) ∧
    s.store (sessionFile h u (bytes "diff.diff")) = some out

theorem waiting_step
    {u : Uuid} {out : LuaString} {l : Label}
    {s t : System Nat (Option Session) LuaString (Option LuaString)}
    (hs : Waiting h i u out s) (ht : (behaviour h).step s l = some t)
    (hleft : t.store (sessionFile h u (bytes "diff.diff")) =
      s.store (sessionFile h u (bytes "diff.diff"))) :
    Waiting h i u out t := by
  obtain ⟨⟨y, hy, huuid⟩, hout⟩ := hs
  refine ⟨?_, hleft.trans hout⟩
  obtain ⟨j, k⟩ := l
  by_cases hj : j = i
  · subst hj
    obtain ⟨o, hmove, hcomponent, _⟩ := move_of_step ht
    rw [hy] at hmove
    obtain ⟨z, hz, huuid', _⟩ := request_of_move hmove
    exact ⟨z, hcomponent.trans hz, huuid'.trans huuid⟩
  · exact ⟨y, (Behaviour.component_of_ne ht hj).trans hy, huuid⟩

/-- **The verdict of a comparison**: whatever else happens between the run of
`diff` and its callback, if no step changes the output of `diff` and the output
could be opened, the result is AC exactly where `diff` found the files equal or
could not read one of them, and WA otherwise. -/
theorem verdict_of_comparison
    {files : Files} {pre mid : List Label} {status : Word} {out : LuaString}
    {s s₁ s₂ t : System Nat (Option Session) LuaString (Option LuaString)}
    (hpre : run (behaviour h).step (init files) pre = some s)
    {x : Session} (hx : s.component i = some x)
    (hruns : (behaviour h).step s (i, .diffRuns status out) = some s₁)
    (hopen : h.writable (sessionFile h x.uuid (bytes "diff.diff")) = true)
    (hdiff : out = [] ↔ DiffSilent h x s.store)
    (hmid : run (behaviour h).step s₁ mid = some s₂)
    (hleft : EveryStep (behaviour h).step
      (fun s _ t => t.store (sessionFile h x.uuid (bytes "diff.diff")) =
        s.store (sessionFile h x.uuid (bytes "diff.diff"))) s₁ mid)
    (hreaped : (behaviour h).step s₂ (i, .diffReaped) = some t) :
    ∃ y r, t.component i = some y ∧ y.results = [r] ∧
      (r.status = .AC ↔ DiffSilent h x s.store) ∧
      (r.status = .WA ↔ ¬ DiffSilent h x s.store) := by
  -- `diff` runs
  have hwaiting₁ : Waiting h i x.uuid out s₁ := by
    obtain ⟨o, hmove, hcomponent, hstore⟩ := move_of_step hruns
    rw [hx] at hmove
    unfold Waiting
    rw [hcomponent, hstore]
    cases hmove with
    | diffRuns _ _ _ hphase => exact ⟨⟨_, rfl, rfl⟩, openWrite_self hopen out⟩
  -- until the callback looks
  have hwaiting₂ : Waiting h i x.uuid out s₂ :=
    run_invariant_of_everyStep (fun _ _ _ => waiting_step) hwaiting₁ hleft hmid
  obtain ⟨⟨y, hy, huuid⟩, hlook⟩ := hwaiting₂
  have hreach : run (behaviour h).step (init files)
      (pre ++ (i, .diffRuns status out) :: mid) = some s₂ := by
    rw [run_append, hpre, Option.bind_some, run_cons, hruns, Option.bind_some]
    exact hmid
  have horder : InOrder h y := inOrder_run hreach hy
  -- the callback
  obtain ⟨o, hmove, hcomponent, _⟩ := move_of_step hreaped
  rw [hy] at hmove
  cases hmove with
  | @diffReaped _ _ time mem status' hphase =>
      have hend : diffEnd h y s₂.store status' =
          ⟨status', some out.length⟩ := by
        have hfile : s₂.store (cString (y.paths h).diff) = some out := by
          rw [← hlook, ← huuid]
          rfl
        rw [diffEnd, hfile]
        rfl
      refine ⟨_, ⟨if out = [] then .AC else .WA, time, mem, none⟩,
        hcomponent, ?_, ?_, ?_⟩
      · rw [results_after horder (by simp [hphase]), hend]
        exact results_diffCallback _ _ _ _ _
      · rw [← hdiff]
        by_cases hout : out = [] <;> simp [hout]
      · rw [← hdiff]
        by_cases hout : out = [] <;> simp [hout]

/-- Between the run of `diff` and its callback the program of the other session
overwrites its own output. -/
theorem verdict_of_comparison_accepted :
    ∃ s s₁ s₂ t y r,
      run (behaviour sampleHost).step (init sampleFiles) sampleJudging =
        some s ∧
      (behaviour sampleHost).step s (0, .diffRuns 0 []) = some s₁ ∧
      run (behaviour sampleHost).step s₁
        [(1, .programWrites (bytes "/tmp/iojxd/0b/tmp.out") none)] = some s₂ ∧
      (behaviour sampleHost).step s₂ (0, .diffReaped) = some t ∧
      t.component 0 = some y ∧ y.results = [r] ∧ r.status = .AC := by
  have hshown : ((run (behaviour sampleHost).step (init sampleFiles)
      sampleJudging).bind fun s => (s.component 0).map fun x =>
        (x.uuid.text, readall sampleHost s.store (x.paths sampleHost).output,
          readall sampleHost s.store x.args.result)) =
      some (bytes "0a", some (bytes "42"), some (bytes "42")) := by
    decide +kernel
  have hends : (((run (behaviour sampleHost).step (init sampleFiles)
      sampleJudging).bind fun s =>
        (behaviour sampleHost).step s (0, .diffRuns 0 [])).bind fun s₁ =>
          (run (behaviour sampleHost).step s₁
            [(1, .programWrites (bytes "/tmp/iojxd/0b/tmp.out") none)]).bind
            fun s₂ => (behaviour sampleHost).step s₂ (0, .diffReaped)).isSome =
      true := by
    decide +kernel
  obtain ⟨s, hs, hx⟩ := Option.bind_eq_some_iff.mp hshown
  obtain ⟨x, hx, hend⟩ := Option.map_eq_some_iff.mp hx
  obtain ⟨t, ht⟩ := Option.isSome_iff_exists.mp hends
  rw [hs, Option.bind_some] at ht
  obtain ⟨s₁, hs₁, ht⟩ := Option.bind_eq_some_iff.mp ht
  obtain ⟨s₂, hs₂, ht⟩ := Option.bind_eq_some_iff.mp ht
  obtain ⟨huuid, hfiles⟩ := Prod.mk.inj hend
  have hsilent : DiffSilent sampleHost x s.store := by
    intro output result houtput hresult
    rw [Prod.mk.injEq, houtput, hresult] at hfiles
    exact Option.some_inj.mp (hfiles.1.trans hfiles.2.symm)
  have hleft : EveryStep (behaviour sampleHost).step
      (fun s _ t =>
        t.store (sessionFile sampleHost x.uuid (bytes "diff.diff")) =
          s.store (sessionFile sampleHost x.uuid (bytes "diff.diff"))) s₁
      [(1, .programWrites (bytes "/tmp/iojxd/0b/tmp.out") none)] := by
    intro t ht
    refine ⟨?_, trivial⟩
    obtain ⟨o, hmove, _, hstore⟩ := move_of_step ht
    rw [hstore, sessionFile, sessionDir, huuid]
    generalize s₁.component 1 = c at hmove
    cases hmove with
    | programWrites _ path content htracee =>
        simp only [quietly]
        exact Function.update_of_ne (by decide) _ _
  obtain ⟨y, r, hy, hr, hac, -⟩ :=
    verdict_of_comparison hs hx hs₁ rfl (iff_of_true rfl hsilent) hs₂ hleft ht
  exact ⟨s, s₁, s₂, t, y, r, hs, hs₁, hs₂, ht, hy, hr, hac.mpr hsilent⟩

end Comparison

end Sessions
end Iojxd
