import Iojxd.SessionModel

/-!
# The steps of a session

What each label does, said once; which files a step can change; and what every
run keeps of one session.
-/

namespace Iojxd
namespace Sessions

open ChildTermination Tracer WaitStatus SharedStore TransitionRun
open JudgeCompile (CompilerChild)

variable (h : Host)

/-- What a step does, with the phase in which it is enabled. -/
inductive Move : Act → Option Session → Files →
    Outcome (Option Session) LuaString (Option LuaString) → Prop
  | judge (u : Uuid) (a : Args) (m : Files) :
      Move (.judge u a) none m (quietly (judge u a) m)
  | compilerRuns {x : Session} (m : Files) (pid : Int) (child : CompilerChild)
      (wrote : List (LuaString × Option LuaString))
      (hphase : x.phase = .compiling) :
      Move (.compilerRuns pid child wrote) (some x) m
        (quietly (compilerRuns h x m pid child wrote).1
          (compilerRuns h x m pid child wrote).2)
  | compilerReaped {x : Session} (m : Files) {pid : Int} {e : ChildEnd}
      (hphase : x.phase = .compiled pid e) :
      Move .compilerReaped (some x) m
        (happen h x m (judgeCallback h x m pid e).1
          (judgeCallback h x m pid e).2 true)
  | forksProgram {x : Session} (m : Files) (pid : Int)
      (hphase : x.phase = .evaluating) :
      Move (.forksProgram pid) (some x) m
        (quietly
          { x with
            phase := .judging pid .start
            tracee := .forked } m)
  | programSetup {x : Session} (m : Files) (htracee : x.tracee = .forked) :
      Move .programSetup (some x) m
        (quietly
          { x with
            tracee := .running
            trace := x.trace ++ [.exec (programArgv h x)] }
          (openWrite h m (x.paths h).output []))
  | programWrites {x : Session} (m : Files) (path : LuaString)
      (content : Option LuaString) (htracee : x.tracee = .running) :
      Move (.programWrites path content) (some x) m
        (quietly x (Function.update m path content))
  | waited {x : Session} (m : Files) (w : Wait4) {pid : Int} {s : TracerState}
      (hphase : x.phase = .judging pid s) :
      Move (.waited w) (some x) m
        (happen h { x with tracee := traceeAfter x.tracee w } m
          (evaluateTracerBody (tracerEnv h x pid) s w).1
          (phaseAfter h x pid s w) false)
  | diffRuns {x : Session} (m : Files) (status : Word) (out : LuaString)
      {time : ℚ} {mem : Int} (hphase : x.phase = .comparing time mem none) :
      Move (.diffRuns status out) (some x) m
        (quietly
          { x with
            phase := .comparing time mem (some status)
            trace := x.trace ++ [.exec (diffArgv h x)] }
          (openWrite h m (x.paths h).diff out))
  | diffReaped {x : Session} (m : Files) {time : ℚ} {mem : Int} {status : Word}
      (hphase : x.phase = .comparing time mem (some status)) :
      Move .diffReaped (some x) m
        (happen h x m
          (diffCallback (tracerEnv h x 0) time mem (diffEnd h x m status))
          .done false)

variable {h}

/-- **Inversion**: the steps are the moves. -/
theorem act_eq_some_iff
    {k : Act} {s : Option Session} {m : Files}
    {o : Outcome (Option Session) LuaString (Option LuaString)} :
    act h k s m = some o ↔ Move h k s m o := by
  constructor
  · intro ho
    cases s with
    | none =>
        cases k with
        | judge u a =>
            cases ho
            exact .judge u a m
        | _ => cases ho
    | some x =>
        cases k with
        | judge u a => cases ho
        | compilerRuns pid child wrote =>
            simp only [act] at ho
            split at ho
            · rename_i hphase
              cases ho
              exact .compilerRuns m pid child wrote hphase
            · cases ho
        | compilerReaped =>
            simp only [act] at ho
            split at ho
            · rename_i hphase
              cases ho
              exact .compilerReaped m hphase
            · cases ho
        | forksProgram pid =>
            simp only [act] at ho
            split at ho
            · rename_i hphase
              cases ho
              exact .forksProgram m pid hphase
            · cases ho
        | programSetup =>
            simp only [act] at ho
            split at ho
            · rename_i htracee
              cases ho
              exact .programSetup m htracee
            · cases ho
        | programWrites path content =>
            simp only [act] at ho
            split at ho
            · rename_i htracee
              cases ho
              exact .programWrites m path content htracee
            · cases ho
        | waited w =>
            simp only [act] at ho
            split at ho
            · rename_i hphase
              cases ho
              exact .waited m w hphase
            · cases ho
        | diffRuns status out =>
            simp only [act] at ho
            split at ho
            · rename_i hphase
              cases ho
              exact .diffRuns m status out hphase
            · cases ho
        | diffReaped =>
            simp only [act] at ho
            split at ho
            · rename_i hphase
              cases ho
              exact .diffReaped m hphase
            · cases ho
  · intro hm
    cases hm with
    | judge u a => rfl
    | compilerRuns _ _ _ _ hphase => simp [act, hphase]
    | compilerReaped _ hphase => simp [act, hphase]
    | forksProgram _ _ hphase => simp [act, hphase]
    | programSetup _ htracee => simp [act, htracee]
    | programWrites _ _ _ htracee => simp [act, htracee]
    | waited _ _ hphase => simp [act, hphase]
    | diffRuns _ _ _ hphase => simp [act, hphase]
    | diffReaped _ hphase => simp [act, hphase]

/-- A step of the system is a move of one session. -/
theorem move_of_step
    {s t : System Nat (Option Session) LuaString (Option LuaString)}
    {i : Nat} {k : Act} (ht : (behaviour h).step s (i, k) = some t) :
    ∃ o, Move h k (s.component i) s.store o ∧
      t.component i = o.component ∧ t.store = o.store := by
  obtain ⟨o, ho, hcomponent, hstore⟩ := Behaviour.component_self ht
  exact ⟨o, act_eq_some_iff.mp ho, hcomponent, hstore⟩

/-- Request and uuid of a session never change. -/
theorem request_of_move
    {k : Act} {x : Session} {m : Files}
    {o : Outcome (Option Session) LuaString (Option LuaString)}
    (hm : Move h k (some x) m o) :
    ∃ y, o.component = some y ∧ y.uuid = x.uuid ∧ y.args = x.args := by
  cases hm <;> exact ⟨_, rfl, rfl, rfl⟩

/-! ## Files -/

section Files

variable {m m' : Files} {p : LuaString} {F : Set LuaString}

theorem openWrite_of_ne
    {path : LuaString} (hp : p ≠ cString path) (content : LuaString) :
    openWrite h m path content p = m p := by
  unfold openWrite
  split
  · exact Function.update_of_ne hp _ _
  · rfl

theorem openWrite_self
    {path : LuaString} (hopen : h.writable (cString path) = true)
    (content : LuaString) :
    openWrite h m path content (cString path) = some content := by
  rw [openWrite, if_pos hopen, Function.update_self]

/-- The events of the daemon and of the tracer change the outfile only. -/
theorem storeEvents_of_ne
    {outfile : LuaString} (hp : p ≠ cString outfile) (es : List TracerEvent) :
    es.foldl (storeEvent h outfile) m p = m p := by
  induction es generalizing m with
  | nil => rfl
  | cons e es ih =>
      rw [List.foldl_cons, ih]
      cases e with
      | writeStatus r => exact openWrite_of_ne hp _
      | _ => rfl

theorem wrote_of_notMem
    {wrote : List (LuaString × Option LuaString)}
    (hp : p ∉ wrote.map Prod.fst) :
    wrote.foldl (fun m e => Function.update m e.1 e.2) m p = m p := by
  induction wrote generalizing m with
  | nil => rfl
  | cons e wrote ih =>
      simp only [List.map_cons, List.mem_cons, not_or] at hp
      rw [List.foldl_cons, ih hp.2, Function.update_of_ne hp.1]

/-- Two stores that agree on `F` agree there after the same assignment. -/
theorem eqOn_update
    (hm : Set.EqOn m m' F) (path : LuaString) (content : Option LuaString) :
    Set.EqOn (Function.update m path content)
      (Function.update m' path content) F := by
  intro q hq
  by_cases hne : q = path
  · rw [hne, Function.update_self, Function.update_self]
  · rw [Function.update_of_ne hne, Function.update_of_ne hne]
    exact hm hq

theorem eqOn_openWrite
    (hm : Set.EqOn m m' F) (path content : LuaString) :
    Set.EqOn (openWrite h m path content) (openWrite h m' path content) F := by
  unfold openWrite
  split
  · exact eqOn_update hm _ _
  · exact hm

theorem eqOn_storeEvents
    (hm : Set.EqOn m m' F) (outfile : LuaString) (es : List TracerEvent) :
    Set.EqOn (es.foldl (storeEvent h outfile) m)
      (es.foldl (storeEvent h outfile) m') F := by
  induction es generalizing m m' with
  | nil => exact hm
  | cons e es ih =>
      rw [List.foldl_cons, List.foldl_cons]
      apply ih
      cases e with
      | writeStatus r => exact eqOn_openWrite hm _ _
      | _ => exact hm

theorem eqOn_wrote
    (hm : Set.EqOn m m' F) (wrote : List (LuaString × Option LuaString)) :
    Set.EqOn (wrote.foldl (fun m e => Function.update m e.1 e.2) m)
      (wrote.foldl (fun m e => Function.update m e.1 e.2) m') F := by
  induction wrote generalizing m m' with
  | nil => exact hm
  | cons e wrote ih =>
      rw [List.foldl_cons, List.foldl_cons]
      exact ih (eqOn_update hm _ _)

end Files

/-- The files that a step may change. -/
def touched (h : Host) (x : Session) : Act → List LuaString
  | .compilerRuns _ _ wrote =>
      cString (x.paths h).cclog :: wrote.map Prod.fst
  | .programSetup => [cString (x.paths h).output]
  | .programWrites path _ => [path]
  | .diffRuns _ _ => [cString (x.paths h).diff]
  | .compilerReaped => [cString x.args.outfile]
  | .waited _ => [cString x.args.outfile]
  | .diffReaped => [cString x.args.outfile]
  | _ => []

/-- **Frame of a step**: other files stay as they are. -/
theorem store_of_notMem_touched
    {k : Act} {x : Session} {m : Files}
    {o : Outcome (Option Session) LuaString (Option LuaString)}
    (hm : Move h k (some x) m o) {p : LuaString} (hp : p ∉ touched h x k) :
    o.store p = m p := by
  cases hm with
  | compilerRuns _ pid child wrote hphase =>
      simp only [touched, List.mem_cons, not_or] at hp
      exact (wrote_of_notMem hp.2).trans (openWrite_of_ne hp.1 _)
  | compilerReaped _ hphase =>
      exact storeEvents_of_ne (by simpa [touched] using hp) _
  | forksProgram _ _ _ => rfl
  | programSetup _ htracee =>
      exact openWrite_of_ne (by simpa [touched] using hp) _
  | programWrites _ path content htracee =>
      exact Function.update_of_ne (by simpa [touched] using hp) _ _
  | waited _ w hphase =>
      exact storeEvents_of_ne (by simpa [touched] using hp) _
  | diffRuns _ status out hphase =>
      exact openWrite_of_ne (by simpa [touched] using hp) _
  | diffReaped _ hphase =>
      exact storeEvents_of_ne (by simpa [touched] using hp) _

end Sessions
end Iojxd
