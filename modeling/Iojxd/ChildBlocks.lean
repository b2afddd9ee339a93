import Iojxd.ChildReaper

/-!
# The blocks of a spawned process

`ixcb_child_terminated_ev` stops the watcher and frees its blocks after the
callback.  A callback that runs the loop again can find its own watcher marked
again, if the kernel has given out the pid a second time.  Apart from this a
spawned process is reported at most once, and no block is used that was freed.
-/

namespace Iojxd
namespace ChildReaper

open ChildTermination WaitStatus TransitionRun OneShot

/-- The callback of a spawned process with this pid is running. -/
def World.runsFor (w : World) (pid : Int) : Frame → Bool
  | .termcb k => (w.termcbs k).any fun x => x.event.event.pid = pid
  | _ => false

/-- No process is waited for while the callback for its pid is running. -/
def Steady (w : World) : Label → Prop
  | .reap pid => ∀ f ∈ w.frames, w.runsFor pid f = false
  | _ => True

instance (w : World) (l : Label) : Decidable (Steady w l) := by
  cases l <;> unfold Steady <;> infer_instance

/-- How far the report of a spawned process has come: its blocks, how many
frames run its callback, and how often it has been called. -/
inductive Stage (spawned : Prop) : Option Termcb → Nat → Nat → Prop
  | unused (h : ¬ spawned) : Stage spawned none 0 0
  | waits {x : Termcb} (h : spawned) (hpid : 0 < x.event.event.pid) :
      Stage spawned (some x) 0 0
  | runs {x : Termcb} (h : spawned) (hpid : 0 < x.event.event.pid)
      (hpending : x.event.pending = false) :
      Stage spawned (some x) 1 1
  | freed (h : spawned) : Stage spawned none 0 1

namespace Stage

variable {spawned : Prop} {x : Termcb} {frames called : Nat}

theorem called_le {b : Option Termcb} (h : Stage spawned b frames called) :
    called ≤ 1 := by
  cases h with
  | unused h => exact Nat.zero_le 1
  | waits h hpid => exact Nat.zero_le 1
  | runs h hpid hpending => exact le_rfl
  | freed h => exact le_rfl

theorem frames_of_none (h : Stage spawned none frames called) : frames = 0 := by
  cases h with
  | unused h => rfl
  | freed h => rfl

/-- A pending watcher has not been called. -/
theorem of_pending
    (h : Stage spawned (some x) frames called) (hx : x.event.pending = true) :
    spawned ∧ 0 < x.event.event.pid ∧ frames = 0 ∧ called = 0 := by
  cases h with
  | waits h hpid => exact ⟨h, hpid, rfl, rfl⟩
  | runs h hpid hpending =>
      rw [hpending] at hx
      cases hx

/-- Only a callback that runs has a frame. -/
theorem of_frame (h : Stage spawned (some x) (frames + 1) called) :
    spawned ∧ frames = 0 ∧ called = 1 := by
  cases h with
  | runs h hpid hpending => exact ⟨h, rfl, rfl⟩

end Stage

/-- The stage of the report `k`. -/
def World.StageOf (w : World) (k : Nat) : Prop :=
  Stage (k < w.spawned) (w.termcbs k) (w.frames.count (.termcb k))
    (calls (.termcb k) w.log).length

section Safety

variable {w v : World} {k : Nat} {l : Label}

/-- Steps that leave the report alone. -/
theorem World.StageOf.transport
    (h : w.StageOf k) (hspawned : k < v.spawned ↔ k < w.spawned)
    (htermcbs : v.termcbs k = w.termcbs k)
    (hframes : v.frames.count (.termcb k) = w.frames.count (.termcb k))
    (hlog : calls (.termcb k) v.log = calls (.termcb k) w.log) :
    v.StageOf k := by
  rw [World.StageOf, hspawned, htermcbs, hframes, hlog]
  exact h

/-- A watcher whose pid is another one is not marked. -/
theorem EvWatcher.reap_of_ne
    {x : EvWatcher} {pid : Int} (hpid : x.event.pid ≠ pid)
    (hpos : 0 < x.event.pid) (status : Word) :
    x.reap pid status = x := by
  unfold EvWatcher.reap
  rw [if_neg]
  rintro ⟨-, h | h⟩
  · exact hpid h
  · omega

theorem EvWatcher.reap_pid (x : EvWatcher) (pid : Int) (status : Word) :
    (x.reap pid status).event.pid = x.event.pid := by
  unfold EvWatcher.reap childReap
  split_ifs <;> rfl

/-- Waiting for a process marks watchers that have not been called. -/
theorem stageOf_reap
    {pid : Int} {e : ChildEnd} (h : w.StageOf k) (hsteady : Steady w (.reap pid)) :
    (w.reap pid e).StageOf k := by
  unfold World.StageOf at h ⊢
  simp only [World.reap_spawned, World.reap_termcbs, World.reap_frames,
    World.reap_log]
  cases hx : w.termcbs k with
  | none =>
      rw [hx] at h
      exact h
  | some x =>
      rw [hx] at h
      rw [Option.map_some]
      generalize hframes : w.frames.count (.termcb k) = frames at h
      generalize (calls (.termcb k) w.log).length = called at h
      cases h with
      | waits h hpid =>
          apply Stage.waits h
          change 0 < (x.event.reap pid e.raw).event.pid
          rw [EvWatcher.reap_pid]
          exact hpid
      | runs h hpid hpending =>
          have hne : x.event.event.pid ≠ pid := by
            have hmem : Frame.termcb k ∈ w.frames :=
              List.count_pos_iff.mp (by omega)
            have hruns := hsteady _ hmem
            rw [World.runsFor, hx] at hruns
            simpa using hruns
          rw [EvWatcher.reap_of_ne hne hpid]
          exact .runs h hpid hpending

/-- `ixc_add_termcb` makes a new report that waits. -/
theorem stageOf_addTermcb
    {pid : Int} (data : Nat) (h : w.StageOf k) (hpid : 0 < pid) :
    (w.addTermcb pid data).StageOf k := by
  by_cases hk : k = w.spawned
  · subst hk
    unfold World.StageOf at h ⊢
    simp only [World.addTermcb_spawned, World.addTermcb_termcbs,
      World.addTermcb_frames, World.addTermcb_log, Function.update_self,
      calls_append, calls_started, List.append_nil]
    generalize w.termcbs w.spawned = b at h
    generalize w.frames.count (.termcb w.spawned) = frames at h ⊢
    generalize (calls (.termcb w.spawned) w.log).length = called at h ⊢
    cases h with
    | unused h => exact .waits (Nat.lt_succ_self _) hpid
    | waits h hpid => exact absurd h (Nat.lt_irrefl _)
    | runs h hpid hpending => exact absurd h (Nat.lt_irrefl _)
    | freed h => exact absurd h (Nat.lt_irrefl _)
  · apply h.transport
    · rw [World.addTermcb_spawned]
      omega
    · exact Function.update_of_ne hk _ _
    · rfl
    · simp [calls_append]

/-- The callback of a pending watcher starts to run. -/
theorem stageOf_termcbCalls
    {j : Nat} {x : Termcb} (h : w.StageOf k) (hx : w.termcbs j = some x)
    (hpending : x.event.pending = true) :
    (w.termcbCalls j x).StageOf k := by
  by_cases hk : k = j
  · subst hk
    unfold World.StageOf at h ⊢
    rw [hx] at h
    obtain ⟨hspawned, hpid, hframes, hcalls⟩ := h.of_pending hpending
    simp only [World.termcbCalls_spawned, World.termcbCalls_termcbs,
      World.termcbCalls_frames, World.termcbCalls_log, Function.update_self,
      List.count_cons_self, hframes, calls_append, calls_called, if_true,
      List.length_append, hcalls]
    exact .runs hspawned hpid rfl
  · refine h.transport Iff.rfl ?_ ?_ ?_
    · exact Function.update_of_ne hk _ _
    · simp [Ne.symm hk]
    · simp [calls_append, Ne.symm hk]

/-- Behind its callback the blocks are freed. -/
theorem stageOf_termcbFrees
    {j : Nat} {fs : List Frame} {x : Termcb} (h : w.StageOf k)
    (hframes : w.frames = .termcb j :: fs) (hx : w.termcbs j = some x) :
    (w.termcbFrees j fs).StageOf k := by
  by_cases hk : k = j
  · subst hk
    unfold World.StageOf at h ⊢
    rw [hx, hframes, List.count_cons_self] at h
    obtain ⟨hspawned, hrest, hcalls⟩ := h.of_frame
    simp only [World.termcbFrees_spawned, World.termcbFrees_termcbs,
      World.termcbFrees_frames, World.termcbFrees_log, Function.update_self,
      hrest, hcalls]
    exact .freed hspawned
  · refine h.transport Iff.rfl ?_ ?_ ?_
    · exact Function.update_of_ne hk _ _
    · simp [hframes, Ne.symm hk]
    · rfl

/-- **Step lemma**: in a steady step every report goes from stage to stage, and
no block is used that was freed. -/
theorem stages_move
    (hm : Move w l v) (hsteady : Steady w l) (hw : ∀ k, w.StageOf k)
    (hfreed : w.usedFreed = false) :
    (∀ k, v.StageOf k) ∧ v.usedFreed = false := by
  cases hm with
  | spawnFails data => exact ⟨hw, hfreed⟩
  | fork pid hvacant =>
      exact ⟨fun k => (hw k).transport Iff.rfl rfl rfl rfl, hfreed⟩
  | spawn pid data hvacant =>
      refine ⟨fun k => stageOf_addTermcb data ?_ hvacant.1, hfreed⟩
      exact (hw k).transport Iff.rfl rfl rfl rfl
  | create =>
      exact ⟨fun k => (hw k).transport Iff.rfl rfl rfl rfl, hfreed⟩
  | start pid cb data hx hactive hpending =>
      refine ⟨fun k => (hw k).transport Iff.rfl rfl rfl ?_, hfreed⟩
      simp [calls_append]
  | startAborts k pid cb data =>
      exact ⟨fun k => (hw k).transport Iff.rfl rfl rfl rfl, hfreed⟩
  | free hx hactive hpending =>
      exact ⟨fun k => (hw k).transport Iff.rfl rfl rfl rfl, hfreed⟩
  | freeAborts k =>
      exact ⟨fun k => (hw k).transport Iff.rfl rfl rfl rfl, hfreed⟩
  | ends e hp =>
      refine ⟨fun k => (hw k).transport Iff.rfl rfl rfl ?_, hfreed⟩
      simp [calls_append]
  | evRun hloop =>
      refine ⟨fun k => (hw k).transport Iff.rfl rfl ?_ rfl, hfreed⟩
      simp
  | reap hp hloop => exact ⟨fun k => stageOf_reap (hw k) hsteady, hfreed⟩
  | callTermcb hx hloop hpending =>
      exact ⟨fun k => stageOf_termcbCalls (hw k) hx hpending, hfreed⟩
  | callChildw hx hloop hpending hcb =>
      refine ⟨fun k => (hw k).transport Iff.rfl rfl ?_ ?_, hfreed⟩
      · simp
      · simp [calls_append]
  | skipChildw hx hpending hcb =>
      exact ⟨fun k => (hw k).transport Iff.rfl rfl rfl rfl, hfreed⟩
  | termcbFrees hframes hx =>
      exact ⟨fun k => stageOf_termcbFrees (hw k) hframes hx, hfreed⟩
  | @termcbFreesAgain k fs hframes hx =>
      -- the frame of a callback is there only as long as its blocks
      have hnone := hw k
      unfold World.StageOf at hnone
      rw [hx, hframes, List.count_cons_self] at hnone
      cases hnone.frames_of_none
  | childwReturns hframes =>
      refine ⟨fun k => (hw k).transport Iff.rfl rfl ?_ rfl, hfreed⟩
      simp [hframes]
  | leaves hframes =>
      refine ⟨fun k => (hw k).transport Iff.rfl rfl ?_ rfl, hfreed⟩
      simp [hframes]

theorem stageOf_init (k : Nat) : World.init.StageOf k :=
  .unused (Nat.not_lt_zero k)

/-- **A spawned process is reported once**: in every run in which no process is
waited for while the callback for its pid is running, no callback is called
twice for one process, and no block is used that was freed. -/
theorem spawn_called_once
    {ls : List Label} {t : World}
    (hsteady : EveryStep step (fun w l _ => Steady w l) World.init ls)
    (hrun : run step World.init ls = some t) :
    t.usedFreed = false ∧
      ∀ k, (calls (.termcb k) t.log).length ≤ 1 := by
  have hend : (∀ k, t.StageOf k) ∧ t.usedFreed = false := by
    refine run_invariant_of_everyStep
      (I := fun w => (∀ k, w.StageOf k) ∧ w.usedFreed = false) ?_
      ⟨stageOf_init, rfl⟩ hsteady hrun
    intro w l v hw hv hl
    exact stages_move (move_of_step hv) hl hw.1 hw.2
  exact ⟨hend.2, fun k => (hend.1 k).called_le⟩

/-- Two processes run at the same time, and the second one ends first. -/
theorem spawn_called_once_two :
    ∃ t, run step World.init
        [.spawn (some 7) 0, .spawn (some 8) 1, .ends 8 (.exited 1), .evRun,
          .reap 8, .callTermcb 1, .returns, .ends 7 (.exited 0), .reap 7,
          .callTermcb 0, .returns, .leaves] = some t ∧
      t.usedFreed = false ∧
      ∀ k, (calls (.termcb k) t.log).length ≤ 1 := by
  obtain ⟨t, ht⟩ := Option.isSome_iff_exists.mp
    (by decide : (run step World.init
      [.spawn (some 7) 0, .spawn (some 8) 1, .ends 8 (.exited 1), .evRun,
        .reap 8, .callTermcb 1, .returns, .ends 7 (.exited 0), .reap 7,
        .callTermcb 0, .returns, .leaves]).isSome = true)
  exact ⟨t, ht, spawn_called_once (by decide) ht⟩

/-! ## Callbacks that do not run the loop -/

/-- The loop is not run inside the callback of a spawned process. -/
def Flat (w : World) : Label → Prop
  | .evRun => ∀ k, Frame.termcb k ∉ w.frames
  | _ => True

theorem inLoop_iff : w.inLoop = true ↔ ∃ fs, w.frames = .loop :: fs := by
  unfold World.inLoop
  cases w.frames with
  | nil => simp
  | cons f fs => simp

/-- Below the innermost frame there is no callback of a spawned process. -/
theorem flat_move
    (hm : Move w l v) (hflat : Flat w l)
    (hw : ∀ k, Frame.termcb k ∉ w.frames.tail) :
    ∀ k, Frame.termcb k ∉ v.frames.tail := by
  intro k
  cases hm with
  | evRun hloop => exact hflat k
  | callTermcb hx hloop hpending =>
      obtain ⟨fs, hfs⟩ := inLoop_iff.mp hloop
      have hk := hw k
      rw [hfs] at hk
      change Frame.termcb k ∉ w.frames
      simpa [hfs] using hk
  | callChildw hx hloop hpending hcb =>
      obtain ⟨fs, hfs⟩ := inLoop_iff.mp hloop
      have hk := hw k
      rw [hfs] at hk
      change Frame.termcb k ∉ w.frames
      simpa [hfs] using hk
  | termcbFrees hframes hx =>
      have hk := hw k
      rw [hframes] at hk
      exact fun hmem => hk (List.mem_of_mem_tail hmem)
  | termcbFreesAgain hframes hx =>
      have hk := hw k
      rw [hframes] at hk
      exact fun hmem => hk (List.mem_of_mem_tail hmem)
  | childwReturns hframes =>
      have hk := hw k
      rw [hframes] at hk
      exact fun hmem => hk (List.mem_of_mem_tail hmem)
  | leaves hframes =>
      have hk := hw k
      rw [hframes] at hk
      exact fun hmem => hk (List.mem_of_mem_tail hmem)
  | _ => exact hw k

theorem steady_of_move
    (hm : Move w l v) (hw : ∀ k, Frame.termcb k ∉ w.frames.tail) :
    Steady w l := by
  cases hm with
  | reap hp hloop =>
      obtain ⟨fs, hfs⟩ := inLoop_iff.mp hloop
      intro f hf
      rw [hfs] at hf hw
      cases f with
      | loop => rfl
      | childw k => rfl
      | termcb k => exact absurd (by simpa using hf) (hw k)
  | _ => trivial

/-- Such runs are steady, whichever pids the kernel gives out. -/
theorem everyStep_steady_of_flat
    {ls : List Label}
    (hflat : EveryStep step (fun w l _ => Flat w l) World.init ls) :
    EveryStep step (fun w l _ => Steady w l) World.init ls := by
  refine everyStep_mono (I := fun w => ∀ k, Frame.termcb k ∉ w.frames.tail)
    ?_ (by simp [World.init]) hflat
  intro w v l hw hv hl
  have hm := move_of_step hv
  exact ⟨steady_of_move hm hw, flat_move hm hl hw⟩

end Safety

/-! ## A run in which a process is reported twice -/

/-- The callback for the pid 7 forks again, is given the same pid and runs the
loop. -/
def sampleNested : List Label :=
  [.spawn (some 7) 0, .ends 7 (.exited 0), .evRun, .reap 7, .callTermcb 0,
    .spawn (some 7) 1, .ends 7 (.exited 1), .evRun, .reap 7, .callTermcb 0,
    .returns, .callTermcb 1, .returns, .leaves, .returns]

example : (run step World.init sampleNested).map
    (fun t => (t.usedFreed, calls (.termcb 0) t.log)) =
    some (true, [(7, 0), (7, 256)]) := by
  decide

end ChildReaper
end Iojxd
