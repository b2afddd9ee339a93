import Iojxd.LuaWatcherModel
import Iojxd.TimerRuns

/-!
# Armed objects keep themselves alive

A timer or child watcher of Lua holds `m_this_ref` from `start` until its
callback has returned.  The pointer has room for one reference: a `start` from
inside the callback finds it set, and the end of the callback drops it.  The
invariant is that an object whose watcher is active, waits for its callback or
runs it holds itself, and that the flag of a timer is set only then.
-/

namespace Iojxd
namespace LuaWatcher

open LuaRef Timer TransitionRun

/-- Every active watcher has its object held by itself, and no destructor has
met an active watcher or failed an assertion. -/
structure ArmedHeld (w : World) : Prop where
  held : ∀ k o, w.objs k = some o →
    o.impl.active = true → o.base.thisRef = true
  destructors : ∀ d ∈ w.destructions, d.armed = false ∧ d.asserted = true

/-- The watcher of an object is not active when its Lua function returns. -/
def ReturnsStopped (w : World) (l : Label) : Prop :=
  l = .callbackReturns →
    ∀ k ∈ w.running, ∀ o ∈ w.objs k, o.impl.active = false

/-- The timer says that it is active. -/
def Impl.flag : Impl → Bool
  | .timer t => t.active
  | .childWatcher w => w.event.active

/-- What holds of the object `k`, given which object runs its Lua function. -/
structure ObjKept (running : Option Nat) (k : Nat) (o : Obj) : Prop where
  active : o.impl.active = true → o.base.thisRef = true
  waiting : o.pending = true → o.base.thisRef = true
  called : running = some k → o.base.thisRef = true ∧ o.pending = false
  flag : o.impl.flag = true → o.impl.active = true ∨ o.pending = true

/-- All objects are kept, and all destructors were harmless. -/
structure Kept (w : World) : Prop where
  objs : ∀ k o, w.objs k = some o → ObjKept w.running k o
  destructors : ∀ d ∈ w.destructions, d.armed = false ∧ d.asserted = true
  known : ∀ k ∈ w.running, (w.objs k).isSome = true
  fresh : ∀ k, w.nextObj ≤ k → w.objs k = none

theorem Kept.armedHeld {w : World} (h : Kept w) :
    ArmedHeld w where
  held := by
    intro k o hk hactive
    exact (h.objs k o hk).active hactive
  destructors := h.destructors

theorem kept_init (now : ℚ) :
    Kept (.init now) where
  objs := by simp [World.init]
  destructors := by simp [World.init]
  known := by simp [World.init]
  fresh := by simp [World.init]

/-! ## Watchers -/

section Impl

theorem start_timer_active
    (t : IxutTimer) (interval : ℚ) (cb : Option Nat) (args : Nat) (now : ℚ) :
    (Impl.timer (ixutTimerStart t interval cb args now)).active = true :=
  start_active _ _

/-- The callback of a watcher leaves its activity and clears the flag. -/
theorem invoke_flag (impl : Impl) (now : ℚ) :
    (impl.invoke now).1.flag = false := by
  cases impl with
  | timer t =>
      cases hcb : t.cb with
      | none => simp [Impl.invoke, Impl.flag, ixutTimerCb, hcb]
      | some f => simp [Impl.invoke, Impl.flag, ixutTimerCb, callUser, hcb]
  | childWatcher w => rfl

theorem due_impl_active
    {impl : Impl} {now : ℚ} (h : impl.due now = true) :
    impl.active = true := by
  cases impl with
  | timer t => exact due_active h
  | childWatcher w => exact h

/-- An object that is neither armed nor waiting passes the assertions. -/
theorem freeAsserts_of_kept
    {running : Option Nat} {k : Nat} {o : Obj} (h : ObjKept running k o)
    (hthis : o.base.thisRef = false) :
    o.impl.active = false ∧ o.impl.freeAsserts o.pending = true := by
  have hactive : o.impl.active = false := by
    by_contra hne
    have hheld := h.active (Bool.not_eq_false _ ▸ hne)
    rw [hthis] at hheld
    cases hheld
  have hpending : o.pending = false := by
    by_contra hne
    have hheld := h.waiting (Bool.not_eq_false _ ▸ hne)
    rw [hthis] at hheld
    cases hheld
  have hflag : o.impl.flag = false := by
    by_contra hne
    have hbusy := h.flag (Bool.not_eq_false _ ▸ hne)
    simp [hactive, hpending] at hbusy
  refine ⟨hactive, ?_⟩
  cases himpl : o.impl with
  | timer t => simpa [himpl, Impl.flag, Impl.freeAsserts] using hflag
  | childWatcher w =>
      simpa [himpl, Impl.flag, Impl.freeAsserts, hpending] using hflag

end Impl

/-! ## Rules -/

namespace Kept

variable {w : World} {k : Nat} {o : Obj}

theorem setObj
    (h : Kept w) {x : Obj} (hk : w.objs k = some x)
    (ho : ObjKept w.running k o) :
    Kept (w.setObj k o) where
  objs := by
    intro j y hj
    by_cases hjk : j = k
    · subst hjk
      rw [World.setObj_objs, Function.update_self] at hj
      cases hj
      exact ho
    · rw [World.setObj_objs, Function.update_of_ne hjk] at hj
      exact h.objs j y hj
  destructors := h.destructors
  known := by
    intro j hj
    by_cases hjk : j = k
    · subst hjk
      simp
    · rw [World.setObj_objs, Function.update_of_ne hjk]
      exact h.known j hj
  fresh := by
    intro j hj
    have hjk : j ≠ k := by
      rintro rfl
      rw [h.fresh j hj] at hk
      cases hk
    rw [World.setObj_objs, Function.update_of_ne hjk]
    exact h.fresh j hj

/-- At count zero the object does not hold itself. -/
theorem dropped
    (h : Kept w) {x : Obj} (hk : w.objs k = some x)
    (ho : ObjKept w.running k o) :
    Kept (w.dropped k o) := by
  unfold World.dropped
  split
  next hzero =>
      have hthis := IxlbxRefBase.thisRef_of_refs hzero
      have hfree := freeAsserts_of_kept ho hthis
      have hgone : ObjKept w.running k { o with destroyed := true } :=
        ⟨ho.active, ho.waiting, ho.called, ho.flag⟩
      have hset := h.setObj hk hgone
      refine ⟨hset.objs, ?_, hset.known, hset.fresh⟩
      intro d hd
      rcases List.mem_append.mp hd with hold | hnew
      · exact h.destructors d hold
      · rw [List.mem_singleton] at hnew
        rw [hnew]
        exact hfree
  next => exact h.setObj hk ho

/-- The Lua function of no object, or of another one, runs. -/
theorem withRunning
    (h : Kept w) {running : Option Nat}
    (hrun : ∀ j ∈ running, ∃ o, w.objs j = some o ∧
      o.base.thisRef = true ∧ o.pending = false) :
    Kept { w with running := running } where
  objs := by
    intro j x hj
    have hx := h.objs j x hj
    refine ⟨hx.active, hx.waiting, ?_, hx.flag⟩
    rintro rfl
    obtain ⟨y, hy, hkept⟩ := hrun j rfl
    rw [show w.objs j = some x from hj] at hy
    cases hy
    exact hkept
  destructors := h.destructors
  known := by
    intro j hj
    obtain ⟨y, hy, _⟩ := hrun j hj
    change (w.objs j).isSome = true
    rw [hy]
    rfl
  fresh := h.fresh

/-- A new object is not armed. -/
theorem addObj
    (h : Kept w) {impl : Impl} (hactive : impl.active = false)
    (hflag : impl.flag = false) :
    Kept (w.addObj impl) where
  objs := by
    intro j x hj
    by_cases hjk : j = w.nextObj
    · subst hjk
      simp only [World.addObj, World.setObj_objs, Function.update_self,
        Option.some.injEq] at hj
      subst hj
      refine ⟨by simp [hactive], by simp, ?_, by simp [hflag]⟩
      intro hrun
      have hsome := h.known w.nextObj hrun
      rw [h.fresh w.nextObj le_rfl] at hsome
      cases hsome
    · simp only [World.addObj, World.setObj_objs] at hj
      rw [Function.update_of_ne hjk] at hj
      exact h.objs j x hj
  destructors := h.destructors
  known := by
    intro j hj
    have hsome := h.known j hj
    by_cases hjk : j = w.nextObj
    · subst hjk
      simp [World.addObj]
    · simpa [World.addObj, Function.update_of_ne hjk] using hsome
  fresh := by
    intro j hj
    have hjk : j ≠ w.nextObj := by
      simp only [World.addObj] at hj
      omega
    simp only [World.addObj, World.setObj_objs] at hj ⊢
    rw [Function.update_of_ne hjk]
    exact h.fresh j (by omega)

end Kept

/-! ## The end of a callback -/

section Returns

variable {w : World} {k : Nat} {o : Obj}

/-- What goes with a reference leaves the watcher. -/
theorem dropped_obj (w : World) (k : Nat) (o : Obj) :
    ∃ x, (w.dropped k o).objs k = some x ∧
      x.base = o.base ∧ x.impl = o.impl ∧ x.pending = o.pending := by
  unfold World.dropped
  split
  next => exact ⟨{ o with destroyed := true }, by simp, rfl, rfl, rfl⟩
  next => exact ⟨o, by simp, rfl, rfl, rfl⟩

theorem dropTemporary_obj (hk : w.objs k = some o) :
    ∃ x, (w.dropTemporary k).objs k = some x ∧
      x.base.thisRef = o.base.thisRef ∧ x.impl = o.impl ∧
      x.pending = o.pending := by
  simp only [World.dropTemporary, hk]
  split
  next =>
      obtain ⟨x, hx, hbase, himpl, hpending⟩ :=
        dropped_obj w k { o with base := o.base.giveBack }
      exact ⟨x, hx, by rw [hbase]; rfl, himpl, hpending⟩
  next => exact ⟨o, hk, rfl, rfl, rfl⟩

theorem unRef_obj (hk : w.objs k = some o) :
    ∃ x, (w.unRef k).objs k = some x ∧
      x.base.thisRef = false ∧ x.impl = o.impl := by
  simp only [World.unRef, hk]
  split
  next =>
      obtain ⟨x, hx, hbase, himpl, _⟩ :=
        dropped_obj w k { o with base := o.base.unRef }
      exact ⟨x, hx, by rw [hbase]; rfl, himpl⟩
  next hthis => exact ⟨o, hk, by simpa using hthis, rfl⟩

/-- `un_ref` does not look at what runs. -/
theorem unRef_withRunning (w : World) (k : Nat) (running : Option Nat) :
    { w.unRef k with running := running } =
      World.unRef { w with running := running } k := by
  unfold World.unRef
  cases hk : w.objs k with
  | none => rfl
  | some o =>
      simp only
      split
      · unfold World.dropped
        split <;> rfl
      · rfl

theorem kept_dropTemporary
    (h : Kept w) (hk : w.objs k = some o) :
    Kept (w.dropTemporary k) := by
  simp only [World.dropTemporary, hk]
  split
  next =>
      have ho := h.objs k o hk
      exact h.dropped hk ⟨ho.active, ho.waiting, ho.called, ho.flag⟩
  next => exact h

/-- An object that is not armed lets itself go. -/
theorem kept_unRef
    (h : Kept w) (hk : w.objs k = some o) (hrun : w.running = none)
    (hactive : o.impl.active = false) (hpending : o.pending = false) :
    Kept (w.unRef k) := by
  simp only [World.unRef, hk]
  split
  next =>
      apply h.dropped hk
      refine ⟨by simp [hactive], by simp [hpending], ?_, (h.objs k o hk).flag⟩
      rw [hrun]
      rintro ⟨⟩
  next => exact h

/-- **The end of a callback** leaves armed objects held exactly if the watcher of
the object that was called is not active. -/
theorem callbackReturns_iff
    (h : Kept w) (hrun : w.running = some k) (hk : w.objs k = some o) :
    (ArmedHeld { (w.dropTemporary k).unRef k with running := none } ↔
      o.impl.active = false) ∧
    (o.impl.active = false →
      Kept { (w.dropTemporary k).unRef k with running := none }) := by
  obtain ⟨x, hx, _, himpl, hpending⟩ := dropTemporary_obj hk
  have hkeep : o.impl.active = false →
      Kept { (w.dropTemporary k).unRef k with running := none } := by
    intro hstopped
    have hcalled := ((h.objs k o hk).called hrun).2
    have hquiet : Kept { w.dropTemporary k with running := none } :=
      (kept_dropTemporary h hk).withRunning (by simp)
    rw [unRef_withRunning]
    apply kept_unRef hquiet hx rfl
    · rw [himpl]
      exact hstopped
    · rw [hpending]
      exact hcalled
  refine ⟨⟨?_, fun hstopped => (hkeep hstopped).armedHeld⟩, hkeep⟩
  intro harmed
  obtain ⟨y, hy, hthis, hsame⟩ := unRef_obj hx
  by_contra hactive
  have hheld := harmed.held k y hy (by
    rw [hsame, himpl]
    simpa using hactive)
  rw [hthis] at hheld
  cases hheld

end Returns

/-! ## Steps -/

section Steps

variable {w v : World}

theorem onObj_eq_some
    {k : Nat} {ok : Obj → Bool} {f : Obj → World}
    (h : onObj w k ok f = some v) :
    ∃ o, w.objs k = some o ∧ ok o = true ∧ v = f o := by
  unfold onObj at h
  split at h
  case h_1 => cases h
  case h_2 o hk =>
      simp only [Option.ite_none_right_eq_some, Option.some.injEq] at h
      exact ⟨o, hk, h.1, h.2.symm⟩

/-- `start` takes the reference and arms the watcher. -/
theorem kept_start
    (h : Kept w) {k : Nat} {o : Obj} (hk : w.objs k = some o)
    {impl : Impl} (hactive : impl.active = true) :
    Kept (start w k o impl) := by
  apply h.setObj hk
  refine ⟨by simp, by simp, ?_, by simp [hactive]⟩
  intro hrun
  exact ⟨rfl, ((h.objs k o hk).called hrun).2⟩

theorem kept_takeUp
    (h : Kept w) {k : Nat} {o : Obj} (hk : w.objs k = some o) {now : ℚ}
    (hrun : w.running = none) (hdue : o.impl.due now = true) :
    Kept { w.setObj k
        { o with
          impl := o.impl.takeUp now
          pending := true } with
      now := now } := by
  have hthis := (h.objs k o hk).active (due_impl_active hdue)
  have hset := h.setObj hk (o :=
    { o with
      impl := o.impl.takeUp now
      pending := true }) ⟨fun _ => hthis, fun _ => hthis, by simp [hrun], by simp⟩
  exact ⟨hset.objs, hset.destructors, hset.known, hset.fresh⟩

/-- The object of a running Lua function waits for nothing. -/
theorem kept_fire
    (h : Kept w) {k : Nat} {o : Obj} (hk : w.objs k = some o)
    (hrun : w.running = none) (hpending : o.pending = true) :
    Kept (fire w k o) := by
  have hthis := (h.objs k o hk).waiting hpending
  unfold fire
  simp only
  split
  next =>
      have hset := h.setObj hk (o :=
        { o with
          impl := (o.impl.invoke w.now).1
          pending := false
          base := if (o.impl.invoke w.now).1.lends then o.base.lend
            else o.base })
        ⟨fun _ => by split <;> exact hthis, by simp, by simp [hrun],
          by simp [invoke_flag]⟩
      apply hset.withRunning
      rintro j ⟨⟩
      exact ⟨_, Function.update_self .., by split <;> exact hthis, rfl⟩
  next =>
      exact h.setObj hk ⟨fun _ => hthis, by simp, by simp [hrun],
        by simp [invoke_flag]⟩

/-- **Step rule**: a step keeps the objects kept, and the armed objects held,
exactly if the watcher is stopped where a Lua function returns. -/
theorem kept_stepAlive
    {l : Label} (h : Kept w) (hv : stepAlive w l = some v) :
    (ArmedHeld v ↔ ReturnsStopped w l) ∧ (ReturnsStopped w l → Kept v) := by
  have hother : l ≠ .callbackReturns → Kept v →
      (ArmedHeld v ↔ ReturnsStopped w l) ∧
        (ReturnsStopped w l → Kept v) := by
    intro hl hkept
    refine ⟨iff_of_true hkept.armedHeld ?_, fun _ => hkept⟩
    intro heq
    exact absurd heq hl
  cases l with
  | newTimer dueAt repeatAfter =>
      cases hv
      exact hother (by simp) (h.addObj rfl rfl)
  | newChildWatcher =>
      cases hv
      exact hother (by simp) (h.addObj rfl rfl)
  | startTimer k interval =>
      simp only [stepAlive] at hv
      split at hv
      case h_1 o hk =>
          split at hv
          case h_1 t _ =>
              simp only [Option.ite_none_right_eq_some,
                Option.some.injEq] at hv
              rcases hv with ⟨_, rfl⟩
              exact hother (by simp) (kept_start h hk
                (start_timer_active t interval (some 0) k w.now))
          case h_2 => cases hv
      case h_2 => cases hv
  | startChild k pid =>
      simp only [stepAlive] at hv
      split at hv
      case h_1 o hk =>
          split at hv
          case h_1 => cases hv
          case h_2 c _ =>
              simp only [Option.ite_none_right_eq_some,
                Option.some.injEq] at hv
              rcases hv with ⟨_, rfl⟩
              exact hother (by simp) (kept_start h hk rfl)
      case h_2 => cases hv
  | takeUp k now =>
      simp only [stepAlive, Option.ite_none_right_eq_some] at hv
      obtain ⟨o, hk, hdue, rfl⟩ := onObj_eq_some hv.2
      exact hother (by simp) (kept_takeUp h hk hv.1.2 hdue)
  | fire k =>
      simp only [stepAlive, Option.ite_none_right_eq_some] at hv
      obtain ⟨o, hk, hpending, rfl⟩ := onObj_eq_some hv.2
      exact hother (by simp) (kept_fire h hk hv.1 hpending)
  | callbackReturns =>
      simp only [stepAlive] at hv
      split at hv
      case h_1 => cases hv
      case h_2 k hrun =>
          cases hv
          obtain ⟨o, hk⟩ := Option.isSome_iff_exists.mp (h.known k hrun)
          have hret := callbackReturns_iff h hrun hk
          have hcond : ReturnsStopped w .callbackReturns ↔
              o.impl.active = false := by
            simp [ReturnsStopped, hrun, hk]
          rw [hcond]
          exact hret
  | collect k =>
      obtain ⟨o, hk, _, rfl⟩ := onObj_eq_some hv
      have ho := h.objs k o hk
      exact hother (by simp)
        (h.dropped hk ⟨ho.active, ho.waiting, ho.called, ho.flag⟩)

theorem stepAlive_of_step
    {l : Label} (h : step w l = some v) :
    stepAlive w l = some v := by
  unfold step at h
  split at h
  · cases h
  · exact h

end Steps

/-! ## Runs -/

/-- **Armed objects keep themselves alive** in every state of a run exactly when
no Lua function returns with the watcher of its object active. -/
theorem armed_held_iff (now : ℚ) (ls : List Label) :
    EveryState step ArmedHeld (.init now) ls ↔
      EveryStep step (fun w l _ => ReturnsStopped w l) (.init now) ls := by
  have hinit := kept_init now
  rw [everyState_iff_everyStep hinit.armedHeld]
  apply everyStep_congr (I := Kept) _ _ hinit
  · intro w v l _ hw hv
    exact (kept_stepAlive hw (stepAlive_of_step hv)).1
  · intro w v l _ hw hv harmed
    have hstep := kept_stepAlive hw (stepAlive_of_step hv)
    exact hstep.2 (hstep.1.mp harmed)

/-- A timer is started again by its own callback, Lua drops its handles, and the
destructor meets an active watcher and aborts. -/
theorem restarted_in_callback :
    let ls : List Label :=
      [.newTimer 0 0, .startTimer 0 5, .takeUp 0 6, .fire 0,
        .startTimer 0 5, .callbackReturns, .collect 0, .collect 0]
    (run step (.init 0) ls).map
        (fun w => (w.destructions, w.aborted)) =
        some ([⟨0, true, false⟩], true) ∧
      ¬ EveryState step ArmedHeld (.init 0) ls := by
  refine refuted_of_run (by decide +kernel) ?_
  intro w hobs harmed
  have hmem : (⟨0, true, false⟩ : Destruction) ∈ w.destructions := by
    rw [show w.destructions = [⟨0, true, false⟩] from congrArg Prod.fst hobs]
    simp
  have hsafe := (harmed.destructors _ hmem).1
  cases hsafe

end LuaWatcher
end Iojxd
