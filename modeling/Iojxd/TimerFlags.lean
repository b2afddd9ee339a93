import Iojxd.TimerRuns

/-!
# The active flag of a timer

`timer->active` is a copy of what the loop knows of the watcher.  Every
operation of `timer.cxx` and both expiry callbacks write the copy; libev changes
the original when a watcher expires and when `ev_timer_again` meets a repeat
value of zero.  One operation decides: from a state in which the two agree they
agree afterwards exactly when the repeat value, the clock and the callback are
such that both sides do the same.
-/

namespace Iojxd
namespace Timer

open TransitionRun

/-- What the owner of a timer, or the loop, does with it. -/
inductive Op where
  | start (interval : ℚ) (cb : Option Nat) (args : Nat)
  | stop
  | again
  | setimeout
  | tick
  /-- the watcher expires -/
  | expire
deriving DecidableEq

/-- An operation and its time. -/
structure TimedOp where
  now : ℚ
  op : Op
deriving DecidableEq

/-- The effect of an operation at `s.now`; `none` where `ixut_timer_stop` would
fail its assertion and where the watcher is not due. -/
def apply (s : TimerState) : Op → Option TimerState
  | .start interval cb args =>
      some { s with timer := ixutTimerStart s.timer interval cb args s.now }
  | .stop =>
      if s.timer.active then some { s with timer := ixutTimerStop s.timer }
      else none
  | .again => some { s with timer := ixutTimerAgain s.timer s.now }
  | .setimeout => some { s with timer := ixutTimerSetimeout s.timer }
  | .tick => some { s with timer := ixutTimerTick s.timer s.now }
  | .expire =>
      if s.timer.timer.due s.now then some (evExpire s) else none

/-- The step function of a timer; time does not run backwards. -/
def opStep (s : TimerState) (l : TimedOp) : Option TimerState :=
  if s.now ≤ l.now then apply { s with now := l.now } l.op else none

/-- A timer that `ixut_timer_create` has just made. -/
def created (dueAt repeatAfter now : ℚ) : TimerState where
  timer := ixutTimerCreate dueAt repeatAfter
  now := now
  fired := []

/-- The flag says what the loop knows. -/
def FlagTruth (s : TimerState) : Prop :=
  s.timer.active = s.timer.timer.active

/-- The flag and the watcher change together. -/
def KeepsFlag (s : TimerState) (l : TimedOp) : Prop :=
  match l.op with
  | .start _ _ _ => True
  | .stop => True
  | .tick => True
  | .setimeout => s.timer.timer.active = false
  | .again => 0 < s.timer.timer.repeatAfter
  | .expire =>
      match s.timer.timer.cb with
      | .ixutTimerCb => s.timer.timer.repeatAfter ≤ 0
      | .ixutTimeoutCb =>
          if s.timer.lastAct + s.timer.interval < l.now then
            if s.timer.cb.isSome then s.timer.timer.repeatAfter ≤ 0
            else 0 < s.timer.timer.repeatAfter
          else s.timer.lastAct + s.timer.interval ≠ l.now

/-! ## One operation -/

section Operations

variable {s : TimerState}

theorem flagTruth_start
    (s : TimerState) (interval : ℚ) (cb : Option Nat) (args : Nat) :
    FlagTruth { s with
      timer := ixutTimerStart s.timer interval cb args s.now } := by
  have hstart := start_active (s.timer.timer.set interval 0) s.now
  exact hstart.symm

theorem flagTruth_again_iff (timer : IxutTimer) (now : ℚ) (fired : List ℚ) :
    FlagTruth ⟨ixutTimerAgain timer now, now, fired⟩ ↔
      0 < timer.timer.repeatAfter := by
  have hagain := again_active timer.timer now
  simp [FlagTruth, ixutTimerAgain, hagain]

theorem flagTruth_setimeout_iff (h : FlagTruth s) :
    FlagTruth { s with timer := ixutTimerSetimeout s.timer } ↔
      s.timer.timer.active = false := by
  unfold FlagTruth at h ⊢
  simp [ixutTimerSetimeout, EvTimer.init, h]

/-- An expiry in the ordinary mode clears the flag, and the loop keeps a watcher
that repeats. -/
theorem flagTruth_timerCb_iff
    (hcb : s.timer.timer.cb = .ixutTimerCb) (hact : s.timer.timer.active = true) :
    FlagTruth (evExpire s) ↔ s.timer.timer.repeatAfter ≤ 0 := by
  have hexpire := expire_active hact s.now
  have hflag : (evExpire s).timer.active = false ∧
      (evExpire s).timer.timer = s.timer.timer.expire s.now := by
    cases huser : s.timer.cb with
    | none => simp [evExpire, ixutTimerCb, hcb, huser]
    | some f => simp [evExpire, ixutTimerCb, callUser, hcb, huser]
  rw [FlagTruth, hflag.1, hflag.2, hexpire]
  simp

/-- In timeout mode, after the timeout: only a user callback clears the flag. -/
theorem flagTruth_late_iff
    (h : FlagTruth s) (hmode : TimeoutMode s)
    (hact : s.timer.timer.active = true)
    (hlate : s.timer.lastAct + s.timer.interval < s.now) :
    FlagTruth (evExpire s) ↔
      if s.timer.cb.isSome then s.timer.timer.repeatAfter ≤ 0
      else 0 < s.timer.timer.repeatAfter := by
  have hmode' : s.timer.timer.cb = .ixutTimeoutCb := hmode
  have hexpire := expire_active hact s.now
  have hset : s.timer.active = true := h.trans hact
  cases huser : s.timer.cb with
  | none =>
      have hstate : evExpire s =
          { s with timer := { s.timer with
            timer := s.timer.timer.expire s.now } } := by
        simp [evExpire, ixutTimeoutCb, hmode', hlate, huser]
      rw [hstate, FlagTruth]
      simp [hset, hexpire]
  | some f =>
      have hfires : firesAt s.timer s.now = true := by
        simp [firesAt, huser, hlate]
      rw [evExpire_of_fires hmode hfires, FlagTruth]
      simp [hexpire]

/-- In timeout mode, before the timeout: the rest of the interval becomes the
repeat value. -/
theorem flagTruth_early_iff
    (hmode : TimeoutMode s)
    (hearly : ¬ s.timer.lastAct + s.timer.interval < s.now) :
    FlagTruth (evExpire s) ↔
      s.timer.lastAct + s.timer.interval ≠ s.now := by
  rw [evExpire_of_early hmode hearly]
  have hagain := flagTruth_again_iff
    { s.timer with
      timer := { s.timer.timer.expire s.now with
        repeatAfter := s.timer.lastAct + s.timer.interval - s.now } }
    s.now s.fired
  refine hagain.trans ?_
  rw [sub_pos]
  exact (not_lt.mp hearly).lt_iff_ne'

theorem flagTruth_expire_iff
    (h : FlagTruth s) (hact : s.timer.timer.active = true) :
    FlagTruth (evExpire s) ↔ KeepsFlag s ⟨s.now, .expire⟩ := by
  cases hcb : s.timer.timer.cb with
  | ixutTimerCb =>
      rw [flagTruth_timerCb_iff hcb hact]
      simp [KeepsFlag, hcb]
  | ixutTimeoutCb =>
      by_cases hlate : s.timer.lastAct + s.timer.interval < s.now
      · rw [flagTruth_late_iff h hcb hact hlate]
        simp [KeepsFlag, hcb, hlate]
      · rw [flagTruth_early_iff hcb hlate]
        simp [KeepsFlag, hcb, hlate]

end Operations

/-- **Step rule**: from a state where flag and watcher agree, one operation
keeps them equal exactly under its own condition. -/
theorem flagTruth_step_iff
    {s t : TimerState} {l : TimedOp}
    (h : FlagTruth s) (ht : opStep s l = some t) :
    FlagTruth t ↔ KeepsFlag s l := by
  rcases l with ⟨now, op⟩
  simp only [opStep, Option.ite_none_right_eq_some] at ht
  have hs : FlagTruth { s with now := now } := h
  cases op with
  | start interval cb args =>
      have hstart := flagTruth_start { s with now := now } interval cb args
      cases ht.2
      exact iff_of_true hstart trivial
  | stop =>
      simp only [apply, Option.ite_none_right_eq_some, Option.some.injEq] at ht
      rcases ht with ⟨_, _, rfl⟩
      exact iff_of_true rfl trivial
  | again =>
      cases ht.2
      exact flagTruth_again_iff s.timer now s.fired
  | setimeout =>
      cases ht.2
      exact flagTruth_setimeout_iff hs
  | tick =>
      cases ht.2
      exact iff_of_true h trivial
  | expire =>
      simp only [apply, Option.ite_none_right_eq_some, Option.some.injEq] at ht
      rcases ht with ⟨_, hdue, rfl⟩
      exact flagTruth_expire_iff hs (due_active hdue)

/-- **The flag tells the truth** in every state of a run exactly when every
operation meets its condition. -/
theorem flag_truth_iff
    (dueAt repeatAfter now : ℚ) (ls : List TimedOp) :
    EveryState opStep FlagTruth (created dueAt repeatAfter now) ls ↔
      EveryStep opStep (fun s l _ => KeepsFlag s l)
        (created dueAt repeatAfter now) ls := by
  have hinit : FlagTruth (created dueAt repeatAfter now) := rfl
  rw [everyState_iff_everyStep hinit]
  apply everyStep_congr (I := FlagTruth) _ _ hinit
  · intro s t l _ hs ht
    exact flagTruth_step_iff hs ht
  · intro s t l _ _ _ htruth
    exact htruth

/-- A timer in timeout mode without a callback runs out: the loop stops the
watcher and the flag stays set. -/
theorem flag_stays_set_without_callback :
    let ls : List TimedOp :=
      [⟨0, .setimeout⟩, ⟨0, .start 10 none 0⟩, ⟨11, .expire⟩]
    (run opStep (created 0 0 0) ls).map
        (fun t => (t.timer.active, t.timer.timer.active)) =
      some (true, false) ∧
      ¬ EveryState opStep FlagTruth (created 0 0 0) ls := by
  refine refuted_of_run (by decide +kernel) ?_
  intro t hobs htruth
  have hset : t.timer.active = true := congrArg Prod.fst hobs
  have hstopped : t.timer.timer.active = false := congrArg Prod.snd hobs
  rw [FlagTruth, hset, hstopped] at htruth
  cases htruth

end Timer
end Iojxd
