import Iojxd.TimerRuns

/-!
# Idle periods

A timer in timeout mode with a user callback is to be called once it has been
idle for its interval.  An expiry of its watcher either calls the user or
re-arms the watcher for the rest of the interval; at the one instant at which
the interval has just passed the rest is zero, and `ev_timer_again` takes that
for a watcher that does not repeat.

The invariant is that the watcher is started and due no later than the end of
the interval, until the user has been called.
-/

namespace Iojxd
namespace Timer

open TransitionRun

/-- An expiry has called the user, who was idle long enough, or the watcher is
due at the end of the interval. -/
def Answered (s : TimerState) (l : Label) (t : TimerState) : Prop :=
  ∀ now, l = .expire now →
    (t.fired = s.fired ++ [now] ∧
      s.timer.lastAct + s.timer.interval ≤ now) ∨
    (t.timer.timer.active = true ∧
      t.timer.timer.dueAt = t.timer.lastAct + t.timer.interval)

/-- Idle for longer than the interval, since `since` and the last tick: the
watcher is due, and its expiry calls the user. -/
def Noticed (since : ℚ) (s : TimerState) : Prop :=
  s.fired = [] → ∀ now, s.now ≤ now →
    max since s.timer.lastAct + s.timer.interval < now →
    ∃ t, step s (.expire now) = some t ∧ t.fired = [now]

/-- No expiry falls on the end of the interval. -/
def OffBoundary (s : TimerState) (l : Label) : Prop :=
  ∀ now, l = .expire now → s.timer.lastAct + s.timer.interval ≠ now

/-- Until the user is called the watcher is started and due in time. -/
structure Watching (since : ℚ) (s : TimerState) : Prop where
  mode : TimeoutMode s
  callback : s.timer.cb.isSome = true
  acted : s.timer.lastAct ≤ max since s.now
  armed : s.fired = [] → s.timer.timer.active = true
  inTime : s.fired = [] →
    s.timer.timer.dueAt ≤ max since s.timer.lastAct + s.timer.interval

/-! ## One expiry -/

section Expiry

variable {s : TimerState}

theorem firesAt_iff
    (hcb : s.timer.cb.isSome = true) (now : ℚ) :
    firesAt s.timer now = true ↔
      s.timer.lastAct + s.timer.interval < now := by
  simp [firesAt, hcb]

/-- A watcher with a repeat value is started again for that long. -/
theorem again_dueAt
    {w : EvTimer} (h : 0 < w.repeatAfter) (now : ℚ) :
    (w.again now).dueAt = w.repeatAfter + now := by
  cases hw : w.active with
  | true => simp [EvTimer.again, hw, h, add_comm]
  | false => simp [EvTimer.again, EvTimer.start, hw, h]

/-- An early expiry arms the watcher exactly if the interval is not yet over. -/
theorem evExpire_early_armed
    (hmode : TimeoutMode s)
    (hearly : ¬ s.timer.lastAct + s.timer.interval < s.now) :
    (evExpire s).timer.timer.active = true ↔
      s.timer.lastAct + s.timer.interval ≠ s.now := by
  rw [evExpire_of_early hmode hearly]
  simp only [ixutTimerAgain, again_active, decide_eq_true_eq, sub_pos]
  exact (not_lt.mp hearly).lt_iff_ne'

theorem evExpire_early_dueAt
    (hmode : TimeoutMode s)
    (hearly : s.now < s.timer.lastAct + s.timer.interval) :
    (evExpire s).timer.timer.dueAt =
      s.timer.lastAct + s.timer.interval := by
  rw [evExpire_of_early hmode (not_lt.mpr hearly.le)]
  have hleft : 0 < s.timer.lastAct + s.timer.interval - s.now :=
    sub_pos.mpr hearly
  simp only [ixutTimerAgain]
  rw [again_dueAt hleft]
  exact sub_add_cancel _ _

theorem evExpire_early_same
    (hmode : TimeoutMode s)
    (hearly : ¬ s.timer.lastAct + s.timer.interval < s.now) :
    (evExpire s).fired = s.fired ∧ (evExpire s).now = s.now ∧
      (evExpire s).timer.lastAct = s.timer.lastAct ∧
      (evExpire s).timer.interval = s.timer.interval ∧
      (evExpire s).timer.cb = s.timer.cb := by
  rw [evExpire_of_early hmode hearly]
  simp [ixutTimerAgain]

end Expiry

/-! ## Steps -/

theorem expire_eq_some
    {s t : TimerState} {now : ℚ} (ht : step s (.expire now) = some t) :
    s.now ≤ now ∧ s.timer.timer.due now = true ∧
      t = evExpire { s with now := now } := by
  simp only [step, Option.ite_none_right_eq_some, Option.some.injEq] at ht
  exact ⟨ht.1.1, ht.1.2, ht.2.symm⟩

theorem tick_eq_some
    {s t : TimerState} {now : ℚ} (ht : step s (.tick now) = some t) :
    s.now ≤ now ∧
      t = { s with timer := ixutTimerTick s.timer now, now := now } := by
  simp only [step, Option.ite_none_right_eq_some, Option.some.injEq] at ht
  exact ⟨ht.1, ht.2.symm⟩

/-- One expiry decides: it is answered exactly off the boundary. -/
theorem answered_step_iff
    {s t : TimerState} {l : Label}
    (hmode : TimeoutMode s) (hcb : s.timer.cb.isSome = true)
    (ht : step s l = some t) :
    Answered s l t ↔ OffBoundary s l := by
  cases l with
  | tick now =>
      constructor
      · rintro _ _ ⟨⟩
      · rintro _ _ ⟨⟩
  | expire now =>
      obtain ⟨_, _, rfl⟩ := expire_eq_some ht
      have hmode' : TimeoutMode { s with now := now } := hmode
      by_cases hlate : s.timer.lastAct + s.timer.interval < now
      · have hfires : firesAt s.timer now = true :=
          (firesAt_iff hcb now).mpr hlate
        have hcalled := evExpire_of_fires hmode' hfires
        constructor
        · rintro _ _ ⟨⟩
          exact hlate.ne
        · rintro _ _ ⟨⟩
          refine Or.inl ⟨?_, hlate.le⟩
          rw [hcalled]
      · have hsame := evExpire_early_same hmode' hlate
        have harmed := evExpire_early_armed hmode' hlate
        constructor
        · rintro hans _ ⟨⟩
          rcases hans now rfl with ⟨hfired, _⟩ | ⟨hactive, _⟩
          · rw [hsame.1] at hfired
            simp at hfired
          · exact harmed.mp hactive
        · rintro hoff _ ⟨⟩
          have hne := hoff now rfl
          have hearly : now < s.timer.lastAct + s.timer.interval :=
            lt_of_le_of_ne (not_lt.mp hlate) hne.symm
          refine Or.inr ⟨harmed.mpr hne, ?_⟩
          rw [evExpire_early_dueAt hmode' hearly, hsame.2.2.1, hsame.2.2.2.1]

/-- **Step rule**: off the boundary the watcher stays armed in time. -/
theorem watching_step
    {since : ℚ} {s t : TimerState} {l : Label}
    (h : Watching since s) (hoff : OffBoundary s l)
    (ht : step s l = some t) :
    Watching since t := by
  have hmode := timeoutMode_step h.mode ht
  cases l with
  | tick now =>
      obtain ⟨hnow, rfl⟩ := tick_eq_some ht
      refine ⟨hmode, h.callback, le_max_right since now, h.armed, ?_⟩
      intro hfired
      -- the tick only moves the end of the interval
      have hlater : max since s.timer.lastAct ≤ max since now := by
        apply max_le (le_max_left since now)
        exact h.acted.trans (max_le_max le_rfl hnow)
      have hdue := h.inTime hfired
      simp only [ixutTimerTick]
      linarith
  | expire now =>
      obtain ⟨hnow, _, rfl⟩ := expire_eq_some ht
      have hmode' : TimeoutMode { s with now := now } := h.mode
      have hacted : s.timer.lastAct ≤ max since now :=
        h.acted.trans (max_le_max le_rfl hnow)
      by_cases hlate : s.timer.lastAct + s.timer.interval < now
      · have hfires : firesAt s.timer now = true :=
          (firesAt_iff h.callback now).mpr hlate
        rw [evExpire_of_fires hmode' hfires] at hmode ⊢
        refine ⟨hmode, h.callback, hacted, ?_, ?_⟩
        · intro hnil
          simp at hnil
        · intro hnil
          simp at hnil
      · have hne := hoff now rfl
        have hearly : now < s.timer.lastAct + s.timer.interval :=
          lt_of_le_of_ne (not_lt.mp hlate) hne.symm
        obtain ⟨_, htime, hact, hint, hcb⟩ := evExpire_early_same hmode' hlate
        refine ⟨hmode, ?_, ?_, ?_, ?_⟩
        · rw [hcb]
          exact h.callback
        · rw [hact, htime]
          exact hacted
        · intro _
          exact (evExpire_early_armed hmode' hlate).mpr hne
        · intro _
          rw [evExpire_early_dueAt hmode' hearly, hact, hint]
          gcongr
          exact le_max_right _ _

/-- A watched timer notices. -/
theorem noticed_of_watching
    {since : ℚ} {s : TimerState} (h : Watching since s) :
    Noticed since s := by
  intro hfired now hnow hidle
  have hdue : s.timer.timer.due now = true := by
    have hlt := (h.inTime hfired).trans_lt hidle
    simp [EvTimer.due, h.armed hfired, hlt]
  have hfires : firesAt s.timer now = true := by
    rw [firesAt_iff h.callback]
    refine lt_of_le_of_lt ?_ hidle
    gcongr
    exact le_max_right _ _
  have hmode' : TimeoutMode { s with now := now } := h.mode
  refine ⟨evExpire { s with now := now }, ?_, ?_⟩
  · simp [step, hnow, hdue]
  · rw [evExpire_of_fires hmode' hfires]
    simp [hfired]

/-! ## Runs -/

theorem watching_started
    (timer : IxutTimer) (interval : ℚ) (f args : Nat) (now : ℚ) :
    Watching (max now timer.lastAct)
      (started timer interval (some f) args now) where
  mode := timeoutMode_started timer interval (some f) args now
  callback := rfl
  acted := by
    change timer.lastAct ≤ max (max now timer.lastAct) now
    simp
  armed := by
    intro _
    exact start_active _ _
  inTime := by
    intro _
    have hdue : (started timer interval (some f) args now).timer.timer.dueAt =
        interval + now := rfl
    have hlater : now ≤ max (max now timer.lastAct) timer.lastAct := by simp
    rw [hdue, add_comm]
    change now + interval ≤ max (max now timer.lastAct) timer.lastAct + interval
    linarith

/-- **A timeout is never lost**, and a long idle period is noticed, exactly in
the runs in which no expiry falls on the end of the interval. -/
theorem timeout_never_lost_iff
    (timer : IxutTimer) (interval : ℚ) (f args : Nat) (now : ℚ)
    (ls : List Label) :
    (EveryStep step Answered
        (started timer interval (some f) args now) ls ∧
      EveryState step (Noticed (max now timer.lastAct))
        (started timer interval (some f) args now) ls) ↔
      EveryStep step (fun s l _ => OffBoundary s l)
        (started timer interval (some f) args now) ls := by
  have hinit := watching_started timer interval f args now
  have hiff : EveryStep step Answered
        (started timer interval (some f) args now) ls ↔
      EveryStep step (fun s l _ => OffBoundary s l)
        (started timer interval (some f) args now) ls := by
    apply everyStep_congr (I := Watching (max now timer.lastAct)) _ _ hinit
    · intro s t l _ hs ht
      exact answered_step_iff hs.mode hs.callback ht
    · intro s t l _ hs ht hans
      exact watching_step hs
        ((answered_step_iff hs.mode hs.callback ht).mp hans) ht
  constructor
  · intro h
    exact hiff.mp h.1
  · intro hoff
    refine ⟨hiff.mpr hoff, ?_⟩
    apply (everyState_iff_everyStep (noticed_of_watching hinit) ls).mpr
    apply everyStep_mono (I := Watching (max now timer.lastAct)) _ hinit hoff
    intro s t l hs ht hl
    have hwatch := watching_step hs hl ht
    exact ⟨noticed_of_watching hwatch, hwatch⟩

/-- The watcher is due at 10, and the loop comes to it just as the interval since
the tick ends: nobody is called, the timer says that it is active, and its watcher
is stopped. -/
theorem timeout_lost_at_boundary :
    let s := started (ixutTimerCreate 0 0) 10 (some 0) 0 0
    (run step s [.tick 5, .expire 15]).map
        (fun t => (t.fired, t.timer.active, t.timer.timer.active)) =
      some ([], true, false) ∧
      ¬ EveryStep step Answered s [.tick 5, .expire 15] := by
  refine ⟨by decide +kernel, ?_⟩
  intro h
  have hticked : run step (started (ixutTimerCreate 0 0) 10 (some 0) 0 0)
      [.tick 5] =
        some { started (ixutTimerCreate 0 0) 10 (some 0) 0 0 with
          timer := ixutTimerTick
            (started (ixutTimerCreate 0 0) 10 (some 0) 0 0).timer 5
          now := 5 } := by
    decide +kernel
  have hexpire := everyStep_at [Label.tick 5] h hticked
    (t := evExpire { started (ixutTimerCreate 0 0) 10 (some 0) 0 0 with
      timer := ixutTimerTick
        (started (ixutTimerCreate 0 0) 10 (some 0) 0 0).timer 5
      now := 15 }) (by decide +kernel)
  rcases hexpire 15 rfl with ⟨hfired, _⟩ | ⟨hactive, _⟩
  · revert hfired
    decide +kernel
  · revert hactive
    decide +kernel

end Timer
end Iojxd
