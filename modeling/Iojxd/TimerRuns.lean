import Iojxd.TimerModel

/-!
# Timers in timeout mode

What a tick and an expiry do to a timer whose watcher runs `ixut_timeout_cb`,
and when a start of it calls the user at most once.

`ixut_timer_start` arms a watcher without repeat value.  An expiry before the
timeout gives it one, and from then on the loop keeps the watcher started when
it expires.
-/

namespace Iojxd
namespace Timer

open TransitionRun

/-- `ixut_timeout_cb` calls the user at time `now`. -/
def firesAt (timer : IxutTimer) (now : ℚ) : Bool :=
  timer.cb.isSome && decide (timer.lastAct + timer.interval < now)

/-- `ixut_timer_free` asserts the first part; it drops the watcher and frees
what the data of the watcher points to, so the loop must not know it. -/
structure FreeSafe (timer : IxutTimer) : Prop where
  flag : timer.active = false
  watcher : timer.timer.active = false

/-- The user was called at most once, and then the timer can be freed. -/
structure FiredOnce (s : TimerState) : Prop where
  once : s.fired.length ≤ 1
  free : s.fired ≠ [] → FreeSafe s.timer

/-- The watcher runs `ixut_timeout_cb`. -/
def TimeoutMode (s : TimerState) : Prop :=
  s.timer.timer.cb = .ixutTimeoutCb

/-- A timer in timeout mode just after `ixut_timer_start`. -/
def started (timer : IxutTimer) (interval : ℚ) (cb : Option Nat)
    (args : Nat) (now : ℚ) : TimerState where
  timer := ixutTimerStart (ixutTimerSetimeout timer) interval cb args now
  now := now
  fired := []

theorem timeoutMode_started
    (timer : IxutTimer) (interval : ℚ) (cb : Option Nat)
    (args : Nat) (now : ℚ) :
    TimeoutMode (started timer interval cb args now) := by
  simp [TimeoutMode, started, ixutTimerStart, ixutTimerSetimeout,
    EvTimer.init, EvTimer.set, EvTimer.start]

theorem firedOnce_of_nil
    {s : TimerState} (h : s.fired = []) :
    FiredOnce s :=
  ⟨by simp [h], fun hne => absurd h hne⟩

/-! ## The watcher -/

@[simp] theorem expire_cb (w : EvTimer) (now : ℚ) :
    (w.expire now).cb = w.cb := by
  unfold EvTimer.expire
  split <;> rfl

@[simp] theorem again_cb (w : EvTimer) (now : ℚ) :
    (w.again now).cb = w.cb := by
  unfold EvTimer.again
  split
  · split <;> rfl
  · split
    · unfold EvTimer.start
      split <;> rfl
    · rfl

/-- The loop keeps an expired watcher exactly if it has a repeat value. -/
theorem expire_active
    {w : EvTimer} (hw : w.active = true) (now : ℚ) :
    (w.expire now).active = decide (0 < w.repeatAfter) := by
  unfold EvTimer.expire
  split
  next hpos => simp [hw, hpos]
  next hpos => simp [EvTimer.stop, hpos]

theorem start_active (w : EvTimer) (now : ℚ) :
    (w.start now).active = true := by
  unfold EvTimer.start
  split
  next h => exact h
  next h => rfl

/-- `ev_timer_again` leaves a watcher started exactly if it repeats. -/
theorem again_active (w : EvTimer) (now : ℚ) :
    (w.again now).active = decide (0 < w.repeatAfter) := by
  by_cases hpos : 0 < w.repeatAfter
  · cases hw : w.active with
    | true => simp [EvTimer.again, hw, hpos]
    | false => simp [EvTimer.again, hw, hpos, start_active]
  · cases hw : w.active with
    | true => simp [EvTimer.again, EvTimer.stop, hw, hpos]
    | false => simp [EvTimer.again, hw, hpos]

theorem due_active
    {w : EvTimer} {now : ℚ} (h : w.due now = true) :
    w.active = true := by
  simp only [EvTimer.due, Bool.and_eq_true] at h
  exact h.1

/-! ## One expiry -/

/-- An expiry after the timeout calls the user and leaves the watcher to the
loop. -/
theorem evExpire_of_fires
    {s : TimerState} (hmode : TimeoutMode s)
    (hfires : firesAt s.timer s.now = true) :
    evExpire s =
      { s with
        timer := { s.timer with
          active := false
          timer := s.timer.timer.expire s.now }
        fired := s.fired ++ [s.now] } := by
  simp only [firesAt, Bool.and_eq_true, decide_eq_true_eq] at hfires
  rcases hfires with ⟨hcb, hlate⟩
  rcases Option.isSome_iff_exists.mp hcb with ⟨f, hf⟩
  have hmode' : s.timer.timer.cb = .ixutTimeoutCb := hmode
  simp [evExpire, ixutTimeoutCb, callUser, hmode', hlate, hf]

/-- Any other expiry calls nobody. -/
theorem evExpire_of_not_fires
    {s : TimerState} (hmode : TimeoutMode s)
    (hfires : firesAt s.timer s.now = false) :
    (evExpire s).fired = s.fired ∧ TimeoutMode (evExpire s) := by
  have hmode' : s.timer.timer.cb = .ixutTimeoutCb := hmode
  simp only [firesAt, Bool.and_eq_false_iff, decide_eq_false_iff_not]
    at hfires
  by_cases hlate : s.timer.lastAct + s.timer.interval < s.now
  · have hcb : s.timer.cb = none := by
      simpa [hlate] using hfires
    simp [evExpire, ixutTimeoutCb, TimeoutMode, hmode', hlate, hcb]
  · simp [evExpire, ixutTimeoutCb, ixutTimerAgain, TimeoutMode, hmode',
      hlate]

/-- An expiry before the timeout re-arms the watcher for what is left. -/
theorem evExpire_of_early
    {s : TimerState} (hmode : TimeoutMode s)
    (hearly : ¬ s.timer.lastAct + s.timer.interval < s.now) :
    evExpire s =
      { s with
        timer := ixutTimerAgain
          { s.timer with
            timer := { s.timer.timer.expire s.now with
              repeatAfter :=
                s.timer.lastAct + s.timer.interval - s.now } }
          s.now } := by
  have hmode' : s.timer.timer.cb = .ixutTimeoutCb := hmode
  simp [evExpire, ixutTimeoutCb, hmode', hearly]

/-! ## Steps -/

/-- **Inversion rule**: the steps of a timer in timeout mode. -/
theorem step_cases
    {s t : TimerState} {l : Label}
    (hmode : TimeoutMode s) (ht : step s l = some t) :
    (∃ now, l = .tick now ∧
      t = { s with timer := ixutTimerTick s.timer now, now := now }) ∨
    (∃ now, l = .expire now ∧ s.timer.timer.active = true ∧
      firesAt s.timer now = true ∧
      t = { timer := { s.timer with
              active := false
              timer := s.timer.timer.expire now }
            now := now
            fired := s.fired ++ [now] }) ∨
    (∃ now, l = .expire now ∧ s.timer.timer.active = true ∧
      firesAt s.timer now = false ∧
      t.fired = s.fired ∧ TimeoutMode t) := by
  cases l with
  | tick now =>
      simp only [step, Option.ite_none_right_eq_some, Option.some.injEq] at ht
      exact .inl ⟨now, rfl, ht.2.symm⟩
  | expire now =>
      simp only [step, Option.ite_none_right_eq_some, Option.some.injEq] at ht
      rcases ht with ⟨⟨_, hdue⟩, rfl⟩
      have hact := due_active hdue
      have hmode' : TimeoutMode { s with now := now } := hmode
      cases hfires : firesAt s.timer now with
      | true =>
          refine .inr (.inl ⟨now, rfl, hact, hfires, ?_⟩)
          exact evExpire_of_fires hmode' hfires
      | false =>
          refine .inr (.inr ⟨now, rfl, hact, hfires, ?_⟩)
          exact evExpire_of_not_fires hmode' hfires

theorem timeoutMode_step
    {s t : TimerState} {l : Label}
    (hmode : TimeoutMode s) (ht : step s l = some t) :
    TimeoutMode t := by
  rcases step_cases hmode ht with
    ⟨now, rfl, rfl⟩ | ⟨now, rfl, _, _, rfl⟩ | ⟨now, rfl, _, _, _, h⟩
  · exact hmode
  · have hcb : s.timer.timer.cb = .ixutTimeoutCb := hmode
    simp [TimeoutMode, hcb]
  · exact h

/-- The user is called only by an expiry of a watcher without repeat value. -/
def FiresOneShot (s : TimerState) (l : Label) : Prop :=
  ∀ now, l = .expire now → firesAt s.timer now = true →
    s.timer.timer.repeatAfter ≤ 0

/-- No expiry follows a first call of the user, so one step decides. -/
theorem firedOnce_step_iff
    {s t : TimerState} {l : Label}
    (hmode : TimeoutMode s) (hs : FiredOnce s) (ht : step s l = some t) :
    FiredOnce t ↔ FiresOneShot s l := by
  rcases step_cases hmode ht with
    ⟨now, rfl, rfl⟩ | ⟨now, rfl, hact, hfires, rfl⟩ |
      ⟨now, rfl, hact, hfires, hfired, _⟩
  · constructor
    · rintro _ now' ⟨⟩
    · intro _
      exact ⟨hs.once, fun hne => ⟨(hs.free hne).flag, (hs.free hne).watcher⟩⟩
  · have hnil : s.fired = [] := by
      by_contra hne
      simp [(hs.free hne).watcher] at hact
    constructor
    · rintro h _ ⟨⟩ _
      have hoff := (h.free (by simp)).watcher
      rw [expire_active hact] at hoff
      simpa using hoff
    · intro h
      have hrep := h now rfl hfires
      refine ⟨by simp [hnil], fun _ => ⟨rfl, ?_⟩⟩
      change (s.timer.timer.expire now).active = false
      rw [expire_active hact]
      simpa using hrep
  · constructor
    · rintro _ now' ⟨⟩ hfires'
      simp [hfires] at hfires'
    · intro _
      have hnil : s.fired = [] := by
        by_contra hne
        simp [(hs.free hne).watcher] at hact
      exact firedOnce_of_nil (hfired.trans hnil)

/-! ## Runs -/

/-- A timeout fires at most once per start exactly if it fires from a watcher
that no earlier expiry has given a repeat value. -/
theorem timeout_fires_once_iff
    (timer : IxutTimer) (interval : ℚ) (cb : Option Nat)
    (args : Nat) (now : ℚ) (ls : List Label) :
    EveryState step FiredOnce (started timer interval cb args now) ls ↔
      EveryStep step (fun s l _ => FiresOneShot s l)
        (started timer interval cb args now) ls := by
  have hmode := timeoutMode_started timer interval cb args now
  have hinit : FiredOnce (started timer interval cb args now) :=
    firedOnce_of_nil rfl
  rw [everyState_iff_everyStep hinit]
  apply everyStep_congr (I := fun s => TimeoutMode s ∧ FiredOnce s)
  · intro s t l _ hs ht
    exact firedOnce_step_iff hs.1 hs.2 ht
  · intro s t l _ hs ht honce
    exact ⟨timeoutMode_step hs.1 ht, honce⟩
  · exact ⟨hmode, hinit⟩

/-- A tick re-arms the watcher with a repeat value: the user is called twice,
and the watcher is still started. -/
theorem ticked_timeout_fires_twice :
    let ls : List Label := [.tick 5, .expire 11, .expire 16, .expire 21]
    let s := started (ixutTimerCreate 0 0) 10 (some 0) 0 0
    (run step s ls).map
        (fun t => (t.fired, t.timer.active, t.timer.timer.active)) =
      some ([16, 21], false, true) ∧
      ¬ EveryState step FiredOnce s ls := by
  refine refuted_of_run (by decide +kernel) ?_
  intro t hobs hfired
  have honce := hfired.once
  rw [show t.fired = [16, 21] from congrArg Prod.fst hobs] at honce
  simp at honce

end Timer
end Iojxd
