import Iojxd.TransitionRun

/-!
# One notification for each registration

A ledger of registrations: a listener registers for a task, a task ends with an
outcome, and the listener is called with the outcome of the task that it
registered for.  A task ends once, and a listener is called at most once for
each registration; after the call it may register again.

A log of these events is in order when the ledger accepts it.  The rest is read
off the log: how often a listener was called, and with what.
-/

namespace Iojxd
namespace OneShot

open TransitionRun

universe u v w

variable {κ : Type u} {ν : Type v} {ε : Type w}

inductive Event (κ : Type u) (ν : Type v) (ε : Type w) where
  | started (k : κ) (n : ν)
  | ended (n : ν) (e : ε)
  | called (k : κ) (e : ε)

structure Ledger (κ : Type u) (ν : Type v) (ε : Type w) where
  waiting : κ → Option ν
  outcome : ν → Option ε

namespace Ledger

def init : Ledger κ ν ε where
  waiting := fun _ => none
  outcome := fun _ => none

section Step

variable [DecidableEq κ] [DecidableEq ν] [DecidableEq ε]

@[simps] def start (r : Ledger κ ν ε) (k : κ) (n : ν) : Ledger κ ν ε where
  waiting := Function.update r.waiting k (some n)
  outcome := r.outcome

@[simps] def finish (r : Ledger κ ν ε) (n : ν) (e : ε) : Ledger κ ν ε where
  waiting := r.waiting
  outcome := Function.update r.outcome n (some e)

@[simps] def settle (r : Ledger κ ν ε) (k : κ) : Ledger κ ν ε where
  waiting := Function.update r.waiting k none
  outcome := r.outcome

/-- The ledger after an event; `none` where the event is out of order. -/
def step (r : Ledger κ ν ε) : Event κ ν ε → Option (Ledger κ ν ε)
  | .started k n => if r.waiting k = none then some (r.start k n) else none
  | .ended n e => if r.outcome n = none then some (r.finish n e) else none
  | .called k e =>
      if (r.waiting k).bind r.outcome = some e then some (r.settle k) else none

variable {r s : Ledger κ ν ε}

theorem step_started {k : κ} {n : ν} :
    r.step (.started k n) = some s ↔ r.waiting k = none ∧ r.start k n = s := by
  simp [step]

theorem step_ended {n : ν} {e : ε} :
    r.step (.ended n e) = some s ↔ r.outcome n = none ∧ r.finish n e = s := by
  simp [step]

theorem step_called {k : κ} {e : ε} :
    r.step (.called k e) = some s ↔
      (∃ n, r.waiting k = some n ∧ r.outcome n = some e) ∧ r.settle k = s := by
  simp [step, Option.bind_eq_some_iff]

/-- The ledger after one more event. -/
theorem run_concat {log : List (Event κ ν ε)} {ev : Event κ ν ε}
    (hr : run step init log = some r) (hs : r.step ev = some s) :
    run step init (log ++ [ev]) = some s := by
  rw [run_append, hr, Option.bind_some, run_cons, hs]
  rfl

end Step

end Ledger

/-! ## Reading a log -/

section Log

variable [DecidableEq κ]

/-- The registrations of a listener. -/
def starts (k : κ) (log : List (Event κ ν ε)) : List ν :=
  log.filterMap fun
    | .started k' n => if k' = k then some n else none
    | _ => none

/-- The calls of a listener. -/
def calls (k : κ) (log : List (Event κ ν ε)) : List ε :=
  log.filterMap fun
    | .called k' e => if k' = k then some e else none
    | _ => none

theorem starts_append (k : κ) (log log' : List (Event κ ν ε)) :
    starts k (log ++ log') = starts k log ++ starts k log' :=
  List.filterMap_append

theorem calls_append (k : κ) (log log' : List (Event κ ν ε)) :
    calls k (log ++ log') = calls k log ++ calls k log' :=
  List.filterMap_append

@[simp] theorem starts_started (k k' : κ) (n : ν) :
    starts k [(.started k' n : Event κ ν ε)] = if k' = k then [n] else [] := by
  by_cases hk : k' = k <;> simp [starts, hk]

@[simp] theorem starts_ended (k : κ) (n : ν) (e : ε) :
    starts k [.ended n e] = [] := by
  rfl

@[simp] theorem starts_called (k k' : κ) (e : ε) :
    starts k [(.called k' e : Event κ ν ε)] = [] := by
  rfl

@[simp] theorem calls_started (k k' : κ) (n : ν) :
    calls k [(.started k' n : Event κ ν ε)] = [] := by
  rfl

@[simp] theorem calls_ended (k : κ) (n : ν) (e : ε) :
    calls k [.ended n e] = [] := by
  rfl

@[simp] theorem calls_called (k k' : κ) (e : ε) :
    calls k [(.called k' e : Event κ ν ε)] = if k' = k then [e] else [] := by
  by_cases hk : k' = k <;> simp [calls, hk]

/-- The ledger keeps the outcomes of the log. -/
theorem outcome_iff
    [DecidableEq ν] [DecidableEq ε] {r : Ledger κ ν ε}
    {log : List (Event κ ν ε)} (hrun : run Ledger.step Ledger.init log = some r)
    (n : ν) (e : ε) :
    r.outcome n = some e ↔ .ended n e ∈ log := by
  induction log using List.reverseRecOn generalizing r with
  | nil =>
      rw [run_nil] at hrun
      cases hrun
      simp [Ledger.init]
  | append_singleton log ev ih =>
      rw [run_append] at hrun
      obtain ⟨m, hm, hlast⟩ := Option.bind_eq_some_iff.mp hrun
      obtain ⟨s, hs, hend⟩ := run_cons_success Ledger.step hlast
      cases hend
      rw [List.mem_append, List.mem_singleton, ← ih hm]
      cases ev with
      | started k n' =>
          obtain ⟨-, rfl⟩ := Ledger.step_started.mp hs
          simp
      | ended n' e' =>
          obtain ⟨hnone, rfl⟩ := Ledger.step_ended.mp hs
          by_cases hn : n = n'
          · subst hn
            simp [hnone, eq_comm]
          · simp [hn]
      | called k e' =>
          obtain ⟨-, rfl⟩ := Ledger.step_called.mp hs
          simp

/-- The registrations of a listener are those that have been answered, in order
and each with the outcome of its own task, and the one for which it waits. -/
structure Answered (k : κ) (r : Ledger κ ν ε) (log : List (Event κ ν ε))
    (answered : List ν) : Prop where
  starts : starts k log = answered ++ (r.waiting k).toList
  calls : answered.map r.outcome = (calls k log).map some

/-- Each call has the outcome of the registration that it answers. -/
theorem Answered.forall₂
    {k : κ} {r : Ledger κ ν ε} {log : List (Event κ ν ε)} {answered : List ν}
    (h : Answered k r log answered) :
    List.Forall₂ (fun n e => r.outcome n = some e) answered
      (OneShot.calls k log) := by
  have hcalls := h.calls
  rw [← List.forall₂_eq_eq_eq, List.forall₂_map_left_iff,
    List.forall₂_map_right_iff] at hcalls
  exact hcalls

variable [DecidableEq ν] [DecidableEq ε]

theorem answered_step
    {k : κ} {r s : Ledger κ ν ε} {log : List (Event κ ν ε)} {ev : Event κ ν ε}
    {answered : List ν} (hr : Answered k r log answered)
    (hs : r.step ev = some s) :
    ∃ answered', Answered k s (log ++ [ev]) answered' := by
  cases ev with
  | started k' n =>
      obtain ⟨hnone, rfl⟩ := Ledger.step_started.mp hs
      refine ⟨answered, ?_, ?_⟩
      · rw [starts_append, starts_started, hr.starts, Ledger.start_waiting]
        by_cases hk : k' = k
        · subst hk
          simp [hnone]
        · rw [Function.update_of_ne (Ne.symm hk)]
          simp [hk]
      · rw [calls_append, calls_started, List.append_nil]
        exact hr.calls
  | ended n e =>
      obtain ⟨hnone, rfl⟩ := Ledger.step_ended.mp hs
      refine ⟨answered, ?_, ?_⟩
      · rw [starts_append, starts_ended, List.append_nil]
        exact hr.starts
      · have hkept : answered.map (r.finish n e).outcome =
            answered.map r.outcome := by
          apply List.map_congr_left
          intro n' hn'
          -- the tasks that were answered have ended
          have hmem : r.outcome n' ∈ (OneShot.calls k log).map some := by
            rw [← hr.calls]
            exact List.mem_map_of_mem hn'
          rw [Ledger.finish_outcome, Function.update_of_ne]
          rintro rfl
          rw [hnone] at hmem
          simp at hmem
        rw [hkept, hr.calls, calls_append, calls_ended, List.append_nil]
  | called k' e =>
      obtain ⟨⟨n, hn, he⟩, rfl⟩ := Ledger.step_called.mp hs
      by_cases hk : k' = k
      · subst hk
        refine ⟨answered ++ [n], ?_, ?_⟩
        · rw [starts_append, starts_called, hr.starts, hn]
          simp
        · change (answered ++ [n]).map r.outcome = _
          rw [calls_append, List.map_append, List.map_append, hr.calls]
          simp [he]
      · refine ⟨answered, ?_, ?_⟩
        · rw [starts_append, starts_called, hr.starts, Ledger.settle_waiting,
            Function.update_of_ne (Ne.symm hk), List.append_nil]
        · change answered.map r.outcome = _
          rw [calls_append, hr.calls]
          simp [hk]

/-- **Every registration is answered at most once**, in order, and with the
outcome of its own task. -/
theorem answered_run
    {r : Ledger κ ν ε} {log : List (Event κ ν ε)} (k : κ)
    (hrun : run Ledger.step Ledger.init log = some r) :
    ∃ answered, Answered k r log answered := by
  induction log using List.reverseRecOn generalizing r with
  | nil =>
      rw [run_nil] at hrun
      cases hrun
      exact ⟨[], rfl, rfl⟩
  | append_singleton log ev ih =>
      rw [run_append] at hrun
      obtain ⟨m, hm, hlast⟩ := Option.bind_eq_some_iff.mp hrun
      obtain ⟨s, hs, hend⟩ := run_cons_success Ledger.step hlast
      cases hend
      obtain ⟨answered, ha⟩ := ih hm
      exact answered_step ha hs

end Log

end OneShot
end Iojxd
