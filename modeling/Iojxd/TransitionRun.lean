import Mathlib.Data.List.Infix
import Mathlib.Tactic

/-!
# Runs of a partial step function

A transition system is given by a partial step function: `step s l = some t`
when the label `l` is enabled in `s` and leads to `t`.  A run is a list of
labels.  This module collects the induction principles used for every system
of the development:

* an invariant kept by one step holds at the end of every run;
* a property of steps, or of states, holds along a run exactly when a
  condition on the steps does, provided that one step decides the property
  as long as the invariant holds.
-/

namespace Iojxd
namespace TransitionRun

universe u v

section Runs

variable {σ : Type u} {ℓ : Type v}
variable (step : σ → ℓ → Option σ)

/-- Final state of the run that takes the given labels in order. -/
def run : σ → List ℓ → Option σ
  | s, [] => some s
  | s, l :: ls => (step s l).bind fun t => run t ls

/-- Every step of the run satisfies `Q` on source, label and target. -/
def EveryStep (Q : σ → ℓ → σ → Prop) : σ → List ℓ → Prop
  | _, [] => True
  | s, l :: ls => ∀ t, step s l = some t → Q s l t ∧ EveryStep Q t ls

instance decidableEveryStep
    (Q : σ → ℓ → σ → Prop) [∀ s l t, Decidable (Q s l t)] :
    ∀ (s : σ) (ls : List ℓ), Decidable (EveryStep step Q s ls)
  | _, [] => isTrue trivial
  | s, l :: ls =>
      match ht : step s l with
      | none => isTrue (by simp [EveryStep, ht])
      | some t =>
          have := decidableEveryStep Q t ls
          decidable_of_iff (Q s l t ∧ EveryStep step Q t ls)
            (by simp [EveryStep, ht])

/-- Every state reached along the run, the first one included, satisfies `P`. -/
def EveryState (P : σ → Prop) (s : σ) (ls : List ℓ) : Prop :=
  ∀ pre, pre <+: ls → ∀ t, run step s pre = some t → P t

/-- Every state in which the run takes a label, with that label, satisfies `P`,
also where the label is not enabled. -/
def EverySource (P : σ → ℓ → Prop) : σ → List ℓ → Prop
  | _, [] => True
  | s, l :: ls => P s l ∧ ∀ t, step s l = some t → EverySource P t ls

@[simp] theorem run_nil (s : σ) :
    run step s [] = some s := by
  rfl

theorem run_cons (s : σ) (l : ℓ) (ls : List ℓ) :
    run step s (l :: ls) =
      (step s l).bind fun t => run step t ls := by
  rfl

/-- Peel the first step from a run that succeeds. -/
theorem run_cons_success
    {s t : σ} {l : ℓ} {ls : List ℓ}
    (hrun : run step s (l :: ls) = some t) :
    ∃ m, step s l = some m ∧ run step m ls = some t := by
  rw [run_cons] at hrun
  exact Option.bind_eq_some_iff.mp hrun

theorem run_append (s : σ) (ks ls : List ℓ) :
    run step s (ks ++ ls) =
      (run step s ks).bind fun t => run step t ls := by
  induction ks generalizing s with
  | nil => rfl
  | cons k ks ih =>
      rw [List.cons_append, run_cons, run_cons]
      cases hk : step s k with
      | none => rfl
      | some m =>
          simp only [Option.bind_some]
          exact ih m

variable {step}

/-- The step property along a run whose first step is known. -/
theorem everyStep_cons_of_some
    {Q : σ → ℓ → σ → Prop} {s m : σ} {l : ℓ} {ls : List ℓ}
    (hm : step s l = some m) (hhead : Q s l m)
    (htail : EveryStep step Q m ls) :
    EveryStep step Q s (l :: ls) := by
  intro t ht
  rw [hm] at ht
  cases ht
  exact ⟨hhead, htail⟩

/-- The step property along a run in two parts. -/
theorem everyStep_append
    {Q : σ → ℓ → σ → Prop} {s m : σ} {ks ls : List ℓ}
    (hks : EveryStep step Q s ks) (hm : run step s ks = some m)
    (hls : EveryStep step Q m ls) :
    EveryStep step Q s (ks ++ ls) := by
  induction ks generalizing s with
  | nil =>
      cases hm
      exact hls
  | cons k ks ih =>
      obtain ⟨t, ht, htail⟩ := run_cons_success step hm
      obtain ⟨hhead, hrest⟩ := hks t ht
      exact everyStep_cons_of_some ht hhead (ih hrest htail)

/-- **Invariant rule**: what one step keeps, a whole run keeps. -/
theorem run_invariant
    {I : σ → Prop}
    (hstep : ∀ s l t, I s → step s l = some t → I t)
    {s t : σ} {ls : List ℓ}
    (hs : I s)
    (hrun : run step s ls = some t) :
    I t := by
  induction ls generalizing s with
  | nil =>
      rw [run_nil] at hrun
      cases hrun
      exact hs
  | cons l ls ih =>
      obtain ⟨m, hm, htail⟩ := run_cons_success step hrun
      exact ih (hstep s l m hs hm) htail

/-- The invariant rule for the labels of one run. -/
theorem run_invariant_of_mem
    {I : σ → Prop} {ls : List ℓ}
    (hstep : ∀ s t, ∀ l ∈ ls, I s → step s l = some t → I t)
    {s t : σ} (hs : I s) (hrun : run step s ls = some t) :
    I t := by
  induction ls generalizing s with
  | nil =>
      rw [run_nil] at hrun
      cases hrun
      exact hs
  | cons l ls ih =>
      obtain ⟨m, hm, htail⟩ := run_cons_success step hrun
      have hI : I m := hstep s m l List.mem_cons_self hs hm
      apply ih _ hI htail
      exact fun s t k hk => hstep s t k (List.mem_cons_of_mem l hk)

/-- The invariant rule for runs whose steps all meet a condition. -/
theorem run_invariant_of_everyStep
    {I : σ → Prop} {Q : σ → ℓ → σ → Prop}
    (hstep : ∀ s l t, I s → step s l = some t → Q s l t → I t)
    {s t : σ} {ls : List ℓ}
    (hs : I s) (hQ : EveryStep step Q s ls) (hrun : run step s ls = some t) :
    I t := by
  induction ls generalizing s with
  | nil =>
      rw [run_nil] at hrun
      cases hrun
      exact hs
  | cons l ls ih =>
      obtain ⟨m, hm, htail⟩ := run_cons_success step hrun
      obtain ⟨hhead, hrest⟩ := hQ m hm
      exact ih (hstep s l m hs hm hhead) hrest htail

/-- **Purge rule**: if a relation lets a second system follow the steps whose
label passes a test and ignore all others, it follows the run without them. -/
theorem run_filter
    {I : σ → Prop} {R : σ → σ → Prop} {p : ℓ → Bool}
    (hkeep : ∀ s l t, I s → step s l = some t → I t)
    (hfollow : ∀ s s' l t, I s → R s s' → p l = true → step s l = some t →
      ∃ t', step s' l = some t' ∧ R t t')
    (hignore : ∀ s s' l t, I s → R s s' → p l = false → step s l = some t →
      R t s')
    {s s' t : σ} {ls : List ℓ}
    (hs : I s) (hR : R s s')
    (hrun : run step s ls = some t) :
    ∃ t', run step s' (ls.filter p) = some t' ∧ R t t' := by
  induction ls generalizing s s' with
  | nil =>
      rw [run_nil] at hrun
      cases hrun
      exact ⟨s', rfl, hR⟩
  | cons l ls ih =>
      rcases run_cons_success step hrun with ⟨m, hm, htail⟩
      have hmI : I m := hkeep s l m hs hm
      cases hp : p l with
      | false =>
          rw [List.filter_cons_of_neg (by simp [hp])]
          exact ih hmI (hignore s s' l m hs hR hp hm) htail
      | true =>
          rcases hfollow s s' l m hs hR hp hm with ⟨m', hm', hR'⟩
          rcases ih hmI hR' htail with ⟨t', ht', hRt⟩
          refine ⟨t', ?_, hRt⟩
          rw [List.filter_cons_of_pos hp, run_cons, hm']
          exact ht'

/-- Two step properties that one step cannot tell apart, as long as the first
keeps the invariant, hold along the same runs. -/
theorem everyStep_congr
    {I : σ → Prop} {Q R : σ → ℓ → σ → Prop} {ls : List ℓ}
    (hiff : ∀ s t, ∀ l ∈ ls, I s → step s l = some t → (Q s l t ↔ R s l t))
    (hkeep : ∀ s t, ∀ l ∈ ls, I s → step s l = some t → Q s l t → I t)
    {s : σ} (hs : I s) :
    EveryStep step Q s ls ↔ EveryStep step R s ls := by
  induction ls generalizing s with
  | nil => exact Iff.rfl
  | cons l ls ih =>
      have htail : ∀ t, I t →
          (EveryStep step Q t ls ↔ EveryStep step R t ls) := by
        intro t ht
        apply ih _ _ ht
        · exact fun s t k hk => hiff s t k (by simp [hk])
        · exact fun s t k hk => hkeep s t k (by simp [hk])
      have hl : l ∈ l :: ls := by simp
      constructor
      · intro h t ht
        obtain ⟨hq, hrest⟩ := h t ht
        have hI : I t := hkeep s t l hl hs ht hq
        exact ⟨(hiff s t l hl hs ht).mp hq, (htail t hI).mp hrest⟩
      · intro h t ht
        obtain ⟨hr, hrest⟩ := h t ht
        have hq : Q s l t := (hiff s t l hl hs ht).mpr hr
        exact ⟨hq, (htail t (hkeep s t l hl hs ht hq)).mpr hrest⟩

/-- What holds of every step holds of the step after a first part of the run. -/
theorem everyStep_at
    {Q : σ → ℓ → σ → Prop} {s m t : σ} {l : ℓ} (ks : List ℓ) {ls : List ℓ}
    (h : EveryStep step Q s (ks ++ l :: ls))
    (hm : run step s ks = some m) (ht : step m l = some t) :
    Q m l t := by
  induction ks generalizing s with
  | nil =>
      rw [run_nil] at hm
      cases hm
      exact (h t ht).1
  | cons k ks ih =>
      rcases run_cons_success step hm with ⟨r, hr, htail⟩
      exact ih (h r hr).2 htail

/-- A condition on the steps that keeps an invariant and gives another step
property gives it along the run. -/
theorem everyStep_mono
    {I : σ → Prop} {Q R : σ → ℓ → σ → Prop}
    (hstep : ∀ s t l, I s → step s l = some t → Q s l t → R s l t ∧ I t)
    {s : σ} {ls : List ℓ}
    (hs : I s) (hQ : EveryStep step Q s ls) :
    EveryStep step R s ls := by
  induction ls generalizing s with
  | nil => trivial
  | cons l ls ih =>
      intro t ht
      rcases hQ t ht with ⟨hhead, hrest⟩
      rcases hstep s t l hs ht hhead with ⟨hr, ht'⟩
      exact ⟨hr, ih ht' hrest⟩

/-- What an invariant gives at each step holds along the run. -/
theorem everyStep_of_invariant
    {I : σ → Prop} {R : σ → ℓ → σ → Prop} {ls : List ℓ}
    (hstep : ∀ s t, ∀ l ∈ ls, I s → step s l = some t → R s l t ∧ I t)
    {s : σ} (hs : I s) :
    EveryStep step R s ls := by
  induction ls generalizing s with
  | nil => trivial
  | cons l ls ih =>
      intro t ht
      obtain ⟨hr, ht'⟩ := hstep s t l List.mem_cons_self hs ht
      refine ⟨hr, ih ?_ ht'⟩
      exact fun s t k hk => hstep s t k (List.mem_cons_of_mem l hk)

/-- A property of states along a run, read step by step. -/
theorem everyState_iff_everyStep
    {P : σ → Prop} {s : σ} (hs : P s) (ls : List ℓ) :
    EveryState step P s ls ↔
      EveryStep step (fun _ _ t => P t) s ls := by
  induction ls generalizing s with
  | nil =>
      constructor
      · intro _
        trivial
      · intro _ pre hpre t ht
        rw [List.prefix_nil.mp hpre, run_nil] at ht
        cases ht
        exact hs
  | cons l ls ih =>
      constructor
      · intro h t ht
        have hP : P t := by
          apply h [l] (by simp) t
          simp [run_cons, ht]
        refine ⟨hP, (ih hP).mp ?_⟩
        intro pre hpre r hr
        apply h (l :: pre) (List.prefix_cons_inj l |>.mpr hpre) r
        simp [run_cons, ht, hr]
      · intro h pre hpre r hr
        cases pre with
        | nil =>
            rw [run_nil] at hr
            cases hr
            exact hs
        | cons k pre =>
            obtain ⟨rfl, htailpre⟩ := List.cons_prefix_cons.mp hpre
            obtain ⟨m, hm, htail⟩ := run_cons_success step hr
            obtain ⟨hP, hrest⟩ := h m hm
            exact (ih hP).mpr hrest pre htailpre r htail

/-- What an invariant gives at each label holds along the run. -/
theorem everySource_of_invariant
    {I : σ → Prop} {P : σ → ℓ → Prop}
    (hstep : ∀ s l t, I s → step s l = some t → I t)
    (hP : ∀ s l, I s → P s l)
    {s : σ} (hs : I s) (ls : List ℓ) :
    EverySource step P s ls := by
  induction ls generalizing s with
  | nil => trivial
  | cons l ls ih =>
      refine ⟨hP s l hs, ?_⟩
      intro t ht
      exact ih (hstep s l t hs ht)

/-- The last state of a run is one of the states reached along it. -/
theorem everyState_last
    {P : σ → Prop} {s t : σ} {ls : List ℓ}
    (h : EveryState step P s ls)
    (hrun : run step s ls = some t) :
    P t :=
  h ls (List.prefix_refl ls) t hrun

/-- A run refutes a property of states if its last state shows what no state
with the property shows. -/
theorem refuted_of_run
    {β : Type*} {P : σ → Prop} {s : σ} {ls : List ℓ} {f : σ → β} {b : β}
    (hrun : (run step s ls).map f = some b)
    (hbad : ∀ t, f t = b → ¬ P t) :
    (run step s ls).map f = some b ∧ ¬ EveryState step P s ls := by
  refine ⟨hrun, ?_⟩
  intro h
  rcases Option.map_eq_some_iff.mp hrun with ⟨t, ht, hshown⟩
  exact hbad t hshown (everyState_last h ht)

end Runs

end TransitionRun
end Iojxd
