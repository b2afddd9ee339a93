import Iojxd.TransitionRun
import Mathlib.Data.Set.Function

/-!
# Components over a shared store

Any number of components take steps on one store.  A step sees the state of its
own component and the store, and a label says which component takes it.  Some
steps are taken by a host that they all share; a step can end the host, and
after that no step that needs it is enabled.

A component that only reads and writes inside a set of addresses does not notice
the others as long as they leave these addresses alone: what it does in a run is
what it does when it is alone.
-/

namespace Iojxd
namespace SharedStore

open TransitionRun

universe u

variable {ι κ σ α β : Type u}

/-- What one step of a component gives. -/
structure Outcome (σ α β : Type u) where
  component : σ
  store : α → β
  endsHost : Bool

structure System (ι σ α β : Type u) where
  component : ι → σ
  store : α → β
  host : Bool

/-- The steps of the components, and those among them that need the host. -/
structure Behaviour (κ σ α β : Type u) where
  act : κ → σ → (α → β) → Option (Outcome σ α β)
  needsHost : κ → Bool

namespace Behaviour

variable (b : Behaviour κ σ α β)

/-- The step function of the system; `none` where the label is not enabled. -/
def step [DecidableEq ι] (s : System ι σ α β) (l : ι × κ) :
    Option (System ι σ α β) :=
  if b.needsHost l.2 = true ∧ s.host = false then none
  else
    (b.act l.2 (s.component l.1) s.store).map fun o =>
      { component := Function.update s.component l.1 o.component
        store := o.store
        host := s.host && !o.endsHost }

/-- The step reads and writes only inside `F`, as far as its component and `F`
itself can tell. -/
def Within (F : Set α) (k : κ) (x : σ) : Prop :=
  ∀ m m' o, Set.EqOn m m' F → b.act k x m = some o →
    ∃ o', b.act k x m' = some o' ∧ o'.component = o.component ∧
      o'.endsHost = o.endsHost ∧ Set.EqOn o.store o'.store F

section Steps

variable [DecidableEq ι] {b}
variable {s t : System ι σ α β} {l : ι × κ}

/-- Everything a step does. -/
theorem step_eq_some (h : b.step s l = some t) :
    ∃ o, b.act l.2 (s.component l.1) s.store = some o ∧
      (b.needsHost l.2 = true → s.host = true) ∧
      t = { component := Function.update s.component l.1 o.component
            store := o.store
            host := s.host && !o.endsHost } := by
  unfold step at h
  split at h
  · cases h
  · rename_i hhost
    obtain ⟨o, ho, rfl⟩ := Option.map_eq_some_iff.mp h
    refine ⟨o, ho, ?_, rfl⟩
    intro hneeds
    by_contra hdead
    exact hhost ⟨hneeds, Bool.eq_false_of_not_eq_true hdead⟩

/-- The other components stay as they are. -/
theorem component_of_ne
    {i : ι} (h : b.step s l = some t) (hi : l.1 ≠ i) :
    t.component i = s.component i := by
  obtain ⟨o, _, _, rfl⟩ := step_eq_some h
  exact Function.update_of_ne hi.symm _ _

theorem component_self (h : b.step s l = some t) :
    ∃ o, b.act l.2 (s.component l.1) s.store = some o ∧
      t.component l.1 = o.component ∧ t.store = o.store := by
  obtain ⟨o, ho, _, rfl⟩ := step_eq_some h
  exact ⟨o, ho, Function.update_self .., rfl⟩

end Steps

/-- What the component `i` can tell two systems apart by, when it stays inside
`F`: the host of the second is the one that lives longer. -/
structure SameFor (i : ι) (F : Set α) (s s' : System ι σ α β) : Prop where
  component : s'.component i = s.component i
  store : Set.EqOn s.store s'.store F
  host : s.host = true → s'.host = true

theorem SameFor.refl (i : ι) (F : Set α) (s : System ι σ α β) :
    SameFor i F s s :=
  ⟨rfl, fun _ _ => rfl, id⟩

section Projection

variable [DecidableEq ι] {b} {i : ι} {F : Set α}
variable {s s' t : System ι σ α β}

/-- The component takes its own step in both systems. -/
theorem SameFor.follow
    {k : κ} (h : SameFor i F s s')
    (hwithin : b.Within F k (s.component i))
    (ht : b.step s (i, k) = some t) :
    ∃ t', b.step s' (i, k) = some t' ∧ SameFor i F t t' := by
  obtain ⟨o, ho, hhost, rfl⟩ := step_eq_some ht
  obtain ⟨o', ho', hcomponent, hends, hstore⟩ :=
    hwithin s.store s'.store o h.store ho
  have hopen : ¬ (b.needsHost k = true ∧ s'.host = false) := by
    rintro ⟨hneeds, hdead⟩
    rw [h.host (hhost hneeds)] at hdead
    cases hdead
  refine ⟨{ component := Function.update s'.component i o'.component
            store := o'.store
            host := s'.host && !o'.endsHost }, ?_, ?_⟩
  · rw [step, if_neg hopen, h.component, ho', Option.map_some]
  · constructor
    · simp only [Function.update_self, hcomponent]
    · exact hstore
    · simp only [Bool.and_eq_true, hends]
      exact fun hlive => ⟨h.host hlive.1, hlive.2⟩

/-- A step of another component that leaves `F` alone is not noticed. -/
theorem SameFor.ignore
    {l : ι × κ} (h : SameFor i F s s') (hl : l.1 ≠ i)
    (hspares : Set.EqOn t.store s.store F)
    (ht : b.step s l = some t) :
    SameFor i F t s' where
  component := by rw [component_of_ne ht hl, h.component]
  store := hspares.trans h.store
  host := by
    obtain ⟨o, _, _, rfl⟩ := step_eq_some ht
    intro hlive
    exact h.host (Bool.and_eq_true_iff.mp hlive).1

/-- No step of another component changes the store inside `F`. -/
def Undisturbed (b : Behaviour κ σ α β) (i : ι) (F : Set α)
    (s : System ι σ α β) (ls : List (ι × κ)) : Prop :=
  EveryStep b.step
    (fun s l t => l.1 ≠ i → Set.EqOn t.store s.store F) s ls

/-- The labels of one component. -/
def own (i : ι) (ls : List (ι × κ)) : List (ι × κ) :=
  ls.filter fun l => l.1 = i

/-- **Projection rule**: a component whose steps stay inside `F` as long as its
state satisfies `J` does in an undisturbed run what it does alone. -/
theorem run_own
    {J : σ → Prop} {ls : List (ι × κ)}
    (hkeep : ∀ k x m o, (i, k) ∈ ls → J x → b.act k x m = some o →
      J o.component)
    (hwithin : ∀ k x, (i, k) ∈ ls → J x → b.Within F k x)
    (hJ : J (s.component i)) (hsame : SameFor i F s s')
    (hothers : b.Undisturbed i F s ls)
    (hrun : run b.step s ls = some t) :
    ∃ t', run b.step s' (own i ls) = some t' ∧ SameFor i F t t' := by
  induction ls generalizing s s' with
  | nil =>
      rw [run_nil] at hrun
      cases hrun
      exact ⟨s', rfl, hsame⟩
  | cons l ls ih =>
      obtain ⟨m, hm, htail⟩ := run_cons_success b.step hrun
      obtain ⟨hfirst, hrest⟩ := hothers m hm
      have hkeep' : ∀ k x m o, (i, k) ∈ ls → J x → b.act k x m = some o →
          J o.component :=
        fun k x m o hk => hkeep k x m o (List.mem_cons_of_mem l hk)
      have hwithin' : ∀ k x, (i, k) ∈ ls → J x → b.Within F k x :=
        fun k x hk => hwithin k x (List.mem_cons_of_mem l hk)
      by_cases hl : l.1 = i
      · obtain ⟨j, k⟩ := l
        change j = i at hl
        subst hl
        have hmem : (j, k) ∈ (j, k) :: ls := List.mem_cons_self
        obtain ⟨m', hm', hsame'⟩ :=
          hsame.follow (hwithin k _ hmem hJ) hm
        have hJ' : J (m.component j) := by
          obtain ⟨o, ho, hcomponent, _⟩ := component_self hm
          change m.component j = o.component at hcomponent
          rw [hcomponent]
          exact hkeep k _ _ o hmem hJ ho
        obtain ⟨t', ht', hfinal⟩ := ih hkeep' hwithin' hJ' hsame' hrest htail
        refine ⟨t', ?_, hfinal⟩
        rw [own, List.filter_cons_of_pos (by simp), run_cons, hm',
          Option.bind_some]
        exact ht'
      · have hJ' : J (m.component i) := by
          rw [component_of_ne hm hl]
          exact hJ
        have hsame' := hsame.ignore hl (hfirst hl) hm
        obtain ⟨t', ht', hfinal⟩ := ih hkeep' hwithin' hJ' hsame' hrest htail
        refine ⟨t', ?_, hfinal⟩
        rw [own, List.filter_cons_of_neg (by simp [hl])]
        exact ht'

/-- What each step keeps of the state of one component, every run keeps. -/
theorem component_invariant
    {J : σ → Prop} {ls : List (ι × κ)}
    (hkeep : ∀ k x m o, (i, k) ∈ ls → J x → b.act k x m = some o →
      J o.component)
    (hJ : J (s.component i)) (hrun : run b.step s ls = some t) :
    J (t.component i) := by
  refine run_invariant_of_mem (I := fun s => J (s.component i)) ?_ hJ hrun
  intro s t l hl hs ht
  by_cases hi : l.1 = i
  · obtain ⟨o, ho, hcomponent, _⟩ := component_self ht
    rw [hi] at ho hcomponent
    rw [hcomponent]
    apply hkeep l.2 _ _ o _ hs ho
    rw [← hi]
    exact hl
  · rw [component_of_ne ht hi]
    exact hs

end Projection

end Behaviour

end SharedStore
end Iojxd
