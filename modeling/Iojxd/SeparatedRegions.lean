import Mathlib

/-!
# Separated regions of a partial memory

A memory maps some addresses to contents.  A family of owners holds pairwise
disjoint regions of it, all live, and everything outside the regions is as in a
base memory, in which the regions are free.

What one owner does is described against the memory without its region: the new
region lies where that memory is free, and elsewhere nothing changes.  The one
rule of this module says that such a change keeps the family separated and leaves
the cells of every other owner alone.
-/

namespace Iojxd
namespace SeparatedRegions

universe u v w

variable {A : Type u} {V : Type v} {κ : Type w}

/-- The memory with the region taken out. -/
noncomputable def without (m : A → Option V) (region : Set A) : A → Option V :=
  open Classical in fun a => if a ∈ region then none else m a

theorem without_of_mem
    {m : A → Option V} {region : Set A} {a : A} (h : a ∈ region) :
    without m region a = none :=
  if_pos h

theorem without_of_notMem
    {m : A → Option V} {region : Set A} {a : A} (h : a ∉ region) :
    without m region a = m a :=
  if_neg h

@[simp] theorem without_empty (m : A → Option V) :
    without m ∅ = m := by
  funext a
  exact without_of_notMem (Set.notMem_empty a)

/-- Disjoint live regions over a base memory. -/
structure Separated
    (m₀ m : A → Option V) (region : κ → Set A) : Prop where
  apart : Pairwise fun k l => Disjoint (region k) (region l)
  live : ∀ k, ∀ a ∈ region k, m a ≠ none
  outside : ∀ k, ∀ a ∈ region k, m₀ a = none
  frame : ∀ a, (∀ k, a ∉ region k) → m a = m₀ a

/-- What an owner does to the memory `g` without its region: it fills a region
that is free there. -/
structure Fills (g m : A → Option V) (region : Set A) : Prop where
  live : ∀ a ∈ region, m a ≠ none
  outside : ∀ a ∈ region, g a = none
  frame : ∀ a ∉ region, m a = g a

namespace Separated

variable {m₀ m m' : A → Option V} {region : κ → Set A} {k : κ}

/-- No owner holds anything. -/
theorem start (m₀ : A → Option V) :
    Separated m₀ m₀ (fun _ : κ => ∅) where
  apart := fun _ _ _ => Set.disjoint_empty ∅
  live := fun _ _ ha => absurd ha (Set.notMem_empty _)
  outside := fun _ _ ha => absurd ha (Set.notMem_empty _)
  frame := fun _ _ => rfl

/-- When every region is given back, the base memory is left. -/
theorem released
    (h : Separated m₀ m region) (hempty : ∀ k, region k = ∅) :
    m = m₀ := by
  funext a
  apply h.frame
  intro k
  rw [hempty k]
  exact Set.notMem_empty a

/-- The cells of another owner are in the memory without the region. -/
theorem without_other
    (h : Separated m₀ m region) {l : κ} (hl : l ≠ k) {a : A}
    (ha : a ∈ region l) :
    without m (region k) a = m a :=
  without_of_notMem (Set.disjoint_left.mp (h.apart hl) ha)

/-- A region that is filled lies apart from the other owners' cells. -/
theorem fills_apart
    (h : Separated m₀ m region) {new : Set A}
    (hfill : Fills (without m (region k)) m' new) {l : κ} (hl : l ≠ k) :
    Disjoint (region l) new := by
  rw [Set.disjoint_left]
  intro a ha hnew
  have hnone := hfill.outside a hnew
  rw [h.without_other hl ha] at hnone
  exact h.live l a ha hnone

/-- **Frame rule**: the cells of the other owners keep their contents. -/
theorem kept
    (h : Separated m₀ m region) {new : Set A}
    (hfill : Fills (without m (region k)) m' new) {l : κ} (hl : l ≠ k)
    {a : A} (ha : a ∈ region l) :
    m' a = m a := by
  have hout : a ∉ new := Set.disjoint_left.mp (h.fills_apart hfill hl) ha
  rw [hfill.frame a hout, h.without_other hl ha]

variable [DecidableEq κ]

/-- **Change rule**: when one owner trades its region for another, the family
stays separated. -/
theorem change
    (h : Separated m₀ m region) {new : Set A}
    (hfill : Fills (without m (region k)) m' new) :
    Separated m₀ m' (Function.update region k new) where
  apart := by
    intro i j hij
    by_cases hi : i = k
    · subst hi
      rw [Function.update_self, Function.update_of_ne hij.symm]
      exact (h.fills_apart hfill hij.symm).symm
    · rw [Function.update_of_ne hi]
      by_cases hj : j = k
      · subst hj
        rw [Function.update_self]
        exact h.fills_apart hfill hi
      · rw [Function.update_of_ne hj]
        exact h.apart hij
  live := by
    intro l a ha
    by_cases hl : l = k
    · subst hl
      rw [Function.update_self] at ha
      exact hfill.live a ha
    · rw [Function.update_of_ne hl] at ha
      rw [h.kept hfill hl ha]
      exact h.live l a ha
  outside := by
    intro l a ha
    by_cases hl : l = k
    · subst hl
      rw [Function.update_self] at ha
      -- the address was in the owner's old region, or is free in the base
      by_cases hold : a ∈ region l
      · exact h.outside l a hold
      · have hnone := hfill.outside a ha
        rw [without_of_notMem hold] at hnone
        by_contra hbase
        have hsome : ∃ i, a ∈ region i := by
          by_contra hno
          rw [not_exists] at hno
          exact hbase (h.frame a hno ▸ hnone)
        obtain ⟨i, hi⟩ := hsome
        exact h.live i a hi hnone
    · rw [Function.update_of_ne hl] at ha
      exact h.outside l a ha
  frame := by
    intro a ha
    have hnew : a ∉ new := by
      simpa using ha k
    rw [hfill.frame a hnew]
    by_cases hold : a ∈ region k
    · rw [without_of_mem hold, h.outside k a hold]
    · rw [without_of_notMem hold]
      apply h.frame
      intro l
      by_cases hl : l = k
      · exact hl ▸ hold
      · simpa [Function.update_of_ne hl] using ha l

end Separated

end SeparatedRegions
end Iojxd
