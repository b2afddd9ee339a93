import Mathlib.Data.List.Chain
import Mathlib.Logic.Function.Basic
import Mathlib.Tactic

/-!
# Linked cells in a partial memory

A memory maps some addresses to cells; a cell holds a value and the address of
the next cell.  Reading or writing through an address without a cell fails, so a
program over such a memory is a computation in `Option`.

A ring is a circular list with a sentinel, entered at its last cell: from there
the next cell is the sentinel, and after it come the cells in order.  The two
rules of this module say how a ring grows at its end and shrinks at its front.
-/

namespace Iojxd
namespace LinkedCells

universe u

variable {α : Type u}

/-- A value and the address of the next cell. -/
structure Cell (α : Type u) where
  data : α
  next : Nat

/-- A partial memory. -/
abbrev Heap (α : Type u) := Nat → Option (Cell α)

namespace Heap

def readNext (h : Heap α) (a : Nat) : Option Nat :=
  (h a).map Cell.next

def readData (h : Heap α) (a : Nat) : Option α :=
  (h a).map Cell.data

def writeNext (h : Heap α) (a n : Nat) : Option (Heap α) :=
  (h a).map fun x => Function.update h a (some { x with next := n })

/-- A new cell at an address that has none. -/
def alloc (h : Heap α) (a : Nat) (x : Cell α) : Heap α :=
  Function.update h a (some x)

def free (h : Heap α) (a : Nat) : Heap α :=
  Function.update h a none

end Heap

/-- The cell after `a` is at `b`. -/
def Points (h : Heap α) (a b : Nat) : Prop :=
  h.readNext a = some b

theorem points_congr
    {h h' : Heap α} {a b : Nat} (heq : h' a = h a) :
    Points h' a b ↔ Points h a b := by
  simp [Points, Heap.readNext, heq]

theorem Points.live
    {h : Heap α} {a b : Nat} (hp : Points h a b) :
    ∃ x, h a = some x ∧ x.next = b := by
  exact Option.map_eq_some_iff.mp hp

/-- A chain depends only on the cells before its end. -/
theorem chain_congr
    {h h' : Heap α} {as : List Nat}
    (hchain : as.IsChain (Points h))
    (heq : ∀ a ∈ as.dropLast, h' a = h a) :
    as.IsChain (Points h') := by
  induction as with
  | nil => exact List.isChain_nil
  | cons a as ih =>
      cases as with
      | nil => exact List.isChain_singleton a
      | cons b as =>
          rw [List.isChain_cons_cons] at hchain ⊢
          constructor
          · exact (points_congr (heq a (by simp))).mpr hchain.1
          · apply ih hchain.2
            intro c hc
            apply heq c
            rw [List.dropLast_cons_of_ne_nil (by simp)]
            exact List.mem_cons_of_mem _ hc

/-- The cell behind the last one. -/
theorem chain_snoc
    {h : Heap α} {a b : Nat} {as : List Nat}
    (hchain : (a :: as).IsChain (Points h))
    (hlast : Points h (as.getLastD a) b) :
    (a :: as ++ [b]).IsChain (Points h) := by
  induction as generalizing a with
  | nil => exact List.isChain_pair.mpr hlast
  | cons c as ih =>
      rw [List.isChain_cons_cons] at hchain
      rw [List.getLastD_cons] at hlast
      have htail := ih hchain.2 hlast
      rw [List.cons_append, List.cons_append, List.isChain_cons_cons]
      exact ⟨hchain.1, htail⟩

/-- The values of a list of cells; `none` where there is no cell. -/
def values (h : Heap α) (as : List Nat) : List (Option α) :=
  as.map h.readData

theorem values_congr
    {h h' : Heap α} {as : List Nat}
    (heq : ∀ a ∈ as, h'.readData a = h.readData a) :
    values h' as = values h as :=
  List.map_congr_left heq

/-! ## Rings -/

/-- A circular list: its last cell, the sentinel, then the cells up to the last
one again. -/
structure Ring (h : Heap α) (sentinel : Nat) (cells : List Nat) : Prop where
  chain : (cells.getLastD sentinel :: sentinel :: cells).IsChain (Points h)
  nodup : (sentinel :: cells).Nodup

namespace Ring

variable {h h' : Heap α} {sentinel : Nat} {cells : List Nat}

theorem last_mem (sentinel : Nat) (cells : List Nat) :
    cells.getLastD sentinel ∈ sentinel :: cells := by
  cases cells with
  | nil => simp
  | cons c cells =>
      rw [List.getLastD_cons, List.getLastD_eq_getLast?]
      cases hlast : cells.getLast? with
      | none => simp
      | some a =>
          have hmem := List.mem_of_getLast? hlast
          simp [hmem]

theorem last_points (hring : Ring h sentinel cells) :
    Points h (cells.getLastD sentinel) sentinel :=
  (List.isChain_cons_cons.mp hring.chain).1

theorem cells_chain (hring : Ring h sentinel cells) :
    (sentinel :: cells).IsChain (Points h) :=
  (List.isChain_cons_cons.mp hring.chain).2

/-- Every cell of a ring is live. -/
theorem live
    (hring : Ring h sentinel cells) {a : Nat} (ha : a ∈ sentinel :: cells) :
    ∃ x, h a = some x := by
  by_cases hlast : a = cells.getLastD sentinel
  · obtain ⟨x, hx, _⟩ := hring.last_points.live
    exact ⟨x, hlast ▸ hx⟩
  · -- a cell that is not the last one has a successor in the list
    have hchain := hring.cells_chain
    clear hring
    induction cells generalizing sentinel with
    | nil =>
        simp only [List.mem_singleton] at ha
        exact absurd ha (by simpa using hlast)
    | cons c cells ih =>
        rw [List.isChain_cons_cons] at hchain
        rcases List.mem_cons.mp ha with rfl | ha
        · obtain ⟨x, hx, _⟩ := hchain.1.live
          exact ⟨x, hx⟩
        · rw [List.getLastD_cons] at hlast
          exact ih ha hlast hchain.2

/-- **Growth**: a new cell that points to the sentinel is linked behind the last
one. -/
theorem snoc
    (hring : Ring h sentinel cells) {a : Nat}
    (hnew : a ∉ sentinel :: cells)
    (ha : Points h' a sentinel)
    (hlast : Points h' (cells.getLastD sentinel) a)
    (hother : ∀ b ∈ sentinel :: cells, b ≠ cells.getLastD sentinel →
      h' b = h b) :
    Ring h' sentinel (cells ++ [a]) where
  chain := by
    have hkeep : (sentinel :: cells).IsChain (Points h') := by
      apply chain_congr hring.cells_chain
      intro b hb
      have hbmem := List.dropLast_subset _ hb
      apply hother b hbmem
      rintro rfl
      -- the last element of a list without duplicates occurs once
      have hnodup := hring.nodup
      have hsplit := List.dropLast_append_getLast
        (List.cons_ne_nil sentinel cells)
      have heq : (sentinel :: cells).getLast (List.cons_ne_nil _ _) =
          cells.getLastD sentinel := by
        rw [List.getLast_eq_getLastD]
      rw [heq] at hsplit
      rw [← hsplit] at hnodup
      exact (List.nodup_append.mp hnodup).2.2 _ hb _ (by simp) rfl
    rw [List.getLastD_concat, List.isChain_cons_cons]
    exact ⟨ha, chain_snoc hkeep hlast⟩
  nodup := by
    rw [← List.cons_append, List.nodup_append]
    refine ⟨hring.nodup, List.nodup_singleton a, ?_⟩
    rintro b hb c hc rfl
    rw [List.mem_singleton] at hc
    exact hnew (hc ▸ hb)

/-- **Shrinking**: the sentinel is linked to the cell behind the first one. -/
theorem tail
    {c n : Nat} (hring : Ring h sentinel (c :: cells))
    (hc : Points h c n)
    (hsentinel : Points h' sentinel n)
    (hother : ∀ b ∈ cells, h' b = h b) :
    Ring h' sentinel cells where
  chain := by
    have hlast := hring.last_points
    have hchain := hring.cells_chain
    rw [List.isChain_cons_cons] at hchain
    cases cells with
    | nil =>
        -- the only cell is the last one, behind it comes the sentinel
        have hn : n = sentinel := by
          have hsame : Points h c sentinel := by simpa using hlast
          exact Option.some.inj (hc.symm.trans hsame)
        subst hn
        exact List.isChain_pair.mpr hsentinel
    | cons d cells =>
        have htail := hchain.2
        rw [List.isChain_cons_cons] at htail
        have hn : n = d := Option.some.inj (hc.symm.trans htail.1)
        subst hn
        have hmem := last_mem n cells
        rw [List.getLastD_cons, List.getLastD_cons] at hlast
        rw [List.getLastD_cons, List.isChain_cons_cons, List.isChain_cons_cons]
        refine ⟨(points_congr (hother _ hmem)).mpr hlast, hsentinel, ?_⟩
        apply chain_congr htail.2
        intro b hb
        exact hother b (List.dropLast_subset _ hb)
  nodup := by
    have hnodup := hring.nodup
    simp only [List.nodup_cons, List.mem_cons, not_or] at hnodup ⊢
    exact ⟨hnodup.1.2, hnodup.2.2⟩

end Ring

end LinkedCells
end Iojxd
