import Iojxd.LinkedCells

/-!
# Recorded accesses to linked cells

A program over a memory of linked cells that writes down every access it makes:
the cells it reads, writes and frees, oldest first.  An access to an address
without a cell fails.

A record is tidy when nothing in it touches a cell that was freed before.  Since
a freed cell is gone, a program that only reads, writes and frees keeps the
record tidy for as long as it runs; the rules of this module say so for the
primitives and for sequencing.
-/

namespace Iojxd
namespace RecordedCells

open LinkedCells

variable {α β γ : Type}

/-- An access to one cell. -/
inductive Access where
  | read (a : Nat)
  | write (a : Nat)
  | free (a : Nat)
deriving DecidableEq

namespace Access

def addr : Access → Nat
  | .read a => a
  | .write a => a
  | .free a => a

def freed : Access → Option Nat
  | .free a => some a
  | _ => none

end Access

/-- A memory, and the accesses so far. -/
structure Recorded (α : Type) where
  heap : Heap α
  accesses : List Access

/-- The cells that were freed, oldest first. -/
def frees (accesses : List Access) : List Nat :=
  accesses.filterMap Access.freed

@[simp] theorem frees_nil : frees [] = [] := by
  rfl

@[simp] theorem frees_append (xs ys : List Access) :
    frees (xs ++ ys) = frees xs ++ frees ys :=
  List.filterMap_append

@[simp] theorem frees_read (a : Nat) (xs : List Access) :
    frees (.read a :: xs) = frees xs := by
  rfl

@[simp] theorem frees_write (a : Nat) (xs : List Access) :
    frees (.write a :: xs) = frees xs := by
  rfl

@[simp] theorem frees_free (a : Nat) (xs : List Access) :
    frees (.free a :: xs) = a :: frees xs := by
  rfl

/-- A program that records its accesses; it fails at an address without a
cell. -/
abbrev Prog (α β : Type) := StateT (Recorded α) Option β

namespace Prog

def readNext (a : Nat) : Prog α Nat := fun m =>
  (m.heap.readNext a).map fun n => (n, ⟨m.heap, m.accesses ++ [Access.read a]⟩)

def readData (a : Nat) : Prog α α := fun m =>
  (m.heap.readData a).map fun x => (x, ⟨m.heap, m.accesses ++ [Access.read a]⟩)

def writeNext (a n : Nat) : Prog α Unit := fun m =>
  (m.heap.writeNext a n).map fun h => ((), ⟨h, m.accesses ++ [Access.write a]⟩)

def free (a : Nat) : Prog α Unit := fun m =>
  (m.heap a).map fun _ => ((), ⟨m.heap.free a, m.accesses ++ [Access.free a]⟩)

section Runs

variable (m : Recorded α)

@[simp] theorem pure_run (b : β) : (pure b : Prog α β) m = some (b, m) := by
  rfl

@[simp] theorem bind_run (p : Prog α β) (q : β → Prog α γ) :
    (p >>= q) m = (p m).bind fun r => q r.1 r.2 := by
  rfl

@[simp] theorem map_run (f : β → γ) (p : Prog α β) :
    (f <$> p) m = (p m).map fun r => (f r.1, r.2) := by
  cases hp : p m with
  | none => simp [Functor.map, StateT.map, hp]
  | some r => simp [Functor.map, StateT.map, hp]

@[simp] theorem ite_run (c : Prop) [Decidable c] (p q : Prog α β) :
    (if c then p else q) m = if c then p m else q m := by
  split <;> rfl

@[simp] theorem guard_run (c : Prop) [Decidable c] :
    (guard c : Prog α Unit) m = if c then some ((), m) else none := by
  simp only [guard, ite_run]
  rfl

variable {m}

/-- Execution goes on behind a step that succeeds. -/
theorem bind_of_run
    {p : Prog α β} {q : β → Prog α γ} {m' : Recorded α} {b : β}
    (h : p m = some (b, m')) :
    (p >>= q) m = q b m' := by
  rw [bind_run, h, Option.bind_some]

variable {h : Heap α} {a next : Nat} {data : α}
variable (hcell : h a = some ⟨data, next⟩) (xs : List Access)
include hcell

theorem readNext_run :
    readNext a (⟨h, xs⟩ : Recorded α) =
      some (next, ⟨h, xs ++ [Access.read a]⟩) := by
  simp [readNext, Heap.readNext, hcell]

theorem readData_run :
    readData a (⟨h, xs⟩ : Recorded α) =
      some (data, ⟨h, xs ++ [Access.read a]⟩) := by
  simp [readData, Heap.readData, hcell]

theorem writeNext_run (n : Nat) :
    writeNext a n (⟨h, xs⟩ : Recorded α) =
      some ((), ⟨Function.update h a (some ⟨data, n⟩),
        xs ++ [Access.write a]⟩) := by
  simp [writeNext, Heap.writeNext, hcell]

theorem free_run :
    free a (⟨h, xs⟩ : Recorded α) =
      some ((), ⟨Function.update h a none, xs ++ [Access.free a]⟩) := by
  simp [free, Heap.free, hcell]

end Runs

end Prog

/-- No access touches a cell that was freed before it. -/
def NoUseAfterFree (accesses : List Access) : Prop :=
  accesses.Pairwise fun x y => ∀ a, x = .free a → y.addr ≠ a

/-- Nothing is freed twice. -/
theorem NoUseAfterFree.nodup_frees
    {accesses : List Access} (h : NoUseAfterFree accesses) :
    (frees accesses).Nodup := by
  apply List.Pairwise.filterMap _ _ h
  rintro x y hxy a hx b hy rfl
  cases x <;> cases hx
  cases y <;> cases hy
  exact hxy a rfl rfl

/-- The record is in order, and the cells freed in it are gone. -/
structure Tidy (m : Recorded α) : Prop where
  dead : ∀ a, .free a ∈ m.accesses → m.heap a = none
  order : NoUseAfterFree m.accesses

namespace Tidy

/-- At the start nothing is recorded. -/
theorem start (h : Heap α) : Tidy (⟨h, []⟩ : Recorded α) where
  dead := by
    intro a ha
    cases ha
  order := List.Pairwise.nil

/-- One more access to a live cell, which creates no cell and removes the one it
frees. -/
theorem push
    {m : Recorded α} {x : Access} {c : Cell α} {h : Heap α}
    (htidy : Tidy m) (hlive : m.heap x.addr = some c)
    (hgone : ∀ a, m.heap a = none → h a = none)
    (hfree : ∀ a, x = .free a → h a = none) :
    Tidy (⟨h, m.accesses ++ [x]⟩ : Recorded α) where
  dead := by
    intro a ha
    rcases List.mem_append.mp ha with ha | ha
    · exact hgone a (htidy.dead a ha)
    · exact hfree a (List.mem_singleton.mp ha).symm
  order := by
    apply List.pairwise_append.mpr
    refine ⟨htidy.order, List.pairwise_singleton _ _, ?_⟩
    rintro y hy z hz a rfl hza
    rw [List.mem_singleton] at hz
    subst hz
    -- what was freed before is gone, so it is not what is touched now
    have hdead := htidy.dead a hy
    rw [← hza, hlive] at hdead
    cases hdead

/-- Reading a live cell changes nothing. -/
theorem read
    {m : Recorded α} {a : Nat} {c : Cell α}
    (htidy : Tidy m) (hlive : m.heap a = some c) :
    Tidy (⟨m.heap, m.accesses ++ [Access.read a]⟩ : Recorded α) := by
  apply htidy.push (x := .read a) hlive
  · intro _ hb
    exact hb
  · intro _ hb
    cases hb

end Tidy

/-- The program keeps a tidy record tidy. -/
def Keeps (p : Prog α β) : Prop :=
  ∀ m b m', Tidy m → p m = some (b, m') → Tidy m'

theorem keeps_pure (b : β) : Keeps (pure b : Prog α β) := by
  intro m b' m' htidy h
  cases h
  exact htidy

/-- **Sequencing rule**. -/
theorem keeps_bind
    {p : Prog α β} {q : β → Prog α γ}
    (hp : Keeps p) (hq : ∀ b, Keeps (q b)) :
    Keeps (p >>= q) := by
  intro m c m'' htidy h
  obtain ⟨⟨b, m'⟩, hpm, hqm⟩ := Option.bind_eq_some_iff.mp h
  exact hq b m' c m'' (hp m b m' htidy hpm) hqm

theorem keeps_ite
    {c : Prop} [Decidable c] {p q : Prog α β} (hp : Keeps p) (hq : Keeps q) :
    Keeps (if c then p else q) := by
  split
  · exact hp
  · exact hq

theorem keeps_guard (c : Prop) [Decidable c] :
    Keeps (guard c : Prog α Unit) := by
  intro m b m' htidy h
  by_cases hc : c
  · simp only [guard, hc, if_true] at h
    cases h
    exact htidy
  · simp only [guard, hc, if_false] at h
    cases h

theorem keeps_readNext (a : Nat) : Keeps (Prog.readNext a : Prog α Nat) := by
  intro m n m' htidy h
  obtain ⟨k, hk, heq⟩ := Option.map_eq_some_iff.mp h
  cases heq
  obtain ⟨c, hc, _⟩ := Option.map_eq_some_iff.mp hk
  exact htidy.read hc

theorem keeps_readData (a : Nat) : Keeps (Prog.readData a : Prog α α) := by
  intro m n m' htidy h
  obtain ⟨k, hk, heq⟩ := Option.map_eq_some_iff.mp h
  cases heq
  obtain ⟨c, hc, _⟩ := Option.map_eq_some_iff.mp hk
  exact htidy.read hc

theorem keeps_writeNext (a n : Nat) :
    Keeps (Prog.writeNext a n : Prog α Unit) := by
  intro m u m' htidy h
  obtain ⟨k, hk, heq⟩ := Option.map_eq_some_iff.mp h
  cases heq
  obtain ⟨c, hc, rfl⟩ := Option.map_eq_some_iff.mp hk
  refine htidy.push hc ?_ (fun _ hb => by cases hb)
  intro b hb
  rw [Function.update_of_ne]
  · exact hb
  · rintro rfl
    rw [hc] at hb
    cases hb

theorem keeps_free (a : Nat) : Keeps (Prog.free a : Prog α Unit) := by
  intro m u m' htidy h
  obtain ⟨c, hc, heq⟩ := Option.map_eq_some_iff.mp h
  cases heq
  apply htidy.push (x := .free a) hc
  · intro b hb
    by_cases hba : b = a
    · rw [hba, Heap.free, Function.update_self]
    · rw [Heap.free, Function.update_of_ne hba]
      exact hb
  · rintro b hb
    cases hb
    exact Function.update_self a none m.heap

end RecordedCells
end Iojxd
