import Iojxd.CycQueueFree
import Iojxd.SeparatedRegions

/-!
# Many cyclic queues in one memory

The process makes a queue for every connection; all their nodes come from one
`malloc`.  A family of queues holds, for every owner, a header and a list of
values or nothing; the regions of the owners are separated.  What
`CycQueueRefinement` and `CycQueueFree` prove about one queue is used with the
memory without the owner's region as the memory that the queue was made in.
-/

namespace Iojxd
namespace CycQueueFamily

open LinkedCells RecordedCells TransitionRun CycQueue CycQueueFree
  SeparatedRegions

variable {α : Type}

/-! ## One queue, wherever it lies -/

/-- The cells of a queue. -/
def cellsOf (entry placeHolder : Nat) (cells : List Nat) : Set Nat :=
  {a | a ∈ entry :: placeHolder :: cells}

/-- A represented queue fills its cells. -/
theorem fills_of_represents
    {h₀ h : Heap α} {entry placeHolder : Nat} {cells : List Nat}
    {items : List α} (hrep : Represents h₀ h entry placeHolder cells items) :
    Fills h₀ h (cellsOf entry placeHolder cells) where
  live := by
    intro a ha
    obtain ⟨x, hx⟩ := hrep.live ha
    rw [hx]
    exact Option.some_ne_none x
  outside := hrep.outside
  frame := hrep.frame

/-- The queue is where it was as long as its cells keep their contents. -/
theorem represents_congr
    {h₀ h h' : Heap α} {entry placeHolder : Nat} {cells : List Nat}
    {items : List α} (hrep : Represents h₀ h entry placeHolder cells items)
    (hsame : ∀ a ∈ cellsOf entry placeHolder cells, h' a = h a) :
    Represents (without h' (cellsOf entry placeHolder cells)) h'
      entry placeHolder cells items where
  header := by
    rw [hsame entry (by simp [cellsOf])]
    exact hrep.header
  ring := by
    refine ⟨?_, hrep.ring.nodup⟩
    apply chain_congr hrep.ring.chain
    intro a ha
    apply hsame a
    have hmem := List.dropLast_subset _ ha
    rcases List.mem_cons.mp hmem with rfl | hmem
    · exact List.mem_cons_of_mem _ (Represents.tail_mem placeHolder cells)
    · exact List.mem_cons_of_mem _ hmem
  apart := hrep.apart
  data := by
    rw [← hrep.data]
    apply values_congr
    intro a ha
    simp only [Heap.readData]
    rw [hsame a (by simp [cellsOf, ha])]
  nonnull := hrep.nonnull
  outside := fun _ ha => without_of_mem ha
  frame := by
    intro a ha
    have hout : a ∉ cellsOf entry placeHolder cells := ha
    rw [without_of_notMem hout]

/-! ## The family -/

/-- What an owner's region holds: nothing, or a queue with the given header. -/
def Holds (h : Heap α) (entry : Nat) (region : Set Nat) :
    Option (List α) → Prop
  | none => region = ∅
  | some items => ∃ placeHolder cells,
      region = cellsOf entry placeHolder cells ∧
      Represents (without h region) h entry placeHolder cells items

theorem holds_congr
    {h h' : Heap α} {entry : Nat} {region : Set Nat} {items : Option (List α)}
    (hold : Holds h entry region items)
    (hsame : ∀ a ∈ region, h' a = h a) :
    Holds h' entry region items := by
  cases items with
  | none => exact hold
  | some items =>
      obtain ⟨placeHolder, cells, rfl, hrep⟩ := hold
      exact ⟨placeHolder, cells, rfl, represents_congr hrep hsame⟩

section Family

variable {κ : Type}

/-- Queues of many owners, separated, over the memory `h₀`. -/
def Family (h₀ h : Heap α) (entry : κ → Nat)
    (queues : κ → Option (List α)) : Prop :=
  ∃ region : κ → Set Nat, Separated h₀ h region ∧
    ∀ k, Holds h (entry k) (region k) (queues k)

namespace Family

variable {h₀ h h' : Heap α} {entry : κ → Nat}
  {queues : κ → Option (List α)} {k : κ}

theorem start (h₀ : Heap α) (entry : κ → Nat) :
    Family h₀ h₀ entry (fun _ => none) :=
  ⟨fun _ => ∅, Separated.start h₀, fun _ => rfl⟩

/-- When every queue is freed, the memory is what it was before the first. -/
theorem released
    (hfam : Family h₀ h entry queues) (hnone : ∀ k, queues k = none) :
    h = h₀ := by
  obtain ⟨region, hsep, hold⟩ := hfam
  apply hsep.released
  intro k
  have hk := hold k
  rw [hnone k] at hk
  exact hk

/-- The family does not see the headers of owners without a queue. -/
theorem entry_congr
    (hfam : Family h₀ h entry queues) {entry' : κ → Nat}
    (hentry : ∀ k, queues k ≠ none → entry' k = entry k) :
    Family h₀ h entry' queues := by
  obtain ⟨region, hsep, hold⟩ := hfam
  refine ⟨region, hsep, ?_⟩
  intro k
  have hk := hold k
  cases hq : queues k with
  | none =>
      rw [hq] at hk
      exact hk
  | some items =>
      rw [hentry k (by simp [hq]), ← hq]
      exact hk

variable [DecidableEq κ]

/-- The change rule for one owner, who holds a queue before or not, and after or
not. -/
theorem change
    {region : κ → Set Nat} (hsep : Separated h₀ h region)
    (hold : ∀ k, Holds h (entry k) (region k) (queues k))
    {new : Set Nat} {items : Option (List α)}
    (hfill : Fills (without h (region k)) h' new)
    (hnew : Holds h' (entry k) new items) :
    Family h₀ h' entry (Function.update queues k items) := by
  refine ⟨Function.update region k new, hsep.change hfill, ?_⟩
  intro l
  by_cases hl : l = k
  · subst hl
    rw [Function.update_self, Function.update_self]
    exact hnew
  · rw [Function.update_of_ne hl, Function.update_of_ne hl]
    apply holds_congr (hold l)
    exact fun a ha => hsep.kept hfill hl ha

/-- **Focus**: one queue of the family, over the memory without it; whatever
represents a list there afterwards takes its place in the family. -/
theorem focus
    (hfam : Family h₀ h entry queues) {items : List α}
    (hk : queues k = some items) :
    ∃ base placeHolder cells,
      Represents base h (entry k) placeHolder cells items ∧
      (∀ h' placeHolder' cells' items',
        Represents base h' (entry k) placeHolder' cells' items' →
          Family h₀ h' entry (Function.update queues k (some items'))) ∧
      Family h₀ base entry (Function.update queues k none) := by
  obtain ⟨region, hsep, hold⟩ := hfam
  have hq := hold k
  rw [hk] at hq
  obtain ⟨placeHolder, cells, hregion, hrep⟩ := hq
  refine ⟨without h (region k), placeHolder, cells, hrep, ?_, ?_⟩
  · intro h' placeHolder' cells' items' hrep'
    have hfill := fills_of_represents hrep'
    refine change hsep hold hfill ⟨placeHolder', cells', rfl, ?_⟩
    exact represents_congr hrep' (fun _ _ => rfl)
  · have hfill : Fills (without h (region k)) (without h (region k)) ∅ := {
      live := fun _ ha => absurd ha (Set.notMem_empty _)
      outside := fun _ ha => absurd ha (Set.notMem_empty _)
      frame := fun _ _ => rfl }
    exact change hsep hold hfill rfl

/-- A queue is made at addresses that are free. -/
theorem create
    (hfam : Family h₀ h entry queues) (hk : queues k = none)
    (filler : α) {placeHolder : Nat}
    (hentry : Fresh h (entry k)) (hplace : Fresh h placeHolder)
    (hne : entry k ≠ placeHolder) :
    Family h₀ (ixutCycqueueCreate h filler (entry k) placeHolder) entry
      (Function.update queues k (some [])) := by
  obtain ⟨region, hsep, hold⟩ := hfam
  have hempty := hold k
  rw [hk] at hempty
  have hself : without h (region k) = h := by
    rw [show region k = ∅ from hempty, without_empty]
  have hrep := represents_create h filler hentry hplace hne
  have hfill : Fills (without h (region k))
      (ixutCycqueueCreate h filler (entry k) placeHolder)
      (cellsOf (entry k) placeHolder []) := by
    rw [hself]
    exact fills_of_represents hrep
  refine change hsep hold hfill ⟨placeHolder, [], rfl, ?_⟩
  exact represents_congr hrep (fun _ _ => rfl)

end Family

end Family

/-! ## Calls on many queues -/

/-- Calls of the interface; a queue is named by its header. -/
inductive Call (α : Type) where
  | create (filler : α) (entry placeHolder : Nat)
  | use (entry : Nat) (op : Op α)
  | free (entry fuel : Nat)

/-- The memory, and what the queues answered, in order. -/
structure Queues (α : Type) where
  heap : Heap α
  answers : List (Nat × Answer α)

/-- A call on the memory; the addresses are such as `malloc` can return. -/
def call (s : Queues α) : Call α → Option (Queues α)
  | .create filler entry placeHolder =>
      if Fresh s.heap entry ∧ Fresh s.heap placeHolder ∧
          entry ≠ placeHolder then
        some { s with
          heap := ixutCycqueueCreate s.heap filler entry placeHolder }
      else none
  | .use entry op =>
      (step entry ⟨s.heap, []⟩ op).map fun r =>
        ⟨r.heap, s.answers ++ r.answers.map fun x => (entry, x)⟩
  | .free entry fuel =>
      (ixutCycqueueFree fuel entry ⟨s.heap, []⟩).map fun r =>
        { s with heap := r.2.heap }

/-- A list for every header in use, and the answers. -/
structure Lists (α : Type) where
  queues : Nat → Option (List α)
  answers : List (Nat × Answer α)

/-- What the calls mean: every queue is a list of its own. -/
def listsCall (q : Lists α) : Call α → Option (Lists α)
  | .create _ entry _ =>
      match q.queues entry with
      | none =>
          some { q with queues := Function.update q.queues entry (some []) }
      | some _ => none
  | .use entry op =>
      match q.queues entry with
      | none => none
      | some items =>
          (fifoStep ⟨items, []⟩ op).map fun r =>
            ⟨Function.update q.queues entry (some r.items),
              q.answers ++ r.answers.map fun x => (entry, x)⟩
  | .free entry _ =>
      match q.queues entry with
      | none => none
      | some _ =>
          some { q with queues := Function.update q.queues entry none }

/-- What `malloc` returns is free, and the loop of `ixut_cycqueue_free` has fuel
for the values that are left. -/
def Admits (s : Queues α) (q : Lists α) : Call α → Prop
  | .create _ entry placeHolder =>
      Fresh s.heap entry ∧ Fresh s.heap placeHolder ∧ entry ≠ placeHolder
  | .use _ op => ∀ x a, op = .enqueue x a → Fresh s.heap a
  | .free entry fuel => ∀ items, q.queues entry = some items →
      items.length < fuel

/-- The memory holds the lists, and the answers are the same. -/
def Together (h₀ : Heap α) (s : Queues α) (q : Lists α) : Prop :=
  s.answers = q.answers ∧ Family h₀ s.heap id q.queues

section Calls

variable {h₀ : Heap α} {s s' : Queues α} {q q' : Lists α} {c : Call α}

/-- **Step lemma**: a call that the lists allow is carried out, and changes the
one list it names. -/
theorem together_step
    (htog : Together h₀ s q) (hq : listsCall q c = some q')
    (hadmits : Admits s q c) :
    ∃ s', call s c = some s' ∧ Together h₀ s' q' := by
  obtain ⟨hanswers, hfam⟩ := htog
  cases c with
  | create filler entry placeHolder =>
      simp only [listsCall] at hq
      split at hq
      case h_1 hnone =>
          cases hq
          refine ⟨_, if_pos hadmits, hanswers, ?_⟩
          obtain ⟨hentry, hplace, hne⟩ := hadmits
          exact hfam.create (k := entry) hnone filler hentry hplace hne
      case h_2 => cases hq
  | use entry op =>
      simp only [listsCall] at hq
      split at hq
      case h_1 => cases hq
      case h_2 items hitems =>
          obtain ⟨r, hr, rfl⟩ := Option.map_eq_some_iff.mp hq
          obtain ⟨base, placeHolder, cells, hrep, hback, _⟩ :=
            hfam.focus (k := entry) hitems
          have href : Refines base entry placeHolder ⟨s.heap, []⟩
              ⟨items, []⟩ := ⟨rfl, cells, hrep⟩
          obtain ⟨m, hm, hsame, cells', hrep'⟩ := refines_step href hr hadmits
          refine ⟨⟨m.heap, s.answers ++ m.answers.map fun x => (entry, x)⟩,
            ?_, ?_, hback _ _ _ _ hrep'⟩
          · simp [call, hm]
          · rw [hanswers, hsame]
  | free entry fuel =>
      simp only [listsCall] at hq
      split at hq
      case h_1 => cases hq
      case h_2 items hitems =>
          cases hq
          obtain ⟨base, placeHolder, cells, hrep, _, hgone⟩ :=
            hfam.focus (k := entry) hitems
          obtain ⟨m, hm, _, hheap⟩ := free_eq hrep (hadmits items hitems)
          simp only [id] at hm
          refine ⟨{ s with heap := m.heap }, ?_, hanswers, ?_⟩
          · simp [call, hm]
          · exact hheap ▸ hgone

/-- With less fuel than tests to make, the loop does not end. -/
theorem freeLoop_short
    {h : Heap α} {entry placeHolder fuel : Nat} {cells : List Nat}
    {items : List α} (hrep : Represents h₀ h entry placeHolder cells items)
    (hfuel : fuel ≤ items.length) (accesses : List Access) :
    freeLoop entry fuel ⟨h, accesses⟩ = none := by
  induction fuel generalizing h cells items accesses with
  | zero => rfl
  | succ fuel ih =>
      cases items with
      | nil => cases hfuel
      | cons x items =>
          obtain ⟨h₁, c, rest, rfl, hdeq, hrep₁⟩ := represents_dequeue hrep
          obtain ⟨tested, _, hempty, _⟩ := emptyRec_eq hrep accesses
          obtain ⟨h₂, taken, hplain, hrec, _⟩ :=
            dequeueRec_eq hrep (accesses ++ tested)
          have hsame : h₂ = h₁ := by
            rw [hdeq] at hplain
            cases hplain
            rfl
          subst hsame
          have hless : fuel ≤ items.length := by
            rw [List.length_cons] at hfuel
            omega
          have hloop := ih hrep₁ hless (accesses ++ tested ++ taken)
          simp only [freeLoop, Prog.bind_run, Prog.ite_run, hempty, hrec,
            hloop, Option.bind_some, Option.bind_none, List.isEmpty_cons,
            Bool.false_eq_true, if_false]

theorem free_short
    {h : Heap α} {entry placeHolder fuel : Nat} {cells : List Nat}
    {items : List α} (hrep : Represents h₀ h entry placeHolder cells items)
    (hfuel : fuel ≤ items.length) :
    ixutCycqueueFree fuel entry ⟨h, []⟩ = none := by
  have hassert := assertEntryRec_eq hrep []
  rw [ixutCycqueueFree, Prog.bind_of_run hassert, Prog.bind_run,
    freeLoop_short hrep hfuel]
  rfl

/-- Only calls that are admitted are carried out. -/
theorem admits_of_call
    (htog : Together h₀ s q) (hs : call s c = some s') :
    Admits s q c := by
  cases c with
  | create filler entry placeHolder =>
      simp only [call] at hs
      split at hs
      case isTrue hfresh => exact hfresh
      case isFalse => cases hs
  | use entry op =>
      obtain ⟨m, hm, _⟩ := Option.map_eq_some_iff.mp hs
      exact fresh_of_step hm
  | free entry fuel =>
      intro items hitems
      obtain ⟨base, placeHolder, cells, hrep, _⟩ :=
        htog.2.focus (k := entry) hitems
      by_contra hshort
      have hnone := free_short hrep (Nat.le_of_not_lt hshort)
      simp only [id] at hnone
      simp [call, hnone] at hs

theorem together_run
    {calls : List (Call α)} (htog : Together h₀ s q)
    (hq : run listsCall q calls = some q')
    (hs : run call s calls = some s') :
    Together h₀ s' q' := by
  induction calls generalizing s q with
  | nil =>
      cases hq
      cases hs
      exact htog
  | cons c calls ih =>
      obtain ⟨p, hp, hq⟩ := run_cons_success _ hq
      obtain ⟨m, hm, hs⟩ := run_cons_success _ hs
      obtain ⟨m', hm', htog'⟩ :=
        together_step htog hp (admits_of_call htog hm)
      rw [hm] at hm'
      cases hm'
      exact ih htog' hq hs

end Calls

/-- **Queues share a memory without touching each other**: however the calls on
any number of queues interleave, with queues made, used and freed in any order,
every queue answers as a list of its own, the queues lie apart from each other
and from the memory they were made in, every further call that the lists allow is
carried out, and once all are freed the memory is as it was before the first. -/
theorem many_queues_refine
    (h₀ : Heap α) (calls : List (Call α)) (q : Lists α)
    (hq : run listsCall ⟨fun _ => none, []⟩ calls = some q)
    (s : Queues α) (hs : run call ⟨h₀, []⟩ calls = some s) :
    s.answers = q.answers ∧
      Family h₀ s.heap id q.queues ∧
      (∀ c q', listsCall q c = some q' → Admits s q c →
        ∃ s', call s c = some s') ∧
      ((∀ entry, q.queues entry = none) → s.heap = h₀) := by
  have hinit : Together h₀ ⟨h₀, []⟩ ⟨fun _ => none, []⟩ :=
    ⟨rfl, Family.start h₀ id⟩
  have htog := together_run hinit hq hs
  refine ⟨htog.1, htog.2, ?_, htog.2.released⟩
  intro c q' hc hadmits
  obtain ⟨s', hs', _⟩ := together_step htog hc hadmits
  exact ⟨s', hs'⟩

/-- Two queues used in turn, then freed, the second with a value in it. -/
theorem many_queues_refine_two :
    ∃ s, run call ⟨fun _ => none, []⟩
        [.create 15 1 2, .create 15 3 4, .use 3 (.enqueue 8 6),
          .use 1 .empty, .free 1 1, .use 3 .front, .free 3 2] = some s ∧
      s.answers = [(1, .empty true), (3, .front 8)] ∧
      s.heap = fun _ => none := by
  have hsome : (run call ⟨fun _ => none, []⟩
      [.create 15 1 2, .create 15 3 4, .use 3 (.enqueue 8 6),
        .use 1 .empty, .free 1 1, .use 3 .front, .free 3 2]).isSome = true := by
    decide +kernel
  obtain ⟨s, hs⟩ := Option.isSome_iff_exists.mp hsome
  obtain ⟨hanswers, _, _, hfreed⟩ :=
    many_queues_refine (fun _ => none) _ _ rfl s hs
  refine ⟨s, hs, hanswers, hfreed ?_⟩
  intro entry
  simp only [Function.update_apply]
  split <;> simp_all

end CycQueueFamily
end Iojxd
