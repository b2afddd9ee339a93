import Iojxd.CycQueueRefinement
import Iojxd.RecordedCells

/-!
# Freeing the cyclic queue

`ixut_cycqueue_free` dequeues while the queue is not empty, then frees the
placeholder and the header.  The functions it calls are written once more over a
memory that records every access; on a represented queue they do what the
operations of `CycQueueModel` do.

The measure of the loop is the number of values in the represented list: an
iteration removes one, the last one with the step that moves the tail back to
the placeholder.
-/

namespace Iojxd
namespace CycQueueFree

open LinkedCells RecordedCells TransitionRun CycQueue
open RecordedCells.Prog

variable {α : Type} {h₀ h : Heap α} {entry placeHolder : Nat}
  {cells : List Nat} {items : List α}

/-- `assert(entry != NULL); assert(entry->next != NULL);` -/
def assertEntryRec (entry : Nat) : Prog α Unit := do
  guard (entry ≠ 0)
  let next ← readNext entry
  guard (next ≠ 0)

/-- `ixut_cycqueue_empty`. -/
def ixutCycqueueEmptyRec (entry : Nat) : Prog α Bool := do
  assertEntryRec entry
  return (← readNext entry) == (← readNext (← readNext entry))

/-- `ixut_cycqueue_dequeue`. -/
def ixutCycqueueDequeueRec (entry : Nat) : Prog α α := do
  assertEntryRec entry
  let retNode ← readNext (← readNext (← readNext entry))
  -- entry->next->next->next = ret_node->next
  writeNext (← readNext (← readNext entry)) (← readNext retNode)
  if retNode = (← readNext entry) then
    writeNext entry (← readNext retNode)
  let ret ← readData retNode
  free retNode
  return ret

/-- The loop of `ixut_cycqueue_free`, with the number of its iterations; it gives
nothing when the fuel does not suffice. -/
def freeLoop (entry : Nat) : Nat → Prog α Nat
  | 0 => failure
  | fuel + 1 => do
      if ← ixutCycqueueEmptyRec entry then
        return 0
      else
        let _ ← ixutCycqueueDequeueRec entry
        return (← freeLoop entry fuel) + 1

/-- `ixut_cycqueue_free`, with the number of iterations of its loop. -/
def ixutCycqueueFree (fuel entry : Nat) : Prog α Nat := do
  assertEntryRec entry
  let iterations ← freeLoop entry fuel
  free (← readNext entry)
  free entry
  return iterations

/-! ## The record stays tidy -/

theorem keeps_assertEntryRec (entry : Nat) :
    Keeps (assertEntryRec entry : Prog α Unit) := by
  apply keeps_bind (keeps_guard _)
  intro _
  apply keeps_bind (keeps_readNext entry)
  intro _
  exact keeps_guard _

theorem keeps_emptyRec (entry : Nat) :
    Keeps (ixutCycqueueEmptyRec entry : Prog α Bool) := by
  apply keeps_bind (keeps_assertEntryRec entry)
  intro _
  apply keeps_bind (keeps_readNext entry)
  intro tail
  apply keeps_bind (keeps_readNext entry)
  intro again
  apply keeps_bind (keeps_readNext again)
  intro next
  exact keeps_pure _

theorem keeps_dequeueRec (entry : Nat) :
    Keeps (ixutCycqueueDequeueRec entry : Prog α α) := by
  apply keeps_bind (keeps_assertEntryRec entry)
  intro _
  apply keeps_bind (keeps_readNext entry)
  intro tail
  apply keeps_bind (keeps_readNext tail)
  intro placeHolder
  apply keeps_bind (keeps_readNext placeHolder)
  intro retNode
  apply keeps_bind (keeps_readNext entry)
  intro tail'
  apply keeps_bind (keeps_readNext tail')
  intro placeHolder'
  apply keeps_bind (keeps_readNext retNode)
  intro next
  apply keeps_bind (keeps_writeNext placeHolder' next)
  intro _
  apply keeps_bind (keeps_readNext entry)
  intro last
  have hfree : Keeps (do
      let ret ← readData retNode
      free retNode
      return ret : Prog α α) := by
    apply keeps_bind (keeps_readData retNode)
    intro ret
    apply keeps_bind (keeps_free retNode)
    intro _
    exact keeps_pure ret
  apply keeps_ite
  · apply keeps_bind (keeps_readNext retNode)
    intro next'
    apply keeps_bind (keeps_writeNext entry next')
    intro _
    exact hfree
  · exact hfree

theorem keeps_freeLoop (entry fuel : Nat) :
    Keeps (freeLoop entry fuel : Prog α Nat) := by
  induction fuel with
  | zero =>
      intro m n m' _ h
      cases h
  | succ fuel ih =>
      apply keeps_bind (keeps_emptyRec entry)
      intro flag
      apply keeps_ite
      · exact keeps_pure 0
      · apply keeps_bind (keeps_dequeueRec entry)
        intro _
        apply keeps_bind ih
        intro n
        exact keeps_pure (n + 1)

theorem keeps_free_queue (fuel entry : Nat) :
    Keeps (ixutCycqueueFree fuel entry : Prog α Nat) := by
  apply keeps_bind (keeps_assertEntryRec entry)
  intro _
  apply keeps_bind (keeps_freeLoop entry fuel)
  intro iterations
  apply keeps_bind (keeps_readNext entry)
  intro placeHolder
  apply keeps_bind (keeps_free placeHolder)
  intro _
  apply keeps_bind (keeps_free entry)
  intro _
  exact keeps_pure iterations

/-! ## The loop -/

theorem assertEntryRec_eq
    (hrep : Represents h₀ h entry placeHolder cells items)
    (accesses : List Access) :
    assertEntryRec entry ⟨h, accesses⟩ =
      some ((), ⟨h, accesses ++ [Access.read entry]⟩) := by
  obtain ⟨filler, hentry⟩ := hrep.header
  have hne := hrep.nonnull entry (by simp)
  have htail := hrep.nonnull _
    (List.mem_cons_of_mem _ (Represents.tail_mem placeHolder cells))
  generalize cells.getLastD placeHolder = tail at *
  simp [assertEntryRec, readNext_run hentry, hne, htail]

/-- On a represented queue the recorded dequeue does what the plain one does, and
the one cell it frees is the first. -/
theorem dequeueRec_eq
    {c : Nat} {rest : List Nat} {x : α}
    (hrep : Represents h₀ h entry placeHolder (c :: rest) (x :: items))
    (accesses : List Access) :
    ∃ h' more,
      ixutCycqueueDequeue h entry = some (h', x) ∧
      ixutCycqueueDequeueRec entry ⟨h, accesses⟩ =
        some (x, ⟨h', accesses ++ more⟩) ∧
      frees more = [c] := by
  obtain ⟨filler, hentry⟩ := hrep.header
  obtain ⟨c', rest', data, next, hcells, hplace, hc⟩ := hrep.first_cell
  cases hcells
  have hplain := dequeue_eq hrep hentry hplace hc
  obtain ⟨_, htail⟩ := hrep.tail_cell
  have hnodup := hrep.ring.nodup
  have hpe := hrep.entry_ne (a := placeHolder) (by simp)
  have hce := hrep.entry_ne (a := c) (by simp)
  have hassert := assertEntryRec_eq hrep accesses
  have hpc : placeHolder ≠ c := by
    intro heq
    simp [heq] at hnodup
  have hte := hrep.entry_ne (Represents.tail_mem placeHolder (c :: rest))
  cases rest with
  | nil =>
      simp only [List.getLastD_cons, List.getLastD_nil] at htail hentry
      rw [hc] at htail
      cases htail
      rw [List.getLastD_nil] at hplain
      -- the placeholder is made its own successor, then the header points to it
      have hentry₁ : Function.update h placeHolder
          (some ⟨data, placeHolder⟩) entry = some ⟨filler, c⟩ := by
        rw [Function.update_of_ne hpe.symm, hentry]
      have hc₁ : Function.update h placeHolder
          (some ⟨data, placeHolder⟩) c = some ⟨x, placeHolder⟩ := by
        rw [Function.update_of_ne hpc.symm, hc]
      have hc₂ : Function.update (Function.update h placeHolder
          (some ⟨data, placeHolder⟩)) entry (some ⟨filler, placeHolder⟩) c =
            some ⟨x, placeHolder⟩ := by
        rw [Function.update_of_ne hce, hc₁]
      refine ⟨_, [.read entry, .read entry, .read c, .read placeHolder,
        .read entry, .read c, .read c, .write placeHolder, .read entry,
        .read c, .write entry, .read c, .free c], hplain, ?_, rfl⟩
      rw [ixutCycqueueDequeueRec, bind_of_run hassert,
        bind_of_run (readNext_run hentry _), bind_of_run (readNext_run hc _),
        bind_of_run (readNext_run hplace _),
        bind_of_run (readNext_run hentry _), bind_of_run (readNext_run hc _),
        bind_of_run (readNext_run hc _),
        bind_of_run (writeNext_run hplace _ _),
        bind_of_run (readNext_run hentry₁ _), if_pos rfl,
        bind_of_run (readNext_run hc₁ _),
        bind_of_run (writeNext_run hentry₁ _ _)]
      dsimp only
      rw [bind_of_run (readData_run hc₂ _), bind_of_run (free_run hc₂ _),
        pure_run]
      simp
  | cons d rest =>
      rw [List.getLastD_cons, List.getLastD_cons] at hentry htail hte
      have hmem := Ring.last_mem d rest
      have hct : c ≠ rest.getLastD d := by
        intro heq
        rw [← heq] at hmem
        simp only [List.nodup_cons] at hnodup
        exact hnodup.2.1 hmem
      rw [List.getLastD_cons] at hplain
      generalize rest.getLastD d = tail at *
      have hself : Function.update (Function.update h
          placeHolder (some ⟨data, next⟩)) entry (some ⟨filler, tail⟩) =
            Function.update h placeHolder (some ⟨data, next⟩) := by
        apply Function.update_eq_self_iff.mpr
        rw [Function.update_of_ne hpe.symm, hentry]
      rw [hself] at hplain
      have hentry₁ : Function.update h placeHolder (some ⟨data, next⟩) entry =
          some ⟨filler, tail⟩ := by
        rw [Function.update_of_ne hpe.symm, hentry]
      have hc₁ : Function.update h placeHolder (some ⟨data, next⟩) c =
          some ⟨x, next⟩ := by
        rw [Function.update_of_ne hpc.symm, hc]
      refine ⟨_, [.read entry, .read entry, .read tail, .read placeHolder,
        .read entry, .read tail, .read c, .write placeHolder, .read entry,
        .read c, .free c], hplain, ?_, rfl⟩
      rw [ixutCycqueueDequeueRec, bind_of_run hassert,
        bind_of_run (readNext_run hentry _),
        bind_of_run (readNext_run htail _),
        bind_of_run (readNext_run hplace _),
        bind_of_run (readNext_run hentry _),
        bind_of_run (readNext_run htail _), bind_of_run (readNext_run hc _),
        bind_of_run (writeNext_run hplace _ _),
        bind_of_run (readNext_run hentry₁ _), if_neg hct]
      dsimp only
      rw [bind_of_run (readData_run hc₁ _), bind_of_run (free_run hc₁ _),
        pure_run]
      simp

/-- The recorded test gives the answer of the plain one and frees nothing. -/
theorem emptyRec_eq
    (hrep : Represents h₀ h entry placeHolder cells items)
    (accesses : List Access) :
    ∃ more,
      ixutCycqueueEmpty h entry = some items.isEmpty ∧
      ixutCycqueueEmptyRec entry ⟨h, accesses⟩ =
        some (items.isEmpty, ⟨h, accesses ++ more⟩) ∧
      frees more = [] := by
  have hplain := empty_eq hrep
  obtain ⟨filler, hentry⟩ := hrep.header
  obtain ⟨_, htail⟩ := hrep.tail_cell
  have hassert := hrep.assertEntry_eq
  have hassertRec := assertEntryRec_eq hrep accesses
  generalize cells.getLastD placeHolder = tail at *
  have hiff : (tail == placeHolder) = items.isEmpty := by
    simpa [ixutCycqueueEmpty, hassert, Heap.readNext, hentry, htail]
      using hplain
  refine ⟨[.read entry, .read entry, .read entry, .read tail], hplain, ?_, rfl⟩
  simp [ixutCycqueueEmptyRec, hassertRec, readNext_run hentry,
    readNext_run htail, hiff]

/-- **Loop lemma**: with fuel for one test more than there are values, the loop
ends after as many iterations, has freed the nodes in order, and leaves the empty
queue. -/
theorem freeLoop_eq
    {fuel : Nat} (hrep : Represents h₀ h entry placeHolder cells items)
    (hfuel : items.length < fuel) (accesses : List Access) :
    ∃ h' more,
      freeLoop entry fuel ⟨h, accesses⟩ =
        some (items.length, ⟨h', accesses ++ more⟩) ∧
      frees more = cells ∧
      Represents h₀ h' entry placeHolder [] [] := by
  induction items generalizing h cells accesses fuel with
  | nil =>
      obtain ⟨fuel, rfl⟩ := Nat.exists_eq_succ_of_ne_zero hfuel.ne'
      have hcells : cells = [] := by
        have hdata := hrep.data
        simpa [values] using hdata
      subst hcells
      obtain ⟨more, _, hempty, hmore⟩ := emptyRec_eq hrep accesses
      refine ⟨h, more, ?_, hmore, hrep⟩
      simp [freeLoop, hempty]
  | cons x items ih =>
      obtain ⟨fuel, rfl⟩ :=
        Nat.exists_eq_succ_of_ne_zero (Nat.ne_zero_of_lt hfuel)
      obtain ⟨h₁, c, rest, rfl, hdeq, hrep₁⟩ := represents_dequeue hrep
      obtain ⟨tested, _, hempty, htested⟩ := emptyRec_eq hrep accesses
      obtain ⟨h₂, taken, hplain, hrec, htaken⟩ :=
        dequeueRec_eq hrep (accesses ++ tested)
      have hsame : h₂ = h₁ := by
        rw [hdeq] at hplain
        cases hplain
        rfl
      subst hsame
      have hless : items.length < fuel := by
        rw [List.length_cons] at hfuel
        omega
      obtain ⟨h', more, hloop, hmore, hrep'⟩ :=
        ih hrep₁ hless (accesses ++ tested ++ taken)
      refine ⟨h', tested ++ taken ++ more, ?_, ?_, hrep'⟩
      · simp only [freeLoop, bind_run, ite_run, pure_run, hempty, hrec, hloop,
          Option.bind_some, List.isEmpty_cons, Bool.false_eq_true, if_false,
          List.length_cons]
        simp only [List.append_assoc]
      · simp [htested, htaken, hmore]

/-! ## The whole call -/

/-- With the placeholder and the header of an empty queue gone, the memory is the
one the queue was made in. -/
theorem heap_of_freed
    (hrep : Represents h₀ h entry placeHolder [] []) :
    Function.update (Function.update h placeHolder none) entry none = h₀ := by
  funext a
  by_cases hae : a = entry
  · subst hae
    rw [Function.update_self, hrep.outside a (by simp)]
  · rw [Function.update_of_ne hae]
    by_cases hap : a = placeHolder
    · subst hap
      rw [Function.update_self, hrep.outside a (by simp)]
    · rw [Function.update_of_ne hap]
      apply hrep.frame
      simp [hae, hap]

theorem free_eq
    {fuel : Nat} (hrep : Represents h₀ h entry placeHolder cells items)
    (hfuel : items.length < fuel) :
    ∃ m, ixutCycqueueFree fuel entry ⟨h, []⟩ = some (items.length, m) ∧
      frees m.accesses = cells ++ [placeHolder, entry] ∧
      m.heap = h₀ := by
  have hassert := assertEntryRec_eq hrep []
  rw [List.nil_append] at hassert
  obtain ⟨h', more, hloop, hmore, hrep'⟩ :=
    freeLoop_eq hrep hfuel [.read entry]
  obtain ⟨filler', hentry⟩ := hrep'.header
  obtain ⟨data, hplace⟩ := hrep'.tail_cell
  rw [List.getLastD_nil] at hentry hplace
  have hpe := hrep'.entry_ne (a := placeHolder) (by simp)
  refine ⟨⟨h₀, [Access.read entry] ++ more ++
    [Access.read entry, Access.free placeHolder, Access.free entry]⟩,
    ?_, ?_, rfl⟩
  · have hentry₁ : Function.update h' placeHolder none entry =
        some ⟨filler', placeHolder⟩ := by
      rw [Function.update_of_ne hpe.symm, hentry]
    rw [ixutCycqueueFree, bind_of_run hassert, bind_of_run hloop,
      bind_of_run (readNext_run hentry _), bind_of_run (free_run hplace _),
      bind_of_run (free_run hentry₁ _), pure_run, heap_of_freed hrep']
    simp
  · simp [hmore]

/-- **Freeing a queue**: after any calls that the list allows, with `n` values in
the queue, `ixut_cycqueue_free` ends after exactly `n` iterations of its loop,
frees each remaining node, the placeholder and the header once, in this order,
touches no cell after it was freed, and gives back the memory the queue was made
in. -/
theorem cycqueue_free_releases
    (h₀ : Heap α) (filler : α) (entry placeHolder : Nat)
    (hentry : Fresh h₀ entry) (hplace : Fresh h₀ placeHolder)
    (hne : entry ≠ placeHolder)
    (ops : List (Op α)) (q : Fifo α)
    (hq : run fifoStep ⟨[], []⟩ ops = some q)
    (s : QueueState α)
    (hs : run (step entry)
      ⟨ixutCycqueueCreate h₀ filler entry placeHolder, []⟩ ops = some s) :
    ∃ cells, Represents h₀ s.heap entry placeHolder cells q.items ∧
      cells.length = q.items.length ∧
      ∀ fuel, q.items.length < fuel →
        ∃ m, ixutCycqueueFree fuel entry ⟨s.heap, []⟩ =
            some (q.items.length, m) ∧
          frees m.accesses = cells ++ [placeHolder, entry] ∧
          (cells ++ [placeHolder, entry]).Nodup ∧
          NoUseAfterFree m.accesses ∧
          m.heap = h₀ := by
  have hinit : Refines h₀ entry placeHolder
      ⟨ixutCycqueueCreate h₀ filler entry placeHolder, []⟩ ⟨[], []⟩ :=
    ⟨rfl, [], represents_create h₀ filler hentry hplace hne⟩
  obtain ⟨_, cells, hrep⟩ := refines_run hinit hq hs
  refine ⟨cells, hrep, ?_, ?_⟩
  · have hlength := congrArg List.length hrep.data
    simpa [values] using hlength
  · intro fuel hfuel
    obtain ⟨m, hm, hfrees, hheap⟩ := free_eq hrep hfuel
    have htidy := keeps_free_queue fuel entry _ _ _ (Tidy.start s.heap) hm
    have hnodup := htidy.order.nodup_frees
    rw [hfrees] at hnodup
    exact ⟨m, hm, hfrees, hnodup, htidy.order, hheap⟩

/-- Two values in, one out, in an empty memory: one iteration. -/
theorem cycqueue_free_releases_sample :
    ∃ s, run (step 1)
        ⟨ixutCycqueueCreate (fun _ => none) 15 1 2, []⟩
        [.enqueue 7 3, .enqueue 8 4, .dequeue] = some s ∧
      ∃ cells, Represents (fun _ => none) s.heap 1 2 cells [8] ∧
        cells.length = 1 ∧
        ∀ fuel, 1 < fuel →
          ∃ m, ixutCycqueueFree fuel 1 ⟨s.heap, []⟩ = some (1, m) ∧
            frees m.accesses = cells ++ [2, 1] ∧
            (cells ++ [2, 1]).Nodup ∧
            NoUseAfterFree m.accesses ∧
            m.heap = fun _ => none := by
  have hsome : (run (step 1)
      ⟨ixutCycqueueCreate (fun _ => none) 15 1 2, []⟩
      [.enqueue 7 3, .enqueue 8 4, .dequeue]).isSome = true := by
    decide
  obtain ⟨s, hs⟩ := Option.isSome_iff_exists.mp hsome
  refine ⟨s, hs, ?_⟩
  exact cycqueue_free_releases (fun _ => none) 15 1 2 (by decide) (by decide)
    (by decide) [.enqueue 7 3, .enqueue 8 4, .dequeue] ⟨[8], [.dequeued 7]⟩ rfl
    s hs

end CycQueueFree
end Iojxd
