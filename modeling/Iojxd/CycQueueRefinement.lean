import Iojxd.CycQueueModel

/-!
# The cyclic queue refines a list

Each operation is computed on a memory that represents a list of values, and
leads to a memory that represents the list the operation is meant to leave.  The
ring rules of `LinkedCells` carry the two operations that change it.
-/

namespace Iojxd
namespace CycQueue

open LinkedCells TransitionRun

variable {α : Type} {h₀ h : Heap α} {entry placeHolder : Nat}
  {cells : List Nat} {items : List α}

namespace Represents

/-- Cells of the queue are live. -/
theorem live
    (hrep : Represents h₀ h entry placeHolder cells items) {a : Nat}
    (ha : a ∈ entry :: placeHolder :: cells) :
    ∃ x, h a = some x := by
  rcases List.mem_cons.mp ha with rfl | ha
  · obtain ⟨filler, hentry⟩ := hrep.header
    exact ⟨_, hentry⟩
  · exact hrep.ring.live ha

theorem entry_ne
    (hrep : Represents h₀ h entry placeHolder cells items) {a : Nat}
    (ha : a ∈ placeHolder :: cells) :
    a ≠ entry := by
  rintro rfl
  exact hrep.apart ha

theorem tail_mem (placeHolder : Nat) (cells : List Nat) :
    cells.getLastD placeHolder ∈ placeHolder :: cells :=
  Ring.last_mem placeHolder cells

theorem assertEntry_eq
    (hrep : Represents h₀ h entry placeHolder cells items) :
    assertEntry h entry = some () := by
  obtain ⟨filler, hentry⟩ := hrep.header
  have hne := hrep.nonnull entry (by simp)
  have htail := hrep.nonnull _
    (List.mem_cons_of_mem _ (tail_mem placeHolder cells))
  generalize cells.getLastD placeHolder = tail at *
  simp [assertEntry, Heap.readNext, hentry, hne, htail, guard]

/-- The tail points to the placeholder. -/
theorem tail_cell
    (hrep : Represents h₀ h entry placeHolder cells items) :
    ∃ data, h (cells.getLastD placeHolder) = some ⟨data, placeHolder⟩ := by
  obtain ⟨⟨data, next⟩, hcell, hnext⟩ := hrep.ring.last_points.live
  simp only at hnext
  subst hnext
  exact ⟨data, hcell⟩

/-- The oldest value of a non-empty queue is in the first cell behind the
placeholder. -/
theorem first_cell
    {x : α} (hrep : Represents h₀ h entry placeHolder cells (x :: items)) :
    ∃ c rest filler next,
      cells = c :: rest ∧
      h placeHolder = some ⟨filler, c⟩ ∧
      h c = some ⟨x, next⟩ := by
  have hdata := hrep.data
  cases cells with
  | nil => simp [values] at hdata
  | cons c rest =>
      simp only [values, List.map_cons, List.cons.injEq] at hdata
      obtain ⟨⟨y, next⟩, hc, hy⟩ := Option.map_eq_some_iff.mp hdata.1
      simp only at hy
      subst hy
      have hchain := hrep.ring.cells_chain
      rw [List.isChain_cons_cons] at hchain
      obtain ⟨⟨filler, next'⟩, hp, hnext⟩ := hchain.1.live
      simp only at hnext
      subst hnext
      exact ⟨next', rest, filler, next, rfl, hp, hc⟩

end Represents

/-! ## Create -/

theorem represents_create
    (h₀ : Heap α) (filler : α) {entry placeHolder : Nat}
    (hentry : Fresh h₀ entry) (hplace : Fresh h₀ placeHolder)
    (hne : entry ≠ placeHolder) :
    Represents h₀ (ixutCycqueueCreate h₀ filler entry placeHolder)
      entry placeHolder [] [] where
  header := by
    refine ⟨filler, ?_⟩
    simp [ixutCycqueueCreate, Heap.alloc, Function.update_of_ne hne]
  ring := by
    have hself : Points (ixutCycqueueCreate h₀ filler entry placeHolder)
        placeHolder placeHolder := by
      simp [Points, Heap.readNext, ixutCycqueueCreate, Heap.alloc]
    exact ⟨List.isChain_pair.mpr hself, List.nodup_singleton _⟩
  apart := by simpa using hne
  data := rfl
  nonnull := by
    intro a ha
    simp only [List.mem_cons, List.not_mem_nil, or_false] at ha
    rcases ha with rfl | rfl
    · exact hentry.1
    · exact hplace.1
  outside := by
    intro a ha
    simp only [List.mem_cons, List.not_mem_nil, or_false] at ha
    rcases ha with rfl | rfl
    · simpa using hentry.2
    · simpa using hplace.2
  frame := by
    intro a ha
    simp only [List.mem_cons, List.not_mem_nil, or_false, not_or] at ha
    simp [ixutCycqueueCreate, Heap.alloc, Function.update_of_ne ha.1,
      Function.update_of_ne ha.2]

/-! ## Enqueue -/

/-- The memory after an enqueue: the new node points to the placeholder, the old
tail and the header point to the new node. -/
theorem enqueue_eq
    (hrep : Represents h₀ h entry placeHolder cells items)
    (x : α) {a : Nat} (ha : Fresh h a) :
    ∃ filler data,
      h entry = some ⟨filler, cells.getLastD placeHolder⟩ ∧
      h (cells.getLastD placeHolder) = some ⟨data, placeHolder⟩ ∧
      ixutCycqueueEnqueue h entry x a =
        some (Function.update (Function.update (Function.update h
          a (some ⟨x, placeHolder⟩))
          (cells.getLastD placeHolder) (some ⟨data, a⟩))
          entry (some ⟨filler, a⟩)) := by
  have hfree : h a = none := by simpa using ha.2
  obtain ⟨filler, hentry⟩ := hrep.header
  obtain ⟨data, htail⟩ := hrep.tail_cell
  have hte := hrep.entry_ne (Represents.tail_mem placeHolder cells)
  have hea : entry ≠ a := by
    rintro rfl
    rw [hfree] at hentry
    cases hentry
  have hta : cells.getLastD placeHolder ≠ a := by
    intro heq
    rw [heq, hfree] at htail
    cases htail
  refine ⟨filler, data, hentry, htail, ?_⟩
  generalize cells.getLastD placeHolder = tail at *
  have hupdate : ∀ y z : Cell α,
      Function.update (Function.update h a (some y)) a (some z) =
        Function.update h a (some z) := fun y z => Function.update_idem _ _ h
  simp [ixutCycqueueEnqueue, hrep.assertEntry_eq, Heap.alloc, Heap.readNext,
    Heap.writeNext, hentry, htail, hea, hta, hte.symm, hupdate]

theorem represents_enqueue
    (hrep : Represents h₀ h entry placeHolder cells items)
    (x : α) {a : Nat} (ha : Fresh h a) :
    ∃ h', ixutCycqueueEnqueue h entry x a = some h' ∧
      Represents h₀ h' entry placeHolder (cells ++ [a]) (items ++ [x]) := by
  obtain ⟨filler, data, hentry, htail, heq⟩ := enqueue_eq hrep x ha
  refine ⟨_, heq, ?_⟩
  have hfree : h a = none := by simpa using ha.2
  have hnew : a ∉ entry :: placeHolder :: cells := by
    intro hmem
    obtain ⟨y, hy⟩ := hrep.live hmem
    rw [hfree] at hy
    cases hy
  have hmem := Represents.tail_mem placeHolder cells
  generalize htaileq : cells.getLastD placeHolder = tail at *
  simp only [List.mem_cons, not_or] at hnew
  have hte : tail ≠ entry := hrep.entry_ne hmem
  have hat : a ≠ tail := by
    rintro rfl
    rw [hfree] at htail
    cases htail
  -- what the new memory holds at the cells of the ring
  have hkeep : ∀ b ∈ placeHolder :: cells, b ≠ tail →
      Function.update (Function.update (Function.update h
        a (some ⟨x, placeHolder⟩)) tail (some ⟨data, a⟩))
        entry (some ⟨filler, a⟩) b = h b := by
    intro b hb hbt
    have hba : b ≠ a := by
      rintro rfl
      simp only [List.mem_cons] at hb
      tauto
    rw [Function.update_of_ne (hrep.entry_ne hb), Function.update_of_ne hbt,
      Function.update_of_ne hba]
  constructor
  case header =>
      refine ⟨filler, ?_⟩
      rw [List.getLastD_concat, Function.update_self]
  case ring =>
      apply hrep.ring.snoc
      · simp only [List.mem_cons, not_or]
        exact hnew.2
      · simp [Points, Heap.readNext, Function.update_of_ne hnew.1,
          Function.update_of_ne hat]
      · rw [htaileq]
        simp [Points, Heap.readNext, Function.update_of_ne hte]
      · rw [htaileq]
        exact hkeep
  case apart =>
      have hapart := hrep.apart
      simp only [List.mem_cons, List.mem_append, List.not_mem_nil, or_false,
        not_or] at hapart ⊢
      exact ⟨hapart.1, hapart.2, fun heq => hnew.1 heq.symm⟩
  case data =>
      have hold : values (Function.update (Function.update (Function.update h
          a (some ⟨x, placeHolder⟩)) tail (some ⟨data, a⟩))
          entry (some ⟨filler, a⟩)) cells = values h cells := by
        apply values_congr
        intro b hb
        by_cases hbt : b = tail
        · subst hbt
          simp [Heap.readData, Function.update_of_ne hte, htail]
        · simp only [Heap.readData]
          rw [hkeep b (List.mem_cons_of_mem _ hb) hbt]
      rw [values, List.map_append, List.map_append, ← hrep.data, ← hold]
      simp [values, Heap.readData, Function.update_of_ne hnew.1,
        Function.update_of_ne hat]
  case nonnull =>
      intro b hb
      rw [← List.cons_append, ← List.cons_append, List.mem_append,
        List.mem_singleton] at hb
      rcases hb with hb | rfl
      · exact hrep.nonnull b hb
      · exact ha.1
  case outside =>
      intro b hb
      rw [← List.cons_append, ← List.cons_append, List.mem_append,
        List.mem_singleton] at hb
      rcases hb with hb | rfl
      · exact hrep.outside b hb
      · rw [← hrep.frame b (by simpa using hnew), hfree]
  case frame =>
      intro b hb
      rw [← List.cons_append, ← List.cons_append, List.mem_append,
        List.mem_singleton, not_or] at hb
      have hbt : b ≠ tail := by
        rintro rfl
        exact hb.1 (List.mem_cons_of_mem _ hmem)
      have hbe : b ≠ entry := by
        rintro rfl
        exact hb.1 (by simp)
      rw [Function.update_of_ne hbe, Function.update_of_ne hbt,
        Function.update_of_ne hb.2, hrep.frame b hb.1]

/-! ## Dequeue -/

/-- The memory after a dequeue: the placeholder points behind the oldest node,
which is freed, and the header points to the tail that is left. -/
theorem dequeue_eq
    {c : Nat} {rest : List Nat} {x filler data : α} {next : Nat}
    (hrep : Represents h₀ h entry placeHolder (c :: rest) (x :: items))
    (hentry : h entry = some ⟨filler, (c :: rest).getLastD placeHolder⟩)
    (hplace : h placeHolder = some ⟨data, c⟩)
    (hc : h c = some ⟨x, next⟩) :
    ixutCycqueueDequeue h entry =
      some (Function.update (Function.update (Function.update h
        placeHolder (some ⟨data, next⟩))
        entry (some ⟨filler, rest.getLastD placeHolder⟩))
        c none, x) := by
  obtain ⟨_, htail⟩ := hrep.tail_cell
  have hnodup := hrep.ring.nodup
  have hpe := hrep.entry_ne (a := placeHolder) (by simp)
  have hce := hrep.entry_ne (a := c) (by simp)
  have hassert := hrep.assertEntry_eq
  have hpc : placeHolder ≠ c := by
    intro heq
    simp [heq] at hnodup
  have hte := hrep.entry_ne (Represents.tail_mem placeHolder (c :: rest))
  cases rest with
  | nil =>
      -- the only node is the tail: behind it comes the placeholder
      simp only [List.getLastD_cons, List.getLastD_nil] at htail hentry ⊢
      rw [hc] at htail
      cases htail
      simp [ixutCycqueueDequeue, hassert, Heap.readNext, Heap.readData,
        Heap.writeNext, Heap.free, hentry, hplace, hc, hpe.symm, hpc.symm, hce]
  | cons d rest =>
      rw [List.getLastD_cons, List.getLastD_cons] at hentry htail
      rw [List.getLastD_cons, List.getLastD_cons] at hte
      rw [List.getLastD_cons]
      have hmem := Ring.last_mem d rest
      have hct : c ≠ rest.getLastD d := by
        intro heq
        rw [← heq] at hmem
        simp only [List.nodup_cons] at hnodup
        exact hnodup.2.1 hmem
      generalize rest.getLastD d = tail at *
      have hself : Function.update (Function.update h
          placeHolder (some ⟨data, next⟩)) entry (some ⟨filler, tail⟩) =
            Function.update h placeHolder (some ⟨data, next⟩) := by
        apply Function.update_eq_self_iff.mpr
        rw [Function.update_of_ne hpe.symm, hentry]
      rw [hself]
      simp [ixutCycqueueDequeue, hassert, Heap.readNext, Heap.readData,
        Heap.writeNext, Heap.free, hentry, htail, hplace, hc, hpe.symm,
        hpc.symm, hct]

theorem represents_dequeue
    {x : α} (hrep : Represents h₀ h entry placeHolder cells (x :: items)) :
    ∃ h' c rest, cells = c :: rest ∧
      ixutCycqueueDequeue h entry = some (h', x) ∧
      Represents h₀ h' entry placeHolder rest items := by
  obtain ⟨filler, hentry⟩ := hrep.header
  obtain ⟨c, rest, data, next, rfl, hplace, hc⟩ := hrep.first_cell
  refine ⟨_, c, rest, rfl, dequeue_eq hrep hentry hplace hc, ?_⟩
  have hnodup := hrep.ring.nodup
  have hpe := hrep.entry_ne (a := placeHolder) (by simp)
  have hce := hrep.entry_ne (a := c) (by simp)
  simp only [List.nodup_cons, List.mem_cons, not_or] at hnodup
  have hpc : placeHolder ≠ c := hnodup.1.1
  have hsub : ∀ b ∈ entry :: placeHolder :: rest,
      b ∈ entry :: placeHolder :: c :: rest := by
    intro b hb
    simp only [List.mem_cons] at hb ⊢
    tauto
  have hkeep : ∀ b ∈ rest,
      Function.update (Function.update (Function.update h
        placeHolder (some ⟨data, next⟩))
        entry (some ⟨filler, rest.getLastD placeHolder⟩)) c none b = h b := by
    intro b hb
    have hbc : b ≠ c := by
      rintro rfl
      exact hnodup.2.1 hb
    have hbp : b ≠ placeHolder := by
      rintro rfl
      exact hnodup.1.2 hb
    rw [Function.update_of_ne hbc,
      Function.update_of_ne (hrep.entry_ne (by simp [hb])),
      Function.update_of_ne hbp]
  constructor
  case header =>
      refine ⟨filler, ?_⟩
      rw [Function.update_of_ne hce.symm, Function.update_self]
  case ring =>
      apply hrep.ring.tail (n := next)
      · simp [Points, Heap.readNext, hc]
      · simp [Points, Heap.readNext, Function.update_of_ne hpc,
          Function.update_of_ne hpe]
      · exact hkeep
  case apart =>
      intro hmem
      apply hrep.apart
      simp only [List.mem_cons] at hmem ⊢
      tauto
  case data =>
      have hdata := hrep.data
      simp only [values, List.map_cons, List.cons.injEq] at hdata
      rw [← hdata.2]
      apply values_congr
      intro b hb
      simp only [Heap.readData]
      rw [hkeep b hb]
  case nonnull => exact fun b hb => hrep.nonnull b (hsub b hb)
  case outside => exact fun b hb => hrep.outside b (hsub b hb)
  case frame =>
      intro b hb
      simp only [List.mem_cons, not_or] at hb
      by_cases hbc : b = c
      · subst hbc
        rw [Function.update_self]
        exact (hrep.outside b (by simp)).symm
      · rw [Function.update_of_ne hbc, Function.update_of_ne hb.1,
          Function.update_of_ne hb.2.1]
        apply hrep.frame
        simp only [List.mem_cons, not_or]
        exact ⟨hb.1, hb.2.1, hbc, hb.2.2⟩

/-! ## Front and empty -/

theorem front_eq
    {x : α} (hrep : Represents h₀ h entry placeHolder cells (x :: items)) :
    ixutCycqueueFront h entry = some x := by
  obtain ⟨filler, hentry⟩ := hrep.header
  obtain ⟨_, htail⟩ := hrep.tail_cell
  obtain ⟨c, rest, data, next, rfl, hplace, hc⟩ := hrep.first_cell
  have hassert := hrep.assertEntry_eq
  have hne : placeHolder ≠ (c :: rest).getLastD placeHolder := by
    intro heq
    have hmem := Ring.last_mem c rest
    rw [List.getLastD_cons] at heq
    rw [← heq] at hmem
    exact (List.nodup_cons.mp hrep.ring.nodup).1 hmem
  generalize (c :: rest).getLastD placeHolder = tail at *
  simp [ixutCycqueueFront, hassert, Heap.readNext, Heap.readData, hentry,
    htail, hplace, hc, hne, guard]

theorem empty_eq
    (hrep : Represents h₀ h entry placeHolder cells items) :
    ixutCycqueueEmpty h entry = some items.isEmpty := by
  obtain ⟨filler, hentry⟩ := hrep.header
  obtain ⟨_, htail⟩ := hrep.tail_cell
  have hassert := hrep.assertEntry_eq
  have hiff : (cells.getLastD placeHolder == placeHolder) = items.isEmpty := by
    cases items with
    | nil =>
        have hcells : cells = [] := by
          have hdata := hrep.data
          simpa [values] using hdata
        simp [hcells]
    | cons x items =>
        obtain ⟨c, rest, _, _, rfl, _, _⟩ := hrep.first_cell
        have hne : rest.getLastD c ≠ placeHolder := by
          intro heq
          have hmem := Ring.last_mem c rest
          rw [heq] at hmem
          exact (List.nodup_cons.mp hrep.ring.nodup).1 hmem
        rw [List.getLastD_cons]
        simpa using hne
  generalize cells.getLastD placeHolder = tail at *
  simp [ixutCycqueueEmpty, hassert, Heap.readNext, hentry, htail, hiff]

/-! ## Runs -/

/-- The memory represents the list, and the calls gave the same answers. -/
def Refines
    (h₀ : Heap α) (entry placeHolder : Nat) (s : QueueState α) (q : Fifo α) :
    Prop :=
  s.answers = q.answers ∧
    ∃ cells, Represents h₀ s.heap entry placeHolder cells q.items

/-- **Step lemma**: a call that the list allows, with a new node where `malloc`
can put one, is carried out on the memory, and the two stay together. -/
theorem refines_step
    {s : QueueState α} {q q' : Fifo α} {op : Op α}
    (href : Refines h₀ entry placeHolder s q)
    (hq : fifoStep q op = some q')
    (hmalloc : ∀ x a, op = .enqueue x a → Fresh s.heap a) :
    ∃ s', step entry s op = some s' ∧
      Refines h₀ entry placeHolder s' q' := by
  obtain ⟨hanswers, cells, hrep⟩ := href
  obtain ⟨items, answers⟩ := q
  simp only at hanswers hrep
  cases op with
  | enqueue x a =>
      cases hq
      have ha := hmalloc x a rfl
      obtain ⟨h', heq, hrep'⟩ := represents_enqueue hrep x ha
      exact ⟨⟨h', s.answers⟩, by simp [step, ha, heq], hanswers, _, hrep'⟩
  | dequeue =>
      cases items with
      | nil => cases hq
      | cons x items =>
          cases hq
          obtain ⟨h', c, rest, _, heq, hrep'⟩ := represents_dequeue hrep
          refine ⟨⟨h', s.answers ++ [Answer.dequeued x]⟩,
            by simp [step, heq], ?_⟩
          exact ⟨by simp [hanswers], rest, hrep'⟩
  | front =>
      cases items with
      | nil => cases hq
      | cons x items =>
          cases hq
          refine ⟨⟨s.heap, s.answers ++ [Answer.front x]⟩,
            by simp [step, front_eq hrep], ?_⟩
          exact ⟨by simp [hanswers], cells, hrep⟩
  | empty =>
      cases hq
      refine ⟨⟨s.heap, s.answers ++ [Answer.empty items.isEmpty]⟩,
        by simp [step, empty_eq hrep], ?_⟩
      exact ⟨by simp [hanswers], cells, hrep⟩

/-- The calls that only look leave every cell as it is. -/
theorem heap_of_look
    {s s' : QueueState α} {op : Op α} (h : step entry s op = some s')
    (hop : op = .front ∨ op = .empty) :
    s'.heap = s.heap := by
  rcases hop with rfl | rfl
  · obtain ⟨x, _, rfl⟩ := Option.map_eq_some_iff.mp h
    rfl
  · obtain ⟨b, _, rfl⟩ := Option.map_eq_some_iff.mp h
    rfl

/-- Only where `malloc` can put a new node is an enqueue a step. -/
theorem fresh_of_step
    {s s' : QueueState α} {op : Op α} (h : step entry s op = some s') :
    ∀ x a, op = .enqueue x a → Fresh s.heap a := by
  rintro x a rfl
  by_contra hne
  simp [step, hne] at h

theorem refines_run
    {s s' : QueueState α} {q q' : Fifo α} {ops : List (Op α)}
    (href : Refines h₀ entry placeHolder s q)
    (hq : run fifoStep q ops = some q')
    (hs : run (step entry) s ops = some s') :
    Refines h₀ entry placeHolder s' q' := by
  induction ops generalizing s q with
  | nil =>
      cases hq
      cases hs
      exact href
  | cons op ops ih =>
      obtain ⟨p, hp, hq⟩ := run_cons_success _ hq
      obtain ⟨m, hm, hs⟩ := run_cons_success _ hs
      obtain ⟨m', hm', href'⟩ := refines_step href hp (fresh_of_step hm)
      rw [hm] at hm'
      cases hm'
      exact ih href' hq hs

/-- **The cyclic queue refines a list**: after every sequence of calls that the
list allows, the cells reached from the header's tail are the placeholder and
the nodes of the list, in order, distinct and live, and lead back to the tail;
no other cell of the memory has changed, the answers are those of the list, and
every further call that the list allows is carried out, `front` and `empty`
without changing a node. -/
theorem cycqueue_refines_list
    (h₀ : Heap α) (filler : α) (entry placeHolder : Nat)
    (hentry : Fresh h₀ entry) (hplace : Fresh h₀ placeHolder)
    (hne : entry ≠ placeHolder)
    (ops : List (Op α)) (q : Fifo α)
    (hq : run fifoStep ⟨[], []⟩ ops = some q)
    (s : QueueState α)
    (hs : run (step entry)
      ⟨ixutCycqueueCreate h₀ filler entry placeHolder, []⟩ ops = some s) :
    s.answers = q.answers ∧
      (∃ cells, Represents h₀ s.heap entry placeHolder cells q.items ∧
        ∀ a ∈ placeHolder :: cells, (s.heap a).isSome = true) ∧
      ∀ op q', fifoStep q op = some q' →
        (∀ x a, op = .enqueue x a → Fresh s.heap a) →
        ∃ s', step entry s op = some s' ∧
          (op = .front ∨ op = .empty → s'.heap = s.heap) := by
  have hinit : Refines h₀ entry placeHolder
      ⟨ixutCycqueueCreate h₀ filler entry placeHolder, []⟩ ⟨[], []⟩ :=
    ⟨rfl, [], represents_create h₀ filler hentry hplace hne⟩
  have href := refines_run hinit hq hs
  obtain ⟨hanswers, cells, hrep⟩ := href
  refine ⟨hanswers, ⟨cells, hrep, ?_⟩, ?_⟩
  · intro a ha
    obtain ⟨x, hx⟩ := hrep.ring.live ha
    simp [hx]
  · intro op q' hop hmalloc
    obtain ⟨s', hs', _⟩ := refines_step ⟨hanswers, cells, hrep⟩ hop hmalloc
    exact ⟨s', hs', heap_of_look hs'⟩

/-- Two values in, one out, in an empty memory. -/
theorem cycqueue_refines_list_sample :
    ∃ s, run (step 1)
        ⟨ixutCycqueueCreate (fun _ => none) 15 1 2, []⟩
        [.enqueue 7 3, .enqueue 8 4, .dequeue] = some s ∧
      s.answers = [.dequeued 7] ∧
      (∃ cells, Represents (fun _ => none) s.heap 1 2 cells [8] ∧
        ∀ a ∈ 2 :: cells, (s.heap a).isSome = true) ∧
      ∀ op q', fifoStep ⟨[8], [.dequeued 7]⟩ op = some q' →
        (∀ x a, op = .enqueue x a → Fresh s.heap a) →
        ∃ s', step 1 s op = some s' ∧
          (op = .front ∨ op = .empty → s'.heap = s.heap) := by
  have hsome : (run (step 1)
      ⟨ixutCycqueueCreate (fun _ => none) 15 1 2, []⟩
      [.enqueue 7 3, .enqueue 8 4, .dequeue]).isSome = true := by
    decide
  obtain ⟨s, hs⟩ := Option.isSome_iff_exists.mp hsome
  refine ⟨s, hs, ?_⟩
  exact cycqueue_refines_list (fun _ => none) 15 1 2 (by decide) (by decide)
    (by decide) [.enqueue 7 3, .enqueue 8 4, .dequeue] ⟨[8], [.dequeued 7]⟩ rfl
    s hs

end CycQueue
end Iojxd
