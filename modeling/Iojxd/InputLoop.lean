import Mathlib.Data.List.TakeWhile
import Mathlib.Tactic

/-!
# Loops that read one input per iteration

A loop `while true do … end` whose body first reads one input is given by the
function computed by its body: from the loop state and the input it yields the
effects of the iteration and either the next loop state or nothing, when the
body leaves the loop.  The loop itself is run on the list of inputs that will
be read.

When the input alone decides whether the body leaves the loop, a run splits at
the first such input: the iterations before it, and the one that leaves.
-/

namespace Iojxd
namespace InputLoop

universe u v w

variable {σ : Type u} {ι : Type v} {ε : Type w}

/-- What a loop did on a list of inputs: its effects, its state while it still
waits for an input, and the inputs it left unread. -/
structure LoopRun (σ : Type u) (ι : Type v) (ε : Type w) where
  effects : List ε
  state : Option σ
  unread : List ι

/-- The same run after some earlier effects. -/
def LoopRun.prepend (es : List ε) (r : LoopRun σ ι ε) : LoopRun σ ι ε :=
  { r with effects := es ++ r.effects }

section Loop

variable (body : σ → ι → List ε × Option σ)

/-- Run the loop from a state on the inputs it reads. -/
def loop : σ → List ι → LoopRun σ ι ε
  | s, [] => ⟨[], some s, []⟩
  | s, i :: is =>
      match (body s i).2 with
      | some t => (loop t is).prepend (body s i).1
      | none => ⟨(body s i).1, none, is⟩

theorem loop_cons_next
    {s t : σ} {i : ι} (is : List ι)
    (h : (body s i).2 = some t) :
    loop body s (i :: is) =
      (loop body t is).prepend (body s i).1 := by
  simp only [loop, h]

theorem loop_cons_leave
    {s : σ} {i : ι} (is : List ι)
    (h : (body s i).2 = none) :
    loop body s (i :: is) = ⟨(body s i).1, none, is⟩ := by
  simp only [loop, h]

/-- A loop that still waits after the first inputs goes on with the others. -/
theorem loop_append
    {s t : σ} {is : List ι} (js : List ι)
    (h : (loop body s is).state = some t) :
    loop body s (is ++ js) =
      (loop body t js).prepend (loop body s is).effects := by
  induction is generalizing s with
  | nil =>
      simp only [loop, Option.some.injEq] at h
      subst h
      simp [loop, LoopRun.prepend]
  | cons i is ih =>
      cases hb : (body s i).2 with
      | none =>
          rw [loop_cons_leave body is hb] at h
          cases h
      | some m =>
          rw [loop_cons_next body is hb] at h
          rw [List.cons_append, loop_cons_next body _ hb,
            loop_cons_next body is hb, ih h]
          simp [LoopRun.prepend, List.append_assoc]

/-- What no iteration does, the loop does not. -/
theorem not_mem_effects_loop
    {x : ε} {is : List ι}
    (h : ∀ s, ∀ i ∈ is, x ∉ (body s i).1) (s : σ) :
    x ∉ (loop body s is).effects := by
  induction is generalizing s with
  | nil => simp [loop]
  | cons i is ih =>
      have hhead := h s i (by simp)
      cases hb : (body s i).2 with
      | none =>
          rw [loop_cons_leave body is hb]
          exact hhead
      | some t =>
          rw [loop_cons_next body is hb]
          intro hx
          rcases List.mem_append.mp hx with hx | hx
          · exact hhead hx
          · exact ih (fun s j hj => h s j (by simp [hj])) t hx

section Ends

variable (ends : ι → Bool)

/-- The inputs read before the first one that ends the loop. -/
def beforeEnd (is : List ι) : List ι :=
  is.takeWhile fun i => !ends i

theorem not_ends_of_mem_beforeEnd
    {is : List ι} {i : ι} (h : i ∈ beforeEnd ends is) :
    ends i = false := by
  have := List.mem_takeWhile_imp h
  simpa using this

theorem beforeEnd_of_find?_none
    {is : List ι} (h : is.find? ends = none) :
    beforeEnd ends is = is := by
  apply List.takeWhile_eq_self_iff.mpr
  intro i hi
  have := List.find?_eq_none.mp h i hi
  simpa using this

/-- The inputs are those before the end, the ending one and the rest. -/
theorem exists_eq_beforeEnd_append
    {is : List ι} {e : ι} (h : is.find? ends = some e) :
    ∃ rest, is = beforeEnd ends is ++ e :: rest := by
  induction is with
  | nil => simp at h
  | cons i is ih =>
      by_cases hi : ends i = true
      · simp only [List.find?_cons, hi, Option.some.injEq] at h
        subst h
        exact ⟨is, by simp [beforeEnd, hi]⟩
      · have hi' : ends i = false := by simpa using hi
        simp only [List.find?_cons, hi'] at h
        obtain ⟨rest, hrest⟩ := ih h
        refine ⟨rest, ?_⟩
        have hcons : beforeEnd ends (i :: is) = i :: beforeEnd ends is := by
          simp [beforeEnd, hi']
        rw [hcons, List.cons_append, ← hrest]

variable {ends}
variable (hends : ∀ s i, (body s i).2 = none ↔ ends i = true)
include hends

/-- Inputs that do not end the loop are all read, and the loop waits on. -/
theorem exists_state_of_no_end
    {s : σ} {is : List ι} (h : ∀ i ∈ is, ends i = false) :
    ∃ t, (loop body s is).state = some t := by
  induction is generalizing s with
  | nil => exact ⟨s, rfl⟩
  | cons i is ih =>
      cases hb : (body s i).2 with
      | none =>
          have := (hends s i).mp hb
          simp [h i (by simp)] at this
      | some t =>
          rw [loop_cons_next body is hb]
          exact ih fun j hj => h j (by simp [hj])

theorem exists_state_beforeEnd (s : σ) (is : List ι) :
    ∃ t, (loop body s (beforeEnd ends is)).state = some t :=
  exists_state_of_no_end body hends
    fun _ hi => not_ends_of_mem_beforeEnd ends hi

/-- A run without an ending input is still waiting. -/
theorem loop_of_find?_none
    {is : List ι} (s : σ) (h : is.find? ends = none) :
    ∃ t, (loop body s is).state = some t := by
  have := exists_state_beforeEnd body hends s is
  rwa [beforeEnd_of_find?_none ends h] at this

/-- **Split of a run at its end**: the iterations before the ending input,
then the iteration that leaves the loop. -/
theorem loop_of_find?_some
    {is : List ι} {e : ι} {s t : σ}
    (h : is.find? ends = some e)
    (ht : (loop body s (beforeEnd ends is)).state = some t) :
    (loop body s is).effects =
        (loop body s (beforeEnd ends is)).effects ++ (body t e).1 ∧
      (loop body s is).state = none := by
  obtain ⟨rest, hrest⟩ := exists_eq_beforeEnd_append ends h
  have he : ends e = true := List.find?_some h
  have hleave : (body t e).2 = none := (hends t e).mpr he
  have hloop := loop_append body (e :: rest) ht
  rw [← hrest, loop_cons_leave body rest hleave] at hloop
  rw [hloop]
  exact ⟨rfl, rfl⟩

/-- The loop is left exactly when some input ends it. -/
theorem state_eq_none_iff (s : σ) (is : List ι) :
    (loop body s is).state = none ↔ ∃ e, is.find? ends = some e := by
  constructor
  · intro h
    cases hf : is.find? ends with
    | some e => exact ⟨e, rfl⟩
    | none =>
        obtain ⟨t, ht⟩ := loop_of_find?_none body hends s hf
        rw [ht] at h
        cases h
  · rintro ⟨e, he⟩
    obtain ⟨t, ht⟩ := exists_state_beforeEnd body hends s is
    exact (loop_of_find?_some body hends he ht).2

end Ends

end Loop

end InputLoop
end Iojxd
