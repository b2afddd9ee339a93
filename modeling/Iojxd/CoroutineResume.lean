import Iojxd.ChildTermination
import Iojxd.LuaStack
import Iojxd.LuaValue
import Iojxd.TransitionRun

/-!
# Coroutines that wait for a child

`ixlb_spawn_process_co` in `luafound.cxx`: when the child has ended, its
callback takes a reference to `ixlu_resume` from the main stack and calls it
with the state that is to be resumed.  This module follows the two stacks.

What LuaJIT does in `lua_resume`, and what other values do when they are called,
are parameters.  A callee works in a frame of its own, so it changes the stacks
of coroutines and never what lies on the main stack.  The stacks have no largest
size here.
-/

namespace Iojxd
namespace CoroutineResume

open ChildTermination LuaStack TransitionRun

/-- The Lua states of one program. -/
inductive Thread where
  | main
  | coroutine (c : Nat)
deriving DecidableEq

/-- What can lie on a stack: a value of the Lua program, the C function
`ixlu_resume`, and light userdata for the context and for a state. -/
inductive StackValue where
  | value (v : LuaValue)
  | ixluResume
  | context
  | state (thread : Thread)
deriving DecidableEq

abbrev Stack := List StackValue

/-- The stacks of the coroutines. -/
abbrev Coroutines := Nat → Stack

/-- The stacks of all states. -/
structure World where
  main : Stack
  coroutines : Coroutines

/-- What is outside: `lua_resume` of a coroutine with a number of arguments, and
the call of a value other than `ixlu_resume`, `none` where that raises an
error. -/
structure LuaCode where
  resume : Coroutines → Nat → Nat → Coroutines
  call : StackValue → List StackValue → Coroutines → Option Coroutines

/-- A child has ended: the state that called `co.spawn_process`, and the numbers
in `ixc_termcb_args`. -/
structure Completion where
  thread : Thread
  report : SpawnReport

namespace Completion

def number (q : ℚ) : StackValue :=
  .value (.number q)

/-- The three numbers that the resumed code is given. -/
def numbers (l : Completion) : List StackValue :=
  [number l.report.pid, number l.report.status.toInt,
    number l.report.termSignal]

/-- The arguments of the call of the reference. -/
def args (l : Completion) : List StackValue :=
  .state l.thread :: l.numbers

end Completion

/-! ## The functions -/

/-- The registry after `ixc_create_context`. -/
def registry (key : StackValue) : StackValue :=
  if key = .value (.string (bytes "_context")) then .context else .value .nil

/-- `ixlb_get_cur_ctx`, which does not take its result from the stack. -/
def ixlbGetCurCtx (s : Stack) : Stack × Option StackValue :=
  let s := push s (.value (.string (bytes "_context")))
  let s := gettable registry s
  (s, valueAt s (-1))

/-- `luabridge::ixex::fromCFunction`. -/
def fromCFunction (s : Stack) (func : StackValue) :
    Option (StackValue × Stack) :=
  fromStack (push s func) 1

/-- `ixlu_resume` in its frame.  Moving from a state to itself does nothing, and
the main state is not resumed while it runs. -/
def ixluResume (lua : LuaCode) (frame : Stack) (cos : Coroutines) :
    Option Coroutines :=
  let v := frame.length
  match valueAt frame 1 with
  | some (.state (.coroutine c)) =>
      let moved := xmove frame (cos c) (v - 1)
      some (lua.resume (Function.update cos c moved.2) c (v - 1))
  | some (.state .main) => some cos
  | _ => none

/-- The call of a value. -/
def callValue (lua : LuaCode) (f : StackValue) (args : List StackValue)
    (cos : Coroutines) : Option Coroutines :=
  match f with
  | .ixluResume => ixluResume lua args cos
  | f => lua.call f args cos

namespace World

/-- `ixlb_get_cur_ctx` on the stack of a state. -/
def getCurCtx (w : World) : Thread → World × Option StackValue
  | .main =>
      let r := ixlbGetCurCtx w.main
      ({ w with main := r.1 }, r.2)
  | .coroutine c =>
      let r := ixlbGetCurCtx (w.coroutines c)
      ({ w with coroutines := Function.update w.coroutines c r.1 }, r.2)

end World

/-- The callback of `ixlb_spawn_process_co` up to its call: the reference `r`,
and the stacks.  `Lmain` is the state of the context. -/
def obtain (w : World) (l : Completion) : Option (StackValue × World) :=
  match w.getCurCtx l.thread with
  | (w, some .context) =>
      (fromCFunction w.main .ixluResume).map fun r =>
        (r.1, { w with main := r.2 })
  | _ => none

/-- The callback of `ixlb_spawn_process_co`; `none` where an error leaves it. -/
def step (lua : LuaCode) (w : World) (l : Completion) : Option World :=
  (obtain w l).bind fun r =>
    (callValue lua r.1 l.args r.2.coroutines).map fun cos =>
      { main := callRef r.2.main r.1 l.args (.value .nil)
        coroutines := cos }

/-! ## One callback -/

/-- What the callback leaves on the main stack. -/
def Thread.leaves : Thread → Stack
  | .main => [.context, .ixluResume]
  | .coroutine _ => [.ixluResume]

/-- The stacks of the coroutines when the reference is called. -/
def withContext (cos : Coroutines) : Thread → Coroutines
  | .main => cos
  | .coroutine c => Function.update cos c (push (cos c) .context)

theorem ixlbGetCurCtx_eq (s : Stack) :
    ixlbGetCurCtx s = (push s .context, some .context) := by
  simp [ixlbGetCurCtx, registry]

theorem fromCFunction_eq (s : Stack) (func : StackValue) :
    fromCFunction s func = some (s.headD func, push s func) := by
  have hbottom : valueAt (push s func) 1 = some (s.headD func) := by
    rw [valueAt_bottom]
    cases s <;> rfl
  rw [fromCFunction, fromStack_eq hbottom]

/-- **The reference** is the element at the bottom of the main stack. -/
theorem obtain_eq (w : World) (l : Completion) :
    obtain w l =
      some ((w.main ++ l.thread.leaves).headD .ixluResume,
        { main := w.main ++ l.thread.leaves
          coroutines := withContext w.coroutines l.thread }) := by
  unfold obtain World.getCurCtx
  cases l.thread with
  | main =>
      simp only [ixlbGetCurCtx_eq, fromCFunction_eq]
      cases w.main <;> simp [push, Thread.leaves, withContext]
  | coroutine c =>
      simp only [ixlbGetCurCtx_eq, fromCFunction_eq]
      cases w.main <;> simp [push, Thread.leaves, withContext]

/-- The arguments move to the coroutine, above what lies there. -/
theorem ixluResume_coroutine
    (lua : LuaCode) {l : Completion} {c : Nat}
    (hl : l.thread = .coroutine c) (cos : Coroutines) :
    ixluResume lua l.args cos =
      some (lua.resume
        (Function.update cos c (cos c ++ l.numbers)) c 3) := by
  have hframe : valueAt l.args 1 = some (.state (.coroutine c)) := by
    rw [valueAt_bottom, Completion.args, hl]
    rfl
  have hmove : xmove l.args (cos c) 3 =
      ([StackValue.state l.thread], cos c ++ l.numbers) :=
    xmove_append [StackValue.state l.thread] l.numbers (cos c)
  have hlength : l.args.length = 4 := by rfl
  simp only [ixluResume, hframe, hlength, Nat.add_one_sub_one, hmove]

/-- The main stack grows with each callback that returns. -/
theorem main_of_step
    {lua : LuaCode} {w t : World} {l : Completion}
    (h : step lua w l = some t) :
    t.main = w.main ++ l.thread.leaves := by
  rw [step, obtain_eq, Option.bind_some] at h
  obtain ⟨cos, _, rfl⟩ := Option.map_eq_some_iff.mp h
  exact callRef_eq ..

/-! ## The order of the stacks -/

/-- The reference is to `ixlu_resume`. -/
def GetsResume (w : World) (l : Completion) : Prop :=
  (obtain w l).map Prod.fst = some .ixluResume

/-- The height that the resumed code would leave on its own: the coroutine is
resumed with the numbers directly above what lay there. -/
def heightOfResumed (lua : LuaCode) (w : World) (c : Nat) (l : Completion) :
    Nat :=
  (lua.resume
    (Function.update w.coroutines c (w.coroutines c ++ l.numbers)) c 3 c).length

/-- What the callback of a completion should do. -/
structure KeepsOrder (lua : LuaCode) (w : World) (l : Completion) : Prop where
  reference : GetsResume w l
  balanced : ∃ t, step lua w l = some t ∧
    t.main.length = w.main.length ∧
    ∀ c, l.thread = .coroutine c →
      (t.coroutines c).length = heightOfResumed lua w c l

/-- The element at the bottom is `ixlu_resume`, or will be because nothing else
is there. -/
def ResumeAtBottom (w : World) (l : Completion) : Prop :=
  w.main.head? = some .ixluResume ∨ w.main = [] ∧ l.thread ≠ .main

theorem getsResume_iff (w : World) (l : Completion) :
    GetsResume w l ↔ ResumeAtBottom w l := by
  rw [GetsResume, obtain_eq, ResumeAtBottom]
  cases hmain : w.main with
  | nil => cases hl : l.thread <;> simp [Thread.leaves]
  | cons v rest => simp

theorem leaves_length_pos (thread : Thread) :
    0 < thread.leaves.length := by
  cases thread with
  | main => decide
  | coroutine c => exact Nat.one_pos

/-- **No callback leaves the main stack as it was.** -/
theorem not_keepsOrder (lua : LuaCode) (w : World) (l : Completion) :
    ¬ KeepsOrder lua w l := by
  rintro ⟨-, t, ht, hheight, -⟩
  have hpos := leaves_length_pos l.thread
  rw [main_of_step ht, List.length_append] at hheight
  omega

/-! ## The stack of the coroutine -/

section Coroutine

variable {lua : LuaCode} {w t : World} {l : Completion} {c : Nat}

/-- The coroutine is resumed with the context below its arguments. -/
theorem coroutines_of_step
    (hl : l.thread = .coroutine c)
    (href : GetsResume w l)
    (ht : step lua w l = some t) :
    t.coroutines = lua.resume
      (Function.update w.coroutines c
        (push (w.coroutines c) .context ++ l.numbers)) c 3 := by
  have hreference : (w.main ++ l.thread.leaves).headD .ixluResume =
      .ixluResume := by
    rw [GetsResume, obtain_eq] at href
    exact Option.some.inj href
  rw [step, obtain_eq, hreference, Option.bind_some] at ht
  simp only [callValue, ixluResume_coroutine lua hl, Option.map_some,
    Option.some.injEq] at ht
  subst ht
  simp [hl, withContext]

/-- Where the effect of the resumed code on the height does not depend on what
lies below its arguments, the coroutine's stack ends one too high. -/
theorem coroutine_height_of_above
    (habove : ∀ (cos : Coroutines) (s : Stack) (v : StackValue)
      (xs : List StackValue),
      (lua.resume (Function.update cos c (push s v ++ xs)) c xs.length
          c).length =
        (lua.resume (Function.update cos c (s ++ xs)) c xs.length c).length + 1)
    (hl : l.thread = .coroutine c)
    (href : GetsResume w l)
    (ht : step lua w l = some t) :
    (t.coroutines c).length = heightOfResumed lua w c l + 1 := by
  rw [coroutines_of_step hl href ht]
  exact habove w.coroutines (w.coroutines c) .context l.numbers

/-- Where a resumption drops what lies below its arguments, as the return from a
yield does, the context goes with it. -/
theorem coroutine_height_of_drops
    (hdrops : ∀ (cos : Coroutines) (s s' : Stack) (xs : List StackValue),
      lua.resume (Function.update cos c (s ++ xs)) c xs.length =
        lua.resume (Function.update cos c (s' ++ xs)) c xs.length)
    (hl : l.thread = .coroutine c)
    (href : GetsResume w l)
    (ht : step lua w l = some t) :
    (t.coroutines c).length = heightOfResumed lua w c l := by
  rw [coroutines_of_step hl href ht]
  exact congrArg (fun cos : Coroutines => (cos c).length)
    (hdrops w.coroutines _ (w.coroutines c) l.numbers)

end Coroutine

/-! ## Any number of completions -/

section Runs

variable (lua : LuaCode) {w t : World} (ls : List Completion)

/-- **Run lemma**: what the callbacks leave adds up. -/
theorem main_of_run
    (hrun : run (step lua) w ls = some t) :
    t.main = w.main ++ ls.flatMap fun l => l.thread.leaves := by
  induction ls generalizing w with
  | nil =>
      rw [run_nil] at hrun
      cases hrun
      simp
  | cons l ls ih =>
      obtain ⟨m, hm, htail⟩ := run_cons_success _ hrun
      rw [ih htail, main_of_step hm, List.flatMap_cons, List.append_assoc]

/-- Once `ixlu_resume` is at the bottom it stays there. -/
theorem bottom_of_step
    {l : Completion}
    (hbottom : ResumeAtBottom w l)
    (ht : step lua w l = some t) :
    t.main.head? = some .ixluResume := by
  rw [main_of_step ht]
  rcases hbottom with hhead | ⟨hmain, hthread⟩
  · rw [List.head?_append, hhead]
    rfl
  · rw [hmain]
    cases hl : l.thread with
    | main => exact absurd hl hthread
    | coroutine c => rfl

/-- The first callback of a run decides for all of them. -/
theorem references_right_iff (w : World) :
    EverySource (step lua) GetsResume w ls ↔
      ∀ l ∈ ls.head?, ResumeAtBottom w l := by
  cases ls with
  | nil =>
      constructor
      · intro _ l hl
        cases hl
      · intro _
        trivial
  | cons l ls =>
      constructor
      · rintro ⟨hfirst, -⟩ l' hl'
        obtain rfl := Option.some.inj hl'
        exact (getsResume_iff w l).mp hfirst
      · intro h
        have hbottom := h l rfl
        refine ⟨(getsResume_iff w l).mpr hbottom, ?_⟩
        intro t ht
        apply everySource_of_invariant
          (I := fun s => s.main.head? = some .ixluResume)
        · intro s k u hs hu
          exact bottom_of_step lua (Or.inl hs) hu
        · intro s k hs
          exact (getsResume_iff s k).mpr (Or.inl hs)
        · exact bottom_of_step lua hbottom ht

end Runs

/-- **Resuming never keeps the stacks in order**: no callback of any run does
what it should, its reference is right in all callbacks exactly if the bottom of
the main stack is `ixlu_resume` or still free at the first, and everything the
callbacks push on the main stack stays there. -/
theorem resume_order_iff (lua : LuaCode) (w : World) (ls : List Completion) :
    (EverySource (step lua) (KeepsOrder lua) w ls ↔ ls = []) ∧
      EverySource (step lua) (fun s l => ¬ KeepsOrder lua s l) w ls ∧
      (EverySource (step lua) GetsResume w ls ↔
        ∀ l ∈ ls.head?, ResumeAtBottom w l) ∧
      ∀ t, run (step lua) w ls = some t →
        t.main = w.main ++ ls.flatMap fun l => l.thread.leaves := by
  refine ⟨?_, ?_, references_right_iff lua ls w, fun t => main_of_run lua ls⟩
  · constructor
    · intro h
      cases ls with
      | nil => rfl
      | cons l ls => exact absurd h.1 (not_keepsOrder lua w l)
    · rintro rfl
      trivial
  · apply everySource_of_invariant (I := fun _ => True)
    · intro _ _ _ _ _
      trivial
    · intro s l _
      exact not_keepsOrder lua s l
    · trivial

/-- Resumed code that yields at once and without values; other values cannot be
called. -/
def yieldsAtOnce : LuaCode where
  resume cos c n := Function.update cos c (pop (cos c) n)
  call _ _ _ := none

/-- The coroutine 0 has waited for the child 100, which exited with code 0. -/
def firstChild : Completion where
  thread := .coroutine 0
  report := ⟨100, 0, 0⟩

/-- The script file has returned a table: the reference is to the table.  With
an empty main stack the callback finds `ixlu_resume` and leaves it there, and
the context on the stack of the coroutine. -/
theorem table_taken_for_resume :
    ((obtain ⟨[.value (.table 1)], fun _ => []⟩ firstChild).map Prod.fst =
        some (.value (.table 1)) ∧
      ¬ KeepsOrder yieldsAtOnce ⟨[.value (.table 1)], fun _ => []⟩
        firstChild) ∧
      ((step yieldsAtOnce ⟨[], fun _ => []⟩ firstChild).map
          (fun t => (t.main, t.coroutines 0)) =
        some ([.ixluResume], [.context]) ∧
      ¬ KeepsOrder yieldsAtOnce ⟨[], fun _ => []⟩ firstChild) := by
  refine ⟨⟨?_, not_keepsOrder _ _ _⟩, ?_, not_keepsOrder _ _ _⟩
  · rfl
  · rfl

end CoroutineResume
end Iojxd
