import Mathlib.Tactic

/-!
# The stack of a Lua state

The operations of the Lua C API on the stack of a state, which is a list with
the top at its end.  A positive index counts from the bottom, a negative one
from the top.  `fromStack` and `callRef` are the two operations of LuaBridge's
`LuaRef` that go through the stack; both leave it as it was.
-/

namespace Iojxd
namespace LuaStack

universe u

variable {α : Type u}

/-- The element at an index. -/
def valueAt (s : List α) (i : Int) : Option α :=
  if 0 < i then s[i.toNat - 1]?
  else if i < 0 ∧ -i ≤ s.length then s[s.length - (-i).toNat]?
  else none

def push (s : List α) (v : α) : List α :=
  s ++ [v]

/-- `lua_pop`. -/
def pop (s : List α) (n : Nat) : List α :=
  s.take (s.length - n)

/-- `lua_gettable`: the key on top is replaced by what the table has for it. -/
def gettable (table : α → α) (s : List α) : List α :=
  match valueAt s (-1) with
  | some key => push (pop s 1) (table key)
  | none => s

/-- `lua_xmove`: what the two stacks are when the top elements have moved. -/
def xmove (source target : List α) (n : Nat) : List α × List α :=
  (pop source n, target ++ source.drop (source.length - n))

/-- `LuaRef::fromStack`: the element is copied to the top, from where `luaL_ref`
takes it. -/
def fromStack (s : List α) (i : Int) : Option (α × List α) :=
  (valueAt s i).map fun v => (v, pop (push s v) 1)

/-- The call of a `LuaRef`, seen from below: function and arguments are pushed,
`lua_pcall` puts one result in their place, and `luaL_ref` takes that. -/
def callRef (s : List α) (f : α) (args : List α) (result : α) : List α :=
  pop (push (pop (push s f ++ args) (args.length + 1)) result) 1

theorem pop_append (s xs : List α) :
    pop (s ++ xs) xs.length = s := by
  simp [pop]

@[simp] theorem pop_push (s : List α) (v : α) :
    pop (push s v) 1 = s :=
  pop_append s [v]

/-- The element on top is the one pushed last. -/
@[simp] theorem valueAt_top (s : List α) (v : α) :
    valueAt (push s v) (-1) = some v := by
  simp [valueAt, push]

/-- The element at the bottom is the one pushed first. -/
theorem valueAt_bottom (s : List α) :
    valueAt s 1 = s.head? := by
  simp [valueAt, List.head?_eq_getElem?]

@[simp] theorem gettable_push (table : α → α) (s : List α) (key : α) :
    gettable table (push s key) = push s (table key) := by
  simp [gettable]

/-- As many elements as lie above `s` move, in their order. -/
theorem xmove_append (s xs target : List α) :
    xmove (s ++ xs) target xs.length = (s, target ++ xs) := by
  simp [xmove, pop_append]

/-- Taking a reference leaves the stack as it was. -/
theorem fromStack_eq
    {s : List α} {i : Int} {v : α}
    (h : valueAt s i = some v) :
    fromStack s i = some (v, s) := by
  simp [fromStack, h]

/-- Calling a reference leaves the stack as it was. -/
theorem callRef_eq (s : List α) (f : α) (args : List α) (result : α) :
    callRef s f args result = s := by
  have hpop : pop (push s f ++ args) (args.length + 1) = s := by
    have h := pop_append s (f :: args)
    rwa [List.length_cons, List.append_cons] at h
  rw [callRef, hpop, pop_push]

end LuaStack
end Iojxd
