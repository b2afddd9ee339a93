import Mathlib.Tactic

/-!
# `ixlbx_ref_base` of `luafoundx.cxx`

An object that Lua holds through `RefCountedPtr`.  The count has three parts:
the handles of Lua, the temporaries of calls that have not returned, and one
reference that the object may hold to itself in `m_this_ref`.  At count zero the
destructor runs.
-/

namespace Iojxd
namespace LuaRef

/-- `ixlbx_ref_base`, with the references that are counted for it. -/
structure IxlbxRefBase where
  handles : Nat
  temporaries : Nat
  thisRef : Bool
deriving DecidableEq

namespace IxlbxRefBase

/-- The constructor, called by Lua, which gets a handle. -/
def make : IxlbxRefBase where
  handles := 1
  temporaries := 0
  thisRef := false

/-- The count of `RefCountedPtr`. -/
def refs (b : IxlbxRefBase) : Nat :=
  b.handles + b.temporaries + b.thisRef.toNat

/-- `ref`: a second call finds the pointer set and does nothing. -/
@[simps] def ref (b : IxlbxRefBase) : IxlbxRefBase :=
  { b with thisRef := true }

/-- `un_ref`, without the destructor. -/
@[simps] def unRef (b : IxlbxRefBase) : IxlbxRefBase :=
  { b with thisRef := false }

/-- A `RefCountedPtr` is made for a call and copied into Lua. -/
def lend (b : IxlbxRefBase) : IxlbxRefBase :=
  { b with
    handles := b.handles + 1
    temporaries := b.temporaries + 1 }

/-- The `RefCountedPtr` of a call is gone. -/
def giveBack (b : IxlbxRefBase) : IxlbxRefBase :=
  { b with temporaries := b.temporaries - 1 }

/-- The collector drops a handle. -/
@[simps] def collect (b : IxlbxRefBase) : IxlbxRefBase :=
  { b with handles := b.handles - 1 }

/-- An object that holds itself is counted. -/
theorem thisRef_of_refs {b : IxlbxRefBase} (h : b.refs = 0) :
    b.thisRef = false := by
  cases hthis : b.thisRef with
  | false => rfl
  | true =>
      simp only [refs, hthis, Bool.toNat_true] at h
      omega

end IxlbxRefBase

end LuaRef
end Iojxd
