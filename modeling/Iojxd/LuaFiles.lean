import Iojxd.LuaValue

/-!
# Files as a Lua program sees them

`io.open`, `file:read("*all")` and `file:write` over a file system that gives
each path a file.  Opening gives nil where the system refuses it; a method call
on nil and an argument of the wrong type raise an error, and an error ends the
computation.  Paths are C strings.  What is written to an open file arrives.
-/

namespace Iojxd
namespace LuaFiles

/-- A file: whether it can be opened, and what reading it gives; `none` where
reading an opened file fails, as for a directory. -/
structure File where
  readable : Bool
  writable : Bool
  content : Option LuaString
deriving DecidableEq

abbrev FileSystem := LuaString → File

/-- The errors a file access can raise. -/
inductive LuaError where
  /-- attempt to index a nil value -/
  | indexNil (name : LuaString)
  /-- bad argument: string expected -/
  | badArgument (position : Nat)
deriving DecidableEq

/-- A computation that uses files and may raise an error. -/
abbrev LuaM (α : Type) := StateT FileSystem (Except LuaError) α

/-- `luaL_checkstring`. -/
def checkString (tostringNumber : ℚ → LuaString) (position : Nat)
    (v : LuaValue) : LuaM LuaString :=
  match v.concatOperand tostringNumber with
  | some s => pure s
  | none => throw (.badArgument position)

/-- `io.open(name, 'r')`: a handle is the path it was opened for. -/
def openRead (name : LuaString) : LuaM (Option LuaString) := do
  let fs ← get
  return if (fs (cString name)).readable then some (cString name) else none

/-- `io.open(name, 'w')`: the file is emptied. -/
def openWrite (name : LuaString) : LuaM (Option LuaString) := do
  let fs ← get
  let file := fs (cString name)
  if file.writable then
    set (Function.update fs (cString name) { file with content := some [] })
    return some (cString name)
  else return none

/-- `f:read("*all")`. -/
def readAll (f : LuaString) : LuaM (Option LuaString) := do
  let fs ← get
  return (fs f).content

/-- `f:write(s)`. -/
def write (f s : LuaString) : LuaM Unit := do
  let fs ← get
  set (Function.update fs f
    { fs f with content := some ((fs f).content.getD [] ++ s) })

section Runs

variable {α β : Type} {fs fs' : FileSystem}

@[simp] theorem pure_run (a : α) : (pure a : LuaM α) fs = .ok (a, fs) := by
  rfl

@[simp] theorem throw_run (e : LuaError) :
    (throw e : LuaM α) fs = .error e := by
  rfl

/-- What follows a step that returns. -/
theorem bind_ok
    {p : LuaM α} {q : α → LuaM β} {a : α} (h : p fs = .ok (a, fs')) :
    (p >>= q) fs = q a fs' := by
  simp only [bind, StateT.bind, h, Except.bind]

/-- Nothing follows a step that raises. -/
theorem bind_error
    {p : LuaM α} {q : α → LuaM β} {e : LuaError} (h : p fs = .error e) :
    (p >>= q) fs = .error e := by
  simp only [bind, StateT.bind, h, Except.bind]

theorem checkString_some
    {tostringNumber : ℚ → LuaString} {v : LuaValue} {s : LuaString}
    (position : Nat) (h : v.concatOperand tostringNumber = some s) :
    checkString tostringNumber position v fs = .ok (s, fs) := by
  simp [checkString, h]

theorem checkString_none
    {tostringNumber : ℚ → LuaString} {v : LuaValue}
    (position : Nat) (h : v.concatOperand tostringNumber = none) :
    checkString tostringNumber position v fs =
      .error (.badArgument position) := by
  simp [checkString, h]

theorem openRead_run (name : LuaString) :
    openRead name fs =
      .ok (if (fs (cString name)).readable then some (cString name) else none,
        fs) := by
  rfl

theorem openWrite_run (name : LuaString) :
    openWrite name fs =
      if (fs (cString name)).writable then
        .ok (some (cString name),
          Function.update fs (cString name)
            { fs (cString name) with content := some [] })
      else .ok (none, fs) := by
  unfold openWrite
  cases hw : (fs (cString name)).writable with
  | true =>
      rw [bind_ok rfl]
      simp only [hw, if_true]
      rfl
  | false =>
      rw [bind_ok rfl]
      simp only [hw, Bool.false_eq_true, if_false]
      rfl

theorem readAll_run (f : LuaString) :
    readAll f fs = .ok ((fs f).content, fs) := by
  rfl

theorem write_run (f s : LuaString) :
    write f s fs =
      .ok ((), Function.update fs f
        { fs f with content := some ((fs f).content.getD [] ++ s) }) := by
  rfl

end Runs

end LuaFiles
end Iojxd
