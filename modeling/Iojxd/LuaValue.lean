import Mathlib.Data.List.TakeWhile
import Mathlib.Data.Rat.Defs
import Mathlib.Tactic

/-!
# Lua strings and values

Lua strings are byte strings.  A value of a reference type (table, function,
userdata, thread) is its identity.  Finite numbers are rationals; how a number
is printed is a parameter wherever it matters.
-/

namespace Iojxd

/-- A Lua string: any sequence of bytes. -/
abbrev LuaString := List UInt8

/-- The byte string of an ASCII literal of the source. -/
def bytes (literal : String) : LuaString :=
  literal.toList.map fun c => UInt8.ofNat c.toNat

/-- `string.sub(s, i, j)` for positive `i` and `j`. -/
def stringSub (s : LuaString) (i j : Nat) : LuaString :=
  (s.drop (i - 1)).take (j + 1 - i)

/-- The Lua string made from a `const char *`: the bytes before the first NUL. -/
def cString (s : LuaString) : LuaString :=
  s.takeWhile fun b => b != 0

theorem stringSub_first (b : UInt8) (s : LuaString) :
    stringSub (b :: s) 1 1 = [b] := by
  simp [stringSub]

/-- Everything from the second byte on, when `j` is at least the length. -/
theorem stringSub_tail
    {s : LuaString} {j : Nat} (h : s.length ≤ j) :
    stringSub s 2 j = s.tail := by
  have hlen : s.tail.length ≤ j + 1 - 2 := by
    rw [List.length_tail]
    omega
  rw [stringSub, List.drop_one, List.take_of_length_le hlen]

theorem length_cString_le (s : LuaString) :
    (cString s).length ≤ s.length :=
  (List.takeWhile_prefix _).length_le

/-- A byte string survives as a C string exactly if it has no NUL. -/
theorem cString_eq_self_iff (s : LuaString) :
    cString s = s ↔ (0 : UInt8) ∉ s := by
  unfold cString
  rw [List.takeWhile_eq_self_iff]
  constructor
  · intro h h0
    simpa using h 0 h0
  · intro h b hb
    have hne : b ≠ 0 := by
      rintro rfl
      exact h hb
    simpa using hne

/-- NULs behind a string do not count. -/
theorem cString_append_zeros (s : LuaString) (n : Nat) :
    cString (s ++ List.replicate n 0) = cString s := by
  induction s with
  | nil => cases n <;> simp [cString, List.replicate_succ]
  | cons b s ih =>
      unfold cString at ih ⊢
      by_cases hb : b = 0
      · simp [hb]
      · simp [hb, ih]

/-- A Lua value. -/
inductive LuaValue where
  | nil
  | boolean (b : Bool)
  | number (q : ℚ)
  | string (s : LuaString)
  | table (ref : Nat)
  | function (ref : Nat)
  | userdata (ref : Nat)
  | thread (ref : Nat)
deriving DecidableEq

namespace LuaValue

/-- The string of an operand of `..`: strings and numbers have one, on every
other type the operator raises an error. -/
def concatOperand (tostringNumber : ℚ → LuaString) :
    LuaValue → Option LuaString
  | .string s => some s
  | .number q => some (tostringNumber q)
  | _ => none

/-- The types that `..` accepts. -/
def isStringOrNumber : LuaValue → Bool
  | .string _ => true
  | .number _ => true
  | _ => false

theorem concatOperand_isSome
    (tostringNumber : ℚ → LuaString) (v : LuaValue) :
    (v.concatOperand tostringNumber).isSome = v.isStringOrNumber := by
  cases v <;> rfl

end LuaValue

end Iojxd
