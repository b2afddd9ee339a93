import Mathlib.Data.Nat.Digits.Lemmas
import Mathlib.Tactic

/-!
# Fields of a text

A text is a list of bytes.  `cut` takes what stands before the first separator
and what stands behind it; a field without the separator that was written before
it is read back.  Numbers are written in decimal.
-/

namespace Iojxd
namespace TextFields

universe u

section Cut

variable {α : Type u} [DecidableEq α]

/-- The text before the first separator and the text behind it. -/
def cut (sep : α) : List α → Option (List α × List α)
  | [] => none
  | x :: xs =>
      if x = sep then some ([], xs)
      else (cut sep xs).map fun p => (x :: p.1, p.2)

/-- A field without the separator is read back. -/
theorem cut_append
    {sep : α} {field : List α} (hfield : sep ∉ field) (rest : List α) :
    cut sep (field ++ sep :: rest) = some (field, rest) := by
  induction field with
  | nil => simp [cut]
  | cons x field ih =>
      simp only [List.mem_cons, not_or] at hfield
      have hx : x ≠ sep := Ne.symm hfield.1
      rw [List.cons_append, cut, if_neg hx, ih hfield.2]
      rfl

end Cut

/-! ## Decimal numbers -/

def digit (d : Nat) : UInt8 :=
  UInt8.ofNat (48 + d)

def readDigit (b : UInt8) : Option Nat :=
  if 48 ≤ b.toNat ∧ b.toNat ≤ 57 then some (b.toNat - 48) else none

theorem toNat_digit {d : Nat} (hd : d < 10) : (digit d).toNat = 48 + d := by
  rw [digit, UInt8.toNat_ofNat']
  omega

theorem readDigit_digit {d : Nat} (hd : d < 10) :
    readDigit (digit d) = some d := by
  rw [readDigit, toNat_digit hd, if_pos (by omega)]
  simp

def decimal (n : Nat) : List UInt8 :=
  if n = 0 then [digit 0] else ((Nat.digits 10 n).map digit).reverse

/-- One more digit behind a number. -/
def addDigit (b : UInt8) (v : Option Nat) : Option Nat :=
  v.bind fun v => (readDigit b).map (· + 10 * v)

def readDecimal (text : List UInt8) : Option Nat :=
  if text = [] then none else text.foldl (fun v b => addDigit b v) (some 0)

theorem foldr_addDigit
    {ds : List Nat} (hds : ∀ d ∈ ds, d < 10) :
    (ds.map digit).foldr addDigit (some 0) = some (Nat.ofDigits 10 ds) := by
  induction ds with
  | nil => rfl
  | cons d ds ih =>
      have hd := hds d List.mem_cons_self
      have hrest := ih fun e he => hds e (List.mem_cons_of_mem d he)
      rw [List.map_cons, List.foldr_cons, hrest, Nat.ofDigits_cons]
      simp [addDigit, readDigit_digit hd]

/-- **A number is read back.** -/
theorem readDecimal_decimal (n : Nat) : readDecimal (decimal n) = some n := by
  by_cases hn : n = 0
  · subst hn
    rfl
  · have hne : (Nat.digits 10 n) ≠ [] := Nat.digits_ne_nil_iff_ne_zero.mpr hn
    rw [readDecimal, decimal, if_neg hn, if_neg (by simpa using hne),
      List.foldl_reverse, foldr_addDigit]
    · rw [Nat.ofDigits_digits]
    · intro d hd
      exact Nat.digits_lt_base (by omega) hd

/-- A decimal consists of digits. -/
theorem mem_decimal {n : Nat} {b : UInt8} (hb : b ∈ decimal n) :
    48 ≤ b.toNat ∧ b.toNat ≤ 57 := by
  have hdigit : ∀ d < 10, 48 ≤ (digit d).toNat ∧ (digit d).toNat ≤ 57 := by
    intro d hd
    rw [toNat_digit hd]
    omega
  unfold decimal at hb
  split at hb
  · rw [List.mem_singleton.mp hb]
    exact hdigit 0 (by omega)
  · rw [List.mem_reverse, List.mem_map] at hb
    obtain ⟨d, hd, rfl⟩ := hb
    exact hdigit d (Nat.digits_lt_base (by omega) hd)

end TextFields
end Iojxd
