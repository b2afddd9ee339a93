import Mathlib.Data.Finset.Basic
import Mathlib.Tactic

/-!
# Descriptor tables and who closes what

A table maps numbers to the files they name.  Files are named once: a file
that was opened and closed is never opened again, while a number may be reused
for other files.  Holders remember a number and the file it was opened for.

The ledger relates the table to the holders: as long as every file is closed by
a holder of it, a file that nobody has closed is named by the number its
holders remember, and a closed file by no number.  So the first close of a file
always hits that file, and a later one never does.
-/

namespace Iojxd
namespace DescriptorLedger

universe u v

variable {ν : Type u} {ι : Type v}

/-- The table agrees with the holders and with the files closed so far; `used`
are the files that were ever opened. -/
structure Ledger (table : ν → Option ι) (held : ν → ι → Prop)
    (closed used : ι → Prop) : Prop where
  own : ∀ {n o}, held n o → ¬ closed o → table n = some o
  gone : ∀ {n o}, closed o → table n ≠ some o
  inj : ∀ {n n' o}, table n = some o → table n' = some o → n = n'
  heldUsed : ∀ {n o}, held n o → used o
  closedUsed : ∀ {o}, closed o → used o
  tableUsed : ∀ {n o}, table n = some o → used o

namespace Ledger

variable {table : ν → Option ι} {held held' : ν → ι → Prop}
variable {closed closed' used used' : ι → Prop}

/-- A holder names its file exactly as long as nobody has closed that file. -/
theorem names_iff
    (h : Ledger table held closed used) {n : ν} {o : ι} (hn : held n o) :
    table n = some o ↔ ¬ closed o :=
  ⟨fun hname hclosed => h.gone hclosed hname, h.own hn⟩

/-- Holders may be forgotten, and a file may get more holders with the number
that others remember. -/
theorem mono
    (h : Ledger table held closed used)
    (hheld : ∀ n o, held' n o → held n o) :
    Ledger table held' closed used where
  own hn hopen := h.own (hheld _ _ hn) hopen
  gone := h.gone
  inj := h.inj
  heldUsed hn := h.heldUsed (hheld _ _ hn)
  closedUsed := h.closedUsed
  tableUsed := h.tableUsed

/-- More files may count as used. -/
theorem weaken
    (h : Ledger table held closed used) (hused : ∀ o, used o → used' o) :
    Ledger table held closed used' where
  own := h.own
  gone := h.gone
  inj := h.inj
  heldUsed hn := hused _ (h.heldUsed hn)
  closedUsed hc := hused _ (h.closedUsed hc)
  tableUsed ht := hused _ (h.tableUsed ht)

variable [DecidableEq ν]

/-- A new file is opened under a free number. -/
theorem openAt
    (h : Ledger table held closed used) {n : ν} {o : ι}
    (hfree : table n = none) (hnew : ¬ used o) (hused : ∀ p, used p → used' p)
    (hfresh : used' o)
    (hheld : ∀ m p, held' m p → held m p ∨ m = n ∧ p = o) :
    Ledger (Function.update table n (some o)) held' closed used' where
  own := by
    intro m p hm hopen
    rcases hheld m p hm with hold | ⟨rfl, rfl⟩
    · have hname := h.own hold hopen
      have hne : m ≠ n := by
        rintro rfl
        rw [hfree] at hname
        cases hname
      rw [Function.update_of_ne hne]
      exact hname
    · exact Function.update_self ..
  gone := by
    intro m p hclosed hname
    by_cases hm : m = n
    · subst hm
      rw [Function.update_self] at hname
      cases hname
      exact hnew (h.closedUsed hclosed)
    · rw [Function.update_of_ne hm] at hname
      exact h.gone hclosed hname
  inj := by
    intro m m' p hname hname'
    by_cases hm : m = n
    · subst hm
      rw [Function.update_self] at hname
      cases hname
      by_contra hne
      rw [Function.update_of_ne (Ne.symm hne)] at hname'
      exact hnew (h.tableUsed hname')
    · rw [Function.update_of_ne hm] at hname
      by_cases hm' : m' = n
      · subst hm'
        rw [Function.update_self] at hname'
        cases hname'
        exact absurd (h.tableUsed hname) hnew
      · rw [Function.update_of_ne hm'] at hname'
        exact h.inj hname hname'
  heldUsed := by
    intro m p hm
    rcases hheld m p hm with hold | ⟨rfl, rfl⟩
    · exact hused p (h.heldUsed hold)
    · exact hfresh
  closedUsed hc := hused _ (h.closedUsed hc)
  tableUsed := by
    intro m p hname
    by_cases hm : m = n
    · subst hm
      rw [Function.update_self] at hname
      cases hname
      exact hfresh
    · rw [Function.update_of_ne hm] at hname
      exact hused p (h.tableUsed hname)

/-- After a close, what is still named is named by other numbers. -/
theorem of_update_none
    {n m : ν} {p : ι} (h : Function.update table n none m = some p) :
    m ≠ n ∧ table m = some p := by
  by_cases hm : m = n
  · subst hm
    rw [Function.update_self] at h
    cases h
  · rw [Function.update_of_ne hm] at h
    exact ⟨hm, h⟩

/-- A holder closes its number, which names its file. -/
theorem closeAt
    (h : Ledger table held closed used) {n : ν} {o : ι}
    (hname : table n = some o)
    (hclosed : ∀ p, closed' p ↔ closed p ∨ p = o) :
    Ledger (Function.update table n none) held closed' used where
  own := by
    intro m p hm hopen
    have hopen' : ¬ closed p := fun hc => hopen ((hclosed p).mpr (Or.inl hc))
    have hm' := h.own hm hopen'
    have hne : m ≠ n := by
      rintro rfl
      rw [hm', Option.some.injEq] at hname
      exact hopen ((hclosed p).mpr (Or.inr hname))
    rw [Function.update_of_ne hne]
    exact hm'
  gone := by
    intro m p hc hm
    obtain ⟨hne, hm'⟩ := of_update_none hm
    rcases (hclosed p).mp hc with hold | rfl
    · exact h.gone hold hm'
    · exact hne (h.inj hm' hname)
  inj hm hm' := h.inj (of_update_none hm).2 (of_update_none hm').2
  heldUsed := h.heldUsed
  closedUsed := by
    intro p hc
    rcases (hclosed p).mp hc with hold | rfl
    · exact h.closedUsed hold
    · exact h.tableUsed hname
  tableUsed hm := h.tableUsed (of_update_none hm).2

end Ledger

end DescriptorLedger
end Iojxd
