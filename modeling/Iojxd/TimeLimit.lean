import Iojxd.FloatRounding
import Iojxd.JudgeSettings

/-!
# The time limit of a judge call

`evaluate_child_setup` of `oj/iojxd.lua` splits `args.time`, milliseconds, into
seconds and microseconds and arms `ITIMER_PROF` with them.  `judge` makes no
check on the number.

A Lua number is a double, and every arithmetic operation rounds its exact result
to one.  The sign of zero is left out.  `tv_sec` and `tv_usec` are 64-bit, and a
double outside their range becomes the least of them.
-/

namespace Iojxd
namespace TimeLimit

open Judge

/-- IEEE 754 double precision. -/
def binary64 : BinaryFormat where
  precision := 53
  minExponent := -1074
  maxExponent := 971
  precision_pos := by decide
  minExponent_le := by decide
  maxExponent_nonneg := by decide

/-- A finite double. -/
abbrev Double := { q : ℚ // binary64.IsNumber q }

/-- A Lua number. -/
inductive LuaNumber where
  | finite (x : Double)
  | infinite (negative : Bool)
  | nan

namespace LuaNumber

/-- The double for the exact result of an operation. -/
def ofRat (q : ℚ) : LuaNumber :=
  if h : |binary64.round q| < 2 ^ (binary64.maxExponent + binary64.precision) then
    .finite ⟨binary64.round q, BinaryFormat.isNumber_round h⟩
  else .infinite (decide (q < 0))

/-- `x / 1000`. -/
def div1000 : LuaNumber → LuaNumber
  | .finite x => ofRat (x / 1000)
  | x => x

/-- `x * 1000`. -/
def mul1000 : LuaNumber → LuaNumber
  | .finite x => ofRat (x * 1000)
  | x => x

/-- `math.floor(x)`. -/
def floor : LuaNumber → LuaNumber
  | .finite x => .finite ⟨⌊(x : ℚ)⌋, x.2.floor⟩
  | x => x

/-- `x - y`. -/
def sub : LuaNumber → LuaNumber → LuaNumber
  | .finite x, .finite y => ofRat (x - y)
  | .finite _, .infinite negative => .infinite !negative
  | .infinite negative, .finite _ => .infinite negative
  | .infinite negative, .infinite negative' =>
      if negative = negative' then .nan else .infinite negative
  | _, _ => .nan

/-- `x % 1000`, which is `x - math.floor(x / 1000) * 1000`. -/
def mod1000 (x : LuaNumber) : LuaNumber :=
  x.sub x.div1000.floor.mul1000

end LuaNumber

/-- Conversion of a rational to an integer towards zero. -/
def truncate (q : ℚ) : ℤ :=
  if 0 ≤ q then ⌊q⌋ else ⌈q⌉

/-- The range of a C `long`. -/
def InLong (z : ℤ) : Prop :=
  -9223372036854775808 ≤ z ∧ z < 9223372036854775808

instance (z : ℤ) : Decidable (InLong z) :=
  inferInstanceAs (Decidable (_ ∧ _))

/-- Conversion of a number to a C `long`. -/
def toLong : LuaNumber → ℤ
  | .finite x => if InLong (truncate x) then truncate x else -9223372036854775808
  | _ => -9223372036854775808

/-- The field `it_value` of a `struct itimerval`. -/
structure Timeval where
  sec : ℤ
  usec : ℤ
deriving DecidableEq

/-- The value that `evaluate_child_setup` gives to `setitimer`. -/
def evaluateChildSetup (time : LuaNumber) : Timeval :=
  let u0 := time.div1000.floor
  let u1 := time.mod1000.mul1000
  { sec := toLong u0
    usec := toLong u1 }

/-- What `setitimer(2)` does. -/
inductive Itimer where
  /-- EINVAL: no timer is set -/
  | rejected
  | disarmed
  | armed (microseconds : ℤ)
deriving DecidableEq

def setitimer (v : Timeval) : Itimer :=
  if v.sec < 0 ∨ v.usec < 0 ∨ 1000000 ≤ v.usec then .rejected
  else if v.sec = 0 ∧ v.usec = 0 then .disarmed
  else .armed (v.sec * 1000000 + v.usec)

/-- A valid positive value that stands for the given number of microseconds. -/
structure ArmsWith (v : Timeval) (microseconds : ℤ) : Prop where
  secNonneg : 0 ≤ v.sec
  usecNonneg : 0 ≤ v.usec
  usecLt : v.usec < 1000000
  total : v.sec * 1000000 + v.usec = microseconds
  positive : ¬ (v.sec = 0 ∧ v.usec = 0)

/-- These are the values with which the call arms the timer. -/
theorem setitimer_armed_iff (v : Timeval) (microseconds : ℤ) :
    setitimer v = .armed microseconds ↔ ArmsWith v microseconds := by
  unfold setitimer
  constructor
  · intro h
    split at h
    · cases h
    · rename_i hvalid
      split at h
      · cases h
      · rename_i hpos
        cases h
        exact ⟨by omega, by omega, by omega, rfl, hpos⟩
  · rintro ⟨hsec, husec, hlt, rfl, hpos⟩
    rw [if_neg (by omega), if_neg hpos]

/-! ## The exact split -/

/-- The milliseconds beyond the whole seconds. -/
def rest (q : ℚ) : ℚ :=
  q - ⌊q / 1000⌋ * 1000

theorem rest_nonneg (q : ℚ) : 0 ≤ rest q := by
  have hle := Int.floor_le (q / 1000)
  unfold rest
  linarith

theorem rest_lt (q : ℚ) : rest q < 1000 := by
  have hlt := Int.lt_floor_add_one (q / 1000)
  unfold rest
  linarith

/-- The microseconds of a number, by the seconds and the rest. -/
theorem floor_split (q : ℚ) :
    ⌊q / 1000⌋ * 1000000 + ⌊rest q * 1000⌋ = ⌊1000 * q⌋ := by
  have hshift : rest q * 1000 =
      1000 * q - ((⌊q / 1000⌋ * 1000000 : ℤ) : ℚ) := by
    unfold rest
    push_cast
    ring
  rw [hshift, Int.floor_sub_intCast]
  ring

/-- The rest lies below one second. -/
theorem floor_rest_bounds (q : ℚ) :
    0 ≤ ⌊rest q * 1000⌋ ∧ ⌊rest q * 1000⌋ < 1000000 := by
  have hnonneg := rest_nonneg q
  have hlt := rest_lt q
  constructor
  · apply Int.floor_nonneg.mpr
    linarith
  · rw [Int.floor_lt]
    push_cast
    linarith

/-- Seconds and microseconds are determined by their sum. -/
theorem split_unique
    {a b c d : ℤ} (hb : 0 ≤ b) (hb' : b < 1000000)
    (hd : 0 ≤ d) (hd' : d < 1000000)
    (h : a * 1000000 + b = c * 1000000 + d) :
    a = c ∧ b = d := by
  constructor <;> omega

/-! ## Conversions -/

theorem truncate_intCast (z : ℤ) :
    truncate (z : ℚ) = z := by
  unfold truncate
  split
  · exact Int.floor_intCast z
  · exact Int.ceil_intCast z

theorem truncate_of_nonneg {q : ℚ} (h : 0 ≤ q) :
    truncate q = ⌊q⌋ :=
  if_pos h

theorem toLong_of_inLong {x : Double} (h : InLong (truncate x)) :
    toLong (.finite x) = truncate x :=
  if_pos h

/-- A field that is not negative holds a finite number as it was converted. -/
theorem finite_of_toLong {x : LuaNumber} (h : 0 ≤ toLong x) :
    ∃ d : Double, x = .finite d ∧ InLong (truncate d) ∧
      toLong x = truncate d := by
  cases x with
  | finite d =>
      by_cases hin : InLong (truncate d)
      · exact ⟨d, rfl, hin, toLong_of_inLong hin⟩
      · simp [toLong, hin] at h
  | infinite negative => simp [toLong] at h
  | nan => simp [toLong] at h

/-- Results of moderate size are finite. -/
theorem ofRat_eq {q : ℚ} (h : |q| ≤ 2 ^ 100) :
    ∃ d : Double, LuaNumber.ofRat q = .finite d ∧ (d : ℚ) = binary64.round q := by
  have hround := binary64.abs_round_le q
  have hrange : |binary64.round q| <
      2 ^ (binary64.maxExponent + binary64.precision) := by
    calc |binary64.round q| < 2 ^ (102 : ℤ) := by norm_num at h ⊢; linarith
      _ ≤ 2 ^ (binary64.maxExponent + binary64.precision) :=
          zpow_le_zpow_right₀ (by norm_num) (by decide)
  exact ⟨⟨_, BinaryFormat.isNumber_round hrange⟩, dif_pos hrange, rfl⟩

theorem ofRat_finite {q : ℚ} {d : Double}
    (h : LuaNumber.ofRat q = .finite d) :
    (d : ℚ) = binary64.round q := by
  unfold LuaNumber.ofRat at h
  split at h
  · cases h
    rfl
  · cases h

/-- Seconds that are not negative are the integer part of the quotient. -/
theorem sec_of_nonneg
    {q : Double} (h : 0 ≤ (evaluateChildSetup (.finite q)).sec) :
    InLong ⌊binary64.round (q / 1000)⌋ ∧
      (evaluateChildSetup (.finite q)).sec = ⌊binary64.round (q / 1000)⌋ := by
  obtain ⟨d, hd, hin, hsec⟩ := finite_of_toLong h
  change (LuaNumber.ofRat (q / 1000)).floor = .finite d at hd
  cases hquot : LuaNumber.ofRat (q / 1000) with
  | finite a =>
      rw [hquot] at hd
      cases hd
      change InLong (truncate (⌊(a : ℚ)⌋ : ℤ)) at hin
      change _ = truncate (⌊(a : ℚ)⌋ : ℤ) at hsec
      rw [ofRat_finite hquot, truncate_intCast] at hin hsec
      exact ⟨hin, hsec⟩
  | infinite negative => simp [hquot, LuaNumber.floor] at hd
  | nan => simp [hquot, LuaNumber.floor] at hd

/-- The quotient of a number of moderate size. -/
theorem floor_div1000
    {q : Double} (h : |(q : ℚ)| ≤ 2 ^ 90) :
    ∃ d : Double, (LuaNumber.finite q).div1000.floor = .finite d ∧
      (d : ℚ) = ⌊binary64.round (q / 1000)⌋ := by
  have hsmall : |(q : ℚ) / 1000| ≤ 2 ^ 100 := by
    rw [abs_div, abs_of_pos (by norm_num : (0 : ℚ) < 1000)]
    have := abs_nonneg (q : ℚ)
    linarith
  obtain ⟨a, ha, hround⟩ := ofRat_eq hsmall
  refine ⟨⟨⌊(a : ℚ)⌋, a.2.floor⟩, ?_, ?_⟩
  · rw [LuaNumber.div1000, ha]
    rfl
  · rw [← hround]

/-- The microseconds are rounded three times: the product of the seconds, the
difference and the product of the rest. -/
theorem usec_double
    {q : Double} {k : ℤ} (hnonneg : 0 ≤ (q : ℚ)) (hlt : (q : ℚ) < 2 ^ 73)
    (hquot : ⌊binary64.round (q / 1000)⌋ = k)
    (hk : 0 ≤ k) (hkq : (k : ℚ) * 1000 ≤ q) :
    ∃ d : Double, (LuaNumber.finite q).mod1000.mul1000 = .finite d ∧
      (d : ℚ) = binary64.round
        (binary64.round (q - binary64.round (k * 1000)) * 1000) := by
  have hk0 : (0 : ℚ) ≤ k := by exact_mod_cast hk
  obtain ⟨a, ha, haval⟩ := floor_div1000 (q := q) (by
    rw [abs_of_nonneg hnonneg]
    linarith)
  rw [hquot] at haval
  obtain ⟨b, hb, hbval⟩ := ofRat_eq (q := (a : ℚ) * 1000) (by
    rw [haval, abs_of_nonneg (by linarith)]
    linarith)
  rw [haval] at hbval
  have hbabs := binary64.abs_round_le (k * 1000)
  rw [abs_of_nonneg (by linarith : (0 : ℚ) ≤ k * 1000), ← hbval, abs_le] at hbabs
  have hsub : |(q : ℚ) - b| ≤ 2 ^ 76 := by
    rw [abs_le]
    constructor <;> linarith
  obtain ⟨c, hc, hcval⟩ := ofRat_eq (hsub.trans (by norm_num))
  have hcabs := binary64.abs_round_le (q - b)
  rw [← hcval] at hcabs
  obtain ⟨d, hd, hdval⟩ := ofRat_eq (q := (c : ℚ) * 1000) (by
    rw [abs_mul, abs_of_pos (by norm_num : (0 : ℚ) < 1000)]
    linarith)
  refine ⟨d, ?_, by rw [hdval, hcval, hbval]⟩
  rw [LuaNumber.mod1000, ha, LuaNumber.mul1000, hb, LuaNumber.sub, hc,
    LuaNumber.mul1000, hd]

/-! ## Which times carry -/

/-- The split of a double is exact: the rest of the milliseconds, times 1000, is
not carried up to the next integer.  The other two conditions hold below 2^53:
the quotient is not carried up either, and the whole seconds, in milliseconds,
are a double. -/
structure SplitExact (q : ℚ) : Prop where
  seconds : q / 1000 < 2 ^ 53 → ¬ binary64.Carries (q / 1000)
  whole : binary64.IsNumber (⌊q / 1000⌋ * 1000)
  microseconds : ¬ binary64.Carries (rest q * 1000)

theorem exponent_nonpos {x : ℚ} (h : |x| < 2 ^ 53) :
    binary64.exponent x ≤ 0 := by
  by_cases hx : x = 0
  · subst hx
    rw [BinaryFormat.exponent, abs_zero, Int.log_zero_right]
    decide
  · exact binary64.exponent_le_of_abs_lt hx (by decide) (by exact_mod_cast h)

theorem exponent_neg {x : ℚ} (h : |x| < 2 ^ 52) :
    binary64.exponent x < 0 := by
  by_cases hx : x = 0
  · subst hx
    rw [BinaryFormat.exponent, abs_zero, Int.log_zero_right]
    decide
  · have hle := binary64.exponent_le_of_abs_lt (e := -1) hx (by decide)
      (by exact_mod_cast h)
    omega

/-- Large doubles are multiples of large powers of two. -/
theorem exists_mul_of_le
    {q : Double} {j : ℕ} (h : (2 : ℚ) ^ (52 + j) ≤ q) :
    ∃ n : ℤ, (q : ℚ) = n * 2 ^ j := by
  obtain ⟨m, hm⟩ := q.2.exists_mul_spacing
  have habs : (q : ℚ) ≤ |(q : ℚ)| := le_abs_self _
  have hexp : (j : ℤ) ≤ binary64.exponent q := by
    apply binary64.le_exponent_of_le_abs
    have hsum : (j : ℤ) + (binary64.precision : ℕ) - 1 = ((52 + j : ℕ) : ℤ) := by
      change (j : ℤ) + 53 - 1 = _
      push_cast
      ring
    rw [hsum, zpow_natCast]
    exact h.trans habs
  obtain ⟨n, hn⟩ := BinaryFormat.exists_mul_zpow_eq m hexp
  refine ⟨n, ?_⟩
  rw [zpow_natCast] at hn
  rw [← hn]
  exact hm

/-- No quotient of a double by 1000 lies half way between integers where only
integers are doubles. -/
theorem quotient_not_half
    {q : Double} (h : (2 : ℚ) ^ 52 ≤ q / 1000) (n : ℤ) :
    (q : ℚ) / 1000 + 1 / 2 ≠ n := by
  obtain ⟨m, hm⟩ := exists_mul_of_le (q := q) (j := 9)
    (by norm_num at h ⊢; linarith)
  rw [hm]
  intro heq
  have hint : ((128 * m + 125 : ℤ) : ℚ) = ((250 * n : ℤ) : ℚ) := by
    push_cast
    linarith
  have hint' : 128 * m + 125 = 250 * n := by exact_mod_cast hint
  omega

/-- Where the quotient has a fraction, its integer part is right unless it is
carried. -/
theorem floor_quotient_iff
    {q : Double} (hnonneg : 0 ≤ (q : ℚ)) (hlt : (q : ℚ) / 1000 < 2 ^ 53) :
    ⌊binary64.round (q / 1000)⌋ = ⌊(q : ℚ) / 1000⌋ ↔
      ¬ binary64.Carries (q / 1000) := by
  have habs : |(q : ℚ) / 1000| = q / 1000 :=
    abs_of_nonneg (div_nonneg hnonneg (by norm_num))
  apply BinaryFormat.floor_round_eq_iff
  · apply exponent_nonpos
    rwa [habs]
  · by_cases hsmall : (q : ℚ) / 1000 < 2 ^ 52
    · left
      apply exponent_neg
      rwa [habs]
    · right
      exact quotient_not_half (not_lt.mp hsmall)

/-- An integer is a double if a thousand times it is. -/
theorem isNumber_of_mul1000
    {k : ℤ} (hk : 2 ^ 53 ≤ k) (h : binary64.IsNumber (k * 1000)) :
    binary64.IsNumber k := by
  obtain ⟨m, e, hm, -, hmax, heq⟩ := h
  have hkq : (2 : ℚ) ^ 53 ≤ k := by exact_mod_cast hk
  have hpow : (0 : ℚ) < 2 ^ e := zpow_pos (by norm_num) e
  have hmq : (m : ℚ) ≤ 2 ^ 53 := by
    have hle : m ≤ 2 ^ 53 := (le_abs_self m).trans hm.le
    exact_mod_cast hle
  have hlarge : (2 : ℚ) ^ (3 : ℤ) < 2 ^ e := by
    have hmul : (m : ℚ) * 2 ^ e ≤ 2 ^ 53 * 2 ^ e :=
      mul_le_mul_of_nonneg_right hmq hpow.le
    norm_num at hkq hmul ⊢
    linarith
  have he : 3 < e := (zpow_lt_zpow_iff_right₀ (by norm_num : (1 : ℚ) < 2)).mp hlarge
  obtain ⟨j, rfl⟩ := Int.le.dest he.le
  have hint : k * 1000 = m * (8 * 2 ^ j) := by
    rw [zpow_add₀ (by norm_num), zpow_natCast] at heq
    have hcast : ((k * 1000 : ℤ) : ℚ) = ((m * (8 * 2 ^ j) : ℤ) : ℚ) := by
      push_cast
      rw [heq]
      norm_num
    exact_mod_cast hcast
  -- 125 divides the integer, and 8 the power
  have hdvd : (125 : ℤ) ∣ m := by
    have hprod : (125 : ℤ) ∣ m * 2 ^ j := ⟨k, by linarith⟩
    have hcoprime : IsCoprime (125 : ℤ) (2 ^ j) :=
      IsCoprime.pow_right (by norm_num [Int.isCoprime_iff_gcd_eq_one])
    exact hcoprime.dvd_of_dvd_mul_right hprod
  obtain ⟨m', rfl⟩ := hdvd
  refine ⟨m', j, ?_, by change (-1074 : ℤ) ≤ j; omega, by omega, ?_⟩
  · rw [abs_lt] at hm ⊢
    omega
  · have hk' : k = m' * 2 ^ j := by linarith
    rw [hk', zpow_natCast]
    push_cast
    rfl

/-- Where only integers are doubles, the quotient is rounded to its integer part
if that is a double. -/
theorem floor_quotient_large
    {q : Double} (hge : 2 ^ 53 ≤ (q : ℚ) / 1000)
    (hwhole : binary64.IsNumber (⌊(q : ℚ) / 1000⌋ * 1000)) :
    ⌊binary64.round (q / 1000)⌋ = ⌊(q : ℚ) / 1000⌋ := by
  have hk : 2 ^ 53 ≤ ⌊(q : ℚ) / 1000⌋ := by
    apply Int.le_floor.mpr
    exact_mod_cast hge
  have hround := (isNumber_of_mul1000 hk hwhole).round_eq_of_floor (x := q / 1000)
    (by omega)
    (binary64.le_exponent_of_le_abs (by
      have habs := le_abs_self ((q : ℚ) / 1000)
      change (2 : ℚ) ^ (53 : ℤ) ≤ _
      exact_mod_cast hge.trans habs))
    (Int.floor_le _) (Int.lt_floor_add_one _)
  rw [hround, Int.floor_intCast]

/-- The last product: right if the whole seconds are a double and the product is
not carried. -/
theorem truncate_product
    {q : Double} (hnonneg : 0 ≤ (q : ℚ))
    (hwhole : binary64.IsNumber (⌊(q : ℚ) / 1000⌋ * 1000)) :
    truncate (binary64.round
        (binary64.round (q - binary64.round (⌊(q : ℚ) / 1000⌋ * 1000)) * 1000)) =
      ⌊rest q * 1000⌋ ↔
    ¬ binary64.Carries (rest q * 1000) := by
  have hrest0 := rest_nonneg q
  have hrest1 := rest_lt q
  have hk : 0 ≤ ⌊(q : ℚ) / 1000⌋ :=
    Int.floor_nonneg.mpr (div_nonneg hnonneg (by norm_num))
  have hcast : rest q = q - ((⌊(q : ℚ) / 1000⌋ * 1000 : ℤ) : ℚ) := by
    unfold rest
    push_cast
    rfl
  have hnumber : binary64.IsNumber (rest q) := by
    rw [hcast]
    apply q.2.sub_intCast
    · omega
    · rw [← hcast]
      exact hrest0
    · rw [← hcast]
      change rest q < 2 ^ 53
      linarith
  have hsub : (q : ℚ) - ⌊(q : ℚ) / 1000⌋ * 1000 = rest q := rfl
  have hexp : binary64.exponent (rest q * 1000) < 0 := by
    apply exponent_neg
    rw [abs_of_nonneg (by linarith)]
    linarith
  have hround0 : (0 : ℚ) ≤ binary64.round (rest q * 1000) := by
    exact_mod_cast BinaryFormat.intCast_le_round (n := 0) hexp.le
      (by push_cast; linarith)
  rw [hwhole.round_eq, hsub, hnumber.round_eq, truncate_of_nonneg hround0]
  exact BinaryFormat.floor_round_eq_iff hexp.le (Or.inl hexp)

/-- Without it the difference is off by a whole number of milliseconds. -/
theorem truncate_product_ne
    {q : Double} (hnonneg : 0 ≤ (q : ℚ)) (hlt : (q : ℚ) < 2 ^ 73)
    (hwhole : ¬ binary64.IsNumber (⌊(q : ℚ) / 1000⌋ * 1000)) :
    truncate (binary64.round
        (binary64.round (q - binary64.round (⌊(q : ℚ) / 1000⌋ * 1000)) * 1000)) ≠
      ⌊rest q * 1000⌋ := by
  have hrest0 := rest_nonneg q
  have hrest1 := rest_lt q
  have hk : 0 ≤ ⌊(q : ℚ) / 1000⌋ :=
    Int.floor_nonneg.mpr (div_nonneg hnonneg (by norm_num))
  have hsub : rest q = q - ⌊(q : ℚ) / 1000⌋ * 1000 := rfl
  generalize ⌊(q : ℚ) / 1000⌋ = k at *
  have hk0 : (0 : ℚ) ≤ k * 1000 := by
    have : (0 : ℚ) ≤ k := by exact_mod_cast hk
    linarith
  -- an integer that is no double is large, and so is the time
  have hlarge : (2 : ℚ) ^ 53 ≤ k * 1000 := by
    by_contra hsmall
    apply hwhole
    have hcast : (k : ℚ) * 1000 = ((k * 1000 : ℤ) : ℚ) := by push_cast; rfl
    rw [hcast]
    apply BinaryFormat.isNumber_intCast
    rw [abs_of_nonneg (by exact_mod_cast hk0)]
    change k * 1000 < 2 ^ 53
    exact_mod_cast not_le.mp hsmall
  obtain ⟨n, hn⟩ := exists_mul_of_le (q := q) (j := 0) (by
    norm_num at hlarge ⊢
    linarith)
  rw [pow_zero, mul_one] at hn
  -- the product is rounded to an integer near it
  have hexp : 0 ≤ binary64.exponent (k * 1000) := by
    apply binary64.le_exponent_of_le_abs
    rw [abs_of_nonneg hk0]
    change (2 : ℚ) ^ (52 : ℤ) ≤ _
    norm_num at hlarge ⊢
    linarith
  obtain ⟨p, hp⟩ : ∃ p : ℤ, binary64.round (k * 1000) = p := by
    obtain ⟨p, hp⟩ := BinaryFormat.exists_mul_zpow_eq
      (roundHalfEven (k * 1000 / binary64.spacing (k * 1000))) hexp
    rw [zpow_zero, mul_one] at hp
    exact ⟨p, hp⟩
  have hnear := binary64.abs_round_sub_le (k * 1000)
  have hspacing : binary64.spacing (k * 1000) ≤ 2 ^ 20 := by
    have hle : binary64.exponent (k * 1000) ≤ 20 := by
      apply binary64.exponent_le_of_abs_lt
      · linarith
      · decide
      · rw [abs_of_nonneg hk0]
        change _ < (2 : ℚ) ^ (73 : ℤ)
        norm_num at hlt ⊢
        linarith
    calc binary64.spacing (k * 1000) ≤ 2 ^ (20 : ℤ) :=
          zpow_le_zpow_right₀ (by norm_num) hle
      _ = 2 ^ 20 := by norm_num
  rw [hp, abs_le] at hnear
  have hdiff : (q : ℚ) - p = ((n - p : ℤ) : ℚ) := by
    rw [hn]
    push_cast
    rfl
  have hbound : |n - p| * 1000 < 2 ^ 53 := by
    have hq : |((n - p : ℤ) : ℚ)| < 2 ^ 21 := by
      rw [← hdiff, abs_lt]
      norm_num at hspacing ⊢
      constructor <;> linarith
    have hz : |n - p| < 2 ^ 21 := by exact_mod_cast hq
    omega
  have hfirst : binary64.round ((n - p : ℤ) : ℚ) = ((n - p : ℤ) : ℚ) := by
    apply BinaryFormat.IsNumber.round_eq
    apply BinaryFormat.isNumber_intCast
    change |n - p| < 2 ^ 53
    omega
  have hsecond : binary64.round (((n - p) * 1000 : ℤ) : ℚ) =
      (((n - p) * 1000 : ℤ) : ℚ) := by
    apply BinaryFormat.IsNumber.round_eq
    apply BinaryFormat.isNumber_intCast
    rw [abs_mul]
    exact hbound
  have hprod : ((n - p : ℤ) : ℚ) * 1000 = (((n - p) * 1000 : ℤ) : ℚ) := by
    push_cast
    rfl
  have hrest : rest q * 1000 = (((n - k * 1000) * 1000 : ℤ) : ℚ) := by
    rw [hsub, hn]
    push_cast
    rfl
  rw [hp, hdiff, hfirst, hprod, hsecond, truncate_intCast, hrest,
    Int.floor_intCast]
  intro heq
  apply hwhole
  have hpk : p = k * 1000 := by omega
  have hval : binary64.round (k * 1000) = k * 1000 := by
    rw [hp, hpk]
    push_cast
    rfl
  rw [← hval]
  apply BinaryFormat.isNumber_round
  rw [hval, abs_of_nonneg hk0]
  calc (k : ℚ) * 1000 < 2 ^ (73 : ℤ) := by norm_num at hlt ⊢; linarith
    _ ≤ 2 ^ (binary64.maxExponent + binary64.precision) :=
        zpow_le_zpow_right₀ (by norm_num) (by decide)

/-- Division by 1000 makes the spacing finer by more than 1000 / 2. -/
theorem spacing_div1000 {q : ℚ} (h : 1 ≤ 1000 * q) :
    binary64.spacing (q / 1000) * 512 ≤ binary64.spacing q := by
  have hpos : 0 < q := by linarith
  have hlow : (-62 : ℤ) ≤ binary64.exponent q := by
    apply binary64.le_exponent_of_le_abs
    rw [abs_of_pos hpos]
    change (2 : ℚ) ^ (-10 : ℤ) ≤ q
    norm_num
    linarith
  have hexp : binary64.exponent (q / 1000) ≤ binary64.exponent q - 9 := by
    apply binary64.exponent_le_of_abs_lt
    · positivity
    · change (-1074 : ℤ) ≤ _
      omega
    · have habs := binary64.abs_lt_two_zpow q
      have hsum : binary64.exponent q - 9 + (binary64.precision : ℕ) =
          binary64.exponent q + (binary64.precision : ℕ) + -9 := by
        ring
      rw [abs_of_pos hpos] at habs
      rw [abs_of_pos (by positivity), hsum, zpow_add₀ (by norm_num)]
      norm_num
      linarith
  calc binary64.spacing (q / 1000) * 512
      ≤ 2 ^ (binary64.exponent q - 9) * 512 :=
        mul_le_mul_of_nonneg_right
          (zpow_le_zpow_right₀ (by norm_num) hexp) (by norm_num)
    _ = binary64.spacing q := by
        rw [BinaryFormat.spacing, zpow_sub₀ (by norm_num)]
        norm_num

/-- The quotient of a double below 2^53 is never carried. -/
theorem not_carries_quotient
    {q : Double} (hmin : 1 ≤ 1000 * (q : ℚ)) (hlt : (q : ℚ) < 2 ^ 53) :
    ¬ binary64.Carries (q / 1000) := by
  have hspacing := spacing_div1000 hmin
  have hpos := binary64.spacing_pos q
  have hexp : binary64.exponent q ≤ 0 := by
    apply exponent_nonpos
    rwa [abs_of_pos (by linarith)]
  have hnext := Int.lt_floor_add_one ((q : ℚ) / 1000)
  rw [BinaryFormat.carries_iff]
  push_cast
  generalize ⌊(q : ℚ) / 1000⌋ = k at *
  -- the distance to the next second is a multiple of the spacing
  obtain ⟨m, hm⟩ := q.2.exists_mul_spacing
  obtain ⟨n, hn⟩ := BinaryFormat.exists_mul_zpow_eq ((k + 1) * 1000) hexp
  rw [zpow_zero, mul_one] at hn
  change _ = (n : ℚ) * binary64.spacing q at hn
  have hdist : ((k : ℚ) + 1) * 1000 - q = ((n - m : ℤ) : ℚ) * binary64.spacing q := by
    push_cast at hn ⊢
    rw [hn]
    linarith
  have hdistPos : 0 < ((n - m : ℤ) : ℚ) * binary64.spacing q := by
    rw [← hdist]
    linarith
  have hone : (1 : ℚ) ≤ ((n - m : ℤ) : ℚ) := by
    have hcast : (0 : ℚ) < ((n - m : ℤ) : ℚ) := pos_of_mul_pos_left hdistPos hpos.le
    have hz : 0 < n - m := by exact_mod_cast hcast
    exact_mod_cast hz
  have hmul := mul_le_mul_of_nonneg_right hone hpos.le
  linarith

/-- Below 2^53 the rest alone decides. -/
theorem splitExact_iff_of_lt
    {q : Double} (hmin : 1 ≤ 1000 * (q : ℚ)) (hlt : (q : ℚ) < 2 ^ 53) :
    SplitExact q ↔ ¬ binary64.Carries (rest q * 1000) := by
  constructor
  · exact SplitExact.microseconds
  · intro hrest
    refine ⟨fun _ => not_carries_quotient hmin hlt, ?_, hrest⟩
    have hle := Int.floor_le ((q : ℚ) / 1000)
    have hk : 0 ≤ ⌊(q : ℚ) / 1000⌋ :=
      Int.floor_nonneg.mpr (div_nonneg (by linarith) (by norm_num))
    have hcast : (⌊(q : ℚ) / 1000⌋ : ℚ) * 1000 =
        ((⌊(q : ℚ) / 1000⌋ * 1000 : ℤ) : ℚ) := by
      push_cast
      rfl
    have hbound : ((⌊(q : ℚ) / 1000⌋ * 1000 : ℤ) : ℚ) < 2 ^ 53 := by
      rw [← hcast]
      linarith
    rw [hcast]
    apply BinaryFormat.isNumber_intCast
    rw [abs_of_nonneg (by omega)]
    exact_mod_cast hbound

/-- The limit is armed as the number of microseconds rounded down. -/
def ArmedExactly (time : LuaNumber) : Prop :=
  ∃ q : Double, time = .finite q ∧
    ArmsWith (evaluateChildSetup time) ⌊1000 * (q : ℚ)⌋

/-- What a limit that is armed exactly is like. -/
theorem splitExact_of_armsWith
    {q : Double}
    (h : ArmsWith (evaluateChildSetup (.finite q)) ⌊1000 * (q : ℚ)⌋) :
    1 ≤ 1000 * (q : ℚ) ∧ (q : ℚ) / 1000 < 2 ^ 63 ∧ SplitExact q := by
  have htotal := h.total
  rw [← floor_split] at htotal
  obtain ⟨hrest, hrest'⟩ := floor_rest_bounds q
  obtain ⟨hseceq, huseceq⟩ :=
    split_unique h.usecNonneg h.usecLt hrest hrest' htotal
  obtain ⟨hin, hsec⟩ := sec_of_nonneg h.secNonneg
  have hquot := hsec.symm.trans hseceq
  have hmin : 1 ≤ 1000 * (q : ℚ) := by
    have hone : 1 ≤ ⌊1000 * (q : ℚ)⌋ := by
      have hsecNonneg := h.secNonneg
      have husecNonneg := h.usecNonneg
      have hpositive := h.positive
      rw [← floor_split, ← htotal]
      omega
    exact_mod_cast Int.le_floor.mp hone
  have hmax : (q : ℚ) / 1000 < 2 ^ 63 := by
    rw [hquot] at hin
    have hceil := Int.floor_lt.mp hin.2
    norm_num at hceil ⊢
    exact hceil
  have hnonneg : 0 ≤ (q : ℚ) := by linarith
  have hlt : (q : ℚ) < 2 ^ 73 := by
    norm_num at hmax ⊢
    linarith
  have hk : 0 ≤ ⌊(q : ℚ) / 1000⌋ :=
    Int.floor_nonneg.mpr (div_nonneg hnonneg (by norm_num))
  have hkq : (⌊(q : ℚ) / 1000⌋ : ℚ) * 1000 ≤ q := by
    have hle := Int.floor_le ((q : ℚ) / 1000)
    linarith
  obtain ⟨d, hd, hval⟩ := usec_double hnonneg hlt hquot hk hkq
  obtain ⟨d', hd', -, husec⟩ := finite_of_toLong h.usecNonneg
  have hsame : d' = d := by
    have heq := hd'.symm.trans hd
    cases heq
    rfl
  subst hsame
  have hproduct := husec.symm.trans huseceq
  rw [hval] at hproduct
  have hwhole : binary64.IsNumber (⌊(q : ℚ) / 1000⌋ * 1000) := by
    by_contra hno
    exact truncate_product_ne hnonneg hlt hno hproduct
  exact ⟨hmin, hmax, fun hsmall => (floor_quotient_iff hnonneg hsmall).mp hquot,
    hwhole, (truncate_product hnonneg hwhole).mp hproduct⟩

/-- A split without a carry arms the timer with the microseconds of the
limit. -/
theorem armsWith_of_splitExact
    {q : Double} (hmin : 1 ≤ 1000 * (q : ℚ)) (hmax : (q : ℚ) / 1000 < 2 ^ 63)
    (hsplit : SplitExact q) :
    ArmsWith (evaluateChildSetup (.finite q)) ⌊1000 * (q : ℚ)⌋ := by
  have hnonneg : 0 ≤ (q : ℚ) := by linarith
  have hlt : (q : ℚ) < 2 ^ 73 := by
    norm_num at hmax ⊢
    linarith
  obtain ⟨hlow, hhigh⟩ := floor_rest_bounds q
  have htotal := floor_split q
  have hone : 1 ≤ ⌊1000 * (q : ℚ)⌋ := Int.le_floor.mpr (by exact_mod_cast hmin)
  have hk : 0 ≤ ⌊(q : ℚ) / 1000⌋ :=
    Int.floor_nonneg.mpr (div_nonneg hnonneg (by norm_num))
  have hklt : ⌊(q : ℚ) / 1000⌋ < 9223372036854775808 := by
    apply Int.floor_lt.mpr
    norm_num at hmax ⊢
    exact hmax
  have hkq : (⌊(q : ℚ) / 1000⌋ : ℚ) * 1000 ≤ q := by
    have hle := Int.floor_le ((q : ℚ) / 1000)
    linarith
  have hquot : ⌊binary64.round (q / 1000)⌋ = ⌊(q : ℚ) / 1000⌋ := by
    by_cases hsmall : (q : ℚ) / 1000 < 2 ^ 53
    · exact (floor_quotient_iff hnonneg hsmall).mpr (hsplit.seconds hsmall)
    · exact floor_quotient_large (not_lt.mp hsmall) hsplit.whole
  have hproduct :=
    (truncate_product hnonneg hsplit.whole).mpr hsplit.microseconds
  have hsec : (evaluateChildSetup (.finite q)).sec = ⌊(q : ℚ) / 1000⌋ := by
    obtain ⟨a, ha, hval⟩ := floor_div1000 (q := q) (by
      rw [abs_of_nonneg hnonneg]
      linarith)
    rw [hquot] at hval
    change toLong (LuaNumber.finite q).div1000.floor = _
    rw [ha, toLong_of_inLong, hval, truncate_intCast]
    rw [hval, truncate_intCast, InLong]
    omega
  have husec : (evaluateChildSetup (.finite q)).usec = ⌊rest q * 1000⌋ := by
    obtain ⟨d, hd, hval⟩ := usec_double hnonneg hlt hquot hk hkq
    rw [← hval] at hproduct
    change toLong (LuaNumber.finite q).mod1000.mul1000 = _
    rw [hd, toLong_of_inLong, hproduct]
    rw [hproduct, InLong]
    omega
  constructor
  case secNonneg => omega
  case usecNonneg => omega
  case usecLt => omega
  case total =>
      rw [hsec, husec]
      exact htotal
  case positive => omega

/-- **Time limits**: a number is armed exactly if it is finite, at least a
microsecond, has seconds that fit into `tv_sec`, and is split without a carry. -/
theorem armed_exactly_iff (time : LuaNumber) :
    ArmedExactly time ↔
      ∃ q : Double, time = .finite q ∧ 1 ≤ 1000 * (q : ℚ) ∧
        (q : ℚ) / 1000 < 2 ^ 63 ∧ SplitExact q := by
  constructor
  · rintro ⟨q, rfl, harms⟩
    exact ⟨q, rfl, splitExact_of_armsWith harms⟩
  · rintro ⟨q, rfl, hmin, hmax, hsplit⟩
    exact ⟨q, rfl, armsWith_of_splitExact hmin hmax hsplit⟩

/-- Every whole number of milliseconds from 1 on and below 2^53 is enforced. -/
theorem whole_milliseconds_armed
    {q : Double} {n : ℕ} (hq : (q : ℚ) = n) (hn : 1 ≤ n) (hn' : n < 2 ^ 53) :
    setitimer (evaluateChildSetup (.finite q)) = .armed (1000 * n) := by
  have hone : (1 : ℚ) ≤ n := by exact_mod_cast hn
  have hbound : (n : ℚ) < 2 ^ 53 := by exact_mod_cast hn'
  have hmin : 1 ≤ 1000 * (q : ℚ) := by linarith
  have hint : rest q * 1000 =
      (((n - ⌊(q : ℚ) / 1000⌋ * 1000) * 1000 : ℤ) : ℚ) := by
    rw [rest, hq]
    push_cast
    rfl
  have hrest : ¬ binary64.Carries (rest q * 1000) := by
    have hexp : binary64.exponent (rest q * 1000) ≤ 0 := by
      have hlow := rest_nonneg q
      have hhigh := rest_lt q
      apply exponent_nonpos
      rw [abs_of_nonneg (by linarith)]
      linarith
    rw [hint] at hexp ⊢
    exact BinaryFormat.not_carries_intCast hexp
  have harms := armsWith_of_splitExact hmin (by linarith)
    ((splitExact_iff_of_lt hmin (by linarith)).mpr hrest)
  have hfloor : ⌊1000 * (q : ℚ)⌋ = 1000 * n := by
    rw [hq]
    exact_mod_cast Int.floor_natCast (R := ℚ) (1000 * n)
  rw [hfloor] at harms
  exact (setitimer_armed_iff _ _).mpr harms

/-- The double of a small integer. -/
def ofInt (z : ℤ) (h : |z| < 2 ^ 53) : Double :=
  ⟨z, binary64.isNumber_intCast h⟩

/-- The double nearest to three tenths. -/
def threeTenths : Double :=
  ⟨5404319552844595 / 2 ^ 54, 5404319552844595, -54, by decide, by decide,
    by decide, by norm_num⟩

/-- It lies below three tenths, and its product with 1000 is carried to 300: one
microsecond more than the number has. -/
theorem three_tenths_carried :
    evaluateChildSetup (.finite threeTenths) = ⟨0, 300⟩ ∧
      ⌊1000 * (threeTenths : ℚ)⌋ = 299 := by
  decide +kernel

/-- A call leaves a number in the table of the client as it is, and puts the
default where there is none. -/
theorem get_judgeSettings_time (store : Nat → LuaTable) (args : Nat) :
    (∀ q, (store args).get (key "time") = .number q →
      (judgeSettings store args args).get (key "time") = .number q) ∧
    ((store args).get (key "time") = .nil →
      (judgeSettings store args args).get (key "time") =
        (store defaultsRef).get (key "time")) := by
  constructor
  · intro q h
    rw [get_judgeSettings_of_ne_nil (by simp [h]), h]
  · intro h
    exact get_judgeSettings_default h (by decide)

/-- The default limit is a number, and it is enforced. -/
theorem default_limit_armed (isDarwin : Bool) :
    (defaultsArgs isDarwin).get (key "time") = .number 5 ∧
      setitimer (evaluateChildSetup (.finite (ofInt 5 (by decide)))) =
        .armed 5000 := by
  constructor
  · cases isDarwin <;> decide
  · have hfive : ((ofInt 5 (by decide) : Double) : ℚ) = (5 : ℕ) := by
      norm_num [ofInt]
    have h := whole_milliseconds_armed hfive (by decide) (by decide)
    exact_mod_cast h

/-- A limit of zero milliseconds disarms the timer, and a negative one is no
value at all: both leave the program without a limit. -/
theorem zero_limit_disarms :
    ¬ ArmedExactly (.finite (ofInt 0 (by decide))) ∧
      setitimer (evaluateChildSetup (.finite (ofInt 0 (by decide)))) = .disarmed ∧
      setitimer (evaluateChildSetup (.finite (ofInt (-1) (by decide)))) =
        .rejected := by
  have hzero : evaluateChildSetup (.finite (ofInt 0 (by decide))) = ⟨0, 0⟩ := by
    decide +kernel
  refine ⟨?_, ?_, ?_⟩
  · rintro ⟨q, _, harms⟩
    rw [hzero] at harms
    exact harms.positive ⟨rfl, rfl⟩
  · rw [hzero]
    rfl
  · decide +kernel

end TimeLimit
end Iojxd
