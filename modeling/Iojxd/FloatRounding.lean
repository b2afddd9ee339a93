import Mathlib.Algebra.Order.Floor.Ring
import Mathlib.Data.Int.Log
import Mathlib.Data.Rat.Floor
import Mathlib.Tactic

/-!
# Rounding to a binary floating point format

The finite numbers of a format are the products of an integer of bounded size
and a power of two with bounded exponent.  A rational is rounded to the nearest
of them, and between two equally near ones to the even one.

The spacing of a rational is the distance of the numbers around it.  The main
rule says when rounding carries a rational up to the next integer: if that is at
most half the spacing away.
-/

namespace Iojxd

/-- A binary format: integers below `2 ^ precision` times a power of two. -/
structure BinaryFormat where
  precision : ℕ
  minExponent : ℤ
  maxExponent : ℤ
  precision_pos : 0 < precision
  minExponent_le : minExponent ≤ 0
  maxExponent_nonneg : 0 ≤ maxExponent

/-! ## Rounding to an integer -/

/-- The nearest integer, between two of them the even one. -/
def roundHalfEven (y : ℚ) : ℤ :=
  if y - ⌊y⌋ < 1 / 2 then ⌊y⌋
  else if 1 / 2 < y - ⌊y⌋ then ⌊y⌋ + 1
  else if ⌊y⌋ % 2 = 0 then ⌊y⌋
  else ⌊y⌋ + 1

/-- A rational and the integers around it. -/
theorem floor_or_succ_roundHalfEven (y : ℚ) :
    (roundHalfEven y = ⌊y⌋ ∧ y - ⌊y⌋ ≤ 1 / 2) ∨
      (roundHalfEven y = ⌊y⌋ + 1 ∧ 1 / 2 ≤ y - ⌊y⌋) := by
  unfold roundHalfEven
  split
  case isTrue h =>
      exact Or.inl ⟨rfl, h.le⟩
  case isFalse h =>
      split
      case isTrue h' =>
          exact Or.inr ⟨rfl, h'.le⟩
      case isFalse h' =>
          split
          · exact Or.inl ⟨rfl, not_lt.mp h'⟩
          · exact Or.inr ⟨rfl, not_lt.mp h⟩

theorem abs_roundHalfEven_sub_le (y : ℚ) :
    |(roundHalfEven y : ℚ) - y| ≤ 1 / 2 := by
  have hle := Int.floor_le y
  have hlt := Int.lt_floor_add_one y
  rw [abs_le]
  obtain ⟨h, hrest⟩ | ⟨h, hrest⟩ := floor_or_succ_roundHalfEven y
  · rw [h]
    constructor <;> linarith
  · rw [h]
    push_cast
    constructor <;> linarith

/-- An integer nearer than one half is the nearest one. -/
theorem roundHalfEven_eq {y : ℚ} {n : ℤ} (h : |y - n| < 1 / 2) :
    roundHalfEven y = n := by
  have hround := abs_roundHalfEven_sub_le y
  rw [abs_le] at hround
  rw [abs_lt] at h
  have hlow : ((n - 1 : ℤ) : ℚ) < (roundHalfEven y : ℚ) := by
    push_cast
    linarith
  have hhigh : (roundHalfEven y : ℚ) < ((n + 1 : ℤ) : ℚ) := by
    push_cast
    linarith
  have hlow' : n - 1 < roundHalfEven y := by exact_mod_cast hlow
  have hhigh' : roundHalfEven y < n + 1 := by exact_mod_cast hhigh
  omega

@[simp] theorem roundHalfEven_intCast (n : ℤ) :
    roundHalfEven n = n :=
  roundHalfEven_eq (by simp)

/-- Integers below stay below. -/
theorem le_roundHalfEven {y : ℚ} {n : ℤ} (h : (n : ℚ) ≤ y) :
    n ≤ roundHalfEven y := by
  have hfloor : n ≤ ⌊y⌋ := Int.le_floor.mpr h
  obtain ⟨h, _⟩ | ⟨h, _⟩ := floor_or_succ_roundHalfEven y <;> omega

/-- Integers above stay above. -/
theorem roundHalfEven_le {y : ℚ} {n : ℤ} (h : y ≤ n) :
    roundHalfEven y ≤ n := by
  rcases h.lt_or_eq with hlt | rfl
  · have hfloor : ⌊y⌋ < n := Int.floor_lt.mpr hlt
    obtain ⟨h, _⟩ | ⟨h, _⟩ := floor_or_succ_roundHalfEven y <;> omega
  · simp

/-- An integer above is reached from half a unit below it, and from exactly
there if it is even. -/
theorem le_roundHalfEven_iff_of_lt
    {y : ℚ} {n : ℤ} (hlt : y < n) (htie : n % 2 = 0 ∨ y + 1 / 2 ≠ n) :
    n ≤ roundHalfEven y ↔ (n : ℚ) ≤ y + 1 / 2 := by
  have hnear := abs_roundHalfEven_sub_le y
  rw [abs_le] at hnear
  constructor
  · intro h
    have hcast : (n : ℚ) ≤ roundHalfEven y := by exact_mod_cast h
    linarith
  · intro h
    have hle := Int.floor_le y
    have hsucc := Int.lt_floor_add_one y
    have hfloor : ⌊y⌋ + 1 = n := by
      have habove : ⌊y⌋ < n := Int.floor_lt.mpr hlt
      have hbelow : ((n : ℤ) : ℚ) < ((⌊y⌋ + 2 : ℤ) : ℚ) := by
        push_cast
        linarith
      have hbelow' : n < ⌊y⌋ + 2 := by exact_mod_cast hbelow
      omega
    have hcast : (⌊y⌋ : ℚ) + 1 = n := by exact_mod_cast hfloor
    unfold roundHalfEven
    rw [if_neg (by linarith)]
    by_cases hmore : 1 / 2 < y - ⌊y⌋
    · rw [if_pos hmore, hfloor]
    · -- the tie, which goes to the even one
      rcases htie with heven | hne
      · rw [if_neg hmore, if_neg (by omega), hfloor]
      · exact absurd (by linarith) hne

namespace BinaryFormat

variable (F : BinaryFormat)

/-! ## The numbers of the format -/

/-- The finite numbers. -/
def IsNumber (x : ℚ) : Prop :=
  ∃ m e : ℤ, |m| < 2 ^ F.precision ∧ F.minExponent ≤ e ∧ e ≤ F.maxExponent ∧
    x = m * 2 ^ e

/-- The exponent of the numbers around a rational. -/
def exponent (x : ℚ) : ℤ :=
  max (Int.log 2 |x| + 1 - F.precision) F.minExponent

/-- The distance of the numbers around a rational. -/
def spacing (x : ℚ) : ℚ :=
  2 ^ F.exponent x

/-- Rounding to nearest, ties to even, before a look at the range. -/
def round (x : ℚ) : ℚ :=
  roundHalfEven (x / F.spacing x) * F.spacing x

theorem spacing_pos (x : ℚ) :
    0 < F.spacing x :=
  zpow_pos (by norm_num) _

theorem spacing_ne_zero (x : ℚ) :
    F.spacing x ≠ 0 :=
  (F.spacing_pos x).ne'

/-- Integers of the precision are numbers. -/
theorem isNumber_intCast {n : ℤ} (h : |n| < 2 ^ F.precision) :
    F.IsNumber n :=
  ⟨n, 0, h, F.minExponent_le, F.maxExponent_nonneg, by simp⟩

theorem abs_lt_two_zpow (x : ℚ) :
    |x| < 2 ^ (F.exponent x + F.precision) := by
  have hlog := Int.lt_zpow_succ_log_self (b := 2) (by decide) |x|
  have hexp : Int.log 2 |x| + 1 ≤ F.exponent x + F.precision := by
    have hmax := le_max_left (Int.log 2 |x| + 1 - F.precision) F.minExponent
    unfold exponent
    omega
  calc |x| < (2 : ℚ) ^ (Int.log 2 |x| + 1) := by exact_mod_cast hlog
    _ ≤ 2 ^ (F.exponent x + F.precision) :=
        zpow_le_zpow_right₀ (by norm_num) hexp

/-- In units of the spacing a rational has at most the precision. -/
theorem abs_div_spacing_lt (x : ℚ) :
    |x / F.spacing x| < 2 ^ F.precision := by
  rw [abs_div, abs_of_pos (F.spacing_pos x), div_lt_iff₀ (F.spacing_pos x)]
  calc |x| < 2 ^ (F.exponent x + F.precision) := F.abs_lt_two_zpow x
    _ = 2 ^ F.precision * F.spacing x := by
        rw [zpow_add₀ (by norm_num), zpow_natCast, spacing, mul_comm]

theorem abs_round_sub_le (x : ℚ) :
    |F.round x - x| ≤ F.spacing x / 2 := by
  have hpos := F.spacing_pos x
  have hsplit : F.round x - x =
      (roundHalfEven (x / F.spacing x) - x / F.spacing x) * F.spacing x := by
    unfold round
    rw [sub_mul, div_mul_cancel₀ _ (F.spacing_ne_zero x)]
  rw [hsplit, abs_mul, abs_of_pos hpos]
  calc |(roundHalfEven (x / F.spacing x) : ℚ) - x / F.spacing x| * F.spacing x
      ≤ 1 / 2 * F.spacing x :=
        mul_le_mul_of_nonneg_right (abs_roundHalfEven_sub_le _) hpos.le
    _ = F.spacing x / 2 := by ring

/-- A bound on a rational bounds the exponent. -/
theorem exponent_le_of_abs_lt
    {x : ℚ} {e : ℤ} (hx : x ≠ 0) (hmin : F.minExponent ≤ e)
    (h : |x| < 2 ^ (e + F.precision)) :
    F.exponent x ≤ e := by
  have hlog := (Int.lt_zpow_iff_log_lt (b := 2) (by decide) (abs_pos.mpr hx)).mp
    (by exact_mod_cast h)
  unfold exponent
  omega

/-- A lower bound on a rational bounds the exponent from below. -/
theorem le_exponent_of_le_abs
    {x : ℚ} {e : ℤ} (h : 2 ^ (e + F.precision - 1) ≤ |x|) :
    e ≤ F.exponent x := by
  have hpos : 0 < |x| := lt_of_lt_of_le (zpow_pos (by norm_num) _) h
  have hlog := (Int.zpow_le_iff_le_log (b := 2) (by decide) hpos).mp
    (by exact_mod_cast h)
  unfold exponent
  omega

/-- The spacing does not exceed the size, above the smallest number. -/
theorem spacing_le_abs_add_one (x : ℚ) :
    F.spacing x ≤ |x| + 1 := by
  have hprec := F.precision_pos
  have hsmall : (2 : ℚ) ^ F.minExponent ≤ 1 :=
    zpow_le_one_of_nonpos₀ (by norm_num) F.minExponent_le
  have habs := abs_nonneg x
  unfold spacing exponent
  rcases le_total (Int.log 2 |x| + 1 - F.precision) F.minExponent with h | h
  · rw [max_eq_right h]
    linarith
  · rw [max_eq_left h]
    by_cases hx : x = 0
    · subst hx
      have : (2 : ℚ) ^ (Int.log 2 |(0 : ℚ)| + 1 - (F.precision : ℤ)) ≤ 1 :=
        zpow_le_one_of_nonpos₀ (by norm_num) (by simp; omega)
      linarith
    · have hlog := Int.zpow_log_le_self (b := 2) (by decide) (abs_pos.mpr hx)
      calc (2 : ℚ) ^ (Int.log 2 |x| + 1 - (F.precision : ℤ))
          ≤ 2 ^ Int.log 2 |x| := zpow_le_zpow_right₀ (by norm_num) (by omega)
        _ ≤ |x| := by exact_mod_cast hlog
        _ ≤ |x| + 1 := by linarith

/-- Rounding at most doubles. -/
theorem abs_round_le (x : ℚ) :
    |F.round x| ≤ 2 * |x| + 1 := by
  have hnear := F.abs_round_sub_le x
  have hspacing := F.spacing_le_abs_add_one x
  have htriangle := abs_add_le (F.round x - x) x
  have habs := abs_nonneg x
  rw [sub_add_cancel] at htriangle
  linarith

variable {F}

/-- A product with a power of two is a multiple of every smaller power. -/
theorem exists_mul_zpow_eq (m : ℤ) {e f : ℤ} (h : f ≤ e) :
    ∃ n : ℤ, (m : ℚ) * 2 ^ e = n * 2 ^ f := by
  obtain ⟨d, rfl⟩ := Int.le.dest h
  refine ⟨m * 2 ^ d, ?_⟩
  rw [zpow_add₀ (by norm_num), zpow_natCast]
  push_cast
  ring

/-- Numbers are multiples of the spacing. -/
theorem IsNumber.exists_mul_spacing {x : ℚ} (h : F.IsNumber x) :
    ∃ n : ℤ, x = n * F.spacing x := by
  obtain ⟨m, e, hm, hmin, hmax, rfl⟩ := h
  by_cases hzero : m = 0
  · exact ⟨0, by simp [hzero]⟩
  · have hpow : (0 : ℚ) < 2 ^ e := zpow_pos (by norm_num) e
    have hne : (m : ℚ) * 2 ^ e ≠ 0 := by
      have : (m : ℚ) ≠ 0 := by exact_mod_cast hzero
      positivity
    have hexp : F.exponent (m * 2 ^ e) ≤ e := by
      apply F.exponent_le_of_abs_lt hne hmin
      rw [abs_mul, abs_of_pos hpow, add_comm, zpow_add₀ (by norm_num),
        zpow_natCast]
      have hcast : |(m : ℚ)| < 2 ^ F.precision := by exact_mod_cast hm
      exact mul_lt_mul_of_pos_right hcast hpow
    exact exists_mul_zpow_eq m hexp

/-- Multiples of the spacing are kept. -/
theorem round_of_mul_spacing
    {x : ℚ} {n : ℤ} (h : x = n * F.spacing x) :
    F.round x = x := by
  have hdiv : x / F.spacing x = n :=
    (div_eq_iff (F.spacing_ne_zero x)).mpr h
  rw [round, hdiv, roundHalfEven_intCast, ← h]

/-- Numbers are kept. -/
theorem IsNumber.round_eq {x : ℚ} (h : F.IsNumber x) :
    F.round x = x := by
  obtain ⟨n, hn⟩ := h.exists_mul_spacing
  exact round_of_mul_spacing hn

/-- A symmetric bound by an integer survives rounding. -/
theorem abs_roundHalfEven_le {y : ℚ} {n : ℤ} (h : |y| ≤ n) :
    |roundHalfEven y| ≤ n := by
  rw [abs_le] at h ⊢
  constructor
  · apply le_roundHalfEven
    push_cast
    exact h.1
  · exact roundHalfEven_le h.2

theorem le_abs_roundHalfEven {y : ℚ} {n : ℤ} (h : (n : ℚ) ≤ |y|) :
    n ≤ |roundHalfEven y| := by
  rcases le_abs.mp h with hpos | hneg
  · exact (le_roundHalfEven hpos).trans (le_abs_self _)
  · have hle : y ≤ ((-n : ℤ) : ℚ) := by
      push_cast
      linarith
    have hround := roundHalfEven_le hle
    have habs := neg_le_abs (roundHalfEven y)
    omega

/-- Above the smallest exponent the precision is used. -/
theorem le_abs_div_spacing
    {x : ℚ} (hx : x ≠ 0) (h : F.minExponent < F.exponent x) :
    2 ^ (F.precision - 1) ≤ |x / F.spacing x| := by
  have hprec := F.precision_pos
  have hexp : F.exponent x = Int.log 2 |x| + 1 - F.precision := by
    unfold exponent at h ⊢
    omega
  have hlog := Int.zpow_log_le_self (b := 2) (by decide) (abs_pos.mpr hx)
  rw [abs_div, abs_of_pos (F.spacing_pos x), le_div_iff₀ (F.spacing_pos x),
    spacing, hexp, ← zpow_natCast, ← zpow_add₀ (by norm_num)]
  have hsum : ((F.precision - 1 : ℕ) : ℤ) + (Int.log 2 |x| + 1 - F.precision) =
      Int.log 2 |x| := by
    omega
  rw [hsum]
  exact_mod_cast hlog

/-- Within the range the exponent of the spacing is an exponent of the format. -/
theorem exponent_le_maxExponent
    {x : ℚ} (h : |F.round x| < 2 ^ (F.maxExponent + F.precision)) :
    F.exponent x ≤ F.maxExponent := by
  have hprec := F.precision_pos
  have hmin := F.minExponent_le
  have hmax := F.maxExponent_nonneg
  by_contra hgt
  have hx : x ≠ 0 := by
    rintro rfl
    simp only [exponent, abs_zero, Int.log_zero_right] at hgt
    omega
  have hfull : ((2 ^ (F.precision - 1) : ℤ) : ℚ) ≤ |x / F.spacing x| := by
    push_cast
    exact le_abs_div_spacing hx (by omega)
  have hround := le_abs_roundHalfEven hfull
  have hcast : (2 : ℚ) ^ (F.precision - 1) ≤
      |(roundHalfEven (x / F.spacing x) : ℚ)| := by
    exact_mod_cast hround
  have hlow : (2 : ℚ) ^ (F.maxExponent + F.precision) ≤ |F.round x| := by
    rw [round, abs_mul, abs_of_pos (F.spacing_pos x)]
    calc (2 : ℚ) ^ (F.maxExponent + F.precision)
        ≤ 2 ^ (((F.precision - 1 : ℕ) : ℤ) + F.exponent x) :=
          zpow_le_zpow_right₀ (by norm_num) (by omega)
      _ = 2 ^ (F.precision - 1) * F.spacing x := by
          rw [zpow_add₀ (by norm_num), zpow_natCast, spacing]
      _ ≤ _ := mul_le_mul_of_nonneg_right hcast (F.spacing_pos x).le
  linarith

/-- What rounding gives is a number, within the range. -/
theorem isNumber_round
    {x : ℚ} (h : |F.round x| < 2 ^ (F.maxExponent + F.precision)) :
    F.IsNumber (F.round x) := by
  have hprec := F.precision_pos
  have hmin : F.minExponent ≤ F.exponent x := le_max_right _ _
  have hmax := exponent_le_maxExponent h
  have hsize : |roundHalfEven (x / F.spacing x)| ≤ 2 ^ F.precision := by
    apply abs_roundHalfEven_le
    push_cast
    exact (F.abs_div_spacing_lt x).le
  rw [round, abs_mul, abs_of_pos (F.spacing_pos x)] at h
  rw [round]
  generalize roundHalfEven (x / F.spacing x) = n at *
  rw [spacing] at h ⊢
  generalize F.exponent x = e at *
  rcases hsize.lt_or_eq with hsmall | hfull
  · exact ⟨n, e, hsmall, hmin, hmax, rfl⟩
  · -- a full integer is half of it with the next exponent
    have hcast : |(n : ℚ)| = 2 ^ F.precision := by exact_mod_cast hfull
    have hlt : e < F.maxExponent := by
      rw [hcast, ← zpow_natCast, ← zpow_add₀ (by norm_num)] at h
      have hexp := (zpow_lt_zpow_iff_right₀ (by norm_num : (1 : ℚ) < 2)).mp h
      omega
    have hpow : (2 : ℤ) ^ F.precision = 2 * 2 ^ (F.precision - 1) := by
      rw [← pow_succ', Nat.sub_add_cancel hprec]
    have hhalf : n = 2 * (n / 2) := by
      rcases abs_choice n with h' | h' <;> omega
    have hnpos : (0 : ℤ) < 2 ^ (F.precision - 1) := by positivity
    refine ⟨n / 2, e + 1, ?_, by omega, by omega, ?_⟩
    · rw [abs_lt]
      rw [abs_le] at hsize
      omega
    · rw [zpow_add_one₀ (by norm_num)]
      conv_lhs => rw [hhalf]
      push_cast
      ring

/-- Rounding keeps the integers below, where the spacing is one or less. -/
theorem intCast_le_round
    {x : ℚ} {n : ℤ} (hexp : F.exponent x ≤ 0) (h : (n : ℚ) ≤ x) :
    (n : ℚ) ≤ F.round x := by
  obtain ⟨m, hm⟩ := exists_mul_zpow_eq n hexp
  rw [zpow_zero, mul_one] at hm
  have hpos := F.spacing_pos x
  have hle : (m : ℚ) ≤ x / F.spacing x := by
    rw [le_div_iff₀ hpos]
    exact hm ▸ h
  have hround : (m : ℚ) ≤ roundHalfEven (x / F.spacing x) := by
    exact_mod_cast le_roundHalfEven hle
  rw [hm]
  exact mul_le_mul_of_nonneg_right hround hpos.le

/-- Rounding reaches an integer above exactly from half the spacing on. -/
theorem intCast_le_round_iff_of_lt
    {x : ℚ} {n : ℤ} (hexp : F.exponent x ≤ 0)
    (htie : F.exponent x < 0 ∨ x + 1 / 2 ≠ n) (hlt : x < n) :
    (n : ℚ) ≤ F.round x ↔ (n : ℚ) ≤ x + F.spacing x / 2 := by
  have hpos := F.spacing_pos x
  obtain ⟨m, hm, htieDiv⟩ : ∃ m : ℤ, (n : ℚ) = m * F.spacing x ∧
      (m % 2 = 0 ∨ x / F.spacing x + 1 / 2 ≠ m) := by
    rcases hexp.lt_or_eq with hneg | hzero
    · -- a finer spacing meets every integer at an even multiple
      obtain ⟨m, hm⟩ := exists_mul_zpow_eq n (Int.add_one_le_iff.mpr hneg)
      refine ⟨2 * m, ?_, Or.inl (by omega)⟩
      rw [zpow_zero, mul_one, zpow_add_one₀ (by norm_num)] at hm
      rw [hm, spacing]
      push_cast
      ring
    · have hone : F.spacing x = 1 := by
        rw [spacing, hzero, zpow_zero]
      refine ⟨n, by rw [hone, mul_one], Or.inr ?_⟩
      rw [hone, div_one]
      exact htie.resolve_left (by omega)
  have hltDiv : x / F.spacing x < m := by
    rw [div_lt_iff₀ hpos, ← hm]
    exact hlt
  have hiff := le_roundHalfEven_iff_of_lt hltDiv htieDiv
  have hcast : (m : ℚ) ≤ roundHalfEven (x / F.spacing x) ↔
      (m : ℚ) ≤ x / F.spacing x + 1 / 2 := by
    rw [← hiff]
    exact Int.cast_le
  have hsum : x + F.spacing x / 2 =
      (x / F.spacing x + 1 / 2) * F.spacing x := by
    rw [add_mul, div_mul_cancel₀ _ hpos.ne']
    ring
  rw [hm, hsum, round, mul_le_mul_iff_left₀ hpos, mul_le_mul_iff_left₀ hpos]
  exact hcast

/-- Where the spacing exceeds one, a rational is rounded to its integer part if
that is a number. -/
theorem IsNumber.round_eq_of_floor
    {x : ℚ} {n : ℤ} (h : F.IsNumber n) (hnonneg : 0 ≤ n)
    (hexp : 1 ≤ F.exponent x) (hle : (n : ℚ) ≤ x) (hlt : x < n + 1) :
    F.round x = n := by
  have hprec := F.precision_pos
  have hmin := F.minExponent_le
  have hn : (0 : ℚ) ≤ n := by exact_mod_cast hnonneg
  have hlogexp : F.exponent x = Int.log 2 |x| + 1 - F.precision := by
    unfold exponent at hexp ⊢
    omega
  have hx : 0 < |x| := by
    apply abs_pos.mpr
    rintro rfl
    simp only [hlogexp, abs_zero, Int.log_zero_right] at hexp
    omega
  rw [abs_of_nonneg (hn.trans hle)] at hlogexp hx
  obtain ⟨j, hj⟩ := Int.eq_ofNat_of_zero_le (show 0 ≤ Int.log 2 x by omega)
  have hpow : ((2 : ℤ) ^ j : ℤ) ≤ n := by
    have hlog := Int.zpow_log_le_self (b := 2) (by decide) hx
    rw [hj, zpow_natCast] at hlog
    have hcast : ((2 ^ j : ℤ) : ℚ) < ((n + 1 : ℤ) : ℚ) := by
      push_cast at hlog ⊢
      linarith
    have hlt' : (2 ^ j : ℤ) < n + 1 := by exact_mod_cast hcast
    omega
  have hpow' : (2 : ℚ) ^ j ≤ n := by exact_mod_cast hpow
  -- the integer part has the same spacing
  have hsame : F.exponent n = F.exponent x := by
    apply le_antisymm
    · apply F.exponent_le_of_abs_lt
      · have : (0 : ℚ) < 2 ^ j := by positivity
        linarith
      · omega
      · rw [abs_of_nonneg hn]
        refine lt_of_le_of_lt hle ?_
        have habs := F.abs_lt_two_zpow x
        rwa [abs_of_nonneg (hn.trans hle)] at habs
    · apply F.le_exponent_of_le_abs
      have hsum : F.exponent x + F.precision - 1 = j := by omega
      rw [hsum, zpow_natCast, abs_of_nonneg hn]
      exact hpow'
  obtain ⟨m, hm⟩ := h.exists_mul_spacing
  rw [spacing, hsame, ← spacing] at hm
  have htwo : 2 ≤ F.spacing x := by
    calc (2 : ℚ) = 2 ^ (1 : ℤ) := by norm_num
      _ ≤ F.spacing x := zpow_le_zpow_right₀ (by norm_num) hexp
  have hnear : roundHalfEven (x / F.spacing x) = m := by
    apply roundHalfEven_eq
    have hsub : x / F.spacing x - m = (x - n) / F.spacing x := by
      rw [hm, sub_div, mul_div_cancel_right₀ _ (F.spacing_ne_zero x)]
    rw [hsub, abs_of_nonneg (div_nonneg (by linarith) (F.spacing_pos x).le),
      div_lt_iff₀ (F.spacing_pos x)]
    linarith
  rw [round, hnear, ← hm]

variable (F)

/-- A rational below an integer by at most half the spacing: rounding carries it
there. -/
def Carries (x : ℚ) : Prop :=
  ∃ n : ℤ, x < n ∧ n ≤ x + F.spacing x / 2

variable {F}

theorem carries_iff (x : ℚ) :
    F.Carries x ↔ ((⌊x⌋ + 1 : ℤ) : ℚ) ≤ x + F.spacing x / 2 := by
  constructor
  · rintro ⟨n, hlt, hle⟩
    have hfloor : ⌊x⌋ + 1 ≤ n := Int.floor_lt.mpr hlt
    have hcast : ((⌊x⌋ + 1 : ℤ) : ℚ) ≤ n := by exact_mod_cast hfloor
    linarith
  · intro h
    refine ⟨⌊x⌋ + 1, ?_, h⟩
    push_cast
    exact Int.lt_floor_add_one x

instance (x : ℚ) : Decidable (F.Carries x) :=
  decidable_of_iff _ (carries_iff x).symm

/-- Integers carry nowhere. -/
theorem not_carries_intCast {n : ℤ} (hexp : F.exponent n ≤ 0) :
    ¬ F.Carries n := by
  have hspacing : F.spacing n ≤ 1 :=
    zpow_le_one_of_nonpos₀ (by norm_num) hexp
  rw [carries_iff, Int.floor_intCast]
  push_cast
  linarith

/-- Where the spacing is one or less, rounding keeps the integer part unless it
carries. -/
theorem floor_round_eq_iff
    {x : ℚ} (hexp : F.exponent x ≤ 0)
    (htie : F.exponent x < 0 ∨ ∀ n : ℤ, x + 1 / 2 ≠ n) :
    ⌊F.round x⌋ = ⌊x⌋ ↔ ¬ F.Carries x := by
  have hlow : (⌊x⌋ : ℚ) ≤ F.round x := intCast_le_round hexp (Int.floor_le x)
  have hlt : x < ((⌊x⌋ + 1 : ℤ) : ℚ) := by
    push_cast
    exact Int.lt_floor_add_one x
  have hiff := intCast_le_round_iff_of_lt hexp (htie.imp_right fun h => h _) hlt
  rw [carries_iff, ← hiff, not_le, Int.floor_eq_iff]
  push_cast
  exact ⟨fun h => h.2, fun h => ⟨hlow, h⟩⟩

/-! ## Operations that stay exact -/

/-- The integer part of a number is one. -/
theorem IsNumber.floor {x : ℚ} (h : F.IsNumber x) :
    F.IsNumber ⌊x⌋ := by
  obtain ⟨m, e, hm, hmin, hmax, rfl⟩ := h
  by_cases he : 0 ≤ e
  · obtain ⟨n, hn⟩ := exists_mul_zpow_eq m he
    rw [zpow_zero, mul_one] at hn
    rw [hn, Int.floor_intCast, ← hn]
    exact ⟨m, e, hm, hmin, hmax, rfl⟩
  · apply isNumber_intCast
    have hpow : (2 : ℚ) ^ e ≤ 1 :=
      zpow_le_one_of_nonpos₀ (by norm_num) (by omega)
    have hpos : (0 : ℚ) < 2 ^ e := zpow_pos (by norm_num) e
    have habs : |(m : ℚ) * 2 ^ e| ≤ |(m : ℚ)| := by
      rw [abs_mul, abs_of_pos hpos]
      exact mul_le_of_le_one_right (abs_nonneg _) hpow
    rw [abs_le] at habs
    have hlow : -|m| ≤ ⌊(m : ℚ) * 2 ^ e⌋ := by
      apply Int.le_floor.mpr
      push_cast
      exact habs.1
    have hhigh : ⌊(m : ℚ) * 2 ^ e⌋ ≤ |m| := by
      have hle := (Int.floor_le ((m : ℚ) * 2 ^ e)).trans habs.2
      exact_mod_cast hle
    rw [abs_lt]
    omega

/-- Taking an integer off a number gives a number, if what is left is small. -/
theorem IsNumber.sub_intCast
    {x : ℚ} {n : ℤ} (h : F.IsNumber x) (hn : 0 ≤ n) (hnonneg : 0 ≤ x - n)
    (hlt : x - n < 2 ^ F.precision) :
    F.IsNumber (x - n) := by
  obtain ⟨m, e, hm, hmin, hmax, rfl⟩ := h
  by_cases he : 0 ≤ e
  · obtain ⟨k, hk⟩ := exists_mul_zpow_eq m he
    rw [zpow_zero, mul_one] at hk
    rw [hk] at hnonneg hlt ⊢
    have hcast : (k : ℚ) - n = ((k - n : ℤ) : ℚ) := by push_cast; ring
    rw [hcast] at hnonneg hlt ⊢
    apply isNumber_intCast
    rw [abs_of_nonneg (by exact_mod_cast hnonneg)]
    exact_mod_cast hlt
  · obtain ⟨k, hk⟩ := exists_mul_zpow_eq n (e := 0) (f := e) (by omega)
    rw [zpow_zero, mul_one] at hk
    have hpos : (0 : ℚ) < 2 ^ e := zpow_pos (by norm_num) e
    have hsub : (m : ℚ) * 2 ^ e - n = ((m - k : ℤ) : ℚ) * 2 ^ e := by
      rw [hk]
      push_cast
      ring
    refine ⟨m - k, e, ?_, hmin, hmax, hsub⟩
    have hk0 : 0 ≤ k := by
      have : (0 : ℚ) ≤ k * 2 ^ e := by
        rw [← hk]
        exact_mod_cast hn
      exact_mod_cast nonneg_of_mul_nonneg_left this hpos
    have hmk : 0 ≤ m - k := by
      rw [hsub] at hnonneg
      exact_mod_cast nonneg_of_mul_nonneg_left hnonneg hpos
    rw [abs_lt] at hm ⊢
    omega

end BinaryFormat
end Iojxd
