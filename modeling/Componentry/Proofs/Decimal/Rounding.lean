import Componentry.Proofs.Decimal.Double
import Mathlib.Algebra.Order.Field.Power
import Mathlib.Algebra.Ring.Parity
import Mathlib.Data.Rat.Cast.Order
import Mathlib.Tactic.FieldSimp
import Mathlib.Tactic.Linarith
import Mathlib.Tactic.NormNum
import Mathlib.Tactic.Positivity
import Mathlib.Tactic.Ring

/-!
# Correct rounding

`Nearest r x` says that the double `x` is what a number of magnitude `r` is rounded to: no finite
double is nearer to `r`, of two that are equally near `x` is the one with the even significand, and
`x` is infinite just when `r` lies at least half a step beyond the greatest finite double.

**Main statements.** Up to its sign there is only one such double (`Nearest.unique`), and reading a
decimal number gives it (`nearest_ofDecimal`).

The proofs look at `r` in units of the last place: `r = ρ * 2 ^ q` with `ρ` below `2 ^ 53`, and
`2 ^ 52 ≤ ρ` unless `q` is as small as it can be.  Then `r` is rounded by rounding `ρ` to a natural
number `m` (`IsRounding ρ q m`), because a double below `2 ^ 52 * 2 ^ q` is too far away, and all
others are multiples of `2 ^ q` (`IsRounding.le_abs`).
-/

namespace Componentry.Double

/-- The absolute value of a finite number. -/
def magnitude (x : Double) : ℚ :=
  x.significand * 2 ^ x.exponent

/-- The least magnitude that is out of range. -/
def overflow : ℚ :=
  (2 ^ 53 - 1 / 2) * 2 ^ (971 : ℤ)

/-- `x` is what a number of magnitude `r` is rounded to, up to its sign. -/
structure Nearest (r : ℚ) (x : Double) : Prop where
  isNaN : x.isNaN = false
  isFinite_iff : x.isFinite = true ↔ r < overflow
  le : x.isFinite = true → ∀ y : Double, y.isFinite = true → |x.magnitude - r| ≤ |y.magnitude - r|
  even : x.isFinite = true → ∀ y : Double, y.isFinite = true → |y.magnitude - r| = |x.magnitude - r| →
    y.magnitude ≠ x.magnitude → Even x.significand

/-! ## Rounding to a natural number -/

/-- The number `ρ * 2 ^ q` has its last place at `2 ^ q`, and `m` is `ρ` rounded to the nearest
natural number, ties to the even one. -/
structure IsRounding (ρ : ℚ) (q : ℤ) (m : ℕ) : Prop where
  scale_le : -1074 ≤ q
  lt : ρ < 2 ^ 53
  normal : q = -1074 ∨ 2 ^ 52 ≤ ρ
  near : |(m : ℚ) - ρ| ≤ 1 / 2
  even : |(m : ℚ) - ρ| = 1 / 2 → Even m

namespace IsRounding

variable {ρ : ℚ} {q : ℤ} {m : ℕ}

theorem one_le_abs_add_abs {k : ℕ} (hne : k ≠ m) : 1 ≤ |(k : ℚ) - ρ| + |(m : ℚ) - ρ| := by
  have hstep : (1 : ℤ) ≤ |(k : ℤ) - m| := Int.one_le_abs (by omega)
  calc (1 : ℚ) ≤ |(k : ℚ) - m| := by exact_mod_cast hstep
    _ ≤ |(k : ℚ) - ρ| + |ρ - m| := abs_sub_le _ _ _
    _ = |(k : ℚ) - ρ| + |(m : ℚ) - ρ| := by rw [abs_sub_comm ρ]

theorem le (h : IsRounding ρ q m) (k : ℕ) : |(m : ℚ) - ρ| ≤ |(k : ℚ) - ρ| := by
  by_cases hk : k = m
  · rw [hk]
  · have hstep := @one_le_abs_add_abs ρ m k hk
    have hnear := h.near
    linarith

/-- A natural number that is as near as the rounded one is the odd one of two. -/
theorem odd_of_eq (h : IsRounding ρ q m) {k : ℕ} (hk : |(k : ℚ) - ρ| = |(m : ℚ) - ρ|)
    (hne : k ≠ m) : Even m ∧ Odd k := by
  have hstep := @one_le_abs_add_abs ρ m k hne
  have hnear := h.near
  have heven := h.even (by linarith)
  have hadjacent : k = m + 1 ∨ k + 1 = m := by
    have hle : |(k : ℚ) - m| ≤ 1 := by
      calc |(k : ℚ) - m| ≤ |(k : ℚ) - ρ| + |ρ - m| := abs_sub_le _ _ _
        _ ≤ 1 := by rw [abs_sub_comm ρ, hk]; linarith
    have hint : |(k : ℤ) - m| ≤ 1 := by exact_mod_cast hle
    have hbounds := abs_le.mp hint
    omega
  refine ⟨heven, ?_⟩
  rcases hadjacent with rfl | rfl
  · exact heven.add_one
  · exact Nat.not_even_iff_odd.mp (Nat.even_add_one.mp heven)

theorem le_two_pow (h : IsRounding ρ q m) : m ≤ 2 ^ 53 := by
  have hnear := (abs_le.mp h.near).2
  have hlt := h.lt
  have hm : (m : ℚ) < 2 ^ 53 + 1 := by linarith
  have hm' : m < 2 ^ 53 + 1 := by exact_mod_cast hm
  omega

theorem two_pow_le (h : IsRounding ρ q m) (hq : q ≠ -1074) : 2 ^ 52 ≤ m := by
  have hnear := (abs_le.mp h.near).1
  have hle := h.normal.resolve_left hq
  have hm : (2 : ℚ) ^ 52 < m + 1 := by linarith
  have hm' : 2 ^ 52 < m + 1 := by exact_mod_cast hm
  omega

end IsRounding

/-! ## Magnitudes as multiples of the last place -/

/-- A double with a smaller unit in the last place is below the numbers with this unit. -/
theorem magnitude_lt {x : Double} {q : ℤ} (h : x.exponent < q) : x.magnitude < 2 ^ 52 * 2 ^ q := by
  have hsignificand : (x.significand : ℚ) < 2 ^ 53 := by
    exact_mod_cast x.significand_lt
  calc x.magnitude = x.significand * 2 ^ x.exponent := rfl
    _ < 2 ^ 53 * 2 ^ x.exponent := by gcongr
    _ ≤ 2 ^ 53 * 2 ^ (q - 1) := by
      gcongr
      · norm_num
      · omega
    _ = 2 ^ 52 * 2 ^ q := by
      rw [zpow_sub_one₀ two_ne_zero]
      ring

/-- Any other double is a multiple of this unit. -/
theorem exists_magnitude_eq {x : Double} {q : ℤ} (h : q ≤ x.exponent) :
    ∃ k : ℕ, x.magnitude = k * 2 ^ q ∧ (Odd k → x.significand = k) := by
  obtain ⟨j, hj⟩ := Int.eq_ofNat_of_zero_le (Int.sub_nonneg.mpr h)
  refine ⟨x.significand * 2 ^ j, ?_, fun hodd => ?_⟩
  · rw [magnitude, show x.exponent = j + q by omega, zpow_add₀ two_ne_zero, zpow_natCast]
    push_cast
    ring
  · have hj0 : j = 0 := by
      by_contra hne
      exact (Nat.not_even_iff_odd.mpr hodd) ((Nat.even_pow.mpr ⟨even_two, hne⟩).mul_left _)
    rw [hj0, pow_zero, mul_one]

theorem le_significand {x : Double} (h : -1074 < x.exponent) : leadingBit ≤ x.significand := by
  unfold exponent at h
  unfold significand
  split at h
  · exact absurd h (lt_irrefl _)
  · next hne =>
    rw [if_neg hne]
    omega

theorem exponent_le_of_magnitude_eq {x y : Double} (h : x.magnitude = y.magnitude) :
    y.exponent ≤ x.exponent := by
  by_contra hlt
  push Not at hlt
  have hx := magnitude_lt hlt
  have hy : (2 : ℚ) ^ 52 * 2 ^ y.exponent ≤ y.magnitude := by
    have hle : (2 : ℚ) ^ 52 ≤ y.significand := by
      exact_mod_cast le_significand (lt_of_le_of_lt x.le_exponent hlt)
    unfold magnitude
    gcongr
  exact absurd (h ▸ hx) (not_lt.mpr hy)

/-- Finite doubles of the same magnitude differ in nothing but the sign. -/
theorem fields_eq_of_magnitude_eq {x y : Double} (h : x.magnitude = y.magnitude) :
    x.exponentField = y.exponentField ∧ x.fractionField = y.fractionField := by
  have hexponent : x.exponent = y.exponent :=
    le_antisymm (exponent_le_of_magnitude_eq h.symm) (exponent_le_of_magnitude_eq h)
  have hsignificand : x.significand = y.significand := by
    unfold magnitude at h
    rw [hexponent] at h
    exact_mod_cast mul_right_cancel₀ (by positivity : (2 : ℚ) ^ y.exponent ≠ 0) h
  have hx := x.fractionField_lt
  have hy := y.fractionField_lt
  simp only [exponent, significand, beq_iff_eq] at hexponent hsignificand
  split_ifs at hexponent hsignificand <;> omega

section

variable {ρ : ℚ} {q : ℤ} {m : ℕ}

theorem abs_mul_sub_mul (a : ℚ) : |a * 2 ^ q - ρ * 2 ^ q| = |a - ρ| * 2 ^ q := by
  rw [← sub_mul, abs_mul, abs_of_pos (by positivity : (0 : ℚ) < 2 ^ q)]

/-- No double is nearer than the rounded number, and one that is as near but not the same has an
odd significand. -/
theorem IsRounding.le_abs (h : IsRounding ρ q m) (y : Double) :
    |m * 2 ^ q - ρ * 2 ^ q| ≤ |y.magnitude - ρ * 2 ^ q| ∧
      (|y.magnitude - ρ * 2 ^ q| = |m * 2 ^ q - ρ * 2 ^ q| → y.magnitude ≠ m * 2 ^ q →
        Even m ∧ Odd y.significand) := by
  have hunit : (0 : ℚ) < 2 ^ q := by positivity
  rcases le_or_gt q y.exponent with hle | hlt
  · obtain ⟨k, hk, hodd⟩ := exists_magnitude_eq hle
    rw [hk, abs_mul_sub_mul, abs_mul_sub_mul]
    refine ⟨mul_le_mul_of_nonneg_right (h.le k) hunit.le, fun heq hne => ?_⟩
    have hkm : k ≠ m := fun hkm => hne (by rw [hkm])
    obtain ⟨heven, hoddk⟩ := h.odd_of_eq (mul_right_cancel₀ hunit.ne' heq) hkm
    exact ⟨heven, (hodd hoddk).symm ▸ hoddk⟩
  · -- below the numbers with this unit, their least one is nearer
    have hq : q ≠ -1074 := by
      have := y.le_exponent
      omega
    have hle := h.normal.resolve_left hq
    have hsmall := magnitude_lt hlt
    have hstrict : |m * 2 ^ q - ρ * 2 ^ q| < |y.magnitude - ρ * 2 ^ q| := by
      have hbound : |(m : ℚ) - ρ| ≤ |2 ^ 52 - ρ| := by
        exact_mod_cast h.le (2 ^ 52)
      calc |m * 2 ^ q - ρ * 2 ^ q| = |(m : ℚ) - ρ| * 2 ^ q := abs_mul_sub_mul _
        _ ≤ |2 ^ 52 - ρ| * 2 ^ q := mul_le_mul_of_nonneg_right hbound hunit.le
        _ = ρ * 2 ^ q - 2 ^ 52 * 2 ^ q := by
          rw [abs_of_nonpos (by linarith)]
          ring
        _ < ρ * 2 ^ q - y.magnitude := by linarith
        _ ≤ |y.magnitude - ρ * 2 ^ q| := by
          rw [abs_sub_comm]
          exact le_abs_self _
    exact ⟨hstrict.le, fun heq _ => absurd heq hstrict.ne'⟩

/-! ## Packing -/

/-- The double of magnitude `m * 2 ^ q`, or the infinity if that is out of range. -/
def ofScaled (negative : Bool) (m : Nat) (q : Int) : Double :=
  let (m, q) := if m == 2 * leadingBit then (leadingBit, q + 1) else (m, q)
  if m < leadingBit then ofFields negative 0 m
  else if 971 < q then infinity negative
  else ofFields negative (q + 1075).toNat (m - leadingBit)

theorem ofRatio_eq (negative : Bool) (n d : Nat) :
    ofRatio negative n d = ofScaled negative (roundScaled n d (scaleOf n d)) (scaleOf n d) :=
  rfl

variable (negative : Bool)

theorem ofScaled_subnormal (hm : m < leadingBit) : ofScaled negative m q = ofFields negative 0 m := by
  have hne : (m == 2 * leadingBit) = false := by
    rw [beq_eq_false_iff_ne]
    omega
  rw [ofScaled, hne]
  exact if_pos hm

theorem ofScaled_normal (hm : leadingBit ≤ m) (hm' : m < 2 * leadingBit) : ofScaled negative m q =
    if 971 < q then infinity negative
    else ofFields negative (q + 1075).toNat (m - leadingBit) := by
  have hne : (m == 2 * leadingBit) = false := by
    rw [beq_eq_false_iff_ne]
    omega
  rw [ofScaled, hne]
  exact if_neg (Nat.not_lt.mpr hm)

theorem ofScaled_carry : ofScaled negative (2 * leadingBit) q = ofScaled negative leadingBit (q + 1) :=
  rfl

theorem isFinite_infinity : (infinity negative).isFinite = false := by
  rw [isFinite, infinity, exponentField_ofFields negative (by decide) (by decide)]
  rfl

theorem isNaN_infinity : (infinity negative).isNaN = false := by
  rw [isNaN, infinity, fractionField_ofFields negative (by decide) (by decide)]
  exact Bool.and_false _

theorem isNegative_infinity : (infinity negative).isNegative = negative :=
  isNegative_ofFields negative (by decide) (by decide)

theorem nearest_infinity {r : ℚ} (h : overflow ≤ r) : Nearest r (infinity negative) := by
  have hinfinite := isFinite_infinity negative
  refine ⟨isNaN_infinity negative, by simp [hinfinite, not_lt.mpr h], ?_, ?_⟩
  · exact fun hfinite => absurd (hinfinite.symm.trans hfinite) Bool.false_ne_true
  · exact fun hfinite => absurd (hinfinite.symm.trans hfinite) Bool.false_ne_true

theorem isNaN_of_isFinite {x : Double} (h : x.isFinite = true) : x.isNaN = false := by
  rw [isNaN, beq_eq_false_iff_ne.mpr (bne_iff_ne.mp h)]
  rfl

/-- A significand and an exponent that go together are those of the double. -/
theorem ofScaled_finite (hm : m < 2 * leadingBit) (hq : -1074 ≤ q) (hq' : q ≤ 971)
    (hn : q = -1074 ∨ leadingBit ≤ m) :
    (ofScaled negative m q).isFinite = true ∧ (ofScaled negative m q).significand = m ∧
      (ofScaled negative m q).exponent = q := by
  by_cases hsub : m < leadingBit
  · have hq0 : q = -1074 := hn.resolve_right (Nat.not_le.mpr hsub)
    rw [ofScaled_subnormal negative hsub, isFinite, significand, exponent,
      exponentField_ofFields negative (by decide) hsub, fractionField_ofFields negative (by decide) hsub]
    exact ⟨rfl, rfl, hq0.symm⟩
  · have hfield : (q + 1075).toNat < 0x800 := by omega
    have hfraction : m - leadingBit < leadingBit := by omega
    rw [ofScaled_normal negative (Nat.not_lt.mp hsub) hm, if_neg (by omega), isFinite, significand,
      exponent, exponentField_ofFields negative hfield hfraction,
      fractionField_ofFields negative hfield hfraction]
    have hne : ((q + 1075).toNat == 0) = false := beq_eq_false_iff_ne.mpr (by omega)
    rw [hne]
    refine ⟨bne_iff_ne.mpr (by omega), ?_, ?_⟩
    · show m - leadingBit + leadingBit = m
      omega
    · show ((q + 1075).toNat : Int) - 1075 = q
      omega

theorem isNegative_ofScaled (hm : m ≤ 2 * leadingBit) (hq : -1074 ≤ q) :
    (ofScaled negative m q).isNegative = negative := by
  have hnormal : ∀ {m : ℕ} {q : ℤ}, leadingBit ≤ m → m < 2 * leadingBit → -1074 ≤ q →
      (ofScaled negative m q).isNegative = negative := by
    intro m q hm hm' hq
    rw [ofScaled_normal negative hm hm']
    split
    · exact isNegative_infinity negative
    · exact isNegative_ofFields negative (by omega) (by omega)
  rcases Nat.lt_or_ge m leadingBit with hsub | hle
  · rw [ofScaled_subnormal negative hsub]
    exact isNegative_ofFields negative (by decide) hsub
  · rcases Nat.lt_or_eq_of_le hm with hlt | rfl
    · exact hnormal hle hlt hq
    · rw [ofScaled_carry]
      exact hnormal le_rfl (by decide) (by omega)

namespace IsRounding

theorem overflow_le (h : IsRounding ρ q m) (hq : 971 ≤ q) (hm : q = 971 → 2 ^ 53 ≤ m) :
    overflow ≤ ρ * 2 ^ q := by
  unfold overflow
  by_cases hq' : q = 971
  · have hnear := (abs_le.mp h.near).2
    have hm' : (2 : ℚ) ^ 53 ≤ m := by exact_mod_cast hm hq'
    rw [hq']
    gcongr
    linarith
  · have hle := h.normal.resolve_left (by omega)
    calc (2 ^ 53 - 1 / 2) * (2 : ℚ) ^ (971 : ℤ) ≤ 2 ^ 53 * 2 ^ (971 : ℤ) := by
          gcongr
          norm_num
      _ = 2 ^ 52 * 2 ^ (972 : ℤ) := by
          rw [show (972 : ℤ) = 971 + 1 from rfl, zpow_add_one₀ two_ne_zero]
          ring
      _ ≤ ρ * 2 ^ q := by
          gcongr
          · norm_num
          · omega

theorem lt_overflow_of_lt (h : IsRounding ρ q m) (hq : q < 971) : ρ * 2 ^ q < overflow := by
  have hlt := h.lt
  calc ρ * 2 ^ q < 2 ^ 53 * 2 ^ q := by gcongr
    _ ≤ 2 ^ 53 * 2 ^ (970 : ℤ) := by
      gcongr
      · norm_num
      · omega
    _ = 2 ^ 52 * 2 ^ (971 : ℤ) := by
      rw [show (971 : ℤ) = 970 + 1 from rfl, zpow_add_one₀ two_ne_zero]
      ring
    _ < overflow := by
      unfold overflow
      gcongr
      norm_num

/-- Halfway to the next power of two the even neighbour is that power. -/
theorem lt_overflow_of_significand (h : IsRounding ρ 971 m) (hm : m < 2 ^ 53) :
    ρ * 2 ^ (971 : ℤ) < overflow := by
  have hm' : (m : ℚ) ≤ 2 ^ 53 - 1 := by
    have : (m : ℚ) + 1 ≤ 2 ^ 53 := by exact_mod_cast hm
    linarith
  have hnear := (abs_le.mp h.near).1
  have hstrict : ρ < 2 ^ 53 - 1 / 2 := by
    refine lt_of_le_of_ne (by linarith) fun heq => ?_
    have hmq : (m : ℚ) = 2 ^ 53 - 1 := le_antisymm hm' (by linarith)
    have heven := h.even (by rw [hmq, heq]; norm_num)
    have hmn : m = 2 ^ 53 - 1 := by
      have : (m : ℚ) = ((2 ^ 53 - 1 : ℕ) : ℚ) := by rw [hmq]; norm_num
      exact_mod_cast this
    rw [hmn] at heven
    exact absurd heven (by decide)
  unfold overflow
  gcongr

/-- The rounded number is in range just when the number is. -/
theorem lt_overflow_iff (h : IsRounding ρ q m) :
    ρ * 2 ^ q < overflow ↔ q < 971 ∨ (q = 971 ∧ m < 2 ^ 53) := by
  constructor
  · intro hr
    by_contra hcon
    push Not at hcon
    exact absurd hr (not_lt.mpr (h.overflow_le hcon.1 hcon.2))
  · rintro (hq | ⟨rfl, hm⟩)
    · exact h.lt_overflow_of_lt hq
    · exact h.lt_overflow_of_significand hm

theorem ofScaled_of_lt (h : IsRounding ρ q m) (hr : ρ * 2 ^ q < overflow) :
    (ofScaled negative m q).isFinite = true ∧ (ofScaled negative m q).magnitude = m * 2 ^ q ∧
      (Even m → Even (ofScaled negative m q).significand) := by
  have hrange := h.lt_overflow_iff.mp hr
  have hm : m ≤ 2 * leadingBit := h.le_two_pow
  rcases Nat.lt_or_eq_of_le hm with hlt | rfl
  · have hnormal : q = -1074 ∨ leadingBit ≤ m := by
      by_cases hq : q = -1074
      · exact .inl hq
      · exact .inr (h.two_pow_le hq)
    obtain ⟨hfinite, hsignificand, hexponent⟩ :=
      ofScaled_finite negative hlt h.scale_le (by omega) hnormal
    rw [magnitude, hsignificand, hexponent]
    exact ⟨hfinite, rfl, id⟩
  · have hq : q < 971 := hrange.resolve_right fun hbad => absurd hbad.2 (by decide)
    have hlow := h.scale_le
    obtain ⟨hfinite, hsignificand, hexponent⟩ :=
      @ofScaled_finite (q + 1) leadingBit negative (by decide) (by omega) (by omega) (.inr le_rfl)
    rw [ofScaled_carry, magnitude, hsignificand, hexponent]
    refine ⟨hfinite, ?_, fun _ => by decide⟩
    rw [zpow_add_one₀ two_ne_zero]
    push_cast
    ring

theorem ofScaled_of_le (h : IsRounding ρ q m) (hr : overflow ≤ ρ * 2 ^ q) :
    ofScaled negative m q = infinity negative := by
  have hrange := mt h.lt_overflow_iff.mpr (not_lt.mpr hr)
  have hm : m ≤ 2 * leadingBit := h.le_two_pow
  have hle : leadingBit ≤ m := h.two_pow_le (by omega)
  have htop : 2 * leadingBit = 2 ^ 53 := rfl
  rcases Nat.lt_or_eq_of_le hm with hlt | rfl
  · rw [ofScaled_normal negative hle hlt, if_pos (by omega)]
  · rw [ofScaled_carry, ofScaled_normal negative le_rfl (by decide), if_pos (by omega)]

theorem nearest (h : IsRounding ρ q m) : Nearest (ρ * 2 ^ q) (ofScaled negative m q) := by
  rcases lt_or_ge (ρ * 2 ^ q) overflow with hr | hr
  · obtain ⟨hfinite, hmagnitude, heven⟩ := h.ofScaled_of_lt negative hr
    refine ⟨isNaN_of_isFinite hfinite, by simp [hfinite, hr], fun _ y _ => ?_, fun _ y _ heq hne => ?_⟩
    · rw [hmagnitude]
      exact (h.le_abs y).1
    · rw [hmagnitude] at heq hne
      exact heven ((h.le_abs y).2 heq hne).1
  · rw [h.ofScaled_of_le negative hr]
    exact nearest_infinity negative hr

/-- A finite double that the number is rounded to has the magnitude that rounding gives. -/
theorem magnitude_eq (h : IsRounding ρ q m) {x : Double} (hx : Nearest (ρ * 2 ^ q) x)
    (hr : ρ * 2 ^ q < overflow) : x.magnitude = m * 2 ^ q := by
  obtain ⟨hfinite, hmagnitude, -⟩ := h.ofScaled_of_lt false hr
  have hxf := hx.isFinite_iff.mpr hr
  by_contra hne
  have heq : |x.magnitude - ρ * 2 ^ q| = |m * 2 ^ q - ρ * 2 ^ q| := by
    refine le_antisymm ?_ (h.le_abs x).1
    rw [← hmagnitude]
    exact hx.le hxf _ hfinite
  have hodd := ((h.le_abs x).2 heq hne).2
  have heven := hx.even hxf _ hfinite (by rw [hmagnitude, heq]) (by rw [hmagnitude]; exact Ne.symm hne)
  exact Nat.not_even_iff_odd.mpr hodd heven

end IsRounding

end

/-! ## Ratios -/

theorem shiftLeft_div (d : ℕ) {q : ℤ} (hq : q < 0) (n : ℕ) :
    ((n <<< (-q).toNat : ℕ) : ℚ) / d = n / d / 2 ^ q := by
  have hpower : (2 : ℚ) ^ (-q).toNat = (2 ^ q)⁻¹ := by
    rw [← zpow_natCast, Int.toNat_of_nonneg (by omega), zpow_neg]
  rw [Nat.shiftLeft_eq]
  push_cast
  rw [hpower]
  ring

theorem div_shiftLeft (d : ℕ) {q : ℤ} (hq : 0 ≤ q) (n : ℕ) :
    (n : ℚ) / (d <<< q.toNat : ℕ) = n / d / 2 ^ q := by
  have hpower : (2 : ℚ) ^ q.toNat = 2 ^ q := by
    rw [← zpow_natCast, Int.toNat_of_nonneg hq]
  rw [Nat.shiftLeft_eq]
  push_cast
  rw [hpower, div_div]

section Ratio

variable {n d : ℕ} (hd : 0 < d)
include hd

theorem near_roundDiv (n : ℕ) : |(roundDiv n d : ℚ) - n / d| ≤ 1 / 2 ∧
    (|(roundDiv n d : ℚ) - n / d| = 1 / 2 → Even (roundDiv n d)) := by
  have hdq : (0 : ℚ) < d := by exact_mod_cast hd
  obtain ⟨f, hf⟩ : ∃ f : ℚ, f * d = (n % d : ℕ) := ⟨_, div_mul_cancel₀ _ hdq.ne'⟩
  have hratio : (n : ℚ) / d = (n / d : ℕ) + f := by
    have hsplit : (n : ℚ) = d * (n / d : ℕ) + (n % d : ℕ) := by
      exact_mod_cast (Nat.div_add_mod n d).symm
    rw [div_eq_iff hdq.ne', add_mul, hf]
    linarith
  have hf0 : 0 ≤ f := nonneg_of_mul_nonneg_left (hf ▸ Nat.cast_nonneg _) hdq
  have hf1 : f < 1 := by
    have hlt : ((n % d : ℕ) : ℚ) < d := by exact_mod_cast Nat.mod_lt n hd
    exact lt_of_mul_lt_mul_right (by rw [hf, one_mul]; exact hlt) hdq.le
  have hhalf : ∀ {a b : ℚ}, a * d < b * d → a < b := fun h => lt_of_mul_lt_mul_right h hdq.le
  -- the quotient is below by `f`, and the next number above by the rest
  have hbelow : |((n / d : ℕ) : ℚ) - n / d| = f := by
    rw [hratio, sub_add_cancel_left, abs_neg, abs_of_nonneg hf0]
  have habove : |((n / d + 1 : ℕ) : ℚ) - n / d| = 1 - f := by
    rw [hratio, abs_of_nonneg (by push_cast; linarith)]
    push_cast
    ring
  unfold roundDiv
  dsimp only
  by_cases hlt : 2 * (n % d) < d
  · have hsmall : 2 * f < 1 := by
      refine hhalf ?_
      rw [mul_assoc, hf, one_mul]
      exact_mod_cast hlt
    rw [if_pos hlt, hbelow]
    exact ⟨by linarith, fun heq => by linarith⟩
  · by_cases hgt : d < 2 * (n % d)
    · have hlarge : 1 < 2 * f := by
        refine hhalf ?_
        rw [mul_assoc, hf, one_mul]
        exact_mod_cast hgt
      rw [if_neg hlt, if_pos hgt, habove]
      exact ⟨by linarith, fun heq => by linarith⟩
    · have hequal : 2 * f = 1 := by
        refine mul_right_cancel₀ hdq.ne' ?_
        rw [mul_assoc, hf, one_mul]
        exact_mod_cast (by omega : 2 * (n % d) = d)
      rw [if_neg hlt, if_neg hgt]
      by_cases heven : n / d % 2 = 0
      · rw [if_pos (beq_iff_eq.mpr heven), hbelow]
        exact ⟨by linarith, fun _ => Nat.even_iff.mpr heven⟩
      · rw [if_neg (mt beq_iff_eq.mp heven), habove]
        exact ⟨by linarith, fun _ => Nat.even_add_one.mpr (mt Nat.even_iff.mp heven)⟩

theorem near_roundScaled (n : ℕ) (q : ℤ) : |(roundScaled n d q : ℚ) - n / d / 2 ^ q| ≤ 1 / 2 ∧
    (|(roundScaled n d q : ℚ) - n / d / 2 ^ q| = 1 / 2 → Even (roundScaled n d q)) := by
  unfold roundScaled
  split
  · next hq =>
    rw [← div_shiftLeft d hq]
    exact near_roundDiv (by rw [Nat.shiftLeft_eq]; positivity) n
  · next hq =>
    rw [← shiftLeft_div d (by omega)]
    exact near_roundDiv hd _

/-- The comparison by which the scale is corrected. -/
theorem shifted_lt_iff (n : ℕ) (q : ℤ) :
    (if 0 ≤ q then n < d <<< q.toNat else n <<< (-q).toNat < d) ↔ (n : ℚ) / d < 2 ^ q := by
  have hdq : (0 : ℚ) < d := by exact_mod_cast hd
  rw [← div_lt_one (by positivity : (0 : ℚ) < 2 ^ q)]
  split
  · next hq =>
    have hshift : 0 < d <<< q.toNat := by
      rw [Nat.shiftLeft_eq]
      positivity
    rw [← div_shiftLeft d hq, div_lt_one (by exact_mod_cast hshift), Nat.cast_lt]
  · next hq => rw [← shiftLeft_div d (by omega), div_lt_one hdq, Nat.cast_lt]

theorem ratio_log2_bounds (hn : 0 < n) :
    (2 : ℚ) ^ ((n.log2 : ℤ) - d.log2 - 1) ≤ (n : ℚ) / d ∧
      (n : ℚ) / d < 2 ^ ((n.log2 : ℤ) - d.log2 + 1) := by
  have hdq : (0 : ℚ) < d := by exact_mod_cast hd
  have hn₁ : (2 : ℚ) ^ (n.log2 : ℤ) ≤ n := by
    exact_mod_cast Nat.log2_self_le hn.ne'
  have hn₂ : (n : ℚ) < 2 ^ ((n.log2 : ℤ) + 1) := by
    exact_mod_cast Nat.lt_log2_self
  have hd₁ : (2 : ℚ) ^ (d.log2 : ℤ) ≤ d := by
    exact_mod_cast Nat.log2_self_le hd.ne'
  have hd₂ : (d : ℚ) < 2 ^ ((d.log2 : ℤ) + 1) := by
    exact_mod_cast Nat.lt_log2_self
  constructor
  · rw [le_div_iff₀ hdq]
    calc (2 : ℚ) ^ ((n.log2 : ℤ) - d.log2 - 1) * d
        ≤ 2 ^ ((n.log2 : ℤ) - d.log2 - 1) * 2 ^ ((d.log2 : ℤ) + 1) := by gcongr
      _ = 2 ^ (n.log2 : ℤ) := by
        rw [← zpow_add₀ two_ne_zero]
        congr 1
        ring
      _ ≤ n := hn₁
  · rw [div_lt_iff₀ hdq]
    calc (n : ℚ) < 2 ^ ((n.log2 : ℤ) + 1) := hn₂
      _ = 2 ^ ((n.log2 : ℤ) - d.log2 + 1) * 2 ^ (d.log2 : ℤ) := by
        rw [← zpow_add₀ two_ne_zero]
        congr 1
        ring
      _ ≤ 2 ^ ((n.log2 : ℤ) - d.log2 + 1) * d := by gcongr

/-- Before the limit on the scale, a ratio has fifty-three binary digits in front of its last
place. -/
theorem exists_scale (hn : 0 < n) : ∃ q : ℤ, scaleOf n d = max q (-1074) ∧
    (2 : ℚ) ^ (q + 52) ≤ n / d ∧ (n : ℚ) / d < 2 ^ (q + 53) := by
  obtain ⟨hlow, hhigh⟩ := ratio_log2_bounds hd hn
  have hcorrect := shifted_lt_iff hd n ((n.log2 : ℤ) - d.log2 - 52 + 52)
  rw [sub_add_cancel] at hcorrect
  unfold scaleOf
  dsimp only
  rw [sub_add_cancel]
  by_cases hshort : (n : ℚ) / d < 2 ^ ((n.log2 : ℤ) - d.log2)
  · refine ⟨(n.log2 : ℤ) - d.log2 - 52 - 1, by rw [if_pos (hcorrect.mpr hshort)], ?_, ?_⟩
    · rwa [show (n.log2 : ℤ) - d.log2 - 52 - 1 + 52 = n.log2 - d.log2 - 1 by ring]
    · rwa [show (n.log2 : ℤ) - d.log2 - 52 - 1 + 53 = n.log2 - d.log2 by ring]
  · refine ⟨(n.log2 : ℤ) - d.log2 - 52, by rw [if_neg (mt hcorrect.mp hshort)], ?_, ?_⟩
    · rw [sub_add_cancel]
      exact not_lt.mp hshort
    · rwa [show (n.log2 : ℤ) - d.log2 - 52 + 53 = n.log2 - d.log2 + 1 by ring]

theorem isRounding_ratio (hn : 0 < n) : IsRounding (n / d / 2 ^ scaleOf n d) (scaleOf n d)
    (roundScaled n d (scaleOf n d)) := by
  obtain ⟨q, hscale, hlow, hhigh⟩ := exists_scale hd hn
  have hunit : (0 : ℚ) < 2 ^ scaleOf n d := by positivity
  obtain ⟨hnear, heven⟩ := near_roundScaled hd n (scaleOf n d)
  refine ⟨hscale ▸ le_max_right _ _, ?_, ?_, hnear, heven⟩
  · rw [div_lt_iff₀ hunit]
    calc (n : ℚ) / d < 2 ^ (q + 53) := hhigh
      _ = 2 ^ 53 * 2 ^ q := by
        rw [zpow_add₀ two_ne_zero, mul_comm]
        rfl
      _ ≤ 2 ^ 53 * 2 ^ scaleOf n d := by
        gcongr
        · norm_num
        · exact hscale ▸ le_max_left _ _
  · rcases max_choice q (-1074) with hq | hq
    · refine .inr ?_
      rw [le_div_iff₀ hunit, hscale, hq, ← zpow_natCast, ← zpow_add₀ two_ne_zero, add_comm]
      exact hlow
    · exact .inl (hscale.trans hq)

theorem nearest_ofRatio (negative : Bool) (hn : 0 < n) : Nearest (n / d) (ofRatio negative n d) := by
  have hnearest := (isRounding_ratio hd hn).nearest negative
  rw [div_mul_cancel₀ _ (by positivity)] at hnearest
  rw [ofRatio_eq]
  exact hnearest

end Ratio

/-! ## Uniqueness -/

theorem exists_isRounding {r : ℚ} (hr : 0 ≤ r) : ∃ ρ q m, IsRounding ρ q m ∧ r = ρ * 2 ^ q := by
  obtain ⟨n, hn⟩ := Int.eq_ofNat_of_zero_le (Rat.num_nonneg.mpr hr)
  have hratio : r = (n : ℚ) / r.den := by
    conv_lhs => rw [← Rat.num_div_den r, hn]
    rfl
  rcases Nat.eq_zero_or_pos n with rfl | hpos
  · refine ⟨0, -1074, 0, ⟨le_rfl, by norm_num, .inl rfl, by norm_num, fun _ => Even.zero⟩, ?_⟩
    rw [hratio]
    simp
  · refine ⟨_, _, _, isRounding_ratio r.den_pos hpos, ?_⟩
    rw [div_mul_cancel₀ _ (by positivity)]
    exact hratio

/-- **There is only one double that a number is rounded to.** -/
theorem Nearest.unique {r : ℚ} {x y : Double} (hr : 0 ≤ r) (hx : Nearest r x) (hy : Nearest r y)
    (hs : x.isNegative = y.isNegative) : x = y := by
  obtain ⟨ρ, q, m, h, rfl⟩ := exists_isRounding hr
  rcases lt_or_ge (ρ * 2 ^ q) overflow with hlt | hge
  · have hmagnitude := (h.magnitude_eq hx hlt).trans (h.magnitude_eq hy hlt).symm
    obtain ⟨he, hf⟩ := fields_eq_of_magnitude_eq hmagnitude
    exact ext_fields hs he hf
  · have hinfinite : ∀ {z : Double}, Nearest (ρ * 2 ^ q) z →
        z.exponentField = 0x7FF ∧ z.fractionField = 0 := by
      intro z hz
      have hfinite := mt hz.isFinite_iff.mp (not_lt.mpr hge)
      have hnan := hz.isNaN
      simp [isFinite, Double.isNaN] at hfinite hnan
      exact ⟨hfinite, hnan hfinite⟩
    obtain ⟨hxe, hxf⟩ := hinfinite hx
    obtain ⟨hye, hyf⟩ := hinfinite hy
    exact ext_fields hs (hxe.trans hye.symm) (hxf.trans hyf.symm)

/-! ## Decimal numbers -/

section Decimal

variable (negative : Bool)

theorem nearest_zero {ρ : ℚ} (hρ : 0 ≤ ρ) (h : ρ < 1 / 2) :
    Nearest (ρ * 2 ^ (-1074 : ℤ)) (ofFields negative 0 0) := by
  have habs : |((0 : ℕ) : ℚ) - ρ| = ρ := by
    rw [Nat.cast_zero, zero_sub, abs_neg, abs_of_nonneg hρ]
  have hrounding : IsRounding ρ (-1074) 0 :=
    ⟨le_rfl, by linarith, .inl rfl, by rw [habs]; exact h.le, fun _ => Even.zero⟩
  exact hrounding.nearest negative

theorem overflow_le : overflow ≤ (10 : ℚ) ^ (310 : ℤ) := by
  have hpowers : (2 : ℚ) ^ (1024 : ℤ) ≤ 10 ^ (310 : ℤ) := by
    exact_mod_cast (by decide +kernel : (2 : ℕ) ^ 1024 ≤ 10 ^ 310)
  calc overflow ≤ 2 ^ (53 : ℤ) * 2 ^ (971 : ℤ) := by
        unfold overflow
        gcongr
        norm_num
    _ = 2 ^ (1024 : ℤ) := by
        rw [← zpow_add₀ two_ne_zero]
        rfl
    _ ≤ 10 ^ (310 : ℤ) := hpowers

theorem tiny_lt : (10 : ℚ) ^ (-331 : ℤ) / 2 ^ (-1074 : ℤ) < 1 / 2 := by
  have hpowers : (2 : ℚ) ^ (1075 : ℤ) < 10 ^ (331 : ℤ) := by
    exact_mod_cast (by decide +kernel : (2 : ℕ) ^ 1075 < 10 ^ 331)
  rw [zpow_neg, zpow_neg, div_inv_eq_mul, inv_mul_lt_iff₀ (by positivity)]
  calc (2 : ℚ) ^ (1074 : ℤ) = 2 ^ (1075 : ℤ) * (1 / 2) := by
        rw [show (1075 : ℤ) = 1074 + 1 from rfl, zpow_add_one₀ two_ne_zero]
        ring
    _ < 10 ^ (331 : ℤ) * (1 / 2) := by gcongr

/-- The place of the first digit of a number. -/
theorem decimal_bounds {m : ℕ} (hm : m ≠ 0) (e : ℤ) :
    (10 : ℚ) ^ (e + (Nat.toDigits 10 m).length - 1) ≤ m * 10 ^ e ∧
      m * (10 : ℚ) ^ e < 10 ^ (e + (Nat.toDigits 10 m).length) := by
  obtain ⟨k, hk⟩ : ∃ k, (Nat.toDigits 10 m).length = k + 1 :=
    Nat.exists_eq_succ_of_ne_zero (Nat.ne_of_gt Nat.length_toDigits_pos)
  have hhigh : (m : ℚ) < 10 ^ (k + 1) := by
    exact_mod_cast (Nat.length_toDigits_le_iff (by decide) k.succ_pos).mp hk.le
  have hlow : (10 : ℚ) ^ k ≤ m := by
    rcases Nat.eq_zero_or_pos k with rfl | hpos
    · exact_mod_cast Nat.pos_of_ne_zero hm
    · have hlt := mt (Nat.length_toDigits_le_iff (by decide) hpos).mpr
        (show ¬ (Nat.toDigits 10 m).length ≤ k by omega)
      exact_mod_cast not_lt.mp hlt
  have hten : (10 : ℚ) ≠ 0 := by norm_num
  rw [hk]
  constructor
  · rw [show e + ((k + 1 : ℕ) : ℤ) - 1 = k + e by push_cast; ring, zpow_add₀ hten, zpow_natCast]
    gcongr
  · rw [show e + ((k + 1 : ℕ) : ℤ) = ((k + 1 : ℕ) : ℤ) + e by ring, zpow_add₀ hten, zpow_natCast]
    gcongr

/-- **Decimal numbers are read to the nearest double.** -/
theorem nearest_ofDecimal (m : ℕ) (e : ℤ) : Nearest (m * 10 ^ e) (ofDecimal negative m e) := by
  unfold ofDecimal
  by_cases hm : m = 0
  · subst hm
    have hzero := nearest_zero negative le_rfl (by norm_num)
    rw [zero_mul] at hzero
    rw [Nat.cast_zero, zero_mul]
    exact hzero
  obtain ⟨hlow, hhigh⟩ := decimal_bounds hm e
  have hten : (1 : ℚ) ≤ 10 := by norm_num
  rw [if_neg (by simpa using hm)]
  dsimp only
  split_ifs with hlarge hsmall he
  · refine nearest_infinity negative (overflow_le.trans (le_trans ?_ hlow))
    exact zpow_le_zpow_right₀ hten (by omega)
  · have hunit : (0 : ℚ) < 2 ^ (-1074 : ℤ) := by positivity
    have htiny : m * (10 : ℚ) ^ e / 2 ^ (-1074 : ℤ) < 1 / 2 := by
      refine lt_of_le_of_lt ?_ tiny_lt
      refine div_le_div_of_nonneg_right (hhigh.le.trans ?_) hunit.le
      exact zpow_le_zpow_right₀ hten (by omega)
    have hzero := nearest_zero negative (by positivity) htiny
    rwa [div_mul_cancel₀ _ hunit.ne'] at hzero
  · have hpower : (m : ℚ) * 10 ^ e = (m * 10 ^ e.toNat : ℕ) / (1 : ℕ) := by
      rw [Nat.cast_one, div_one, Nat.cast_mul, Nat.cast_pow, ← zpow_natCast, Int.toNat_of_nonneg he]
      rfl
    rw [hpower]
    exact nearest_ofRatio one_pos negative (by positivity)
  · have hpower : (m : ℚ) * 10 ^ e = m / (10 ^ (-e).toNat : ℕ) := by
      rw [Nat.cast_pow, ← zpow_natCast, Int.toNat_of_nonneg (by omega), zpow_neg, div_inv_eq_mul]
      rfl
    rw [hpower]
    exact nearest_ofRatio (by positivity) negative (Nat.pos_of_ne_zero hm)

theorem isNegative_ofRatio {n d : ℕ} (hn : 0 < n) (hd : 0 < d) :
    (ofRatio negative n d).isNegative = negative :=
  let h := isRounding_ratio hd hn
  isNegative_ofScaled negative h.le_two_pow h.scale_le

theorem isNegative_ofDecimal (m : ℕ) (e : ℤ) : (ofDecimal negative m e).isNegative = negative := by
  have hzero := @isNegative_ofFields 0 0 negative (by decide) (by decide)
  unfold ofDecimal
  by_cases hm : m = 0
  · rw [if_pos (by simpa using hm)]
    exact hzero
  have hpos := Nat.pos_of_ne_zero hm
  rw [if_neg (by simpa using hm)]
  dsimp only
  split_ifs
  · exact isNegative_infinity negative
  · exact hzero
  · exact isNegative_ofRatio negative (Nat.mul_pos hpos (Nat.pow_pos (by decide))) one_pos
  · exact isNegative_ofRatio negative hpos (Nat.pow_pos (by decide))

end Decimal

/-- Turning the sign of a number does not change what it is near to. -/
theorem Nearest.negate {r : ℚ} {x : Double} (h : Nearest r x) (hs : x.isNegative = false) :
    Nearest r x.negate := by
  have he := exponentField_negate hs
  have hf := fractionField_negate hs
  have hfinite : x.negate.isFinite = x.isFinite := by rw [isFinite, isFinite, he]
  have hsignificand : x.negate.significand = x.significand := by
    rw [significand, significand, he, hf]
  have hmagnitude : x.negate.magnitude = x.magnitude := by
    rw [magnitude, magnitude, hsignificand, exponent, exponent, he]
  refine ⟨?_, ?_, ?_, ?_⟩
  · rw [Double.isNaN, he, hf]
    exact h.isNaN
  · rw [hfinite]
    exact h.isFinite_iff
  · rw [hfinite, hmagnitude]
    exact h.le
  · rw [hfinite, hmagnitude, hsignificand]
    exact h.even

end Componentry.Double
