import Componentry.Decimal.Double

/-!
# The fields of doubles

The 64 bits of a double are a sign, an exponent field below `0x800` and a fraction field below
`leadingBit`.  `ofFields` puts the three together and the field functions take them apart again; a
double is determined by them (`ext_fields`).
-/

namespace Componentry.Double

theorem leadingBit_eq : leadingBit = 0x10000000000000 :=
  rfl

/-! ## Taking a number apart -/

theorem exponentField_eq (x : Double) : x.exponentField = x.bits.toNat / leadingBit % 0x800 := by
  rw [exponentField, UInt64.toNat_and, UInt64.toNat_shiftRight, Nat.shiftRight_eq_div_pow]
  exact Nat.and_two_pow_sub_one_eq_mod _ 11

theorem fractionField_eq (x : Double) : x.fractionField = x.bits.toNat % leadingBit := by
  rw [fractionField, UInt64.toNat_and]
  exact Nat.and_two_pow_sub_one_eq_mod _ 52

theorem isNegative_iff (x : Double) : x.isNegative = true ↔ 0x800 * leadingBit ≤ x.bits.toNat := by
  have hlt : x.bits.toNat < 2 * (0x800 * leadingBit) := x.bits.toNat_lt
  have hshift : (x.bits >>> 63).toNat = x.bits.toNat / (0x800 * leadingBit) := by
    rw [UInt64.toNat_shiftRight, Nat.shiftRight_eq_div_pow]
    rfl
  rw [isNegative, beq_iff_eq, ← UInt64.toNat_inj, hshift]
  show x.bits.toNat / (0x800 * leadingBit) = 1 ↔ _
  rw [leadingBit_eq] at hlt ⊢
  omega

/-- The sign and the two fields are all there is to a number. -/
theorem ext_fields {x y : Double} (hs : x.isNegative = y.isNegative)
    (he : x.exponentField = y.exponentField) (hf : x.fractionField = y.fractionField) : x = y := by
  have hbits : x.bits.toNat = y.bits.toNat := by
    have hx : x.bits.toNat < 2 * (0x800 * leadingBit) := x.bits.toNat_lt
    have hy : y.bits.toNat < 2 * (0x800 * leadingBit) := y.bits.toNat_lt
    rw [exponentField_eq, exponentField_eq] at he
    rw [fractionField_eq, fractionField_eq] at hf
    rw [Bool.eq_iff_iff, isNegative_iff, isNegative_iff] at hs
    rw [leadingBit_eq] at *
    omega
  cases x
  cases y
  exact congrArg Double.mk (UInt64.toNat_inj.mp hbits)

theorem fractionField_lt (x : Double) : x.fractionField < leadingBit := by
  rw [fractionField_eq]
  exact Nat.mod_lt _ (by decide)

theorem significand_lt (x : Double) : x.significand < 2 * leadingBit := by
  have hfraction := x.fractionField_lt
  unfold significand
  split <;> omega

theorem exponent_le {x : Double} (h : x.isFinite = true) : x.exponent ≤ 971 := by
  have hfield : x.exponentField < 0x800 := by
    rw [exponentField_eq]
    exact Nat.mod_lt _ (by decide)
  have hne : x.exponentField ≠ 0x7FF := bne_iff_ne.mp h
  unfold exponent
  split <;> omega

theorem le_exponent (x : Double) : -1074 ≤ x.exponent := by
  unfold exponent
  split
  · exact Int.le_refl _
  · next h =>
    have hne : x.exponentField ≠ 0 := fun he => h (beq_iff_eq.mpr he)
    omega

/-! ## Putting a number together -/

section ofFields

variable {e f : Nat} (negative : Bool)

theorem toNat_bits_ofFields (he : e < 0x800) (hf : f < leadingBit) :
    (ofFields negative e f).bits.toNat =
      (if negative then 0x800 * leadingBit else 0) + (e * leadingBit + f) := by
  have hword : e * leadingBit + f < 0x800 * leadingBit := by
    rw [leadingBit_eq] at hf ⊢
    omega
  have hsize : 2 * (0x800 * leadingBit) = UInt64.size := rfl
  have hlead : 0 < leadingBit := by decide
  have hshift : (UInt64.ofNat e <<< 52).toNat = e <<< 52 := by
    rw [UInt64.toNat_shiftLeft, UInt64.toNat_ofNat_of_lt' (by omega)]
    show e <<< 52 % UInt64.size = e <<< 52
    exact Nat.mod_eq_of_lt (by rw [Nat.shiftLeft_eq]; show e * leadingBit < _; omega)
  have hlow : (e <<< 52 ||| f) = e * leadingBit + f := by
    rw [← Nat.shiftLeft_add_eq_or_of_lt hf, Nat.shiftLeft_eq]
    rfl
  rw [ofFields, UInt64.toNat_or, UInt64.toNat_or, hshift, UInt64.toNat_ofNat_of_lt' (by omega),
    Nat.or_assoc, hlow]
  cases negative with
  | false =>
    show 0 ||| _ = _
    rw [Nat.zero_or, if_neg Bool.false_ne_true, Nat.zero_add]
  | true =>
    show 1 <<< 63 ||| _ = _
    rw [← Nat.shiftLeft_add_eq_or_of_lt hword]
    rfl

theorem exponentField_ofFields (he : e < 0x800) (hf : f < leadingBit) :
    (ofFields negative e f).exponentField = e := by
  rw [exponentField_eq, toNat_bits_ofFields negative he hf]
  rw [leadingBit_eq] at hf ⊢
  split <;> omega

theorem fractionField_ofFields (he : e < 0x800) (hf : f < leadingBit) :
    (ofFields negative e f).fractionField = f := by
  rw [fractionField_eq, toNat_bits_ofFields negative he hf]
  rw [leadingBit_eq] at hf ⊢
  split <;> omega

theorem isNegative_ofFields (he : e < 0x800) (hf : f < leadingBit) :
    (ofFields negative e f).isNegative = negative := by
  rw [Bool.eq_iff_iff, isNegative_iff, toNat_bits_ofFields negative he hf]
  rw [leadingBit_eq] at hf ⊢
  cases negative with
  | false => simpa using by omega
  | true => simp

end ofFields

/-! ## Turning the sign -/

section negate

variable {x : Double} (h : x.isNegative = false)
include h

theorem toNat_bits_negate : x.negate.bits.toNat = 0x800 * leadingBit + x.bits.toNat := by
  have hlt : x.bits.toNat < 0x800 * leadingBit := by
    refine Nat.lt_of_not_le fun hge => ?_
    rw [(isNegative_iff x).mpr hge] at h
    cases h
  rw [negate, UInt64.toNat_xor]
  show x.bits.toNat ^^^ (1 <<< 63) = 1 <<< 63 + _
  rw [Nat.shiftLeft_add_eq_or_of_lt hlt]
  refine Nat.eq_of_testBit_eq fun i => ?_
  rw [Nat.testBit_xor, Nat.testBit_or, Nat.testBit_shiftLeft]
  by_cases hi : i = 63
  · subst hi
    rw [Nat.testBit_lt_two_pow hlt]
    rfl
  · have hbit : Nat.testBit 1 (i - 63) = false ∨ ¬ 63 ≤ i := by
      by_cases hle : 63 ≤ i
      · exact .inl (Nat.testBit_lt_two_pow (Nat.one_lt_two_pow (by omega)))
      · exact .inr hle
    rcases hbit with hbit | hbit <;> simp [hbit]

theorem isNegative_negate : x.negate.isNegative = true := by
  rw [isNegative_iff, toNat_bits_negate h]
  omega

theorem exponentField_negate : x.negate.exponentField = x.exponentField := by
  rw [exponentField_eq, exponentField_eq, toNat_bits_negate h, leadingBit_eq]
  omega

theorem fractionField_negate : x.negate.fractionField = x.fractionField := by
  rw [fractionField_eq, fractionField_eq, toNat_bits_negate h, leadingBit_eq]
  omega

end negate

end Componentry.Double
