/-
Great numbers as floats. A whole number is rounded to 53 bits, and
rounding never takes a number below a power of two that it reaches. So a
number of `2 ^ 63` or more stays out of the range of script integers
when it is read as a float, whichever way it is rounded.

Rounding shifts a significand to the right until 53 bits are left, adds
one in the last place where that is nearer, and shifts again if this
gave a 54th bit. Both shifts are the same function and each leaves 53
bits (`shiftToTargetExponent_normal`).
-/
import Mathlib.Algebra.Group.Nat.Defs
import Mathlib.Data.Nat.Log
import TickScript.Number.Reading

namespace TickScript.Number

open Float.Model Float.Model.UnpackedFloat

-- ============================================================== shifting

/-- Shifting to the right divides, and drops what does not fit. -/
theorem mantissa_shiftRight (em : ExtendedMantissa) (k : Nat) :
    (em >>> k).mantissa = em.mantissa / 2 ^ k := by
  induction k with
  | zero => exact (Nat.div_one _).symm
  | succ k ih =>
      show (em >>> k).mantissa / 2 = _
      rw [ih, Nat.div_div_eq_div_mul, Nat.pow_succ]

/-- Shifting to the left moves the leading bit. -/
theorem log2_shiftLeft {n : Nat} (hn : n ≠ 0) (k : Nat) : (n <<< k).log2 = n.log2 + k := by
  induction k with
  | zero => rfl
  | succ k ih =>
      have hne : n <<< k ≠ 0 := by
        rw [Nat.shiftLeft_eq]
        exact Nat.mul_ne_zero hn (Nat.two_pow_pos k).ne'
      rw [Nat.shiftLeft_succ, Nat.log2_two_mul hne, ih]
      rfl

/-- Rounding adds one or nothing. -/
theorem le_roundedMantissa (em : ExtendedMantissa) : em.mantissa ≤ em.roundedMantissa := by
  obtain ⟨m, round, sticky⟩ := em
  cases round <;> cases sticky <;>
    simp [ExtendedMantissa.roundedMantissa, ExtendedMantissa.accuracy,
      Accuracy.roundToNearestEven]

/-- A significand of 53 bits or more is shifted to 53 bits, and the
exponent takes up what is shifted out. -/
theorem shiftToTargetExponent_normal {m : Nat} {e : Int} (hm : 52 ≤ m.log2) (he : -1074 ≤ e) :
    (shiftToTargetExponent .binary64 m e .exact).1.mantissa.log2 = 52
      ∧ (shiftToTargetExponent .binary64 m e .exact).2 = e + m.log2 - 52 := by
  have htarget : Format.binary64.targetExponent (totalExponent m e) = e + m.log2 - 52 := by
    show max ((m.log2 : Int) + 1 + e - 53) (-1074) = e + m.log2 - 52
    omega
  have hk : (e + m.log2 - 52 - e).toNat = m.log2 - 52 := by omega
  simp only [shiftToTargetExponent, shiftToExponent, htarget, hk, mantissa_shiftRight]
  refine ⟨?_, by omega⟩
  show (m / 2 ^ (m.log2 - 52)).log2 = 52
  rw [Nat.log2_eq_log_two, Nat.log_div_base_pow, ← Nat.log2_eq_log_two]
  omega

/-- A significand of 53 bits or more is rounded to 53 bits, and its
leading bit stays where it is or moves up. -/
theorem roundWithAccuracy_normal (s : Sign) {m : Nat} {e : Int} (hm : 52 ≤ m.log2)
    (he : -1074 ≤ e) : ∃ m' e' hpos, roundWithAccuracy .binary64 s m e .exact = .finite s m' e' hpos
      ∧ m'.log2 = 52 ∧ e + m.log2 - 52 ≤ e' := by
  obtain ⟨hfirst, hexp⟩ := shiftToTargetExponent_normal hm he
  generalize hem : shiftToTargetExponent .binary64 m e .exact = first at hfirst hexp
  obtain ⟨em, e₁⟩ := first
  have hround : 52 ≤ em.roundedMantissa.log2 := by
    have hne : em.mantissa ≠ 0 := by
      intro h
      simp [h] at hfirst
    have hle := le_roundedMantissa em
    have h52 : 2 ^ 52 ≤ em.mantissa := hfirst ▸ Nat.log2_self_le hne
    exact (Nat.le_log2 (by omega)).2 (Nat.le_trans h52 hle)
  obtain ⟨hsecond, hexp'⟩ := shiftToTargetExponent_normal hround (by omega : -1074 ≤ e₁)
  have hpos : (shiftToTargetExponent .binary64 em.roundedMantissa e₁ .exact).1.mantissa ≠ 0 := by
    intro h
    simp [h] at hsecond
  refine ⟨_, (shiftToTargetExponent .binary64 em.roundedMantissa e₁ .exact).2,
    Nat.pos_of_ne_zero hpos, ?_, hsecond, by omega⟩
  unfold roundWithAccuracy
  rw [hem]
  exact dif_neg hpos

-- =============================================================== packing

theorem toNat_packComponents (e : BitVec 11) (m : BitVec 52) :
    (packComponents .binary64 .positive e m).toNat = e.toNat * 2 ^ 52 + m.toNat := by
  simp only [packComponents, Sign.toBitVec, BitVec.toNat_append]
  rw [← Nat.shiftLeft_add_eq_or_of_lt m.isLt, ← Nat.shiftLeft_add_eq_or_of_lt e.isLt]
  simp [Nat.shiftLeft_eq]

/-- The bits of a significand of 53 bits with its exponent: the leading
bit is left out, and an exponent out of range makes the float infinite. -/
theorem toNat_toBits_pack {m : Nat} {e : Int} (hpos : 0 < m) (hm : m.log2 = 52) (he : -1074 ≤ e) :
    (Float.ofModel (Float.Model.pack (.finite .positive m e hpos))).toBits.toNat
      = if 2046 < e + 1075 then 2047 * 2 ^ 52 else (e + 1075).toNat * 2 ^ 52 + m % 2 ^ 52 := by
  have hpack : UnpackedFloat.pack .binary64 (.finite .positive m e hpos)
      = if 2 ^ 11 ≤ (e + 1023 + 52).toNat + 1 then packedInfinity .binary64 .positive
        else if m.log2 + 1 = 53 then
          packComponents .binary64 .positive (.ofNat 11 (e + 1023 + 52).toNat) (.ofNat 52 m)
        else packComponents .binary64 .positive 0 (.ofNat 52 m) := rfl
  have hbiased : e + 1023 + 52 = e + 1075 := by omega
  show (UnpackedFloat.pack .binary64 (.finite .positive m e hpos)).toNat = _
  rw [hpack, hbiased]
  by_cases hbig : 2046 < e + 1075
  · rw [if_pos hbig, if_pos (by omega)]
    exact toNat_packComponents _ _
  · rw [if_neg hbig, if_neg (by omega), if_pos (by omega), toNat_packComponents,
      BitVec.toNat_ofNat, BitVec.toNat_ofNat, Nat.mod_eq_of_lt]
    show (e + 1075).toNat < 2 ^ 11
    omega

/-- A packed float is taken apart again. -/
theorem ofFloat_pack {m : Nat} {e : Int} (hpos : 0 < m) (hm : m.log2 = 52) (he : -1074 ≤ e) :
    Binary.ofFloat (Float.ofModel (Float.Model.pack (.finite .positive m e hpos)))
      = if 2046 < e + 1075 then .infinite false else .finite false m e := by
  have hbits := toNat_toBits_pack hpos hm he
  unfold Binary.ofFloat
  generalize (Float.ofModel _).toBits.toNat = bits at hbits ⊢
  subst hbits
  simp only [twoTo]
  by_cases hbig : 2046 < e + 1075
  · rw [if_pos hbig, if_pos hbig]
    rfl
  · obtain ⟨hlow, hhigh⟩ := (Nat.log2_eq_iff (by omega)).1 hm
    have hfraction : m % 2 ^ 52 = m - 2 ^ 52 := by
      rw [Nat.mod_eq_sub_mod hlow, Nat.mod_eq_of_lt (by omega)]
    generalize hb : (e + 1075).toNat = b
    have hdiv : (b * 2 ^ 52 + (m - 2 ^ 52)) / 2 ^ 52 = b := by omega
    have hmod : (b * 2 ^ 52 + (m - 2 ^ 52)) % 2 ^ 52 = m - 2 ^ 52 := by omega
    have hsign : (b * 2 ^ 52 + (m - 2 ^ 52)) / 2 ^ 63 = 0 := by omega
    have hbiased : b % 2 ^ 11 = b := by omega
    rw [if_neg hbig, if_neg hbig, hfraction]
    simp only [Nat.pow_eq, hdiv, hmod, hsign, hbiased]
    rw [if_neg (by omega), if_neg (by omega)]
    simp
    omega

-- ================================================================ values

/-- A number past the greatest script integer is none. -/
theorem fit?_eq_none {i : Int} (h : greatest < i) : fit? i = none :=
  if_neg fun hfits => absurd hfits.2 (Int.not_le.2 h)

/-- A significand of 53 bits with an exponent of eleven or more is out
of the range of script integers. -/
theorem truncate?_pack {m : Nat} {e : Int} (hpos : 0 < m) (hm : m.log2 = 52) (he : 11 ≤ e) :
    truncate? (Float.ofModel (Float.Model.pack (.finite .positive m e hpos))) = none := by
  unfold truncate? wholePart?
  rw [ofFloat_pack hpos hm (by omega)]
  by_cases hbig : 2046 < e + 1075
  · rw [if_pos hbig]
    rfl
  · have hlow : 2 ^ 52 ≤ m := hm ▸ Nat.log2_self_le (by omega)
    have hscale : 2 ^ 11 ≤ twoTo e.toNat := Nat.pow_le_pow_right (by decide) (by omega)
    have hsize : 2 ^ 52 * 2 ^ 11 ≤ m * twoTo e.toNat := Nat.mul_le_mul hlow hscale
    rw [if_neg hbig]
    simp only [if_pos (by omega : 0 ≤ e)]
    exact fit?_eq_none (by unfold greatest; simp; omega)

/-- A number of `2 ^ 63` or more, taken as a float, is no script
integer. -/
theorem truncate?_ofScientific {n : Nat} (h : 2 ^ 63 ≤ n) :
    truncate? (Float.ofScientific n false 0) = none := by
  have hlog : 63 ≤ n.log2 := (Nat.le_log2 (by omega)).2 h
  have hlog' : ((n <<< 53) * 10 ^ 0).log2 = n.log2 + 53 := by
    rw [Nat.pow_zero, Nat.mul_one, log2_shiftLeft (by omega)]
  obtain ⟨m, e, hpos, hround, hm, he⟩ := roundWithAccuracy_normal .positive
    (by omega : 52 ≤ ((n <<< 53) * 10 ^ 0).log2) (by decide : -1074 ≤ (-53 : Int) + 0)
  have hmodel : Float.Model.ofScientific n 0 = .pack (.finite .positive m e hpos) := by
    rw [← hround]
    unfold Float.Model.ofScientific UnpackedFloat.ofScientific
    rw [dif_neg (by omega), if_neg (by decide),
      if_neg (by show ¬(0 : Int) < -(2 ^ 11 + _); omega), if_pos (by decide)]
    rfl
  rw [Float.ofScientific, dif_neg (by omega)]
  show truncate? (Float.ofModel (Float.Model.ofScientific n 0)) = none
  rw [hmodel]
  exact truncate?_pack hpos hm (by omega)

/-- A run of digits that writes `2 ^ 63` or more, read as a float, is no
script integer. -/
theorem truncate?_nearest {cs : List Char} (h : 2 ^ 63 ≤ digitsValue cs) :
    truncate? (Scientific.nearest ⟨cs, 0⟩) = none := by
  simp only [Scientific.nearest]
  rw [if_neg (by omega)]
  split
  next => rfl
  next =>
    rw [if_neg (by omega)]
    exact truncate?_ofScientific h

end TickScript.Number
