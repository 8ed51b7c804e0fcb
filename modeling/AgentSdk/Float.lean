import AgentSdk.Value
import Mathlib.Algebra.Order.Field.Basic
import Mathlib.Data.Rat.Cast.Order
import Mathlib.Tactic.Ring

/-!
# `float64` and `float32` as the validator reads them

The validator asks of a float whether `math.Trunc(v) == v`, after widening
a `float32` with `float64(v)`. Both are functions of the IEEE 754 bits:
`math.Trunc` clears the fraction bits below the binary point
(`math/modf.go`), and `==` is false on NaN and true of `+0` and `-0`.

What the test means is then a fact about the value of the float, read as
exact rational arithmetic: the significand over a power of two
(`Float64.toRat?`). `math.Trunc(v) == v` holds exactly when `v` is a
finite float with an integral value or an infinity
(`Float64.truncEq_iff`), and widening keeps the value
(`Float32.toRat?_toFloat64`), so the same holds of a `float32`
(`Float32.truncEq_toFloat64_iff`).
-/

namespace Go

/-! ## `float64` -/

namespace Float64

/-- The sign bit. -/
def sign (x : Float64) : Nat := x.bits.toNat / 2 ^ 63

/-- The biased exponent, eleven bits. -/
def exponent (x : Float64) : Nat := x.bits.toNat / 2 ^ 52 % 2 ^ 11

/-- The fraction, fifty-two bits. -/
def fraction (x : Float64) : Nat := x.bits.toNat % 2 ^ 52

/-- The float with the given sign, exponent and fraction fields. -/
def ofFields (s e f : Nat) : Float64 := ⟨UInt64.ofNat (s * 2 ^ 63 + e * 2 ^ 52 + f)⟩

/-- **`math.IsNaN`**. -/
def isNaN (x : Float64) : Bool := x.exponent = 2047 && x.fraction ≠ 0

/-- **`math.IsInf(x, 0)`**. -/
def isInf (x : Float64) : Bool := x.exponent = 2047 && x.fraction = 0

/-- **`math.Trunc`**: NaN, the infinities and the zeros are their own
truncation; a float below one in magnitude truncates to the zero of its
sign; otherwise `Modf` clears the fraction bits below the binary point
(`x &^= 1<<(52-e) - 1`, with `e` the unbiased exponent), which leaves the
float alone once the exponent reaches 52. -/
def trunc (x : Float64) : Float64 :=
  if x.exponent = 2047 then x
  else if x.exponent < 1023 then ofFields x.sign 0 0
  else if x.exponent < 1075 then
    ofFields x.sign x.exponent
      (x.fraction / 2 ^ (1075 - x.exponent) * 2 ^ (1075 - x.exponent))
  else x

/-- **`==` on `float64`**: false when either side is NaN, true of `+0` and
`-0`, and otherwise equality of the bits. -/
def beq (x y : Float64) : Bool :=
  !x.isNaN && !y.isNaN && (x.bits == y.bits || x.isZero && y.isZero)

/-- **`math.Trunc(v) == v`**. -/
def truncEq (x : Float64) : Bool := beq x.trunc x

/-- The significand: the fraction, with the hidden bit of a normal float. -/
def significand (x : Float64) : Nat :=
  if x.exponent = 0 then x.fraction else 2 ^ 52 + x.fraction

/-- **The value of a finite float**, none for NaN and the infinities:
`±significand · 2^(e - 1075)`, the exponent of a subnormal counting as 1. -/
def toRat? (x : Float64) : Option ℚ :=
  if x.exponent = 2047 then none
  else some ((if x.sign = 0 then 1 else -1) *
    ((x.significand * 2 ^ max x.exponent 1 : ℕ) : ℚ) / 2 ^ 1075)

/-- **A float with no fractional part**: finite, and of integral value. -/
def IsIntegral (x : Float64) : Prop := ∃ n : ℤ, x.toRat? = some (n : ℚ)

/-! ### Fields -/

theorem toNat_lt (x : Float64) : x.bits.toNat < 2 ^ 64 := x.bits.toNat_lt_size

theorem toNat_eq_fields (x : Float64) :
    x.bits.toNat = x.sign * 2 ^ 63 + x.exponent * 2 ^ 52 + x.fraction := by
  have := x.toNat_lt
  unfold sign exponent fraction
  omega

theorem sign_lt (x : Float64) : x.sign < 2 := by
  have := x.toNat_lt
  unfold sign
  omega

theorem exponent_lt (x : Float64) : x.exponent < 2 ^ 11 := Nat.mod_lt _ (by norm_num)

theorem fraction_lt (x : Float64) : x.fraction < 2 ^ 52 := Nat.mod_lt _ (by norm_num)

section OfFields

variable {s e f : Nat} (hs : s < 2) (he : e < 2 ^ 11) (hf : f < 2 ^ 52)
include hs he hf

theorem toNat_ofFields : (ofFields s e f).bits.toNat = s * 2 ^ 63 + e * 2 ^ 52 + f :=
  UInt64.toNat_ofNat_of_lt (by show _ < 2 ^ 64; omega)

theorem sign_ofFields : (ofFields s e f).sign = s := by
  unfold sign
  rw [toNat_ofFields hs he hf]
  omega

theorem exponent_ofFields : (ofFields s e f).exponent = e := by
  unfold exponent
  rw [toNat_ofFields hs he hf]
  omega

theorem fraction_ofFields : (ofFields s e f).fraction = f := by
  unfold fraction
  rw [toNat_ofFields hs he hf]
  omega

end OfFields

/-- Two floats have the same bits exactly when they have the same fields. -/
theorem bits_eq_iff_fields {x y : Float64} :
    x.bits = y.bits ↔ x.sign = y.sign ∧ x.exponent = y.exponent ∧ x.fraction = y.fraction := by
  refine ⟨fun h => by simp [sign, exponent, fraction, h], fun ⟨hs, he, hf⟩ => ?_⟩
  have hx := toNat_eq_fields x
  rw [hs, he, hf, ← toNat_eq_fields y] at hx
  exact UInt64.eq_of_toBitVec_eq (BitVec.eq_of_toNat_eq hx)

theorem isZero_iff (x : Float64) : x.isZero = true ↔ x.exponent = 0 ∧ x.fraction = 0 := by
  have hmask : (0x7FFFFFFFFFFFFFFF : UInt64).toNat = 2 ^ 63 - 1 := rfl
  have hmod : (x.bits &&& 0x7FFFFFFFFFFFFFFF).toNat = x.bits.toNat % 2 ^ 63 := by
    rw [UInt64.and_toNat, hmask, Nat.and_pow_two_sub_one_eq_mod]
  have hfields := x.toNat_eq_fields
  have := x.exponent_lt
  have := x.fraction_lt
  rw [Float64.isZero, beq_iff_eq]
  constructor
  · intro h
    have h0 := congrArg UInt64.toNat h
    rw [hmod, UInt64.toNat_zero] at h0
    omega
  · intro h
    apply UInt64.eq_of_toBitVec_eq
    apply BitVec.eq_of_toNat_eq
    show (x.bits &&& 0x7FFFFFFFFFFFFFFF).toNat = (0 : UInt64).toNat
    rw [hmod, UInt64.toNat_zero]
    omega

/-! ### The value -/

/-- A natural number over a power of two is an integer exactly when the
power divides it. -/
theorem exists_int_eq_div_pow_iff (N K : ℕ) : (∃ n : ℤ, (N : ℚ) / 2 ^ K = n) ↔ 2 ^ K ∣ N := by
  have hK : (2 : ℚ) ^ K ≠ 0 := pow_ne_zero _ two_ne_zero
  constructor
  · rintro ⟨n, hn⟩
    rw [div_eq_iff hK] at hn
    have hN : ((N : ℤ) : ℚ) = ((n * 2 ^ K : ℤ) : ℚ) := by push_cast; exact hn
    exact Int.natCast_dvd_natCast.mp ⟨n, by rw [Int.cast_inj.mp hN]; push_cast; rw [mul_comm]⟩
  · rintro ⟨m, rfl⟩
    exact ⟨m, by rw [Nat.cast_mul, Nat.cast_pow, Nat.cast_ofNat, mul_div_cancel_left₀ _ hK]; rfl⟩

/-- The same with a sign. -/
theorem exists_int_eq_sign_div_pow_iff {c : ℚ} (hc : c = 1 ∨ c = -1) (N K : ℕ) :
    (∃ n : ℤ, c * (N : ℚ) / 2 ^ K = n) ↔ 2 ^ K ∣ N := by
  rw [← exists_int_eq_div_pow_iff]
  rcases hc with rfl | rfl
  · simp only [one_mul]
  · simp only [neg_one_mul, neg_div]
    exact ⟨fun ⟨n, hn⟩ => ⟨-n, by rw [Int.cast_neg, ← hn, neg_neg]⟩,
      fun ⟨n, hn⟩ => ⟨-n, by rw [Int.cast_neg, hn]⟩⟩

theorem isIntegral_iff (x : Float64) :
    x.IsIntegral ↔ x.exponent ≠ 2047 ∧ 2 ^ 1075 ∣ x.significand * 2 ^ max x.exponent 1 := by
  unfold IsIntegral toRat?
  by_cases he : x.exponent = 2047
  · rw [if_pos he]
    exact ⟨fun ⟨_, h⟩ => absurd h (by simp), fun h => absurd he h.1⟩
  · rw [if_neg he]
    simp only [Option.some.injEq]
    rw [exists_int_eq_sign_div_pow_iff (by split_ifs <;> simp)]
    exact ⟨fun h => ⟨he, h⟩, And.right⟩

instance : DecidablePred IsIntegral := fun x => decidable_of_iff _ (isIntegral_iff x).symm

/-- The value of the finite float with the given fields. -/
theorem toRat?_ofFields {s e f : Nat} (hs : s < 2) (he : e < 2047) (hf : f < 2 ^ 52) :
    (ofFields s e f).toRat? = some ((if s = 0 then 1 else -1) *
      (((if e = 0 then f else 2 ^ 52 + f) * 2 ^ max e 1 : ℕ) : ℚ) / 2 ^ 1075) := by
  have he' : e < 2 ^ 11 := by omega
  simp only [toRat?, significand, sign_ofFields hs he' hf, exponent_ofFields hs he' hf,
    fraction_ofFields hs he' hf, if_neg (show e ≠ 2047 by omega)]

theorem isInf_ofFields {s e f : Nat} (hs : s < 2) (he : e < 2 ^ 11) (hf : f < 2 ^ 52) :
    (ofFields s e f).isInf = true ↔ e = 2047 ∧ f = 0 := by
  rw [isInf, exponent_ofFields hs he hf, fraction_ofFields hs he hf, Bool.and_eq_true,
    decide_eq_true_eq, decide_eq_true_eq]

/-! ### `math.Trunc(v) == v` -/

variable {x : Float64}

theorem beq_self (x : Float64) : x.beq x = !x.isNaN := by
  simp [beq]

/-- The zeros, the subnormals and the normal floats below one: `Trunc`
gives the zero of the sign, equal to the float only when it is a zero. -/
theorem truncEq_iff_of_lt_one (h : x.exponent < 1023) :
    x.truncEq = true ↔ x.exponent = 0 ∧ x.fraction = 0 := by
  have hs := x.sign_lt
  have he0 : (ofFields x.sign 0 0).exponent = 0 := exponent_ofFields hs (by norm_num) (by norm_num)
  have hf0 : (ofFields x.sign 0 0).fraction = 0 := fraction_ofFields hs (by norm_num) (by norm_num)
  have hs0 : (ofFields x.sign 0 0).sign = x.sign := sign_ofFields hs (by norm_num) (by norm_num)
  have hnan0 : (ofFields x.sign 0 0).isNaN = false := by simp [isNaN, he0]
  have hnan : x.isNaN = false := by simp [isNaN]; omega
  simp only [truncEq, trunc, if_neg (show x.exponent ≠ 2047 by omega), if_pos h, beq, hnan0, hnan,
    (isZero_iff _).mpr ⟨he0, hf0⟩, Bool.not_false, Bool.true_and, Bool.or_eq_true, beq_iff_eq]
  rw [bits_eq_iff_fields, hs0, he0, hf0, isZero_iff]
  omega

/-- The normal floats from one up to `2^52`: `Trunc` clears the fraction
bits below the binary point, and keeps the float exactly when they are all
zero. -/
theorem truncEq_iff_of_mid (h₁ : 1023 ≤ x.exponent) (h₂ : x.exponent < 1075) :
    x.truncEq = true ↔ 2 ^ (1075 - x.exponent) ∣ x.fraction := by
  have hs := x.sign_lt
  have he := x.exponent_lt
  have hf : x.fraction / 2 ^ (1075 - x.exponent) * 2 ^ (1075 - x.exponent) < 2 ^ 52 :=
    lt_of_le_of_lt (Nat.div_mul_le_self _ _) x.fraction_lt
  have hnz : x.isZero = false := by
    rw [← Bool.not_eq_true, isZero_iff]
    omega
  have hnan0 : (ofFields x.sign x.exponent
      (x.fraction / 2 ^ (1075 - x.exponent) * 2 ^ (1075 - x.exponent))).isNaN = false := by
    simp [isNaN, exponent_ofFields hs he hf]; omega
  have hnan : x.isNaN = false := by simp [isNaN]; omega
  simp only [truncEq, trunc, if_neg (show x.exponent ≠ 2047 by omega),
    if_neg (show ¬x.exponent < 1023 by omega), if_pos h₂, beq, hnan0, hnan, hnz, Bool.not_false,
    Bool.true_and, Bool.and_false, Bool.or_false, beq_iff_eq]
  rw [bits_eq_iff_fields, sign_ofFields hs he hf, exponent_ofFields hs he hf,
    fraction_ofFields hs he hf, Nat.dvd_iff_div_mul_eq]
  simp

/-! ### Integral values, by exponent -/

/-- Below one, only a zero has an integral value. -/
theorem dvd_value_iff_of_lt_one (h : x.exponent < 1023) :
    2 ^ 1075 ∣ x.significand * 2 ^ max x.exponent 1 ↔ x.exponent = 0 ∧ x.fraction = 0 := by
  have hfr := x.fraction_lt
  have hsig : x.significand < 2 ^ 53 := by unfold significand; split_ifs <;> omega
  have hlt : x.significand * 2 ^ max x.exponent 1 < 2 ^ 1075 :=
    calc x.significand * 2 ^ max x.exponent 1 < 2 ^ 53 * 2 ^ 1022 :=
          Nat.mul_lt_mul_of_lt_of_le hsig (pow_le_pow_right₀ (by norm_num) (by omega))
            (Nat.two_pow_pos _)
      _ = 2 ^ 1075 := by rw [← pow_add]
  constructor
  · intro hdvd
    have h0 := Nat.eq_zero_of_dvd_of_lt hdvd hlt
    rw [Nat.mul_eq_zero, or_iff_left (Nat.two_pow_pos _).ne'] at h0
    unfold significand at h0
    split_ifs at h0 with hz
    · exact ⟨hz, h0⟩
    · omega
  · rintro ⟨h0, hf0⟩
    simp only [significand, h0, hf0, if_true, zero_mul]
    exact dvd_zero _

/-- From one up to `2^52`, the value is integral exactly when the fraction
bits below the binary point are zero. -/
theorem dvd_value_iff_of_mid (h₁ : 1023 ≤ x.exponent) (h₂ : x.exponent < 1075) :
    2 ^ 1075 ∣ x.significand * 2 ^ max x.exponent 1 ↔ 2 ^ (1075 - x.exponent) ∣ x.fraction := by
  rw [show max x.exponent 1 = x.exponent by omega,
    show significand x = 2 ^ 52 + x.fraction by simp [significand]; omega,
    show 2 ^ 1075 = 2 ^ (1075 - x.exponent) * 2 ^ x.exponent by rw [← pow_add]; congr 1; omega,
    Nat.mul_dvd_mul_iff_right (Nat.two_pow_pos _),
    Nat.dvd_add_right (Nat.pow_dvd_pow 2 (show 1075 - x.exponent ≤ 52 by omega))]

/-- From `2^52` on, every value is integral. -/
theorem dvd_value_of_le (h : 1075 ≤ x.exponent) :
    2 ^ 1075 ∣ x.significand * 2 ^ max x.exponent 1 :=
  Dvd.dvd.mul_left (pow_dvd_pow 2 (by omega)) _

theorem truncEq_iff (x : Float64) : x.truncEq = true ↔ x.isInf = true ∨ x.IsIntegral := by
  rw [isIntegral_iff]
  by_cases h₀ : x.exponent = 2047
  · -- NaN and the infinities are their own truncation
    simp only [truncEq, trunc, h₀, ↓reduceIte, beq_self, isNaN, isInf, ne_eq, not_true_eq_false,
      false_and, or_false]
    simp
  have hinf : x.isInf = false := by simp [isInf, h₀]
  simp only [hinf, Bool.false_eq_true, false_or, ne_eq, h₀, not_false_eq_true, true_and]
  by_cases h₁ : x.exponent < 1023
  · rw [truncEq_iff_of_lt_one h₁, dvd_value_iff_of_lt_one h₁]
  by_cases h₂ : x.exponent < 1075
  · rw [truncEq_iff_of_mid (by omega) h₂, dvd_value_iff_of_mid (by omega) h₂]
  · refine iff_of_true ?_ (dvd_value_of_le (by omega))
    simp [truncEq, trunc, h₀, h₁, h₂, beq_self, isNaN]

end Float64

/-! ## `float32` -/

namespace Float32

/-- The sign bit. -/
def sign (x : Float32) : Nat := x.bits.toNat / 2 ^ 31

/-- The biased exponent, eight bits. -/
def exponent (x : Float32) : Nat := x.bits.toNat / 2 ^ 23 % 2 ^ 8

/-- The fraction, twenty-three bits. -/
def fraction (x : Float32) : Nat := x.bits.toNat % 2 ^ 23

/-- **`math.IsInf(float64(x), 0)`**. -/
def isInf (x : Float32) : Bool := x.exponent = 255 && x.fraction = 0

/-- The significand: the fraction, with the hidden bit of a normal float. -/
def significand (x : Float32) : Nat :=
  if x.exponent = 0 then x.fraction else 2 ^ 23 + x.fraction

/-- **The value of a finite float**: `±significand · 2^(e - 150)`, the
exponent of a subnormal counting as 1. -/
def toRat? (x : Float32) : Option ℚ :=
  if x.exponent = 255 then none
  else some ((if x.sign = 0 then 1 else -1) *
    ((x.significand * 2 ^ max x.exponent 1 : ℕ) : ℚ) / 2 ^ 150)

/-- **A float with no fractional part**: finite, and of integral value. -/
def IsIntegral (x : Float32) : Prop := ∃ n : ℤ, x.toRat? = some (n : ℚ)

/-- **`float64(x)`**, which is exact. The exponent is rebiased and the
fraction shifted into place; a subnormal becomes a normal `float64`, its
leading bit the hidden one. The fraction of a NaN is shifted like any
other, so a NaN stays a NaN. -/
def toFloat64 (x : Float32) : Float64 :=
  if x.exponent = 255 then Float64.ofFields x.sign 2047 (x.fraction * 2 ^ 29)
  else if x.exponent = 0 then
    if x.fraction = 0 then Float64.ofFields x.sign 0 0
    else
      Float64.ofFields x.sign (Nat.log2 x.fraction + 874)
        ((x.fraction - 2 ^ Nat.log2 x.fraction) * 2 ^ (52 - Nat.log2 x.fraction))
  else Float64.ofFields x.sign (x.exponent + 896) (x.fraction * 2 ^ 29)

/-! ### Fields -/

theorem toNat_lt (x : Float32) : x.bits.toNat < 2 ^ 32 := x.bits.toNat_lt_size

theorem sign_lt (x : Float32) : x.sign < 2 := by
  have := x.toNat_lt
  unfold sign
  omega

theorem exponent_lt (x : Float32) : x.exponent < 2 ^ 8 := Nat.mod_lt _ (by norm_num)

theorem fraction_lt (x : Float32) : x.fraction < 2 ^ 23 := Nat.mod_lt _ (by norm_num)

/-! ### Widening keeps the value -/

/-- Moving from the `float32` bias to the `float64` one multiplies the
integer part by `2^925`. -/
theorem cast_mul_div_rebias (c : ℚ) (N : ℕ) :
    c * ((N * 2 ^ 925 : ℕ) : ℚ) / 2 ^ 1075 = c * (N : ℚ) / 2 ^ 150 := by
  rw [Nat.cast_mul, Nat.cast_pow, Nat.cast_ofNat, ← mul_assoc,
    show (2 : ℚ) ^ 1075 = 2 ^ 150 * 2 ^ 925 by rw [← pow_add],
    mul_div_mul_right _ _ (pow_ne_zero _ two_ne_zero)]

/-- The fields of a widened subnormal: its leading bit becomes the hidden
bit, and the significand is shifted up to fill fifty-three bits. -/
theorem toFloat64_subnormal_fields {f : Nat} (hf0 : f ≠ 0) (hf : f < 2 ^ 23) :
    Nat.log2 f + 874 < 2047 ∧ (f - 2 ^ Nat.log2 f) * 2 ^ (52 - Nat.log2 f) < 2 ^ 52 ∧
      (2 ^ 52 + (f - 2 ^ Nat.log2 f) * 2 ^ (52 - Nat.log2 f)) * 2 ^ max (Nat.log2 f + 874) 1 =
        f * 2 ^ max 0 1 * 2 ^ 925 := by
  have hL₁ : 2 ^ Nat.log2 f ≤ f := Nat.log2_self_le hf0
  have hL₂ : f < 2 ^ Nat.log2 f * 2 := pow_succ 2 _ ▸ Nat.lt_log2_self
  have hL₃ : Nat.log2 f < 23 := (Nat.log2_lt hf0).mpr hf
  have ht : 2 ^ Nat.log2 f * 2 ^ (52 - Nat.log2 f) = 2 ^ 52 := by
    rw [← pow_add]; congr 1; omega
  have hle := Nat.mul_le_mul_right (2 ^ (52 - Nat.log2 f)) hL₁
  have hexp : 52 - Nat.log2 f + (Nat.log2 f + 874) = max 0 1 + 925 := by omega
  refine ⟨by omega, ht ▸ Nat.mul_lt_mul_of_pos_right (by omega) (Nat.two_pow_pos _), ?_⟩
  calc (2 ^ 52 + (f - 2 ^ Nat.log2 f) * 2 ^ (52 - Nat.log2 f)) * 2 ^ max (Nat.log2 f + 874) 1
      = f * 2 ^ (52 - Nat.log2 f) * 2 ^ (Nat.log2 f + 874) := by
        rw [Nat.sub_mul, ← ht, max_eq_left (by omega)]; congr 1; omega
    _ = f * 2 ^ max 0 1 * 2 ^ 925 := by rw [mul_assoc, ← pow_add, hexp, pow_add, ← mul_assoc]

theorem toRat?_toFloat64 (x : Float32) : x.toFloat64.toRat? = x.toRat? := by
  have hs := x.sign_lt
  have he := x.exponent_lt
  have hf := x.fraction_lt
  unfold toFloat64 toRat? significand
  by_cases h255 : x.exponent = 255
  · simp only [if_pos h255, Float64.toRat?, Float64.exponent_ofFields hs
      (show 2047 < 2 ^ 11 by norm_num) (show x.fraction * 2 ^ 29 < 2 ^ 52 by omega), ↓reduceIte]
  rw [if_neg h255, if_neg h255]
  by_cases h0 : x.exponent = 0
  · rw [if_pos h0, if_pos h0, h0]
    by_cases hf0 : x.fraction = 0
    · rw [if_pos hf0, Float64.toRat?_ofFields hs (by norm_num) (by norm_num), hf0]
      simp
    · obtain ⟨he', hf', hN⟩ := toFloat64_subnormal_fields hf0 hf
      rw [if_neg hf0, Float64.toRat?_ofFields hs he' hf',
        if_neg (show Nat.log2 x.fraction + 874 ≠ 0 by omega), hN,
        cast_mul_div_rebias]
  · rw [if_neg h0, if_neg h0, Float64.toRat?_ofFields hs (by omega) (by omega),
      if_neg (show x.exponent + 896 ≠ 0 by omega),
      show (2 ^ 52 + x.fraction * 2 ^ 29) * 2 ^ max (x.exponent + 896) 1 =
        (2 ^ 23 + x.fraction) * 2 ^ max x.exponent 1 * 2 ^ 925 by
          rw [max_eq_left (by omega), max_eq_left (by omega)]; ring,
      cast_mul_div_rebias]

theorem isIntegral_toFloat64 (x : Float32) : x.toFloat64.IsIntegral ↔ x.IsIntegral := by
  rw [Float64.IsIntegral, toRat?_toFloat64]
  rfl

instance : DecidablePred IsIntegral := fun x => decidable_of_iff _ (isIntegral_toFloat64 x)

theorem isInf_toFloat64 (x : Float32) : x.toFloat64.isInf = x.isInf := by
  have hs := x.sign_lt
  have he := x.exponent_lt
  have hf := x.fraction_lt
  rw [Bool.eq_iff_iff, isInf, Bool.and_eq_true, decide_eq_true_eq, decide_eq_true_eq, toFloat64]
  by_cases h255 : x.exponent = 255
  · rw [if_pos h255, Float64.isInf_ofFields hs (by norm_num) (by omega)]
    omega
  rw [if_neg h255]
  by_cases h0 : x.exponent = 0
  · rw [if_pos h0]
    by_cases hf0 : x.fraction = 0
    · rw [if_pos hf0, Float64.isInf_ofFields hs (by norm_num) (by norm_num)]
      omega
    · obtain ⟨he', hf', -⟩ := toFloat64_subnormal_fields hf0 hf
      rw [if_neg hf0, Float64.isInf_ofFields hs (by omega) hf']
      omega
  · rw [if_neg h0, Float64.isInf_ofFields hs (by omega) (by omega)]
    omega

/-- **`math.Trunc(float64(v)) == float64(v)`** on a `float32` holds exactly
when `v` is an infinity or a finite float of integral value. -/
theorem truncEq_toFloat64_iff (x : Float32) :
    x.toFloat64.truncEq = true ↔ x.isInf = true ∨ x.IsIntegral := by
  rw [Float64.truncEq_iff, isInf_toFloat64, isIntegral_toFloat64]

end Float32

end Go
