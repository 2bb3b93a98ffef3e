import FormDerivation.Proofs.Operator.Dates
import Mathlib

/-!
# Integers that doubles hold exactly

Three operators yield a count or a number of years by `TypedValue.integer`, which takes it as it is.
Nothing is lost by that: below `2 ^ 53` the double of an integer has the integer as its stored form
(`TypedValue.number_ofInt`), so the operators yield the double (`Operator.lengthOperator_evaluate`,
`Operator.sizeOperator_evaluate`, `Operator.yearsBetweenOperator_evaluate`).

An integer `m` is shifted until its leading bit is bit 52, which gives a normal double without any
rounding (`round_integer`).  `Parts.of` reads the shifted mantissa off the bits (`parts_normal`),
and shifting it back leaves no remainder.
-/

namespace FormDerivation.Decimal

open Float.Model Float.Model.UnpackedFloat

/-! ## Rounding -/

def leading (m : Nat) : Nat :=
  m * 2 ^ (52 - m.log2)

theorem log2_lt_of_lt {m : Nat} (hpos : 0 < m) (hlt : m < 2 ^ 53) : m.log2 < 53 :=
  (Nat.log2_lt (by omega)).mpr hlt

theorem leading_pos {m : Nat} (hpos : 0 < m) : 0 < leading m := by
  unfold leading
  positivity

theorem log2_leading {m : Nat} (hpos : 0 < m) (hlt : m < 2 ^ 53) : (leading m).log2 = 52 := by
  have hlog := log2_lt_of_lt hpos hlt
  have hlow : 2 ^ 52 = 2 ^ m.log2 * 2 ^ (52 - m.log2) := by
    rw [← Nat.pow_add]
    congr 1
    omega
  have hhigh : 2 ^ (52 + 1) = 2 ^ (m.log2 + 1) * 2 ^ (52 - m.log2) := by
    rw [← Nat.pow_add]
    congr 1
    omega
  rw [Nat.log2_eq_iff (leading_pos hpos).ne', leading, hlow, hhigh]
  constructor
  · exact Nat.mul_le_mul_right _ (Nat.log2_self_le hpos.ne')
  · exact Nat.mul_lt_mul_of_pos_right Nat.lt_log2_self (by positivity)

theorem roundWithAccuracy_normal (s : Sign) {mantissa : Nat} {exponent : Int}
    (hlog : mantissa.log2 = 52) (hpos : 0 < mantissa) (hlow : -1074 ≤ exponent) :
    roundWithAccuracy .binary64 s mantissa exponent .exact =
      .finite s mantissa exponent hpos := by
  have htarget : Format.targetExponent .binary64 (totalExponent mantissa exponent) = exponent := by
    simp [Format.targetExponent, totalExponent, hlog, Format.mantissaBits, Format.minExponent]
    omega
  have hshift : shiftToTargetExponent .binary64 mantissa exponent .exact =
      (⟨mantissa, false, false⟩, exponent) := by
    simp [shiftToTargetExponent, htarget, shiftToExponent,
      ExtendedMantissa.ofMantissaAndAccuracy]
    rfl
  have hrounded : ExtendedMantissa.roundedMantissa ⟨mantissa, false, false⟩ = mantissa := rfl
  simp only [roundWithAccuracy, hshift, hrounded]
  rw [dif_neg (by omega)]

theorem round_integer (s : Sign) {m : Nat} (hpos : 0 < m) (hlt : m < 2 ^ 53) :
    UnpackedFloat.round .binary64 s m 0 =
      .finite s (leading m) (m.log2 - 52) (leading_pos hpos) := by
  have hlog := log2_lt_of_lt hpos hlt
  have htarget : Format.targetExponent .binary64 (totalExponent m 0) = m.log2 - 52 := by
    simp [Format.targetExponent, totalExponent, Format.mantissaBits, Format.minExponent]
    omega
  have hshift : (0 - ((m.log2 : Int) - 52)).toNat = 52 - m.log2 := by omega
  have hdecrease : decreaseExponent m 0 ((m.log2 : Int) - 52) =
      (leading m, (m.log2 : Int) - 52) := by
    simp only [decreaseExponent, hshift, Nat.shiftLeft_eq, leading]
    congr 1
    omega
  simp only [UnpackedFloat.round, htarget, hdecrease]
  exact roundWithAccuracy_normal s (log2_leading hpos hlt) (leading_pos hpos) (by omega)

/-! ## Bits -/

theorem toNat_packComponents (s : Sign) (field : BitVec 11) (fraction : BitVec 52) :
    (packComponents .binary64 s field fraction).toNat =
      s.toBitVec.toNat * 2 ^ 63 + field.toNat * 2 ^ 52 + fraction.toNat := by
  rw [packComponents, BitVec.toNat_append, BitVec.toNat_append,
    ← Nat.shiftLeft_add_eq_or_of_lt field.isLt, ← Nat.shiftLeft_add_eq_or_of_lt fraction.isLt,
    Nat.shiftLeft_eq, Nat.shiftLeft_eq]
  ring

theorem unpackSign_packComponents (s : Sign) (field : BitVec 11) (fraction : BitVec 52) :
    Sign.ofBitVec (unpackSign (packComponents .binary64 s field fraction)) = s := by
  have hsign : unpackSign (packComponents .binary64 s field fraction) = s.toBitVec := by
    have hfield := field.isLt
    have hfraction := fraction.isLt
    have hs := s.toBitVec.isLt
    apply BitVec.eq_of_toNat_eq
    simp only [unpackSign, BitVec.toNat_cast, BitVec.extractLsb_toNat, toNat_packComponents,
      Nat.shiftRight_eq_div_pow]
    omega
  rw [hsign]
  cases s <;> rfl

section

variable (s : Sign) {mantissa : Nat} {exponent : Int}

theorem log2_bounds (hlog : mantissa.log2 = 52) (hpos : 0 < mantissa) :
    2 ^ 52 ≤ mantissa ∧ mantissa < 2 ^ 53 := by
  have hlow := Nat.log2_self_le hpos.ne'
  have hhigh := Nat.lt_log2_self (n := mantissa)
  rw [hlog] at hlow hhigh
  exact ⟨hlow, hhigh⟩

theorem pack_normal (hlog : mantissa.log2 = 52) (hpos : 0 < mantissa) (hlow : -1074 ≤ exponent)
    (hhigh : exponent ≤ 971) :
    UnpackedFloat.pack .binary64 (.finite s mantissa exponent hpos) =
      packComponents .binary64 s (BitVec.ofNat 11 (exponent + 1075).toNat)
        (BitVec.ofNat 52 mantissa) := by
  have hfield : (exponent + 1023 + 52).toNat = (exponent + 1075).toNat := by omega
  simp only [UnpackedFloat.pack, Format.exponentBias, hlog, Format.mantissaBits]
  rw [if_neg (by simp; omega), if_pos (by norm_num), ← hfield]
  rfl

theorem unpack_pack_normal (hlog : mantissa.log2 = 52) (hpos : 0 < mantissa)
    (hlow : -1074 ≤ exponent) (hhigh : exponent ≤ 971) :
    UnpackedFloat.unpack .binary64
      (UnpackedFloat.pack .binary64 (.finite s mantissa exponent hpos)) =
      .finite s mantissa exponent hpos := by
  obtain ⟨hleast, hbelow⟩ := log2_bounds hlog hpos
  have hfield : (BitVec.ofNat 11 (exponent + 1075).toNat).toNat = (exponent + 1075).toNat := by
    rw [BitVec.toNat_ofNat]
    omega
  have hmantissa : (1#1 ++ BitVec.ofNat 52 mantissa).toNat = mantissa := by
    rw [BitVec.toNat_append, ← Nat.shiftLeft_add_eq_or_of_lt (by simp; omega)]
    simp
    omega
  have hfinite : BitVec.ofNat 11 (exponent + 1075).toNat ≠ -1#_ := by
    intro h
    have hmax := congrArg BitVec.toNat h
    rw [hfield] at hmax
    simp at hmax
    omega
  have hnormal : BitVec.ofNat 11 (exponent + 1075).toNat ≠ 0#_ := by
    intro h
    have hzero := congrArg BitVec.toNat h
    rw [hfield] at hzero
    simp at hzero
    omega
  rw [pack_normal _ hlog hpos hlow hhigh]
  simp only [UnpackedFloat.unpack, unpackExponent_packComponents,
    unpackMantissa_packComponents, unpackSign_packComponents]
  rw [if_neg hfinite, if_neg hnormal]
  congr 1
  rw [hfield]
  simp [Format.exponentBias]
  omega

theorem parts_normal (hlog : mantissa.log2 = 52) (hpos : 0 < mantissa) (hlow : -1074 ≤ exponent)
    (hhigh : exponent ≤ 971) :
    let x := Float.ofModel (.pack (.finite s mantissa exponent hpos))
    isFinite x = true ∧ Parts.of x = ⟨s == .negative, mantissa, exponent⟩ := by
  intro x
  obtain ⟨hleast, hbelow⟩ := log2_bounds hlog hpos
  have hs := s.toBitVec.isLt
  have hbits : x.toBits.toNat =
      s.toBitVec.toNat * 2 ^ 63 + (exponent + 1075).toNat * 2 ^ 52 + (mantissa - 2 ^ 52) := by
    change (UnpackedFloat.pack .binary64 (.finite s mantissa exponent hpos)).toNat = _
    rw [pack_normal _ hlog hpos hlow hhigh, toNat_packComponents, BitVec.toNat_ofNat,
      BitVec.toNat_ofNat]
    omega
  have hfield : x.toBits.toNat / Nat.pow 2 52 % Nat.pow 2 11 = (exponent + 1075).toNat := by
    change x.toBits.toNat / 2 ^ 52 % 2 ^ 11 = _
    omega
  have hfraction : x.toBits.toNat % Nat.pow 2 52 = mantissa - 2 ^ 52 := by
    change x.toBits.toNat % 2 ^ 52 = _
    omega
  have hsign : (x.toBits.toNat / Nat.pow 2 63 == 1) = (s == .negative) := by
    have htop : x.toBits.toNat / Nat.pow 2 63 = s.toBitVec.toNat := by
      change x.toBits.toNat / 2 ^ 63 = _
      omega
    rw [htop]
    cases s <;> rfl
  have hnormal : ¬((exponent + 1075).toNat == 0) = true := by
    rw [beq_iff_eq]
    omega
  constructor
  · rw [isFinite, hfield, bne_iff_ne]
    omega
  · simp only [Parts.of, hfield, hfraction, hsign]
    rw [if_neg hnormal, if_neg hnormal]
    congr 1
    · exact Nat.sub_add_cancel hleast
    · omega

theorem abs_normal_lt (hlog : mantissa.log2 = 52) (hpos : 0 < mantissa)
    (hlow : -1074 ≤ exponent) (hhigh : exponent ≤ 10) :
    (Float.ofModel (.pack (.finite s mantissa exponent hpos))).abs < 9223372036854775808.0 := by
  have hlimit : UnpackedFloat.unpack .binary64
      (9223372036854775808.0 : Float).toModel.toBits.toBitVec =
        .finite .positive (2 ^ 52) 11 (by norm_num) := rfl
  have habs : (Float.ofModel (.pack (.finite s mantissa exponent hpos))).abs =
      Float.ofModel (.pack (.finite .positive mantissa exponent hpos)) := by
    change Float.ofModel (.pack (UnpackedFloat.unpack .binary64
      (UnpackedFloat.pack .binary64 (.finite s mantissa exponent hpos))).abs) = _
    rw [unpack_pack_normal _ hlog hpos hlow (by omega)]
    rfl
  have hexponent : compare exponent 11 = .lt := by
    rw [Int.compare_eq_lt]
    omega
  rw [habs]
  refine decide_eq_true (p := _ < _) ?_
  change UnpackedFloat.lt (UnpackedFloat.unpack .binary64 (UnpackedFloat.pack .binary64
    (.finite .positive mantissa exponent hpos))) (UnpackedFloat.unpack .binary64
      (9223372036854775808.0 : Float).toModel.toBits.toBitVec) = true
  rw [unpack_pack_normal _ hlog hpos hlow (by omega), hlimit]
  simp [UnpackedFloat.lt, UnpackedFloat.compare, hexponent]

end

/-! ## Integers -/

theorem whole_leading {m : Nat} (hpos : 0 < m) (hlt : m < 2 ^ 53) (negative : Bool) :
    (Parts.mk negative (leading m) (m.log2 - 52)).whole = m ∧
      (Parts.mk negative (leading m) (m.log2 - 52)).leftover = 0 := by
  have hlog := log2_lt_of_lt hpos hlt
  have hshift : (-((m.log2 : Int) - 52)).toNat = 52 - m.log2 := by omega
  by_cases hnegative : 0 ≤ (m.log2 : Int) - 52
  · have heq : m.log2 = 52 := by omega
    constructor
    · simp [Parts.whole, leading, heq]
    · simp [Parts.leftover, heq]
  · rw [Parts.whole, Parts.leftover, if_neg hnegative, if_neg hnegative, hshift, leading]
    exact ⟨Nat.mul_div_cancel m (Nat.two_pow_pos _), Nat.mul_mod_left m _⟩

theorem numberValue_round (s : Sign) {m : Nat} (hpos : 0 < m) (hlt : m < 2 ^ 53) :
    numberValue (.ofModel (.pack (UnpackedFloat.round .binary64 s m 0))) = .int (s.apply m) := by
  have hlog := log2_lt_of_lt hpos hlt
  have hleading := log2_leading hpos hlt
  have hmantissa := leading_pos hpos
  rw [round_integer s hpos hlt]
  have hlow : -1074 ≤ (m.log2 : Int) - 52 := by omega
  have hhigh : (m.log2 : Int) - 52 ≤ 10 := by omega
  obtain ⟨hfinite, hparts⟩ := parts_normal s hleading hmantissa hlow (by omega)
  have habs := abs_normal_lt s hleading hmantissa hlow hhigh
  obtain ⟨hwhole, hleftover⟩ := whole_leading hpos hlt (s == .negative)
  simp only [numberValue, isWhole, hfinite, Parts.isWhole, hparts, hleftover, toInt, hwhole]
  simp only [habs, decide_true, Bool.and_true, beq_self_eq_true, if_true]
  cases s <;> rfl

theorem whole_zero (negative : Bool) (exponent : Int) :
    (Parts.mk negative 0 exponent).whole = 0 ∧ (Parts.mk negative 0 exponent).leftover = 0 := by
  simp [Parts.whole, Parts.leftover]

theorem numberValue_zero : numberValue (.ofModel (.ofInt 0)) = .int 0 := by
  have hfinite : isFinite (.ofModel (.ofInt 0)) = true := by decide
  have hparts : Parts.of (.ofModel (.ofInt 0)) = ⟨false, 0, -1074⟩ := by decide
  have habs : (Float.ofModel (.ofInt 0)).abs < 9223372036854775808.0 := by decide
  obtain ⟨hwhole, hleftover⟩ := whole_zero false (-1074)
  simp only [numberValue, isWhole, hfinite, Parts.isWhole, hparts, hleftover, toInt, hwhole]
  simp [habs]

end FormDerivation.Decimal

namespace FormDerivation.TypedValue

open Float.Model Float.Model.UnpackedFloat

theorem number_ofInt {n : Int} (h : n.natAbs < 2 ^ 53) :
    number (.ofModel (.ofInt n)) = integer n := by
  rcases lt_trichotomy n 0 with hnegative | rfl | hpositive
  · have hround : Float.Model.ofInt n =
        .pack (UnpackedFloat.round .binary64 .negative n.natAbs 0) := by
      have habs : (-n).toNat = n.natAbs := by omega
      simp only [Float.Model.ofInt, UnpackedFloat.ofInt, UnpackedFloat.normalize,
        Int.compare_eq_lt.mpr hnegative, habs]
    have hsign : Sign.negative.apply n.natAbs = n := by
      change -(n.natAbs : Int) = n
      omega
    rw [number, hround, Decimal.numberValue_round .negative (by omega) h, hsign, integer]
  · rw [number, Decimal.numberValue_zero, integer]
  · have hround : Float.Model.ofInt n =
        .pack (UnpackedFloat.round .binary64 .positive n.natAbs 0) := by
      have habs : n.toNat = n.natAbs := by omega
      simp only [Float.Model.ofInt, UnpackedFloat.ofInt, UnpackedFloat.normalize,
        Int.compare_eq_gt.mpr hpositive, habs]
    have hsign : Sign.positive.apply n.natAbs = n := by
      change (n.natAbs : Int) = n
      omega
    rw [number, hround, Decimal.numberValue_round .positive (by omega) h, hsign, integer]

theorem number_count {n : Nat} (h : n < 2 ^ 53) : number (.ofModel (.ofInt n)) = integer n :=
  number_ofInt h

end FormDerivation.TypedValue

/-! ## Operators -/

namespace FormDerivation.Operator

theorem lengthOperator_evaluate {text : String} (h : text.length < 2 ^ 53) :
    lengthOperator.evaluate [.string text] = .ok (.number (.ofModel (.ofInt text.length))) := by
  rw [TypedValue.number_count h]
  rfl

theorem sizeOperator_evaluate {items : List Json} (h : items.length < 2 ^ 53) :
    sizeOperator.evaluate [.array items] = .ok (.number (.ofModel (.ofInt items.length))) := by
  rw [TypedValue.number_count h]
  rfl

theorem yearsBetweenOperator_evaluate {x y : Json} {start finish : Date}
    (hstart : x.date? = some start) (hfinish : y.date? = some finish) :
    yearsBetweenOperator.evaluate [x, y] =
      .ok (.number (.ofModel (.ofInt (start.yearsBetween finish)))) := by
  have hyears : (start.yearsBetween finish).natAbs < 2 ^ 53 := by
    have hfrom := start.year_range
    have hto := finish.year_range
    unfold Date.yearsBetween Date.completedYears
    split <;> split <;> omega
  have hread : yearsBetweenOperator.evaluate [x, y] = _ :=
    reading_dates_evaluate _ _ _ _ _ _ (fun a b => .integer (a.yearsBetween b)) x y
  rw [hread, TypedValue.number_ofInt hyears, hstart, hfinish]

end FormDerivation.Operator
