import Mathlib

/-!
# Doubles of integers equal themselves

A double equals itself unless it is not a number.  `ofInt_beq_self` shows that the double of an
integer, of whatever size, never is: none of the steps that compute it gives such a result, and
packing a result into its bits keeps it what it is (`unpack_pack_ne`).
-/

namespace FormDerivation.Decimal

open Float.Model Float.Model.UnpackedFloat

/-! ## Bits -/

theorem unpack_ne {b : BitVec Format.binary64.numBits}
    (h : unpackExponent b = -1#_ → unpackMantissa b = 0#_) :
    UnpackedFloat.unpack .binary64 b ≠ .notANumber := by
  rw [UnpackedFloat.unpack]
  dsimp only
  split_ifs with hexponent hmantissa
  · nofun
  · exact absurd (h hexponent) hmantissa
  all_goals nofun

theorem unpack_pack_ne {f : UnpackedFloat} (h : f ≠ .notANumber) :
    UnpackedFloat.unpack .binary64 (UnpackedFloat.pack .binary64 f) ≠ .notANumber := by
  refine unpack_ne ?_
  fun_cases UnpackedFloat.pack with
  | case1 => exact absurd rfl h
  | case2 s => simp [packedInfinity]
  | case3 s => simp [packedZero]
  | case4 s m e hm biased hlarge => simp [packedInfinity]
  | case5 s m e hm bits biased hlarge hnormal =>
      rw [unpackExponent_packComponents]
      intro hones
      have hfield := congrArg BitVec.toNat hones
      rw [BitVec.toNat_ofNat] at hfield
      simp at hfield hlarge
      omega
  | case6 s m e hm bits biased hlarge hnormal =>
      rw [unpackExponent_packComponents]
      intro hones
      cases hones

/-! ## Operations -/

theorem roundWithAccuracy_ne (spec : Format) (s : Sign) (m : Nat) (e : Int) (accuracy : Accuracy) :
    roundWithAccuracy spec s m e accuracy ≠ .notANumber := by
  rw [roundWithAccuracy]
  dsimp only
  split_ifs <;> nofun

theorem neg_ne {f : UnpackedFloat} (h : f ≠ .notANumber) : f.neg ≠ .notANumber := by
  cases f with
  | notANumber => exact absurd rfl h
  | infinity _ => nofun
  | zero _ => nofun
  | finite _ _ _ _ => nofun

theorem mul_finite_ne {f : UnpackedFloat} (h : f ≠ .notANumber) (s : Sign) (m : Nat) (e : Int)
    (hm : 0 < m) : UnpackedFloat.mul .binary64 f (.finite s m e hm) ≠ .notANumber := by
  cases f with
  | notANumber => exact absurd rfl h
  | infinity _ => nofun
  | zero _ => nofun
  | finite _ _ _ _ => exact roundWithAccuracy_ne _ _ _ _ _

theorem normalize_ne (spec : Format) (m e : Int) (s : Sign) :
    UnpackedFloat.normalize spec m e s ≠ .notANumber := by
  rw [UnpackedFloat.normalize]
  split
  · exact roundWithAccuracy_ne _ _ _ _ _
  · nofun
  · exact roundWithAccuracy_ne _ _ _ _ _

theorem ofScientific_ne (m : Nat) {e : Int} (h : 0 ≤ e) :
    UnpackedFloat.ofScientific .binary64 m e ≠ .notANumber := by
  rw [UnpackedFloat.ofScientific]
  split_ifs
  · nofun
  · nofun
  · nofun
  · refine mul_finite_ne ?_ _ _ _ _
    exact UnpackedFloat.noConfusion

/-! ## Integers -/

theorem unpack_ofNat_ne (n : Nat) : (Float.ofNat n).toModel.unpack ≠ .notANumber := by
  have hscientific : Float.ofNat n = Float.ofScientific n false 0 := rfl
  rw [hscientific, Float.ofScientific]
  split
  · -- A small number is converted and then multiplied by the zeroth power of ten.
    have hone : (Float.ofBits 0x3FF0000000000000).toModel.unpack =
        .finite .positive (2 ^ 52) (-52) (Nat.two_pow_pos 52) := rfl
    have hsmall : n.toUInt64.toFloat.toModel.unpack ≠ .notANumber :=
      unpack_pack_ne (normalize_ne _ _ _ _)
    refine unpack_pack_ne ?_
    change UnpackedFloat.mul _ _ (Float.ofBits 0x3FF0000000000000).toModel.unpack ≠ _
    rw [hone]
    exact mul_finite_ne hsmall _ _ _ _
  · exact unpack_pack_ne (ofScientific_ne n (Int.le_refl 0))

theorem unpack_ofInt_ne (n : Int) : (Float.ofInt n).toModel.unpack ≠ .notANumber := by
  cases n with
  | ofNat n => exact unpack_ofNat_ne n
  | negSucc n => exact unpack_pack_ne (neg_ne (unpack_ofNat_ne (n + 1)))

theorem compare_self {f : UnpackedFloat} (h : f ≠ .notANumber) : f.compare f = some .eq := by
  cases f with
  | notANumber => exact absurd rfl h
  | infinity s => cases s <;> rfl
  | zero s => cases s <;> rfl
  | finite s m e hm => cases s <;> simp [UnpackedFloat.compare]

theorem ofInt_beq_self (n : Int) : (Float.ofInt n == Float.ofInt n) = true := by
  change (UnpackedFloat.compare _ _ == some .eq) = true
  rw [compare_self (unpack_ofInt_ne n)]
  rfl

end FormDerivation.Decimal
