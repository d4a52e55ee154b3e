import Gathering.Decimal.Layout

/-!
# Finite floats

A float is looked at in two ways. Its texts are made from its bits, which are taken
apart here (`Binary.ofFloat`); the checks compare it and ask whether it is finite,
and this is up to the model of the arithmetic, which takes the bits apart on its
own. Both find the infinities and what is no number at the same place, the greatest
exponent (`isFinite_iff`). So a float has a record form exactly if it is finite
(`Decimal.isSome_recordFormOfFloat?_iff`), and a check of both bounds leaves
nothing but finite floats (`isFinite_of_le`).

Nothing is computed with floats here. Their bits are unpacked in two ways, and the
exponents that both of them find are compared.
-/

namespace Gathering

open Float.Model

/-- The exponent of a float as it stands in its bits. -/
def exponentField (x : Float) : BitVec 11 :=
  @UnpackedFloat.unpackExponent Format.binary64 x.toBits.toBitVec

/-- Bits are unpacked to a finite number unless their exponent is the greatest one. -/
theorem isFinite_unpack_iff (bits : BitVec 64) :
    (UnpackedFloat.unpack Format.binary64 bits).isFinite = true ↔
      @UnpackedFloat.unpackExponent Format.binary64 bits ≠ -1#11 := by
  unfold UnpackedFloat.unpack
  dsimp only
  by_cases h : @UnpackedFloat.unpackExponent Format.binary64 bits = -1#11
  · rw [if_pos h]
    exact iff_of_false (by split <;> exact Bool.false_ne_true) (not_not_intro h)
  · rw [if_neg h]
    refine iff_of_true ?_ h
    -- zeros and small numbers, and then all the others
    by_cases hsmall : @UnpackedFloat.unpackExponent Format.binary64 bits = 0#11
    · rw [if_pos hsmall]
      by_cases hzero : @UnpackedFloat.unpackMantissa Format.binary64 bits = 0#52
      · rw [dif_pos hzero]
        rfl
      · rw [dif_neg hzero]
        rfl
    · rw [if_neg hsmall]
      rfl

/-- **Finite floats** are those whose exponent is not the greatest one. -/
theorem isFinite_iff {x : Float} : x.isFinite = true ↔ (exponentField x).toNat ≠ 0x7FF := by
  have hgreatest : exponentField x = -1#11 ↔ (exponentField x).toNat = 0x7FF := by
    rw [← BitVec.toNat_inj]
    rfl
  exact (isFinite_unpack_iff x.toBits.toBitVec).trans (not_congr hgreatest)

/-- The same exponent, as the texts of a float find it. -/
theorem toNat_exponentField (x : Float) :
    (exponentField x).toNat = ((x.toBits >>> 52) &&& 0x7FF).toNat := by
  show (BitVec.extractLsb 62 52 x.toBits.toBitVec).toNat = _
  rw [BitVec.extractLsb_toNat, UInt64.toNat_and, UInt64.toNat_shiftRight]
  exact (Nat.and_two_pow_sub_one_eq_mod (x.toBits.toNat >>> 52) 11).symm

/-- The number that a finite float stands for is one. -/
theorem Binary.ofFloat_eq_finite_iff {x : Float} :
    (∃ negative m q, ofFloat x = .finite negative m q) ↔ x.isFinite = true := by
  rw [isFinite_iff, toNat_exponentField]
  unfold ofFloat ofBits
  dsimp only
  split
  · next h =>
    refine iff_of_false (fun ⟨_, _, _, heq⟩ => ?_) (not_not_intro (eq_of_beq h))
    split at heq <;> cases heq
  · next h =>
    refine iff_of_true ?_ (fun heq => h (beq_iff_eq.mpr heq))
    split <;> exact ⟨_, _, _, rfl⟩

/-- **A float has a record form** exactly if it is finite. -/
theorem Decimal.isSome_recordFormOfFloat?_iff {x : Float} :
    (recordFormOfFloat? x).isSome = true ↔ x.isFinite = true := by
  rw [← Binary.ofFloat_eq_finite_iff]
  unfold recordFormOfFloat?
  cases Binary.ofFloat x with
  | finite negative m q => exact iff_of_true rfl ⟨_, _, _, rfl⟩
  | nan | infinite => exact iff_of_false Bool.false_ne_true (fun ⟨_, _, _, h⟩ => by cases h)

/-- What lies between two finite numbers is finite: an infinity would lie beyond one of them, and
what is no number cannot be compared. -/
theorem isFinite_of_le_of_le {low x high : UnpackedFloat} (hlow : low.isFinite = true)
    (hhigh : high.isFinite = true) (h : low.le x = true) (h' : x.le high = true) :
    x.isFinite = true := by
  cases x with
  | zero | finite => rfl
  | notANumber => cases low <;> cases h
  | infinity sign =>
    cases sign with
    | positive => cases high <;> first | cases h' | cases hhigh
    | negative => cases low <;> first | cases h | cases hlow

/-- **Between two finite floats** there are only finite floats. -/
theorem isFinite_of_le {low x high : Float} (hlow : low.isFinite = true)
    (hhigh : high.isFinite = true) (h : low ≤ x) (h' : x ≤ high) : x.isFinite = true :=
  isFinite_of_le_of_le hlow hhigh (of_decide_eq_true h) (of_decide_eq_true h')

end Gathering
