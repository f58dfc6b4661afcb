import Mathlib

/-!
# Finite percentages

A percentage is computed with doubles: a count, times a hundred, divided by another count. A double that
is not finite has no number in a JSON document, so whether a percentage is there depends on the rounding.
The counts of a machine are words of 64 bits, and with those it is always finite.

* **`Normal`**: a double with all bits of the mantissa, and the bounds of its exponent. What is rounded is
  like this again (`normal_round`), also after it is packed (`Normal.unpack_pack`), so that products
  and quotients are (`Normal.mul`, `Normal.div`).
* **`normal_toFloat`**: a count is like this, or zero.
-/

namespace TemplateCoverage.Decimal

open Float.Model (Format UnpackedFloat totalExponent)
open Float.Model.UnpackedFloat

/-- A double whose mantissa has all of its bits and whose exponent is between the bounds. -/
inductive Normal (lo hi : Int) : UnpackedFloat → Prop where
  | intro {s : Sign} {m : Nat} {e : Int} (hpos : 0 < m) (hbits : m.log2 = 52) (hlo : lo ≤ e)
      (hhi : e ≤ hi) : Normal lo hi (.finite s m e hpos)

theorem mantissa_bounds {m : Nat} (h : m.log2 = 52) : 2 ^ 52 ≤ m ∧ m < 2 ^ 53 := by
  have hm : m ≠ 0 := by
    rintro rfl
    exact absurd h (by decide)
  exact (Nat.log2_eq_iff hm).mp h

theorem Normal.mono {lo hi lo' hi' : Int} {u : UnpackedFloat} (h : Normal lo hi u) (hlo : lo' ≤ lo)
    (hhi : hi ≤ hi') : Normal lo' hi' u := by
  obtain ⟨hpos, hbits, hlower, hupper⟩ := h
  exact .intro hpos hbits (hlo.trans hlower) (hupper.trans hhi)

/-! ## Rounding -/

theorem mantissa_shiftRight (em : ExtendedMantissa) (k : Nat) :
    (em >>> k).mantissa = em.mantissa / 2 ^ k := by
  induction k with
  | zero => exact (Nat.div_one _).symm
  | succ k ih =>
    show (em >>> k).mantissa / 2 = _
    rw [ih, Nat.div_div_eq_div_mul, Nat.pow_succ]

theorem mantissa_ofMantissaAndAccuracy (m : Nat) (a : Accuracy) :
    (ExtendedMantissa.ofMantissaAndAccuracy m a).mantissa = m := by
  rcases a with _ | _ | _ | _ <;> rfl

theorem roundedMantissa_bounds (em : ExtendedMantissa) :
    em.mantissa ≤ em.roundedMantissa ∧ em.roundedMantissa ≤ em.mantissa + 1 := by
  obtain ⟨m, round, sticky⟩ := em
  unfold ExtendedMantissa.roundedMantissa
  cases round <;> cases sticky <;>
    simp [ExtendedMantissa.accuracy, Accuracy.roundToNearestEven]
  omega

theorem targetExponent_binary64 (t : Int) :
    Format.binary64.targetExponent t = max (t - 53) (-1074) := rfl

/-- A mantissa with too many bits is cut down to those that there are. -/
theorem shiftToTargetExponent_normal {m : Nat} {e : Int} (a : Accuracy) (hm : 52 ≤ m.log2)
    (he : -1074 ≤ e + (m.log2 - 52)) :
    (shiftToTargetExponent Format.binary64 m e a).1.mantissa.log2 = 52
      ∧ (shiftToTargetExponent Format.binary64 m e a).2 = e + (m.log2 - 52) := by
  -- with 53 bits or more the mantissa is cut to 53, unless the exponent is too small
  have htarget : Format.binary64.targetExponent (totalExponent m e) = e + (m.log2 - 52) := by
    rw [targetExponent_binary64]
    unfold totalExponent
    omega
  have hshift : (e + ((m.log2 : Int) - 52) - e).toNat = m.log2 - 52 := by omega
  unfold shiftToTargetExponent shiftToExponent
  dsimp only
  rw [htarget, hshift]
  constructor
  · rw [mantissa_shiftRight, mantissa_ofMantissaAndAccuracy, Nat.log2_eq_log_two,
      Nat.log_div_base_pow, ← Nat.log2_eq_log_two]
    omega
  · omega

/-- Rounding up can need one more bit, which is then cut off. -/
theorem normal_round {lo hi : Int} (s : Sign) {m : Nat} {e : Int} (a : Accuracy) (hm : 52 ≤ m.log2)
    (hlo : lo ≤ e + (m.log2 - 52)) (hhi : e + (m.log2 - 52) + 1 ≤ hi) (hmin : -1074 ≤ lo) :
    Normal lo hi (roundWithAccuracy Format.binary64 s m e a) := by
  have hfirst := shiftToTargetExponent_normal a hm (hmin.trans hlo)
  unfold roundWithAccuracy
  generalize shiftToTargetExponent Format.binary64 m e a = first at hfirst ⊢
  obtain ⟨em, t⟩ := first
  obtain ⟨hbits, rfl⟩ := hfirst
  have hrounded := roundedMantissa_bounds em
  dsimp only
  generalize em.roundedMantissa = r at hrounded ⊢
  obtain ⟨hge, hlt⟩ : 2 ^ 52 ≤ em.mantissa ∧ em.mantissa < 2 ^ 53 := mantissa_bounds hbits
  -- rounding up may carry into one more bit, so the result is shifted once more
  have hr : r ≠ 0 := by omega
  have hr52 : 52 ≤ r.log2 := (Nat.le_log2 hr).mpr (by omega)
  have hr53 : r.log2 < 54 := (Nat.log2_lt hr).mpr (by omega)
  have hsecond := shiftToTargetExponent_normal (e := e + (m.log2 - 52)) .exact hr52 (by omega)
  generalize shiftToTargetExponent Format.binary64 r _ .exact = second at hsecond ⊢
  obtain ⟨em', t'⟩ := second
  obtain ⟨hbits', rfl⟩ := hsecond
  have hem' : em'.mantissa ≠ 0 := by
    have hge' : 2 ^ 52 ≤ em'.mantissa := (mantissa_bounds hbits').1
    omega
  dsimp only
  rw [dif_neg hem']
  exact .intro _ hbits' (by omega) (by omega)

/-! ## Packing -/

theorem toNat_append_one (m : BitVec 52) : (1#1 ++ m).toNat = 2 ^ 52 + m.toNat := by
  rw [BitVec.toNat_append, ← Nat.shiftLeft_add_eq_or_of_lt m.isLt]
  rfl

/-- A double that is packed has its mantissa and its exponent. -/
theorem Normal.unpack_pack {lo hi : Int} {u : UnpackedFloat} (h : Normal lo hi u)
    (hmin : -1074 ≤ lo) (hmax : hi ≤ 971) :
    Normal lo hi (unpack Format.binary64 (pack Format.binary64 u)) := by
  obtain @⟨s, m, e, hpos, hbits, hlo, hhi⟩ := h
  obtain ⟨hge, hlt⟩ := mantissa_bounds hbits
  obtain ⟨k, hk⟩ : ∃ k : Nat, e + 1075 = k := ⟨(e + 1075).toNat, by omega⟩
  have hbiased : (e + (Format.binary64.exponentBias : Int)
      + (Format.binary64.mantissaBitsWithoutImplicit : Int)).toNat = k := by
    show (e + 1023 + 52).toNat = k
    omega
  have hexponent : (BitVec.ofNat 11 k).toNat = k := by
    rw [BitVec.toNat_ofNat]
    omega
  -- the exponent is neither the one of the infinities nor the one of the subnormal numbers
  have hother (b : BitVec 11) (hb : b.toNat = 0 ∨ b.toNat = 2047) : BitVec.ofNat 11 k ≠ b := by
    rintro rfl
    rw [hexponent] at hb
    omega
  have hnormal : m.log2 + 1 = Format.binary64.mantissaBits := by
    rw [hbits]
    rfl
  have hmantissa : (1#1 ++ BitVec.ofNat 52 m).toNat = m := by
    rw [toNat_append_one, BitVec.toNat_ofNat]
    omega
  unfold pack
  dsimp only
  rw [hbiased, if_neg (show ¬2 ^ 11 ≤ k + 1 by omega), if_pos hnormal]
  unfold unpack
  simp only [unpackExponent_packComponents, unpackMantissa_packComponents]
  rw [if_neg (hother (-1#11) (by decide)), if_neg (hother 0#11 (by decide))]
  refine .intro _ ?_ ?_ ?_
  · rw [hmantissa]
    exact hbits
  · rw [hexponent]
    show lo ≤ (k : Int) - (1023 + 52)
    omega
  · rw [hexponent]
    show (k : Int) - (1023 + 52) ≤ hi
    omega

/-! ## Products and quotients -/

theorem Normal.mul {a b c d : Int} {u v : UnpackedFloat} (hu : Normal a b u) (hv : Normal c d v)
    (hmin : -1126 ≤ a + c) :
    Normal (a + c + 52) (b + d + 54) (UnpackedFloat.mul Format.binary64 u v) := by
  obtain @⟨s, m, e, hpos, hbits, hlo, hhi⟩ := hu
  obtain @⟨s', m', e', hpos', hbits', hlo', hhi'⟩ := hv
  have hprod : m * m' ≠ 0 := (Nat.mul_pos hpos hpos').ne'
  obtain ⟨hge, hlt⟩ := mantissa_bounds hbits
  obtain ⟨hge', hlt'⟩ := mantissa_bounds hbits'
  -- two mantissas of 53 bits have a product of 105 or 106 bits
  have hlower : 104 ≤ (m * m').log2 := by
    have := Nat.mul_le_mul hge hge'
    rw [Nat.le_log2 hprod]
    omega
  have hupper : (m * m').log2 < 106 := by
    have := Nat.mul_lt_mul'' hlt hlt'
    rw [Nat.log2_lt hprod]
    omega
  exact normal_round _ _ (by omega) (by omega) (by omega) (by omega)

/-- The quotient of two mantissas is taken with 53 bits more, so that it has all bits. -/
theorem Normal.div {a b c d : Int} {u v : UnpackedFloat} (hu : Normal a b u) (hv : Normal c d v)
    (hmin : -1021 ≤ a - d) :
    Normal (a - d - 53) (b - c - 51) (UnpackedFloat.div Format.binary64 u v) := by
  obtain @⟨s, m, e, hpos, hbits, hlo, hhi⟩ := hu
  obtain @⟨s', m', e', hpos', hbits', hlo', hhi'⟩ := hv
  obtain ⟨hge, hlt⟩ := mantissa_bounds hbits
  obtain ⟨hge', hlt'⟩ := mantissa_bounds hbits'
  have htarget : min (e - e')
      (Format.binary64.targetExponent (totalExponent m e - totalExponent m' e')) = e - e' - 53 := by
    rw [targetExponent_binary64]
    unfold totalExponent
    omega
  have hshift : (e - e' - (e - e' - 53)).toNat = 53 := by omega
  -- the quotient has 53 or 54 bits
  have hlower : 2 ^ 52 ≤ (m <<< 53) / m' := by
    rw [Nat.le_div_iff_mul_le hpos', Nat.shiftLeft_eq]
    omega
  have hupper : (m <<< 53) / m' < 2 ^ 54 := by
    rw [Nat.div_lt_iff_lt_mul hpos', Nat.shiftLeft_eq]
    omega
  have hquot : (m <<< 53) / m' ≠ 0 := by omega
  have hbits52 : 52 ≤ ((m <<< 53) / m').log2 := (Nat.le_log2 hquot).mpr hlower
  have hbits53 : ((m <<< 53) / m').log2 < 54 := (Nat.log2_lt hquot).mpr hupper
  unfold UnpackedFloat.div divCore
  dsimp only
  rw [htarget, hshift]
  exact normal_round _ _ hbits52 (by omega) (by omega) (by omega)

/-! ## Counts -/

theorem unpack_mul (x y : Float) :
    (x * y).toModel.unpack
      = unpack Format.binary64
          (UnpackedFloat.pack Format.binary64
            (UnpackedFloat.mul Format.binary64 x.toModel.unpack y.toModel.unpack)) := rfl

theorem unpack_div (x y : Float) :
    (x / y).toModel.unpack
      = unpack Format.binary64
          (UnpackedFloat.pack Format.binary64
            (UnpackedFloat.div Format.binary64 x.toModel.unpack y.toModel.unpack)) := rfl

theorem unpack_toFloat_uint64 (n : UInt64) :
    n.toFloat.toModel.unpack
      = unpack Format.binary64
          (UnpackedFloat.pack Format.binary64 (ofNat Format.binary64 n.toNat)) := rfl

theorem log2_shiftLeft {n : Nat} (hn : n ≠ 0) (k : Nat) : (n <<< k).log2 = n.log2 + k := by
  induction k with
  | zero => rfl
  | succ k ih =>
    have hk : n <<< k ≠ 0 := by simpa [Nat.shiftLeft_eq_zero_iff] using hn
    rw [Nat.shiftLeft_succ, Nat.log2_two_mul hk, ih, Nat.add_assoc]

/-- A count of at most 53 bits is exact. -/
theorem normal_toFloat_uint64 {n : Nat} (hn : n ≠ 0) (hlt : n < 2 ^ 53) :
    Normal (-52) 1 n.toUInt64.toFloat.toModel.unpack := by
  have hbits : n.log2 < 53 := (Nat.log2_lt hn).mpr hlt
  have htoNat : n.toUInt64.toNat = n := by
    rw [Nat.toUInt64_eq, UInt64.toNat_ofNat']
    omega
  -- a count below 2 ^ 53 is shifted up until it fills the mantissa
  have htarget : (0 - Format.binary64.targetExponent (totalExponent n 0)).toNat = 52 - n.log2 := by
    rw [targetExponent_binary64]
    unfold totalExponent
    omega
  have hlog := log2_shiftLeft hn (52 - n.log2)
  rw [unpack_toFloat_uint64, htoNat]
  unfold ofNat ofInt UnpackedFloat.normalize
  rw [Int.compare_eq_gt.mpr (by omega)]
  refine Normal.unpack_pack ?_ (by decide) (by decide)
  unfold UnpackedFloat.round decreaseExponent
  dsimp only
  rw [Int.toNat_natCast, htarget]
  exact normal_round _ _ (by omega) (by omega) (by omega) (by decide)

theorem normal_one : Normal (-52) (-52) (Float.ofBits 0x3FF0000000000000).toModel.unpack :=
  .intro (show 0 < 2 ^ 52 by decide) (by decide) (by decide) (by decide)

theorem normal_hundred : Normal (-46) (-46) (100.0 : Float).toModel.unpack :=
  .intro (show 0 < 7036874417766400 by decide) (by decide) (by decide) (by decide)

theorem ofScientific_zero {n : Nat} (hn : n ≠ 0) :
    ofScientific Format.binary64 n 0
      = roundWithAccuracy Format.binary64 .positive (n <<< 53) (-53) .exact := by
  have hsmall : ¬(0 : Int) < -(2 ^ Format.binary64.exponentBits + (n.log2 : Int)) := by
    show ¬(0 : Int) < -(2048 + (n.log2 : Int))
    omega
  unfold ofScientific
  rw [dif_neg hn, if_neg (by decide), if_neg hsmall, if_pos (by decide)]
  have h10 : 10 ^ (0 : Int).toNat = 1 := rfl
  unfold mul
  dsimp only
  simp only [h10, Nat.mul_one]
  rfl

/-- A count is computed like a literal of its digits, where there is a shorter way for few bits. -/
theorem normal_toFloat {n : Nat} (hn : n ≠ 0) (hlt : n < 2 ^ 64) :
    Normal (-52) 12 n.toFloat.toModel.unpack := by
  by_cases hsmall : n < 2 ^ 53
  · have hfloat : n.toFloat = n.toUInt64.toFloat * Float.ofBits 0x3FF0000000000000 :=
      dif_pos ⟨hsmall, Nat.zero_le _⟩
    rw [hfloat, unpack_mul]
    exact (((normal_toFloat_uint64 hn hsmall).mul normal_one (by decide)).mono
      (by decide) (by decide)).unpack_pack (by decide) (by decide)
  · -- a larger one is read as a decimal, and may be rounded
    have hlarge : ¬(n < 2 ^ 53 ∧ 0 ≤ 22) := fun h => hsmall h.1
    have hfloat : n.toFloat = Float.ofModel (Float.Model.ofScientific n 0) := dif_neg hlarge
    have hlower : 53 ≤ n.log2 := (Nat.le_log2 hn).mpr (by omega)
    have hupper : n.log2 < 64 := (Nat.log2_lt hn).mpr hlt
    have hlog := log2_shiftLeft hn 53
    rw [hfloat]
    show Normal (-52) 12 (unpack _ (UnpackedFloat.pack _ (UnpackedFloat.ofScientific _ n 0)))
    rw [ofScientific_zero hn]
    refine Normal.unpack_pack ?_ (by decide) (by decide)
    exact normal_round _ _ (by omega) (by omega) (by omega) (by decide)

/-! ## Percentages -/

theorem Normal.isFinite {lo hi : Int} {u : UnpackedFloat} (h : Normal lo hi u) :
    u.isFinite = true := by
  obtain ⟨-⟩ := h
  rfl

theorem Normal.zero_div {lo hi : Int} {u : UnpackedFloat} (h : Normal lo hi u) :
    ∃ s, UnpackedFloat.div Format.binary64 (.zero .positive) u = UnpackedFloat.zero s := by
  obtain @⟨s, m, e, hpos, -⟩ := h
  exact ⟨.positive / s, rfl⟩

theorem isFinite_zero (s : Sign) :
    (unpack Format.binary64 (UnpackedFloat.pack Format.binary64 (.zero s))).isFinite = true := by
  cases s <;> decide

/-- **A percentage is finite.** The counts are words of 64 bits, and there is something to take the
percentage of. -/
theorem isFinite_percent {covered total : Nat} (hcovered : covered < 2 ^ 64) (hpos : total ≠ 0)
    (htotal : total < 2 ^ 64) : (covered.toFloat * 100.0 / total.toFloat).isFinite = true := by
  have hden := normal_toFloat hpos htotal
  show (covered.toFloat * 100.0 / total.toFloat).toModel.unpack.isFinite = true
  rw [unpack_div]
  by_cases hzero : covered = 0
  · -- nothing of something is zero, which no bounds of an exponent admit
    subst hzero
    have hnum : ((0 : Nat).toFloat * 100.0).toModel.unpack = .zero .positive := rfl
    obtain ⟨s, hquot⟩ := hden.zero_div
    rw [hnum, hquot]
    exact isFinite_zero s
  · have hnum := (((normal_toFloat hzero hcovered).mul normal_hundred (by decide)).unpack_pack
      (by decide) (by decide))
    rw [← unpack_mul] at hnum
    exact ((hnum.div hden (by decide)).unpack_pack (by decide) (by decide)).isFinite

end TemplateCoverage.Decimal
