import StupidAR.Pcm.Overload

/-!
# Integers through `float`

The last of the tests: a 25-bit integer is divided by a power of two as a `float`, multiplied
back and cast. What survives the trip is what a `float` can hold, in every rounding mode.
-/

namespace StupidAR

open FixedPoint FloatingPoint

/-- How a floating-point operation rounds its exact result: anyhow, but what a `float` holds
stays as it is. -/
structure Rounding where
  round : ℚ → Binary32
  exact : ∀ q, Representable 24 (-149) 104 q → (round q).val = q

open Classical in
/-- Everything that a `float` does not hold becomes silence. -/
noncomputable def Rounding.coarsest : Rounding where
  round q := if h : Representable 24 (-149) 104 q then ⟨q, h⟩ else silence
  exact q h := by rw [dif_pos h]

/-- `INT32_MIN >> 7` -/
def testMin : Int32T := int32Min.sshiftRight 7

/-- `INT32_MAX >> 7` -/
def testMax : Int32T := int32Max.sshiftRight 7

namespace Rounding

variable (r : Rounding)

/-- `max + 1.0f` -/
def testScale : Binary32 := r.round ((r.round testMax.toInt).val + 1)

/-- `sample / (max + 1.0f)` -/
def sampleF (sample : Int32T) : Binary32 :=
  r.round ((r.round sample.toInt).val / r.testScale.val)

/-- `sample_f * (max + 1.0f)`, cast to `int32_t` -/
def sampleFi (sample : Int32T) : Option Int32T :=
  int32Cast (r.round ((r.sampleF sample).val * r.testScale.val)).val

end Rounding

lemma representable_of_abs_le {v : ℤ} (h : |v| ≤ 2 ^ 24) :
    Representable 24 (-149) 104 v := by
  rcases lt_or_eq_of_le h with hlt | heq
  · exact ⟨v, 0, hlt, by norm_num, by norm_num, by simp⟩
  · rcases abs_eq (by norm_num) |>.mp heq with rfl | rfl
    · exact ⟨1, 24, by norm_num, by norm_num, by norm_num, by norm_num⟩
    · exact ⟨-1, 24, by norm_num, by norm_num, by norm_num, by norm_num⟩

/-- An integer that a `float` holds has no bits below the point to spare. -/
lemma representable_intCast {v : ℤ} (h : Representable 24 (-149) 104 v) :
    ∃ m e : ℤ, |m| < 2 ^ 24 ∧ 0 ≤ e ∧ e ≤ 104 ∧ (v : ℚ) = m * 2 ^ e := by
  obtain ⟨m, e, hm, -, he, heq⟩ := h
  rcases le_or_gt 0 e with hpos | hneg
  · exact ⟨m, e, hm, hpos, he, heq⟩
  · have hpow : (1 : ℚ) ≤ 2 ^ (-e) := one_le_zpow₀ (by norm_num) (by omega)
    have hmv : (m : ℚ) = v * 2 ^ (-e) := by
      rw [heq, mul_assoc, ← zpow_add₀ (by norm_num)]
      simp
    have hle : |(v : ℚ)| ≤ |(m : ℚ)| := by
      rw [hmv, abs_mul, abs_of_pos (show (0 : ℚ) < 2 ^ (-e) by positivity)]
      exact le_mul_of_one_le_right (abs_nonneg _) hpow
    have hint : |v| ≤ |m| := by exact_mod_cast hle
    exact ⟨v, 0, hint.trans_lt hm, le_rfl, by norm_num, by simp⟩

/-- The integer part of a `float` can be held by a `float`. -/
lemma representable_truncate (x : Binary32) : Representable 24 (-149) 104 (truncate x.val) := by
  obtain ⟨m, e, hm, he, he', hx⟩ := x.representable
  rcases le_or_gt 0 e with hpos | hneg
  · obtain ⟨k, rfl⟩ := Int.eq_ofNat_of_zero_le hpos
    have hint : x.val = ((m * 2 ^ k : ℤ) : ℚ) := by
      rw [hx]
      push_cast
      rfl
    rw [hint, truncate_intCast, ← hint]
    exact x.representable
  · apply representable_of_abs_le
    have hpow : (2 : ℚ) ^ e ≤ 1 := zpow_le_one_of_nonpos₀ (by norm_num) hneg.le
    have habs : |x.val| ≤ 2 ^ 24 := by
      rw [hx, abs_mul, abs_of_pos (show (0 : ℚ) < 2 ^ e by positivity)]
      have hm' : |(m : ℚ)| ≤ 2 ^ 24 := by exact_mod_cast hm.le
      calc |(m : ℚ)| * 2 ^ e ≤ |(m : ℚ)| := mul_le_of_le_one_right (abs_nonneg _) hpow
        _ ≤ 2 ^ 24 := hm'
    have hlow : (((-2 ^ 24 : ℤ)) : ℚ) ≤ x.val := by
      push_cast
      exact (abs_le.mp habs).1
    have hup : x.val ≤ ((2 ^ 24 : ℤ) : ℚ) := by
      push_cast
      exact (abs_le.mp habs).2
    have hlow' := truncate_mono hlow
    have hup' := truncate_mono hup
    rw [truncate_intCast] at hlow' hup'
    exact abs_le.mpr ⟨hlow', hup'⟩

lemma int32Cast_eq_some_iff {x : ℚ} {v : Int32T} :
    int32Cast x = some v ↔ truncate x = v.toInt := by
  rw [int32Cast]
  split_ifs with h
  · rw [Option.some.injEq]
    constructor
    · rintro rfl
      exact (toInt_ofInt_of_inRange (by norm_num) h).symm
    · intro heq
      rw [heq, BitVec.ofInt_toInt]
  · constructor
    · intro hsome
      cases hsome
    · intro heq
      exact absurd (heq ▸ inRange_toInt v) h

namespace Rounding

variable (r : Rounding)

lemma testScale_val : r.testScale.val = 2 ^ 24 := by
  have hmax : testMax.toInt = 16777215 := by decide
  have hscale : (((16777215 : ℤ) : ℚ) + 1) = ((2 ^ 24 : ℤ) : ℚ) := by norm_num
  rw [testScale, hmax, r.exact _ (representable_of_abs_le (by norm_num)), hscale,
    r.exact _ (representable_of_abs_le (by norm_num))]
  norm_num

/-- Division and multiplication by the power of two take no rounding. -/
lemma sampleFi_of_representable {sample : Int32T}
    (h : Representable 24 (-149) 104 sample.toInt) : r.sampleFi sample = some sample := by
  obtain ⟨m, e, hm, he, he', heq⟩ := representable_intCast h
  have hquotient : Representable 24 (-149) 104 ((sample.toInt : ℚ) / 2 ^ 24) := by
    refine ⟨m, e - 24, hm, by omega, by omega, ?_⟩
    rw [heq, zpow_sub₀ (by norm_num), mul_div_assoc]
    norm_num
  rw [sampleFi, sampleF, testScale_val, r.exact _ h, r.exact _ hquotient,
    div_mul_cancel₀ _ (by norm_num), r.exact _ h, int32Cast_eq_some_iff, truncate_intCast]

end Rounding

/-- An integer survives the trip exactly if a `float` can hold it. So the 25-bit integers of
the test do, in every rounding mode, and the next larger one does not. -/
theorem int32_float_roundTrip (r : Rounding) :
    (∀ sample, r.sampleFi sample = some sample ↔
      Representable 24 (-149) 104 sample.toInt) ∧
    (∀ sample, testMin.toInt ≤ sample.toInt → sample.toInt ≤ testMax.toInt →
      r.sampleFi sample = some sample) ∧
    r.sampleFi 16777216#32 = some 16777216#32 ∧ r.sampleFi 16777217#32 ≠ some 16777217#32 := by
  have hiff : ∀ sample, r.sampleFi sample = some sample ↔
      Representable 24 (-149) 104 sample.toInt := by
    intro sample
    refine ⟨fun h => ?_, r.sampleFi_of_representable⟩
    rw [Rounding.sampleFi, int32Cast_eq_some_iff] at h
    exact h ▸ representable_truncate _
  refine ⟨hiff, ?_, ?_, ?_⟩
  · intro sample hmin hmax
    rw [show testMin.toInt = -16777216 by decide] at hmin
    rw [show testMax.toInt = 16777215 by decide] at hmax
    exact (hiff sample).mpr (representable_of_abs_le (abs_le.mpr ⟨by omega, by omega⟩))
  · exact (hiff _).mpr (representable_of_abs_le (by decide))
  · rw [Ne, hiff]
    intro h
    obtain ⟨m, e, hm, he, -, heq⟩ := representable_intCast h
    obtain ⟨k, rfl⟩ := Int.eq_ofNat_of_zero_le he
    have hint : (16777217#32).toInt = m * 2 ^ k := by exact_mod_cast heq
    rw [show (16777217#32).toInt = 16777217 by decide] at hint
    cases k with
    | zero =>
      rw [pow_zero, mul_one] at hint
      rw [← hint] at hm
      exact absurd hm (by decide)
    | succ k =>
      rw [pow_succ, ← mul_assoc] at hint
      omega

theorem int32_float_roundTrip_coarsest :
    Rounding.coarsest.sampleFi testMin = some testMin :=
  (int32_float_roundTrip .coarsest).2.1 testMin le_rfl (by decide)

end StupidAR
