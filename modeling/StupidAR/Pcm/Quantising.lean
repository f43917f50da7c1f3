import StupidAR.Pcm.Rescaling

/-!
# Quantising floating-point samples

A conversion from `Float` or `Double` truncates toward zero on the 24-bit or the 32-bit
grid and floors from there to the width of the target.
-/

namespace StupidAR

open FixedPoint FloatingPoint

/-- The sample on the nominal scale from -1 to 1. -/
def amplitude (F : SampleFormat) (x : SampleT F) : ℚ := signedValue F x / 2 ^ (F.width - 1)

lemma amplitude_float (x : Binary32) : amplitude .float x = x.val :=
  mul_div_cancel_right₀ _ (by norm_num)

lemma amplitude_double (x : Binary64) : amplitude .double x = x.val :=
  mul_div_cancel_right₀ _ (by norm_num)

section Nominal

variable {F G : SampleFormat} {f : SampleT F → Option (SampleT G)} {x y : SampleT F}

lemma inRange_truncate_signedValue (h : -1 ≤ amplitude F x) (h' : amplitude F x < 1) :
    InRange F.width (truncate (signedValue F x)) := by
  have hpos : (0 : ℚ) < 2 ^ (F.width - 1) := by positivity
  rw [amplitude, le_div_iff₀ hpos] at h
  rw [amplitude, div_lt_iff₀ hpos] at h'
  exact inRange_truncate (by linarith) (by linarith)

lemma source_width_pos (hf : convertSample F G = some f) : 0 < F.width := by
  cases F with
  | unknown => cases hf
  | _ => norm_num [SampleFormat.width]

/-- On the nominal scale a conversion errs by less than a step of the coarser format. -/
theorem convertSample_error (hf : convertSample F G = some f) (h : -1 ≤ amplitude F x)
    (h' : amplitude F x < 1) : ∃ (y : SampleT G) (v : ℤ), f x = some y ∧ signedValue G y = v ∧
      InRange G.width v ∧
      |(v : ℚ) / 2 ^ (G.width - 1) - amplitude F x| < 1 / 2 ^ (min G.width F.width - 1) := by
  have hF := source_width_pos hf
  have hG := width_pos_of_convertSample hf
  have hrange := inRange_truncate_signedValue h h'
  obtain ⟨y, hy, henc⟩ := convertSample_encodes hf hrange
  exact ⟨y, _, hy, henc.value, hrange.rescale hF hG,
    abs_rescale_sub_lt hF hG (abs_truncate_sub_lt_one _)⟩

theorem convertSample_mono (hf : convertSample F G = some f) (hx : -1 ≤ amplitude F x)
    (hxy : amplitude F x ≤ amplitude F y) (hy : amplitude F y < 1) :
    ∃ u v, f x = some u ∧ f y = some v ∧ signedValue G u ≤ signedValue G v := by
  have hle : signedValue F x ≤ signedValue F y :=
    (div_le_div_iff_of_pos_right (show (0 : ℚ) < 2 ^ (F.width - 1) by positivity)).mp hxy
  obtain ⟨u, hu, huenc⟩ := convertSample_encodes hf
    (inRange_truncate_signedValue hx (hxy.trans_lt hy))
  obtain ⟨v, hv, hvenc⟩ := convertSample_encodes hf
    (inRange_truncate_signedValue (hx.trans hxy) hy)
  refine ⟨u, v, hu, hv, ?_⟩
  rw [huenc.value, hvenc.value]
  exact_mod_cast rescale_mono (truncate_mono hle)

end Nominal

lemma exists_convertSample_float {G : SampleFormat} (hG : G.isInteger = true) :
    ∃ f, convertSample .float G = some f := by
  cases G with
  | unknown | float | double => cases hG
  | _ => exact ⟨_, rfl⟩

lemma exists_convertSample_double {G : SampleFormat} (hG : G.isInteger = true) :
    ∃ f, convertSample .double G = some f := by
  cases G with
  | unknown | float | double => cases hG
  | _ => exact ⟨_, rfl⟩

/-- A negative sample between two steps of the 24-bit grid. -/
def offGrid : Binary32 := .ofScaled (-3) 25 (by norm_num) (by norm_num) (by norm_num)

def silence : Binary32 := .ofScaled 0 0 (by norm_num) (by norm_num) (by norm_num)

def fullScale : Binary32 := .ofScaled 1 0 (by norm_num) (by norm_num) (by norm_num)

/-- Quantising is accurate to less than one step of the coarser of the two grids. -/
theorem quantisation_error :
    (∀ x : Binary32, -1 ≤ x.val → x.val < 1 → ∀ G, G.isInteger = true →
      ∃ f y, ∃ v : ℤ, convertSample .float G = some f ∧ f x = some y ∧ signedValue G y = v ∧
        InRange G.width v ∧
        |(v : ℚ) / 2 ^ (G.width - 1) - x.val| < 1 / 2 ^ (min G.width 24 - 1)) ∧
    (∀ x : Binary64, -1 ≤ x.val → x.val < 1 → ∀ G, G.isInteger = true →
      ∃ f y, ∃ v : ℤ, convertSample .double G = some f ∧ f x = some y ∧ signedValue G y = v ∧
        InRange G.width v ∧
        |(v : ℚ) / 2 ^ (G.width - 1) - x.val| < 1 / 2 ^ (G.width - 1)) ∧
    (∀ x : Binary64, -1 ≤ x.val → x.val < 1 →
      ∃ y, convertSampleDoubleFloat x = some y ∧ |y.val - x.val| < 1 / 2 ^ 23) ∧
    (∀ x : Binary32, -1 ≤ x.val → x.val < 1 →
      ∃ y, convertSampleFloatDouble x = some y ∧ |y.val - x.val| < 1 / 2 ^ 23) := by
  refine ⟨?_, ?_, ?_, ?_⟩
  · intro x h h' G hG
    obtain ⟨f, hf⟩ := exists_convertSample_float hG
    rw [← amplitude_float] at h h' ⊢
    obtain ⟨y, v, hy, hv, hrange, herr⟩ := convertSample_error hf h h'
    exact ⟨f, y, v, hf, hy, hv, hrange, herr⟩
  · intro x h h' G hG
    obtain ⟨f, hf⟩ := exists_convertSample_double hG
    rw [← amplitude_double] at h h' ⊢
    obtain ⟨y, v, hy, hv, hrange, herr⟩ := convertSample_error hf h h'
    have hwidth : G.width ≤ 32 := by cases G <;> norm_num [SampleFormat.width]
    rw [show SampleFormat.double.width = 32 from rfl, min_eq_left hwidth] at herr
    exact ⟨f, y, v, hf, hy, hv, hrange, herr⟩
  · intro x h h'
    rw [← amplitude_double] at h h' ⊢
    obtain ⟨y, v, hy, hv, -, herr⟩ := @convertSample_error .double .float _ x rfl h h'
    refine ⟨y, hy, ?_⟩
    rw [← hv] at herr
    rw [← amplitude_float y]
    exact herr
  · intro x h h'
    rw [← amplitude_float] at h h' ⊢
    obtain ⟨y, v, hy, hv, -, herr⟩ := @convertSample_error .float .double _ x rfl h h'
    refine ⟨y, hy, ?_⟩
    rw [← hv] at herr
    rw [← amplitude_double y]
    exact herr

theorem quantisation_error_offGrid : ∃ f y, ∃ v : ℤ, convertSample .float .s16 = some f ∧
    f offGrid = some y ∧ signedValue .s16 y = v ∧ InRange 16 v ∧
    |(v : ℚ) / 2 ^ 15 - offGrid.val| < 1 / 2 ^ 15 := by
  apply quantisation_error.1 offGrid
  · norm_num [offGrid, BinaryFloat.ofScaled]
  · norm_num [offGrid, BinaryFloat.ofScaled]
  · rfl

/-- On the way from `Float`, which begins with `convert_sample<Float, S24>`, the argument of
`int32_t(...)` fits 32 bits and that of `value_of` 24. -/
def FloatPathFits (x : Binary32) : Prop :=
  InRange 32 (truncate (x.val * floatScale)) ∧
    ∀ s24, int32Cast (x.val * floatScale) = some s24 → InRange 24 s24.toInt

/-- The same on the way from `Double`, which begins with `convert_sample<Double, S32>`; only
packed targets call `value_of`, on the result of `convert_sample<S32, S24of32>`. -/
def DoublePathFits (G : SampleFormat) (x : Binary64) : Prop :=
  InRange 32 (truncate (x.val * doubleScale)) ∧
    (G = .s24 ∨ G = .float → ∀ s, convertSampleDoubleS32 x = some s →
      InRange 24 (convertSampleS32S24of32 s).toInt)

lemma floatPathFits_iff {x : Binary32} (h : -1 ≤ x.val) (h' : x.val ≤ 1) :
    FloatPathFits x ↔ x.val < 1 := by
  rw [FloatPathFits, floatScale_eq]
  constructor
  · rintro ⟨hcast, hpack⟩
    refine lt_of_le_of_ne h' fun hone => ?_
    have hwrap := (hpack _ (int32Cast_of_inRange hcast)).2
    rw [toInt_ofInt_of_inRange (by norm_num) hcast, hone, one_mul, truncate_two_pow] at hwrap
    norm_num at hwrap
  · intro hlt
    have hrange : InRange 24 (truncate (x.val * 2 ^ 23)) := by
      apply inRange_truncate
      · norm_num
        linarith
      · norm_num
        linarith
    have hcast := hrange.mono (show 24 ≤ 32 by norm_num)
    refine ⟨hcast, ?_⟩
    intro s24 hs
    rw [int32Cast_of_inRange hcast, Option.some.injEq] at hs
    rwa [← hs, toInt_ofInt_of_inRange (by norm_num) hcast]

lemma doublePathFits_iff {G : SampleFormat} {x : Binary64} (h : -1 ≤ x.val) (h' : x.val ≤ 1) :
    DoublePathFits G x ↔ x.val < 1 := by
  rw [DoublePathFits, doubleScale_eq]
  constructor
  · rintro ⟨hcast, -⟩
    refine lt_of_le_of_ne h' fun hone => ?_
    rw [hone, one_mul, truncate_two_pow] at hcast
    exact absurd hcast.2 (by norm_num)
  · intro hlt
    refine ⟨?_, ?_⟩
    · apply inRange_truncate
      · norm_num
        linarith
      · norm_num
        linarith
    · intro _ s _
      rw [convertSampleS32S24of32, toInt_sshiftRight_rescale (m := 24) rfl]
      exact (inRange_toInt s).rescale (by norm_num) (by norm_num)

lemma int32Cast_intCast {v : ℤ} (h : InRange 32 v) : int32Cast v = some (.ofInt 32 v) := by
  rw [int32Cast, truncate_intCast, if_pos h]

/-- On the closed range from -1 to 1 the casts and packs are in range and the order is kept
exactly when full scale is not reached. -/
theorem order_preserved_iff {G : SampleFormat} (hG : G.isInteger = true) :
    (∃ f, convertSample .float G = some f ∧ ∀ x y : Binary32,
      -1 ≤ x.val → x.val ≤ y.val → y.val ≤ 1 →
      ((FloatPathFits x ∧ FloatPathFits y ∧
        ∃ u v, f x = some u ∧ f y = some v ∧ signedValue G u ≤ signedValue G v) ↔ y.val < 1)) ∧
    (∃ f, convertSample .double G = some f ∧ ∀ x y : Binary64,
      -1 ≤ x.val → x.val ≤ y.val → y.val ≤ 1 →
      ((DoublePathFits G x ∧ DoublePathFits G y ∧
        ∃ u v, f x = some u ∧ f y = some v ∧ signedValue G u ≤ signedValue G v) ↔ y.val < 1)) := by
  constructor
  · obtain ⟨f, hf⟩ := exists_convertSample_float hG
    refine ⟨f, hf, ?_⟩
    intro x y hx hxy hy
    rw [floatPathFits_iff hx (hxy.trans hy), floatPathFits_iff (hx.trans hxy) hy]
    refine ⟨fun h => h.2.1, fun hlt => ⟨hxy.trans_lt hlt, hlt, ?_⟩⟩
    rw [← amplitude_float] at hx hxy hlt
    rw [← amplitude_float y] at hxy
    exact convertSample_mono hf hx hxy hlt
  · obtain ⟨f, hf⟩ := exists_convertSample_double hG
    refine ⟨f, hf, ?_⟩
    intro x y hx hxy hy
    rw [doublePathFits_iff hx (hxy.trans hy), doublePathFits_iff (hx.trans hxy) hy]
    refine ⟨fun h => h.2.1, fun hlt => ⟨hxy.trans_lt hlt, hlt, ?_⟩⟩
    rw [← amplitude_double] at hx hxy hlt
    rw [← amplitude_double y] at hxy
    exact convertSample_mono hf hx hxy hlt

theorem order_preserved_iff_silence :
    ∃ u v, convertSampleFloatS16 offGrid = some u ∧ convertSampleFloatS16 silence = some v ∧
      signedValue .s16 u ≤ signedValue .s16 v := by
  obtain ⟨f, hf, horder⟩ := (order_preserved_iff (G := .s16) rfl).1
  cases hf
  have hlt : silence.val < 1 := by norm_num [silence, BinaryFloat.ofScaled]
  refine ((horder offGrid silence ?_ ?_ hlt.le).mpr hlt).2.2
  · norm_num [offGrid, BinaryFloat.ofScaled]
  · norm_num [offGrid, silence, BinaryFloat.ofScaled]

/-- Full scale overflows the 24-bit pack and comes out as the most negative sample; from
`Double` it has no defined result at all. -/
theorem fullScale_wraps :
    silence.val = 0 ∧ fullScale.val = 1 ∧ ¬FloatPathFits fullScale ∧
    (∃ u v, convertSampleFloatS24of32 silence = some u ∧
      convertSampleFloatS24of32 fullScale = some v ∧
      signedValue .s24of32 u = 0 ∧ signedValue .s24of32 v = -8388608) ∧
    convertSampleDoubleS32 fullScale.toBinary64 = none := by
  have hzero : silence.val = 0 := by norm_num [silence, BinaryFloat.ofScaled]
  have hone : fullScale.val = 1 := by norm_num [fullScale, BinaryFloat.ofScaled]
  refine ⟨hzero, hone, ?_, ⟨0, -8388608, ?_, ?_, ?_, ?_⟩, ?_⟩
  · rw [floatPathFits_iff (by norm_num [hone]) hone.le, hone]
    exact lt_irrefl 1
  · have hcast := int32Cast_intCast (v := 0) (by decide)
    rw [convertSampleFloatS24of32, convertSampleFloatS24, floatScale_eq, hzero, zero_mul]
    rw [Int.cast_zero] at hcast
    rw [hcast]
    decide
  · have hcast := int32Cast_intCast (v := 8388608) (by decide)
    rw [convertSampleFloatS24of32, convertSampleFloatS24, floatScale_eq, hone,
      show (1 : ℚ) * 2 ^ 23 = ((8388608 : ℤ) : ℚ) by norm_num, hcast]
    decide
  · rw [signedValue, show lowBits 24 0 = 0 by decide, Int.cast_zero]
  · rw [signedValue, show lowBits 24 (-8388608) = -8388608 by decide]
    norm_num
  · have hscale : (1 : ℚ) * 2 ^ 31 = ((2147483648 : ℤ) : ℚ) := by norm_num
    rw [convertSampleDoubleS32, doubleScale_eq, Binary32.toBinary64_val, hone, hscale, int32Cast,
      truncate_intCast]
    decide

end StupidAR
