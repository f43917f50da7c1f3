import StupidAR.Pcm.Encoding

/-!
# Every conversion is one rescale

All specializations follow one rule: cut the source value off to an integer, rescale it to
the width of the target. Integer sources need no cutting off, so their conversions floor,
and conversions through a third format leave no trace of it.
-/

namespace StupidAR

open FixedPoint FloatingPoint

lemma exists_signedValue {F : SampleFormat} (hF : F.isInteger = true) (x : SampleT F) :
    ∃ v : ℤ, signedValue F x = v ∧ InRange F.width v := by
  cases F with
  | unknown | float | double => cases hF
  | u8 => exact ⟨_, rfl, inRange_unbias x⟩
  | s16 | s32 => exact ⟨_, rfl, inRange_toInt x⟩
  | s24 => exact ⟨_, rfl, x.inRange_intValue⟩
  | s16of32 | s18of32 | s20of32 | s24of32 => exact ⟨_, rfl, inRange_lowBits _ x⟩

lemma convertSample_integer_encodes {F G : SampleFormat} (hF : F.isInteger = true)
    {f : SampleT F → Option (SampleT G)} (hf : convertSample F G = some f) {x : SampleT F}
    {v : ℤ} (hv : signedValue F x = v) :
    ∃ y, f x = some y ∧ Encodes G y (rescale F.width G.width v) := by
  cases F with
  | unknown | float | double => cases hF
  | u8 => exact Int.cast_injective hv ▸ convertFromU8_encodes hf x
  | s16 => exact Int.cast_injective hv ▸ convertFromS16_encodes hf x
  | s24 => exact Int.cast_injective hv ▸ convertFromS24_encodes hf x
  | s32 => exact Int.cast_injective hv ▸ convertFromS32_encodes hf x
  | s16of32 => exact Int.cast_injective hv ▸ convertFromS16of32_encodes hf x
  | s18of32 => exact Int.cast_injective hv ▸ convertFromS18of32_encodes hf x
  | s20of32 => exact Int.cast_injective hv ▸ convertFromS20of32_encodes hf x
  | s24of32 => exact Int.cast_injective hv ▸ convertFromS24of32_encodes hf x

/-- What a conversion makes of a sample that is itself the result of one. -/
lemma Encodes.via {F G : SampleFormat} (hF : F.isInteger = true) {c : SampleT F → SampleT G}
    (hc : convertSample F G = total c) {s : SampleT F} {t : ℤ} (hs : Encodes F s t) :
    Encodes G (c s) (rescale F.width G.width t) := by
  obtain ⟨y, hy, hyenc⟩ := convertSample_integer_encodes hF hc hs.value
  rwa [← Option.some.inj hy] at hyenc

lemma int32Cast_of_inRange {x : ℚ} (h : InRange 32 (truncate x)) :
    int32Cast x = some (.ofInt 32 (truncate x)) := if_pos h

lemma convertSampleFloatS24_encodes {x : Binary32} (h : InRange 24 (truncate (x.val * 2 ^ 23))) :
    ∃ s, convertSampleFloatS24 x = some s ∧ Encodes .s24 s (truncate (x.val * 2 ^ 23)) := by
  have hcast := h.mono (show 24 ≤ 32 by norm_num)
  rw [convertSampleFloatS24, floatScale_eq, int32Cast_of_inRange hcast]
  exact ⟨_, rfl, encodes_s24 h (toInt_ofInt_of_inRange (by norm_num) hcast)⟩

lemma convertSampleDoubleS32_encodes {x : Binary64} (h : InRange 32 (truncate (x.val * 2 ^ 31))) :
    ∃ s, convertSampleDoubleS32 x = some s ∧ Encodes .s32 s (truncate (x.val * 2 ^ 31)) := by
  rw [convertSampleDoubleS32, doubleScale_eq, int32Cast_of_inRange h]
  exact ⟨_, rfl, encodes_s32 (toInt_ofInt_of_inRange (by norm_num) h)⟩

theorem convertFromFloat_encodes {G : SampleFormat} {f : Binary32 → Option (SampleT G)}
    (hf : convertFromFloat G = some f) {x : Binary32}
    (h : InRange 24 (truncate (x.val * 2 ^ 23))) :
    ∃ y, f x = some y ∧ Encodes G y (rescale 24 G.width (truncate (x.val * 2 ^ 23))) := by
  obtain ⟨s, hs, hsenc⟩ := convertSampleFloatS24_encodes h
  cases G with
  | unknown | float => cases hf
  | s24 =>
    cases hf
    exact ⟨s, hs, by rwa [SampleFormat.width, rescale_self]⟩
  | double =>
    -- through `S24` and `S32`, where every other target needs `S24` alone
    cases hf
    refine ⟨_, ?_, (hsenc.via (G := .s32) rfl rfl).double⟩
    rw [convertSampleFloatDouble, convertSampleFloatS32, hs]
    rfl
  | _ =>
    cases hf
    exact ⟨_, congrArg (Option.map _) hs, hsenc.via rfl rfl⟩

theorem convertFromDouble_encodes {G : SampleFormat} {f : Binary64 → Option (SampleT G)}
    (hf : convertFromDouble G = some f) {x : Binary64}
    (h : InRange 32 (truncate (x.val * 2 ^ 31))) :
    ∃ y, f x = some y ∧ Encodes G y (rescale 32 G.width (truncate (x.val * 2 ^ 31))) := by
  obtain ⟨s, hs, hsenc⟩ := convertSampleDoubleS32_encodes h
  cases G with
  | unknown | double => cases hf
  | s32 =>
    cases hf
    exact ⟨s, hs, by rwa [SampleFormat.width, rescale_self]⟩
  | _ =>
    cases hf
    exact ⟨_, congrArg (Option.map _) hs, hsenc.via rfl rfl⟩

/-- What every specialization does to every sample whose integer part fits its format. -/
theorem convertSample_encodes {F G : SampleFormat} {f : SampleT F → Option (SampleT G)}
    (hf : convertSample F G = some f) {x : SampleT F}
    (h : InRange F.width (truncate (signedValue F x))) :
    ∃ y, f x = some y ∧
      Encodes G y (rescale F.width G.width (truncate (signedValue F x))) := by
  cases hF : F.isInteger with
  | true =>
    obtain ⟨v, hv, -⟩ := exists_signedValue hF x
    rw [hv, truncate_intCast]
    exact convertSample_integer_encodes hF hf hv
  | false =>
    cases F with
    | unknown => cases hf
    | float => exact convertFromFloat_encodes hf h
    | double => exact convertFromDouble_encodes hf h
    | _ => cases hF

lemma convertSample_encodes_intCast {F G : SampleFormat} {f : SampleT F → Option (SampleT G)}
    (hf : convertSample F G = some f) {x : SampleT F} {v : ℤ} (hv : signedValue F x = v)
    (h : InRange F.width v) : ∃ y, f x = some y ∧ Encodes G y (rescale F.width G.width v) := by
  have henc := convertSample_encodes hf (x := x)
  rw [hv, truncate_intCast] at henc
  exact henc h

/-- A format has one sample for each number. -/
theorem Encodes.unique {G : SampleFormat} {y y' : SampleT G} {v : ℤ} (h : Encodes G y v)
    (h' : Encodes G y' v) : y = y' := by
  have hval := h.value.trans h'.value.symm
  have hlow : ∀ n ≤ 32, ∀ z z' : Int32T, (lowBits n z : ℚ) = lowBits n z' →
      signExtendLow n z = z → signExtendLow n z' = z' → z = z' := by
    intro n hn z z' hz hnorm hnorm'
    apply BitVec.eq_of_toInt_eq
    rw [← hnorm, ← hnorm', toInt_signExtendLow hn, toInt_signExtendLow hn]
    exact Int.cast_injective hz
  cases G with
  | unknown => exact y.elim
  | float => exact BinaryFloat.ext (mul_right_cancel₀ (by norm_num) hval)
  | double => exact BinaryFloat.ext (mul_right_cancel₀ (by norm_num) hval)
  | u8 =>
    apply BitVec.eq_of_toNat_eq
    have hint : (y.toNat - 128 : ℤ) = y'.toNat - 128 := Int.cast_injective hval
    omega
  | s16 => exact BitVec.eq_of_toInt_eq (Int.cast_injective hval)
  | s24 => exact Pcm24T.intValue_injective (Int.cast_injective hval)
  | s32 => exact BitVec.eq_of_toInt_eq (Int.cast_injective hval)
  | s16of32 => exact hlow 16 (by norm_num) y y' hval h.canonical h'.canonical
  | s18of32 => exact hlow 18 (by norm_num) y y' hval h.canonical h'.canonical
  | s20of32 => exact hlow 20 (by norm_num) y y' hval h.canonical h'.canonical
  | s24of32 => exact hlow 24 (by norm_num) y y' hval h.canonical h'.canonical

lemma lowBits_signExtendLow {n : ℕ} (hn : 0 < n) (hn' : n ≤ 32) (x : Int32T) :
    lowBits n (signExtendLow n x) = lowBits n x := by
  have hval := toInt_signExtendLow hn' x
  rw [lowBits_of_inRange hn hn' (hval ▸ inRange_lowBits n x), hval]

lemma signExtendLow_idem {n : ℕ} (hn : 0 < n) (hn' : n ≤ 32) (x : Int32T) :
    signExtendLow n (signExtendLow n x) = signExtendLow n x :=
  signExtendLow_of_inRange hn hn' (toInt_signExtendLow hn' x ▸ inRange_lowBits n x)

lemma signedValue_normalize (F : SampleFormat) (x : SampleT F) :
    signedValue F (normalize F x) = signedValue F x := by
  have hlow : ∀ n, 0 < n → n ≤ 32 → ∀ z : Int32T,
      (lowBits n (signExtendLow n z) : ℚ) = lowBits n z :=
    fun n hn hn' z => by rw [lowBits_signExtendLow hn hn']
  cases F with
  | s16of32 => exact hlow 16 (by norm_num) (by norm_num) x
  | s18of32 => exact hlow 18 (by norm_num) (by norm_num) x
  | s20of32 => exact hlow 20 (by norm_num) (by norm_num) x
  | s24of32 => exact hlow 24 (by norm_num) (by norm_num) x
  | _ => rfl

lemma encodes_normalize {F : SampleFormat} {x : SampleT F} {v : ℤ} (h : signedValue F x = v) :
    Encodes F (normalize F x) v where
  value := (signedValue_normalize F x).trans h
  canonical := by
    cases F with
    | s16of32 | s18of32 | s20of32 | s24of32 =>
      exact signExtendLow_idem (by norm_num) (by norm_num) x
    | _ => rfl

lemma SampleFormat.width_pos {F : SampleFormat} (hF : F.isInteger = true) : 0 < F.width := by
  cases F with
  | unknown | float | double => cases hF
  | _ => norm_num [SampleFormat.width]

lemma width_pos_of_convertSample {F G : SampleFormat} {f : SampleT F → Option (SampleT G)}
    (hf : convertSample F G = some f) : 0 < G.width := by
  cases G with
  | unknown => cases F <;> cases hf
  | _ => norm_num [SampleFormat.width]

/-- Every conversion from an integer format floors the rescaled value. An integer result is
in range and has no stray bits in its container, a floating-point result is exact. -/
theorem integer_conversion_floors {F : SampleFormat} (hF : F.isInteger = true) (x : SampleT F) :
    (∀ G f, convertSample F G = some f → ∃ y, f x = some y ∧
      signedValue G y = ⌊signedValue F x * 2 ^ ((G.width : ℤ) - F.width)⌋ ∧
      normalize G y = y) ∧
    (∀ f, convertSample F .float = some f → ∃ y, f x = some y ∧
      y.val = ⌊signedValue F x * 2 ^ ((24 : ℤ) - F.width)⌋ / 2 ^ 23) ∧
    (∀ f, convertSample F .double = some f → ∃ y, f x = some y ∧
      y.val = signedValue F x * 2 ^ ((32 : ℤ) - F.width) / 2 ^ 31) := by
  obtain ⟨v, hv, -⟩ := exists_signedValue hF x
  rw [hv]
  refine ⟨?_, ?_, ?_⟩
  · intro G f hf
    obtain ⟨y, hy, henc⟩ := convertSample_integer_encodes hF hf hv
    exact ⟨y, hy, henc.value, henc.canonical⟩
  · intro f hf
    obtain ⟨y, hy, henc⟩ := convertSample_integer_encodes hF hf hv
    have hval : y.val * 2 ^ 23 = rescale F.width 24 v := henc.value
    refine ⟨y, hy, ?_⟩
    rw [eq_div_iff (by norm_num), hval]
    rfl
  · intro f hf
    obtain ⟨y, hy, henc⟩ := convertSample_integer_encodes hF hf hv
    have hval : y.val * 2 ^ 31 = rescale F.width 32 v := henc.value
    have hwidth : F.width ≤ 32 := by cases F <;> norm_num [SampleFormat.width]
    refine ⟨y, hy, ?_⟩
    rw [eq_div_iff (by norm_num), hval, rescale_widen v hwidth,
      show (32 : ℤ) - F.width = ((32 - F.width : ℕ) : ℤ) by omega, zpow_natCast]
    push_cast
    rfl

/-- A container with garbage in its upper bits and a negative 18-bit sample below. -/
theorem integer_conversion_floors_garbage :
    signedValue .u8 (convertSampleS18of32U8 0xabce1234#32) = -124 := by
  obtain ⟨y, hy, hval, -⟩ :=
    (@integer_conversion_floors .s18of32 rfl 0xabce1234#32).1 .u8 _ rfl
  have hlow : signedValue .s18of32 0xabce1234#32 = -126412 := by
    rw [signedValue, show lowBits 18 0xabce1234#32 = -126412 by decide]
    norm_num
  rw [Option.some.inj hy, hval, hlow]
  norm_num [SampleFormat.width]

/-- A conversion through a third format that is no narrower than both ends gives what the
direct one gives, and out and back nothing is lost. -/
theorem route_independent {F G : SampleFormat} (hF : F.isInteger = true)
    {f : SampleT F → Option (SampleT G)} (hf : convertSample F G = some f) (x : SampleT F) :
    (∀ H g h, min F.width H.width ≤ G.width →
      convertSample G H = some g → convertSample F H = some h →
      ∃ z, (f x).bind g = some z ∧ h x = some z) ∧
    (∀ g, F.width ≤ G.width → convertSample G F = some g →
      (f x).bind g = some (normalize F x)) := by
  obtain ⟨v, hv, hrange⟩ := exists_signedValue hF x
  obtain ⟨y, hy, hyenc⟩ := convertSample_integer_encodes hF hf hv
  have hyrange := hrange.rescale (SampleFormat.width_pos hF) (width_pos_of_convertSample hf)
  constructor
  · intro H g h hmin hg hh
    obtain ⟨z, hz, hzenc⟩ := convertSample_encodes_intCast hg hyenc.value hyrange
    obtain ⟨z', hz', hzenc'⟩ := convertSample_integer_encodes hF hh hv
    rw [rescale_rescale v hmin] at hzenc
    refine ⟨z, by rw [hy, Option.bind_some, hz], ?_⟩
    rw [hz', hzenc.unique hzenc']
  · intro g hwidth hg
    obtain ⟨z, hz, hzenc⟩ := convertSample_encodes_intCast hg hyenc.value hyrange
    rw [rescale_rescale v (min_le_of_left_le hwidth), rescale_self] at hzenc
    rw [hy, Option.bind_some, hz, hzenc.unique (encodes_normalize hv)]

/-- A 16-bit sample through `Float`, on to a byte and back. -/
theorem route_independent_float :
    convertSampleFloatU8 (convertSampleS16Float 0xff7f#16) = some (convertSampleS16U8 0xff7f#16) ∧
      convertSampleFloatS16 (convertSampleS16Float 0xff7f#16) = some 0xff7f#16 := by
  have hroute := @route_independent .s16 .float rfl _ rfl 0xff7f#16
  obtain ⟨z, hz, hz'⟩ := hroute.1 .u8 _ _ (by decide) rfl rfl
  exact ⟨hz.trans hz'.symm, hroute.2 _ (by decide) rfl⟩

end StupidAR
