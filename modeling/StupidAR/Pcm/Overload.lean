import StupidAR.Pcm.Quantising

/-!
# Floating-point samples outside the nominal range

Nothing clamps. From `Float` the integer part is cast to 32 bits and packed into 24 of them,
so a sample that is too loud wraps around until the cast itself is undefined. From `Double`
the cast to 32 bits has no room to spare.
-/

namespace StupidAR

open FixedPoint FloatingPoint

/-- The cast keeps the integer part where it has a result at all. -/
lemma int32Cast_eq_none_iff {x : ℚ} :
    int32Cast x = none ↔ ¬InRange 32 (truncate x) := by
  rw [int32Cast]
  split_ifs with h <;> simp [h]

/-- A product in the domain of the cast is far below overflow, so scaling has not rounded it. -/
lemma representable_of_int32Cast {p : ℕ} {emin emax : ℤ} {q : ℚ} (h : Representable p emin emax q)
    (hemax : 32 ≤ emax) (k : ℕ) (hcast : int32Cast (q * 2 ^ k) ≠ none) :
    Representable p emin emax (q * 2 ^ k) := by
  have hrange : InRange 32 (truncate (q * 2 ^ k)) :=
    not_not.mp fun hout => hcast (int32Cast_eq_none_iff.mpr hout)
  obtain ⟨hlow, hup⟩ := inRange_truncate_iff.mp hrange
  norm_num at hlow hup
  apply h.mul_two_pow
  calc |q * 2 ^ k| ≤ 2 ^ (32 : ℤ) := by
        rw [abs_le]
        constructor <;> norm_num <;> linarith
    _ ≤ 2 ^ emax := zpow_le_zpow_right₀ (by norm_num) hemax

/-- Where a conversion of the header has a result, the product it casts is itself a sample of
the source format: the multiplication has not rounded. -/
theorem convertSampleFloatS24_exact {x : Binary32} {s : Pcm24T}
    (h : convertSampleFloatS24 x = some s) :
    Representable 24 (-149) 104 (x.val * floatScale) := by
  rw [convertSampleFloatS24, floatScale_eq] at h
  rw [floatScale_eq]
  refine representable_of_int32Cast x.representable (by norm_num) 23 fun hnone => ?_
  rw [hnone] at h
  cases h

theorem convertSampleDoubleS32_exact {x : Binary64} {s : Int32T}
    (h : convertSampleDoubleS32 x = some s) :
    Representable 53 (-1074) 971 (x.val * doubleScale) := by
  rw [convertSampleDoubleS32, doubleScale_eq] at h
  rw [doubleScale_eq]
  refine representable_of_int32Cast x.representable (by norm_num) 31 fun hnone => ?_
  rw [hnone] at h
  cases h

/-- Packing keeps the integer part modulo `2 ^ 24`. -/
lemma convertSampleFloatS24_wraps {x : Binary32} (h : InRange 32 (truncate (x.val * 2 ^ 23))) :
    ∃ s, convertSampleFloatS24 x = some s ∧
      Encodes .s24 s ((truncate (x.val * 2 ^ 23)).bmod (2 ^ 24)) := by
  rw [convertSampleFloatS24, floatScale_eq, int32Cast_of_inRange h]
  refine ⟨_, rfl, ?_, rfl⟩
  rw [signedValue, Pcm24T.toInt_intValue, Pcm24T.word_valueOf, toInt_setWidth_bmod (by norm_num),
    toInt_ofInt_of_inRange (by norm_num) h]

lemma convertFromFloat_wraps {G : SampleFormat} {f : Binary32 → Option (SampleT G)}
    (hf : convertFromFloat G = some f) {x : Binary32}
    (h : InRange 32 (truncate (x.val * 2 ^ 23))) :
    ∃ y, f x = some y ∧
      Encodes G y (rescale 24 G.width ((truncate (x.val * 2 ^ 23)).bmod (2 ^ 24))) := by
  obtain ⟨s, hs, hsenc⟩ := convertSampleFloatS24_wraps h
  cases G with
  | unknown | float => cases hf
  | s24 =>
    cases hf
    exact ⟨s, hs, by rwa [SampleFormat.width, rescale_self]⟩
  | double =>
    cases hf
    refine ⟨_, ?_, (hsenc.via (G := .s32) rfl rfl).double⟩
    rw [convertSampleFloatDouble, convertSampleFloatS32, hs]
    rfl
  | _ =>
    cases hf
    exact ⟨_, congrArg (Option.map _) hs, hsenc.via rfl rfl⟩

/-- A conversion from `Float` is undefined where its first step is. -/
lemma convertFromFloat_eq_none {G : SampleFormat} {f : Binary32 → Option (SampleT G)}
    (hf : convertFromFloat G = some f) {x : Binary32} (h : convertSampleFloatS24 x = none) :
    f x = none := by
  cases G with
  | unknown | float => cases hf
  | s24 => cases hf; exact h
  | double =>
    cases hf
    rw [convertSampleFloatDouble, convertSampleFloatS32, h]
    rfl
  | _ =>
    cases hf
    exact congrArg (Option.map _) h

lemma convertFromDouble_eq_none {G : SampleFormat} {f : Binary64 → Option (SampleT G)}
    (hf : convertFromDouble G = some f) {x : Binary64} (h : convertSampleDoubleS32 x = none) :
    f x = none := by
  cases G with
  | unknown | double => cases hf
  | s32 => cases hf; exact h
  | _ =>
    cases hf
    exact congrArg (Option.map _) h

/-- What becomes of any float. The conversion is defined below 256 times the nominal range,
and wraps around in 24 bits there; from `Double` it is defined on the nominal range only. -/
theorem floating_overload (G : SampleFormat) :
    (∀ f, convertSample .float G = some f → ∀ x : Binary32,
      (f x ≠ none ↔ -2 ^ 31 - 1 < x.val * 2 ^ 23 ∧ x.val * 2 ^ 23 < 2 ^ 31) ∧
      ∀ y, f x = some y →
        Encodes G y (rescale 24 G.width ((truncate (x.val * 2 ^ 23)).bmod (2 ^ 24)))) ∧
    ∀ f, convertSample .double G = some f → ∀ x : Binary64,
      (f x ≠ none ↔ -2 ^ 31 - 1 < x.val * 2 ^ 31 ∧ x.val < 1) ∧
      ∀ y, f x = some y → Encodes G y (rescale 32 G.width (truncate (x.val * 2 ^ 31))) := by
  constructor
  · intro f hf x
    have hrange : InRange 32 (truncate (x.val * 2 ^ 23)) ↔
        -2 ^ 31 - 1 < x.val * 2 ^ 23 ∧ x.val * 2 ^ 23 < 2 ^ 31 := inRange_truncate_iff
    rw [← hrange]
    by_cases h : InRange 32 (truncate (x.val * 2 ^ 23))
    · obtain ⟨y, hy, henc⟩ := convertFromFloat_wraps hf h
      refine ⟨by simp [hy, h], fun z hz => ?_⟩
      rw [hy] at hz
      exact Option.some.inj hz ▸ henc
    · have hnone : f x = none := by
        apply convertFromFloat_eq_none hf
        rw [convertSampleFloatS24, floatScale_eq, int32Cast_eq_none_iff.mpr h, Option.map_none]
      exact ⟨by simp [hnone, h], fun z hz => by simp [hnone] at hz⟩
  · intro f hf x
    have hrange : InRange 32 (truncate (x.val * 2 ^ 31)) ↔
        -2 ^ 31 - 1 < x.val * 2 ^ 31 ∧ x.val * 2 ^ 31 < 2 ^ 31 := inRange_truncate_iff
    have hone : x.val * 2 ^ 31 < 2 ^ 31 ↔ x.val < 1 := by
      constructor <;> intro hx <;> linarith
    rw [hone] at hrange
    rw [← hrange]
    by_cases h : InRange 32 (truncate (x.val * 2 ^ 31))
    · obtain ⟨y, hy, henc⟩ := convertFromDouble_encodes hf h
      refine ⟨by simp [hy, h], fun z hz => ?_⟩
      rw [hy] at hz
      exact Option.some.inj hz ▸ henc
    · have hnone : f x = none := by
        apply convertFromDouble_eq_none hf
        rw [convertSampleDoubleS32, doubleScale_eq, int32Cast_eq_none_iff.mpr h]
      exact ⟨by simp [hnone, h], fun z hz => by simp [hnone] at hz⟩

/-- One and a half times full scale comes out as minus a half. -/
theorem floating_overload_wraps : ∃ (x : Binary32) (y : Int16T),
    x.val = 3 / 2 ∧ convertSampleFloatS16 x = some y ∧ signedValue .s16 y = -16384 := by
  let x : Binary32 := .ofScaled 3 1 (by norm_num) (by norm_num) (by norm_num)
  have hval : x.val = 3 / 2 := by norm_num [x, BinaryFloat.ofScaled]
  have hpart : truncate (x.val * 2 ^ 23) = 12582912 := by
    rw [hval, show (3 / 2 : ℚ) * 2 ^ 23 = ((12582912 : ℤ) : ℚ) by norm_num, truncate_intCast]
  obtain ⟨hdefined, hwraps⟩ := (floating_overload .s16).1 _ rfl x
  obtain ⟨y, hy⟩ := Option.ne_none_iff_exists'.mp (hdefined.mpr (by rw [hval]; norm_num))
  refine ⟨x, y, hval, hy, ?_⟩
  have hencodes := (hwraps y hy).value
  rw [hpart, show rescale 24 SampleFormat.s16.width ((12582912 : ℤ).bmod (2 ^ 24)) = -16384 by
    rw [rescale_narrow _ (by decide)]; decide] at hencodes
  rw [hencodes]
  norm_num

end StupidAR
