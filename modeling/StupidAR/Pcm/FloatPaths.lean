import StupidAR.Pcm.Quantising

/-!
# The Float path and the Double path

A number that a `float` holds can be quantised as a `float`, cut off on the 24-bit grid, or
as a `double`, cut off on the 32-bit grid.
-/

namespace StupidAR

open FixedPoint FloatingPoint

/-- The reference of the tests, `static_cast<int32_t>(x * (INT32_MAX + 1.0f)) >> 8`, whose
float scale is `2 ^ 31`. -/
def saneReference (x : Binary32) : Option Int32T :=
  (int32Cast (x.val * 2 ^ 31)).map fun v => v.sshiftRight 8

lemma saneReference_eq (x : Binary32) :
    saneReference x = convertSampleDoubleS24of32 x.toBinary64 := by
  rw [convertSampleDoubleS24of32, convertSampleDoubleS32, doubleScale_eq]
  rfl

/-- The 24-bit truncation of a negative sample drops digits that the 32-bit one keeps, and
lands on a step of the grid of width `w`. -/
def StepsUp (w : ℕ) (x : Binary32) : Prop :=
  truncate (x.val * 2 ^ 31) < 0 ∧ ¬2 ^ 8 ∣ truncate (x.val * 2 ^ 31) ∧
    2 ^ (24 - w) ∣ truncate (x.val * 2 ^ 23)

instance (w : ℕ) (x : Binary32) : Decidable (StepsUp w x) := inferInstanceAs (Decidable (_ ∧ _))

lemma truncate_floatScale (x : ℚ) :
    truncate (x * 2 ^ 23) = (truncate (x * 2 ^ 31)).tdiv (2 ^ 8) := by
  have htdiv := truncate_mul_natCast_tdiv (x * 2 ^ 23) (show 0 < 2 ^ 8 by norm_num)
  rw [← htdiv, mul_assoc]
  norm_num

lemma rescale_paths {w : ℕ} (hw : w ≤ 24) (x : Binary32) :
    rescale 24 w (truncate (x.val * 2 ^ 23)) =
      rescale 32 w (truncate (x.val * 2 ^ 31)) + if StepsUp w x then 1 else 0 := by
  simp only [StepsUp, truncate_floatScale]
  exact rescale_tdiv 8 hw _

lemma stepsUp_iff_ne {w : ℕ} (hw : w ≤ 24) (x : Binary32) : ¬StepsUp w x ↔
    rescale 24 w (truncate (x.val * 2 ^ 23)) = rescale 32 w (truncate (x.val * 2 ^ 31)) := by
  rw [rescale_paths hw x]
  split_ifs with hstep
  · simp [hstep]
  · simp [hstep]

lemma float_double_paths {x : Binary32} (h : -1 ≤ x.val) (h' : x.val < 1) {G : SampleFormat}
    (hG : G.isInteger = true) (hw : G.width ≤ 24) : ∃ f g u v,
      convertSample .float G = some f ∧ convertSample .double G = some g ∧
      f x = some u ∧ g x.toBinary64 = some v ∧ (u = v ↔ ¬StepsUp G.width x) ∧
      (StepsUp G.width x → signedValue G u = signedValue G v + 1) := by
  obtain ⟨f, hf⟩ := exists_convertSample_float hG
  obtain ⟨g, hg⟩ := exists_convertSample_double hG
  rw [← amplitude_float] at h h'
  obtain ⟨u, hu, huenc⟩ := convertSample_encodes hf (inRange_truncate_signedValue h h')
  rw [amplitude_float, ← x.toBinary64_val, ← amplitude_double] at h h'
  obtain ⟨v, hv, hvenc⟩ := convertSample_encodes hg (inRange_truncate_signedValue h h')
  have hpaths : (signedValue G u : ℚ) = signedValue G v + if StepsUp G.width x then 1 else 0 := by
    rw [huenc.value, hvenc.value]
    exact_mod_cast rescale_paths hw x
  refine ⟨f, g, u, v, hf, hg, hu, hv, ?_, ?_⟩
  · constructor
    · rintro rfl hstep
      rw [if_pos hstep] at hpaths
      linarith
    · intro hstep
      have heq := (stepsUp_iff_ne hw x).mp hstep
      exact huenc.unique (heq ▸ hvenc)
  · intro hstep
    rw [hpaths, if_pos hstep]

/-- The two paths differ exactly where the 24-bit one has already stepped up, by that step. -/
theorem float_double_agree_iff {x : Binary32} (h : -1 ≤ x.val) (h' : x.val < 1) :
    (∀ G, G.isInteger = true → G.width ≤ 24 → ∃ f g u v,
      convertSample .float G = some f ∧ convertSample .double G = some g ∧
      f x = some u ∧ g x.toBinary64 = some v ∧ (u = v ↔ ¬StepsUp G.width x) ∧
      (StepsUp G.width x → signedValue G u = signedValue G v + 1)) ∧
    (convertSampleFloatS24of32 x = saneReference x ↔
      0 ≤ truncate (x.val * 2 ^ 31) ∨ 2 ^ 8 ∣ truncate (x.val * 2 ^ 31)) := by
  refine ⟨fun G hG hw => float_double_paths h h' hG hw, ?_⟩
  obtain ⟨f, g, u, v, hf, hg, hu, hv, heq, -⟩ :=
    float_double_paths h h' (G := .s24of32) rfl le_rfl
  cases hf
  cases hg
  have hstep : StepsUp 24 x ↔
      truncate (x.val * 2 ^ 31) < 0 ∧ ¬2 ^ 8 ∣ truncate (x.val * 2 ^ 31) := by
    simp [StepsUp]
  rw [saneReference_eq, hu, hv, Option.some.injEq, heq]
  rw [show SampleFormat.s24of32.width = 24 from rfl, hstep, not_and_or, not_lt, not_not]

lemma truncate_offGrid : truncate (offGrid.val * 2 ^ 31) = -192 ∧
    truncate (offGrid.val * 2 ^ 23) = 0 := by
  have hfine : offGrid.val * 2 ^ 31 = ((-192 : ℤ) : ℚ) := by
    norm_num [offGrid, BinaryFloat.ofScaled]
  have hT : truncate (offGrid.val * 2 ^ 31) = -192 := by
    rw [hfine, truncate_intCast]
  exact ⟨hT, by rw [truncate_floatScale, hT]; rfl⟩

theorem float_double_agree_iff_offGrid : ∃ u v, convertSampleFloatS16 offGrid = some u ∧
    convertSampleDoubleS16 offGrid.toBinary64 = some v ∧
    signedValue .s16 u = signedValue .s16 v + 1 := by
  have hstep : StepsUp 16 offGrid := by
    rw [StepsUp, truncate_offGrid.1, truncate_offGrid.2]
    decide
  have hlow : -1 ≤ offGrid.val := by norm_num [offGrid, BinaryFloat.ofScaled]
  have hup : offGrid.val < 1 := by norm_num [offGrid, BinaryFloat.ofScaled]
  obtain ⟨f, g, u, v, hf, hg, hu, hv, -, hdiff⟩ :=
    (float_double_agree_iff hlow hup).1 .s16 rfl (by decide)
  cases hf
  cases hg
  exact ⟨u, v, hu, hv, hdiff hstep⟩

/-- The paths disagree on the sample between two steps of the 24-bit grid. -/
theorem float_double_differ :
    -1 ≤ offGrid.val ∧ offGrid.val < 1 ∧ convertSampleFloatS24of32 offGrid = some 0 ∧
      convertSampleDoubleS24of32 offGrid.toBinary64 = some (-1) ∧
      saneReference offGrid = some (-1) := by
  obtain ⟨hT, ht⟩ := truncate_offGrid
  have hreference : saneReference offGrid = some (-1) := by
    rw [saneReference, int32Cast, hT]
    decide
  refine ⟨?_, ?_, ?_, ?_, hreference⟩
  · norm_num [offGrid, BinaryFloat.ofScaled]
  · norm_num [offGrid, BinaryFloat.ofScaled]
  · rw [convertSampleFloatS24of32, convertSampleFloatS24, floatScale_eq, int32Cast, ht]
    decide
  · rw [← saneReference_eq, hreference]

lemma val_convertSampleFloatDouble {x : Binary32} (h : -1 ≤ x.val) (h' : x.val < 1) :
    ∃ y, convertSampleFloatDouble x = some y ∧
      y.val = (truncate (x.val * 2 ^ 23) : ℚ) / 2 ^ 23 := by
  rw [← amplitude_float] at h h'
  obtain ⟨y, hy, henc⟩ :=
    @convertSample_encodes .float .double _ rfl x (inRange_truncate_signedValue h h')
  refine ⟨y, hy, ?_⟩
  have hval : y.val * 2 ^ 31 = (rescale 24 32 (truncate (x.val * 2 ^ 23)) : ℚ) := henc.value
  rw [rescale_widen _ (by norm_num)] at hval
  rw [eq_div_iff (by norm_num)]
  push_cast at hval
  norm_num at hval ⊢
  linarith

lemma truncate_div_eq_iff (q : ℚ) :
    (truncate (q * 2 ^ 23) : ℚ) / 2 ^ 23 = q ↔ ∃ k : ℤ, q = k / 2 ^ 23 := by
  constructor
  · intro h
    exact ⟨_, h.symm⟩
  · rintro ⟨k, rfl⟩
    rw [div_mul_cancel₀ _ (by norm_num), truncate_intCast]

/-- `Float` reaches `Double` through the 24-bit format: the double is the float cut off on
the 24-bit grid, and keeps exactly the values on the grid. -/
theorem floatDouble_truncates {x : Binary32} (h : -1 ≤ x.val) (h' : x.val < 1) :
    ∃ y, convertSampleFloatDouble x = some y ∧
      y.val = (truncate (x.val * 2 ^ 23) : ℚ) / 2 ^ 23 ∧
      (y.val = x.val ↔ ∃ k : ℤ, x.val = k / 2 ^ 23) := by
  obtain ⟨y, hy, hval⟩ := val_convertSampleFloatDouble h h'
  refine ⟨y, hy, hval, ?_⟩
  rw [hval]
  exact truncate_div_eq_iff x.val

theorem floatDouble_truncates_grid : ∃ (x : Binary32) (y : Binary64),
    x.val = -5 / 2 ^ 3 ∧ convertSampleFloatDouble x = some y ∧ y.val = x.val := by
  let x : Binary32 := .ofScaled (-5) 3 (by norm_num) (by norm_num) (by norm_num)
  have hval : x.val = -5 / 2 ^ 3 := by norm_num [x, BinaryFloat.ofScaled]
  obtain ⟨y, hy, -, hexact⟩ :=
    floatDouble_truncates (x := x) (by norm_num [hval]) (by norm_num [hval])
  exact ⟨x, y, hval, hy, hexact.mpr ⟨-5 * 2 ^ 20, by norm_num [hval]⟩⟩

/-- A float below the 24-bit grid becomes silence. -/
theorem floatDouble_lossy : -1 ≤ offGrid.val ∧ offGrid.val < 1 ∧
    ∃ y, convertSampleFloatDouble offGrid = some y ∧ y.val = 0 ∧ y.val ≠ offGrid.val := by
  have hval : offGrid.val = -3 / 2 ^ 25 := by norm_num [offGrid, BinaryFloat.ofScaled]
  have hlow : -1 ≤ offGrid.val := by norm_num [hval]
  have hup : offGrid.val < 1 := by norm_num [hval]
  obtain ⟨y, hy, hy0⟩ := val_convertSampleFloatDouble hlow hup
  rw [truncate_offGrid.2, Int.cast_zero, zero_div] at hy0
  refine ⟨hlow, hup, y, hy, hy0, ?_⟩
  rw [hy0, hval]
  norm_num

end StupidAR
