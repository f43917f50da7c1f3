import StupidAR.Pcm.Convert

/-!
# Integer conversions as rescales

What each target format makes of a 32-bit word, and from that what every specialization
with an integer source computes.
-/

namespace StupidAR

open FixedPoint FloatingPoint

lemma inRange_lowBits (n : ℕ) (x : Int32T) : InRange n (lowBits n x) := inRange_toInt _

lemma lowBits_of_inRange {n : ℕ} {x : Int32T} (hn : 0 < n) (hn' : n ≤ 32)
    (h : InRange n x.toInt) : lowBits n x = x.toInt :=
  toInt_setWidth_of_inRange hn hn' h

lemma toInt_signExtendLow {n : ℕ} (hn : n ≤ 32) (x : Int32T) :
    (signExtendLow n x).toInt = lowBits n x := BitVec.toInt_signExtend_of_le hn

lemma signExtendLow_of_inRange {n : ℕ} {x : Int32T} (hn : 0 < n) (hn' : n ≤ 32)
    (h : InRange n x.toInt) : signExtendLow n x = x := by
  apply BitVec.eq_of_toInt_eq
  rw [toInt_signExtendLow hn', lowBits_of_inRange hn hn' h]

/-- `y` is the sample of format `G` for the number `v`, its unused bits included. -/
structure Encodes (G : SampleFormat) (y : SampleT G) (v : ℤ) : Prop where
  value : signedValue G y = v
  canonical : normalize G y = y

lemma toInt_toUint8 {w : Int32T} (h : InRange 8 w.toInt) :
    ((toUint8 w).toNat : ℤ) = w.toInt + 128 := by
  obtain ⟨hlow, hup⟩ := h
  rw [BitVec.toInt_eq_toNat_cond] at hlow hup ⊢
  simp only [toUint8, BitVec.toNat_setWidth, BitVec.toNat_add,
    show (128 : Int32T).toNat = 128 from rfl]
  omega

section Words

variable {w : Int32T} {v : ℤ}

lemma encodes_u8 (h : InRange 8 v) (hw : w.toInt = v) : Encodes .u8 (toUint8 w) v := by
  subst hw
  refine ⟨?_, rfl⟩
  rw [signedValue, toInt_toUint8 h, add_sub_cancel_right]

lemma encodes_s16 (h : InRange 16 v) (hw : w.toInt = v) : Encodes .s16 (w.setWidth 16) v := by
  subst hw
  refine ⟨?_, rfl⟩
  rw [signedValue, toInt_setWidth_of_inRange (by norm_num) (by norm_num) h]

lemma encodes_s24 (h : InRange 24 v) (hw : w.toInt = v) : Encodes .s24 (.valueOf w) v := by
  subst hw
  refine ⟨?_, rfl⟩
  rw [signedValue, Pcm24T.toInt_intValue_valueOf h]

lemma encodes_s32 (hw : w.toInt = v) : Encodes .s32 w v :=
  ⟨by rw [signedValue, hw], rfl⟩

lemma container_of_inRange {n : ℕ} (hn : 0 < n) (hn' : n ≤ 32) (h : InRange n v)
    (hw : w.toInt = v) : (lowBits n w : ℚ) = v ∧ signExtendLow n w = w := by
  subst hw
  exact ⟨by rw [lowBits_of_inRange hn hn' h], signExtendLow_of_inRange hn hn' h⟩

lemma encodes_s16of32 (h : InRange 16 v) (hw : w.toInt = v) : Encodes .s16of32 w v := by
  obtain ⟨hval, hsign⟩ := container_of_inRange (by norm_num) (by norm_num) h hw
  exact ⟨hval, hsign⟩

lemma encodes_s18of32 (h : InRange 18 v) (hw : w.toInt = v) : Encodes .s18of32 w v := by
  obtain ⟨hval, hsign⟩ := container_of_inRange (by norm_num) (by norm_num) h hw
  exact ⟨hval, hsign⟩

lemma encodes_s20of32 (h : InRange 20 v) (hw : w.toInt = v) : Encodes .s20of32 w v := by
  obtain ⟨hval, hsign⟩ := container_of_inRange (by norm_num) (by norm_num) h hw
  exact ⟨hval, hsign⟩

lemma encodes_s24of32 (h : InRange 24 v) (hw : w.toInt = v) : Encodes .s24of32 w v := by
  obtain ⟨hval, hsign⟩ := container_of_inRange (by norm_num) (by norm_num) h hw
  exact ⟨hval, hsign⟩

end Words

/-- A 16-bit result returned in a container keeps its sign. -/
lemma Encodes.signExtend {y : Int16T} {v : ℤ} (h : Encodes .s16 y v) :
    Encodes .s16of32 (y.signExtend 32) v := by
  have hval : (y.toInt : ℚ) = v := h.value
  have hy : y.toInt = v := by exact_mod_cast hval
  exact encodes_s16of32 (hy ▸ inRange_toInt y)
    (by rw [BitVec.toInt_signExtend_of_le (by norm_num), hy])

lemma Encodes.float {y : Pcm24T} {v : ℤ} (h : Encodes .s24 y v) :
    Encodes .float (convertSampleS24Float y) v := by
  refine ⟨?_, rfl⟩
  rw [← h.value, signedValue, signedValue, convertSampleS24Float_val]
  exact div_mul_cancel₀ _ (by norm_num)

lemma Encodes.double {y : Int32T} {v : ℤ} (h : Encodes .s32 y v) :
    Encodes .double (convertSampleS32Double y) v := by
  refine ⟨?_, rfl⟩
  rw [← h.value, signedValue, signedValue, convertSampleS32Double_val]
  exact div_mul_cancel₀ _ (by norm_num)

/-! Sources whose samples are read off as one word. -/

lemma toInt_unbias (x : Uint8T) : (x.setWidth 32 - 128 : Int32T).toInt = x.toNat - 128 := by
  have hx := x.isLt
  rw [BitVec.toInt_eq_toNat_cond]
  simp only [BitVec.toNat_sub, BitVec.toNat_setWidth, show (128 : Int32T).toNat = 128 from rfl]
  omega

lemma inRange_unbias (x : Uint8T) : InRange 8 ((x.toNat : ℤ) - 128) := by
  have hx := x.isLt
  constructor
  · norm_num
  · norm_num
    omega

/-- A byte is promoted to `int` through `int16_t` without a change. -/
lemma signExtend_setWidth_byte (x : Uint8T) :
    (x.setWidth 16).signExtend 32 = x.setWidth 32 := by
  have hmsb : (x.setWidth 16).msb = false := by
    simp [BitVec.msb_setWidth]
  rw [BitVec.signExtend_eq_setWidth_of_msb_false hmsb]
  apply BitVec.eq_of_toNat_eq
  simp only [BitVec.toNat_setWidth]
  omega

theorem convertFromU8_encodes {G : SampleFormat} {f : Uint8T → Option (SampleT G)}
    (hf : convertFromU8 G = some f) (x : Uint8T) :
    ∃ y, f x = some y ∧ Encodes G y (rescale 8 G.width (x.toNat - 128)) := by
  have hrange := inRange_unbias x
  have hto : ∀ b, 0 < b → InRange b (rescale 8 b (x.toNat - 128)) :=
    fun b hb => hrange.rescale (by norm_num) hb
  have hwiden : ∀ k ≤ 24, ((x.setWidth 32 - 128 : Int32T) <<< k).toInt =
      rescale 8 (8 + k) (x.toNat - 128) :=
    fun k hk => toInt_shiftLeft_rescale (by norm_num) (by omega) hrange (toInt_unbias x)
  have hs16 : Encodes .s16 (convertSampleU8S16 x) (rescale 8 16 (x.toNat - 128)) := by
    rw [convertSampleU8S16, signExtend_setWidth_byte]
    exact encodes_s16 (hto 16 (by norm_num)) (hwiden 8 (by norm_num))
  have hs24 : Encodes .s24 (convertSampleU8S24 x) (rescale 8 24 (x.toNat - 128)) :=
    encodes_s24 (hto 24 (by norm_num)) (hwiden 16 (by norm_num))
  have hs32 : Encodes .s32 (convertSampleU8S32 x) (rescale 8 32 (x.toNat - 128)) :=
    encodes_s32 (hwiden 24 (by norm_num))
  cases G with
  | unknown | u8 => cases hf
  | float =>
    cases hf
    exact ⟨_, rfl, hs24.float⟩
  | double =>
    cases hf
    exact ⟨_, rfl, hs32.double⟩
  | s16 =>
    cases hf
    exact ⟨_, rfl, hs16⟩
  | s24 =>
    cases hf
    exact ⟨_, rfl, hs24⟩
  | s32 =>
    cases hf
    exact ⟨_, rfl, hs32⟩
  | s16of32 =>
    cases hf
    exact ⟨_, rfl, hs16.signExtend⟩
  | s18of32 =>
    cases hf
    exact ⟨_, rfl, encodes_s18of32 (hto 18 (by norm_num)) (hwiden 10 (by norm_num))⟩
  | s20of32 =>
    cases hf
    exact ⟨_, rfl, encodes_s20of32 (hto 20 (by norm_num)) (hwiden 12 (by norm_num))⟩
  | s24of32 =>
    cases hf
    exact ⟨_, rfl, encodes_s24of32 (hto 24 (by norm_num)) (hwiden 16 (by norm_num))⟩

theorem convertFromS16_encodes {G : SampleFormat} {f : Int16T → Option (SampleT G)}
    (hf : convertFromS16 G = some f) (x : Int16T) :
    ∃ y, f x = some y ∧ Encodes G y (rescale 16 G.width x.toInt) := by
  have hrange := inRange_toInt x
  have hto : ∀ b, 0 < b → InRange b (rescale 16 b x.toInt) :=
    fun b hb => hrange.rescale (by norm_num) hb
  have hword : (x.signExtend 32).toInt = x.toInt :=
    BitVec.toInt_signExtend_of_le (by norm_num)
  have hwiden : ∀ k ≤ 16, (x.signExtend 32 <<< k).toInt = rescale 16 (16 + k) x.toInt :=
    fun k hk => toInt_shiftLeft_rescale (by norm_num) (by omega) hrange hword
  have hs16 : Encodes .s16 (convertSampleS16S16 x) (rescale 16 16 x.toInt) :=
    ⟨by rw [rescale_self, signedValue, convertSampleS16S16], rfl⟩
  have hs24 : Encodes .s24 (convertSampleS16S24 x) (rescale 16 24 x.toInt) :=
    encodes_s24 (hto 24 (by norm_num)) (hwiden 8 (by norm_num))
  have hs32 : Encodes .s32 (convertSampleS16S32 x) (rescale 16 32 x.toInt) :=
    encodes_s32 (hwiden 16 (by norm_num))
  cases G with
  | unknown | s16of32 => cases hf
  | float =>
    cases hf
    exact ⟨_, rfl, hs24.float⟩
  | double =>
    cases hf
    exact ⟨_, rfl, hs32.double⟩
  | u8 =>
    cases hf
    exact ⟨_, rfl, encodes_u8 (hto 8 (by norm_num)) (toInt_sshiftRight_rescale hword)⟩
  | s16 =>
    cases hf
    exact ⟨_, rfl, hs16⟩
  | s24 =>
    cases hf
    exact ⟨_, rfl, hs24⟩
  | s32 =>
    cases hf
    exact ⟨_, rfl, hs32⟩
  | s18of32 =>
    cases hf
    exact ⟨_, rfl, encodes_s18of32 (hto 18 (by norm_num)) (hwiden 2 (by norm_num))⟩
  | s20of32 =>
    cases hf
    exact ⟨_, rfl, encodes_s20of32 (hto 20 (by norm_num)) (hwiden 4 (by norm_num))⟩
  | s24of32 =>
    cases hf
    exact ⟨_, rfl, encodes_s24of32 (hto 24 (by norm_num)) (hwiden 8 (by norm_num))⟩

theorem convertFromS24_encodes {G : SampleFormat} {f : Pcm24T → Option (SampleT G)}
    (hf : convertFromS24 G = some f) (x : Pcm24T) :
    ∃ y, f x = some y ∧ Encodes G y (rescale 24 G.width x.intValue.toInt) := by
  have hrange := x.inRange_intValue
  have hto : ∀ b, 0 < b → InRange b (rescale 24 b x.intValue.toInt) :=
    fun b hb => hrange.rescale (by norm_num) hb
  have hs16 : Encodes .s16 (convertSampleS24S16 x) (rescale 24 16 x.intValue.toInt) :=
    encodes_s16 (hto 16 (by norm_num)) (toInt_sshiftRight_rescale rfl)
  have hs32 : Encodes .s32 (convertSampleS24S32 x) (rescale 24 32 x.intValue.toInt) :=
    encodes_s32 (toInt_shiftLeft_rescale (by norm_num) (by norm_num) hrange rfl)
  have hs24 : Encodes .s24 x (rescale 24 24 x.intValue.toInt) :=
    ⟨by rw [rescale_self, signedValue], rfl⟩
  cases G with
  | unknown | s24 => cases hf
  | float =>
    cases hf
    exact ⟨_, rfl, hs24.float⟩
  | double =>
    cases hf
    exact ⟨_, rfl, hs32.double⟩
  | u8 =>
    cases hf
    exact ⟨_, rfl, encodes_u8 (hto 8 (by norm_num)) (toInt_sshiftRight_rescale rfl)⟩
  | s16 =>
    cases hf
    exact ⟨_, rfl, hs16⟩
  | s32 =>
    cases hf
    exact ⟨_, rfl, hs32⟩
  | s16of32 =>
    cases hf
    exact ⟨_, rfl, hs16.signExtend⟩
  | s18of32 =>
    cases hf
    exact ⟨_, rfl, encodes_s18of32 (hto 18 (by norm_num)) (toInt_sshiftRight_rescale rfl)⟩
  | s20of32 =>
    cases hf
    exact ⟨_, rfl, encodes_s20of32 (hto 20 (by norm_num)) (toInt_sshiftRight_rescale rfl)⟩
  | s24of32 =>
    cases hf
    exact ⟨_, rfl, encodes_s24of32 (hto 24 (by norm_num)) (rescale_self _).symm⟩

theorem convertFromS32_encodes {G : SampleFormat} {f : Int32T → Option (SampleT G)}
    (hf : convertFromS32 G = some f) (x : Int32T) :
    ∃ y, f x = some y ∧ Encodes G y (rescale 32 G.width x.toInt) := by
  have hrange := inRange_toInt x
  have hto : ∀ b, 0 < b → InRange b (rescale 32 b x.toInt) :=
    fun b hb => hrange.rescale (by norm_num) hb
  have hs16 : Encodes .s16 (convertSampleS32S16 x) (rescale 32 16 x.toInt) :=
    encodes_s16 (hto 16 (by norm_num)) (toInt_sshiftRight_rescale rfl)
  have hs24 : Encodes .s24 (convertSampleS32S24 x) (rescale 32 24 x.toInt) :=
    encodes_s24 (hto 24 (by norm_num)) (toInt_sshiftRight_rescale rfl)
  have hs32 : Encodes .s32 x (rescale 32 32 x.toInt) := encodes_s32 (rescale_self _).symm
  cases G with
  | unknown => cases hf
  | float =>
    cases hf
    exact ⟨_, rfl, hs24.float⟩
  | double =>
    cases hf
    exact ⟨_, rfl, hs32.double⟩
  | u8 =>
    cases hf
    exact ⟨_, rfl, encodes_u8 (hto 8 (by norm_num)) (toInt_sshiftRight_rescale rfl)⟩
  | s16 =>
    cases hf
    exact ⟨_, rfl, hs16⟩
  | s24 =>
    cases hf
    exact ⟨_, rfl, hs24⟩
  | s32 =>
    cases hf
    exact ⟨_, rfl, hs32⟩
  | s16of32 =>
    cases hf
    exact ⟨_, rfl, hs16.signExtend⟩
  | s18of32 =>
    cases hf
    exact ⟨_, rfl, encodes_s18of32 (hto 18 (by norm_num)) (toInt_sshiftRight_rescale rfl)⟩
  | s20of32 =>
    cases hf
    exact ⟨_, rfl, encodes_s20of32 (hto 20 (by norm_num)) (toInt_sshiftRight_rescale rfl)⟩
  | s24of32 =>
    cases hf
    exact ⟨_, rfl, encodes_s24of32 (hto 24 (by norm_num)) (toInt_sshiftRight_rescale rfl)⟩

/-! Sources in the low bits of a container. The first shift drops whatever is above them. -/

section Containers

variable {n up : ℕ} (hn : 0 < n) (h : n + up = 32) (x : Int32T)

include hn h

lemma toInt_shiftLeft_container : (x <<< up).toInt = rescale n 32 (lowBits n x) :=
  toInt_shiftLeft_low hn h x

lemma toInt_repack {m down : ℕ} (h' : m + down = 32) :
    (repack up down x).toInt = rescale n m (lowBits n x) := by
  rw [repack, toInt_sshiftRight_rescale (toInt_shiftLeft_container hn h x), h']
  exact rescale_rescale _ (min_le_of_left_le (by omega))

lemma encodes_repackU8 : Encodes .u8 (repackU8 up x) (rescale n 8 (lowBits n x)) :=
  encodes_u8 ((inRange_lowBits n x).rescale hn (by norm_num)) (toInt_repack hn h x rfl)

lemma encodes_repackS16 : Encodes .s16 (repackS16 up x) (rescale n 16 (lowBits n x)) :=
  encodes_s16 ((inRange_lowBits n x).rescale hn (by norm_num)) (toInt_repack hn h x rfl)

lemma encodes_repackS24 : Encodes .s24 (.valueOf (repack up 8 x)) (rescale n 24 (lowBits n x)) :=
  encodes_s24 ((inRange_lowBits n x).rescale hn (by norm_num)) (toInt_repack hn h x rfl)

lemma encodes_repack18 : Encodes .s18of32 (repack up 14 x) (rescale n 18 (lowBits n x)) :=
  encodes_s18of32 ((inRange_lowBits n x).rescale hn (by norm_num)) (toInt_repack hn h x rfl)

lemma encodes_repack20 : Encodes .s20of32 (repack up 12 x) (rescale n 20 (lowBits n x)) :=
  encodes_s20of32 ((inRange_lowBits n x).rescale hn (by norm_num)) (toInt_repack hn h x rfl)

lemma encodes_repack24 : Encodes .s24of32 (repack up 8 x) (rescale n 24 (lowBits n x)) :=
  encodes_s24of32 ((inRange_lowBits n x).rescale hn (by norm_num)) (toInt_repack hn h x rfl)

lemma encodes_shiftLeft : Encodes .s32 (x <<< up) (rescale n 32 (lowBits n x)) :=
  encodes_s32 (toInt_shiftLeft_container hn h x)

end Containers

theorem convertFromS16of32_encodes {G : SampleFormat} {f : Int32T → Option (SampleT G)}
    (hf : convertFromS16of32 G = some f) (x : Int32T) :
    ∃ y, f x = some y ∧ Encodes G y (rescale 16 G.width (lowBits 16 x)) := by
  have hs16 : Encodes .s16 (convertSampleS16of32S16 x) (rescale 16 16 (lowBits 16 x)) :=
    encodes_repackS16 (by norm_num) (by norm_num) x
  have hs24 : Encodes .s24 (convertSampleS16of32S24 x) (rescale 16 24 (lowBits 16 x)) :=
    encodes_repackS24 (by norm_num) (by norm_num) x
  have hs32 : Encodes .s32 (convertSampleS16of32S32 x) (rescale 16 32 (lowBits 16 x)) :=
    encodes_shiftLeft (by norm_num) (by norm_num) x
  cases G with
  | unknown | s16of32 => cases hf
  | float =>
    cases hf
    exact ⟨_, rfl, hs24.float⟩
  | double =>
    cases hf
    exact ⟨_, rfl, hs32.double⟩
  | u8 =>
    cases hf
    exact ⟨_, rfl, encodes_repackU8 (by norm_num) (by norm_num) x⟩
  | s16 =>
    cases hf
    exact ⟨_, rfl, hs16⟩
  | s24 =>
    cases hf
    exact ⟨_, rfl, hs24⟩
  | s32 =>
    cases hf
    exact ⟨_, rfl, hs32⟩
  | s18of32 =>
    cases hf
    exact ⟨_, rfl, encodes_repack18 (by norm_num) (by norm_num) x⟩
  | s20of32 =>
    cases hf
    exact ⟨_, rfl, encodes_repack20 (by norm_num) (by norm_num) x⟩
  | s24of32 =>
    cases hf
    exact ⟨_, rfl, encodes_repack24 (by norm_num) (by norm_num) x⟩

theorem convertFromS18of32_encodes {G : SampleFormat} {f : Int32T → Option (SampleT G)}
    (hf : convertFromS18of32 G = some f) (x : Int32T) :
    ∃ y, f x = some y ∧ Encodes G y (rescale 18 G.width (lowBits 18 x)) := by
  have hs16 : Encodes .s16 (convertSampleS18of32S16 x) (rescale 18 16 (lowBits 18 x)) :=
    encodes_repackS16 (by norm_num) (by norm_num) x
  have hs24 : Encodes .s24 (convertSampleS18of32S24 x) (rescale 18 24 (lowBits 18 x)) :=
    encodes_repackS24 (by norm_num) (by norm_num) x
  have hs32 : Encodes .s32 (convertSampleS18of32S32 x) (rescale 18 32 (lowBits 18 x)) :=
    encodes_shiftLeft (by norm_num) (by norm_num) x
  cases G with
  | unknown | s18of32 => cases hf
  | float =>
    cases hf
    exact ⟨_, rfl, hs24.float⟩
  | double =>
    cases hf
    exact ⟨_, rfl, hs32.double⟩
  | u8 =>
    cases hf
    exact ⟨_, rfl, encodes_repackU8 (by norm_num) (by norm_num) x⟩
  | s16 =>
    cases hf
    exact ⟨_, rfl, hs16⟩
  | s24 =>
    cases hf
    exact ⟨_, rfl, hs24⟩
  | s32 =>
    cases hf
    exact ⟨_, rfl, hs32⟩
  | s16of32 =>
    cases hf
    exact ⟨_, rfl, hs16.signExtend⟩
  | s20of32 =>
    cases hf
    exact ⟨_, rfl, encodes_repack20 (by norm_num) (by norm_num) x⟩
  | s24of32 =>
    cases hf
    exact ⟨_, rfl, encodes_repack24 (by norm_num) (by norm_num) x⟩

theorem convertFromS20of32_encodes {G : SampleFormat} {f : Int32T → Option (SampleT G)}
    (hf : convertFromS20of32 G = some f) (x : Int32T) :
    ∃ y, f x = some y ∧ Encodes G y (rescale 20 G.width (lowBits 20 x)) := by
  have hs16 : Encodes .s16 (convertSampleS20of32S16 x) (rescale 20 16 (lowBits 20 x)) :=
    encodes_repackS16 (by norm_num) (by norm_num) x
  have hs24 : Encodes .s24 (convertSampleS20of32S24 x) (rescale 20 24 (lowBits 20 x)) :=
    encodes_repackS24 (by norm_num) (by norm_num) x
  have hs32 : Encodes .s32 (convertSampleS20of32S32 x) (rescale 20 32 (lowBits 20 x)) :=
    encodes_shiftLeft (by norm_num) (by norm_num) x
  cases G with
  | unknown | s20of32 => cases hf
  | float =>
    cases hf
    exact ⟨_, rfl, hs24.float⟩
  | double =>
    cases hf
    exact ⟨_, rfl, hs32.double⟩
  | u8 =>
    cases hf
    exact ⟨_, rfl, encodes_repackU8 (by norm_num) (by norm_num) x⟩
  | s16 =>
    cases hf
    exact ⟨_, rfl, hs16⟩
  | s24 =>
    cases hf
    exact ⟨_, rfl, hs24⟩
  | s32 =>
    cases hf
    exact ⟨_, rfl, hs32⟩
  | s16of32 =>
    cases hf
    exact ⟨_, rfl, hs16.signExtend⟩
  | s18of32 =>
    cases hf
    exact ⟨_, rfl, encodes_repack18 (by norm_num) (by norm_num) x⟩
  | s24of32 =>
    cases hf
    exact ⟨_, rfl, encodes_repack24 (by norm_num) (by norm_num) x⟩

theorem convertFromS24of32_encodes {G : SampleFormat} {f : Int32T → Option (SampleT G)}
    (hf : convertFromS24of32 G = some f) (x : Int32T) :
    ∃ y, f x = some y ∧ Encodes G y (rescale 24 G.width (lowBits 24 x)) := by
  have hs16 : Encodes .s16 (convertSampleS24of32S16 x) (rescale 24 16 (lowBits 24 x)) :=
    encodes_repackS16 (by norm_num) (by norm_num) x
  have hs24 : Encodes .s24 (convertSampleS24of32S24 x) (rescale 24 24 (lowBits 24 x)) :=
    encodes_repackS24 (by norm_num) (by norm_num) x
  have hs32 : Encodes .s32 (convertSampleS24of32S32 x) (rescale 24 32 (lowBits 24 x)) :=
    encodes_shiftLeft (by norm_num) (by norm_num) x
  cases G with
  | unknown | s24of32 => cases hf
  | float =>
    cases hf
    exact ⟨_, rfl, hs24.float⟩
  | double =>
    cases hf
    exact ⟨_, rfl, hs32.double⟩
  | u8 =>
    cases hf
    exact ⟨_, rfl, encodes_repackU8 (by norm_num) (by norm_num) x⟩
  | s16 =>
    cases hf
    exact ⟨_, rfl, hs16⟩
  | s24 =>
    cases hf
    exact ⟨_, rfl, hs24⟩
  | s32 =>
    cases hf
    exact ⟨_, rfl, hs32⟩
  | s16of32 =>
    cases hf
    exact ⟨_, rfl, hs16.signExtend⟩
  | s18of32 =>
    cases hf
    exact ⟨_, rfl, encodes_repack18 (by norm_num) (by norm_num) x⟩
  | s20of32 =>
    cases hf
    exact ⟨_, rfl, encodes_repack20 (by norm_num) (by norm_num) x⟩

end StupidAR
