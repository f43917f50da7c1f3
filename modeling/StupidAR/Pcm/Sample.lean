import StupidAR.Numeric.Bits
import StupidAR.Numeric.BinaryFloat
import Mathlib.Tactic.IntervalCases

/-!
# Sample formats

The PCM sample formats, the type that holds a sample of each, and the number that a
sample stands for.
-/

namespace StupidAR

open FixedPoint FloatingPoint

inductive SampleFormat where
  | unknown
  | float
  | double
  | u8
  | s16
  | s24
  | s32
  | s16of32
  | s18of32
  | s20of32
  | s24of32
  deriving DecidableEq, Repr

abbrev Uint8T : Type := BitVec 8

abbrev Int16T : Type := BitVec 16

abbrev Int32T : Type := BitVec 32

def int32Max : Int32T := 0x7fffffff#32

def int32Min : Int32T := 0x80000000#32

/-- 24 bit, little endian, two's complement integer. -/
@[ext] structure Pcm24T where
  data : Vector Uint8T 3
  deriving DecidableEq

namespace Pcm24T

def maxI32 : Int32T := int32Max.sshiftRight 8

def minI32 : Int32T := int32Min.sshiftRight 8

def intValue (s : Pcm24T) : Int32T :=
  let v := s.data[2].signExtend 32
  let v := v <<< 16
  let v := v ||| (s.data[1].setWidth 16).setWidth 32 <<< 8
  v ||| s.data[0].setWidth 32

def valueOf (s24 : Int32T) : Pcm24T :=
  let uint := s24 <<< 8
  ⟨#v[(uint >>> 8).setWidth 8, (uint >>> 16).setWidth 8, (uint >>> 24).setWidth 8]⟩

/-- The three bytes as one word. -/
def word (s : Pcm24T) : BitVec 24 := s.data[2] ++ s.data[1] ++ s.data[0]

lemma getLsbD_word (s : Pcm24T) (i : ℕ) : s.word.getLsbD i =
    if i < 8 then s.data[0].getLsbD i
    else if i < 16 then s.data[1].getLsbD (i - 8) else s.data[2].getLsbD (i - 16) := by
  rw [word, BitVec.getLsbD_append, BitVec.getLsbD_append]
  grind

lemma word_injective {s s' : Pcm24T} (h : s.word = s'.word) : s = s' := by
  have hbit : ∀ i, s.word.getLsbD i = s'.word.getLsbD i := fun i => by rw [h]
  simp only [getLsbD_word] at hbit
  ext j hj i hi
  rw [← BitVec.getLsbD_eq_getElem, ← BitVec.getLsbD_eq_getElem]
  interval_cases j
  · simpa [hi] using hbit i
  · simpa [show ¬i + 8 < 8 by omega, show i + 8 < 16 by omega] using hbit (i + 8)
  · simpa [show ¬i + 16 < 8 by omega] using hbit (i + 16)

lemma msb_word (s : Pcm24T) : s.word.msb = s.data[2].msb := by
  rw [BitVec.msb_eq_getLsbD_last, BitVec.msb_eq_getLsbD_last, getLsbD_word]
  rfl

lemma intValue_eq (s : Pcm24T) : s.intValue = s.word.signExtend 32 := by
  apply BitVec.eq_of_getLsbD_eq
  intro i hi
  have hbyte : ∀ (b : Uint8T) (j : ℕ), 8 ≤ j → b.getLsbD j = false := BitVec.getLsbD_of_ge
  simp only [intValue, BitVec.getLsbD_or, BitVec.getLsbD_shiftLeft, BitVec.getLsbD_signExtend,
    BitVec.getLsbD_setWidth, getLsbD_word, msb_word, hi]
  grind

lemma word_valueOf (s24 : Int32T) : (valueOf s24).word = s24.setWidth 24 := by
  apply BitVec.eq_of_getLsbD_eq
  intro i hi
  have h0 : (valueOf s24).data[0] = (s24 <<< 8 >>> 8).setWidth 8 := rfl
  have h1 : (valueOf s24).data[1] = (s24 <<< 8 >>> 16).setWidth 8 := rfl
  have h2 : (valueOf s24).data[2] = (s24 <<< 8 >>> 24).setWidth 8 := rfl
  simp only [getLsbD_word, h0, h1, h2, BitVec.getLsbD_setWidth, BitVec.getLsbD_ushiftRight,
    BitVec.getLsbD_shiftLeft, hi]
  grind

/-- A packed sample is a 24-bit number. -/
lemma toInt_intValue (s : Pcm24T) : s.intValue.toInt = s.word.toInt := by
  rw [intValue_eq, BitVec.toInt_signExtend_of_le (by norm_num)]

lemma inRange_intValue (s : Pcm24T) : InRange 24 s.intValue.toInt := by
  rw [toInt_intValue]
  exact inRange_toInt s.word

theorem intValue_injective {s s' : Pcm24T} (h : s.intValue.toInt = s'.intValue.toInt) :
    s = s' := by
  rw [toInt_intValue, toInt_intValue] at h
  exact word_injective (BitVec.eq_of_toInt_eq h)

lemma toInt_intValue_valueOf {v : Int32T} (h : InRange 24 v.toInt) :
    (valueOf v).intValue.toInt = v.toInt := by
  rw [toInt_intValue, word_valueOf]
  exact toInt_setWidth_of_inRange (by norm_num) (by norm_num) h

/-- Packing keeps every number from `minI32` to `maxI32`. -/
theorem intValue_valueOf {v : Int32T} (hmin : minI32.toInt ≤ v.toInt)
    (hmax : v.toInt ≤ maxI32.toInt) : (valueOf v).intValue = v := by
  rw [show minI32.toInt = -8388608 by decide] at hmin
  rw [show maxI32.toInt = 8388607 by decide] at hmax
  apply BitVec.eq_of_toInt_eq
  apply toInt_intValue_valueOf
  constructor
  · norm_num
    omega
  · norm_num
    omega

end Pcm24T

namespace SampleFormat

/-- The number of bits that carry the sample, for floating-point formats the number of
bits of the integer format they are converted through. -/
def width : SampleFormat → ℕ
  | unknown => 0
  | u8 => 8
  | s16 | s16of32 => 16
  | s18of32 => 18
  | s20of32 => 20
  | s24 | s24of32 | float => 24
  | s32 | double => 32

def isInteger : SampleFormat → Bool
  | unknown | float | double => false
  | _ => true

end SampleFormat

/-- `PcmFormatTraits<format>::sample_t`, which `Unknown` does not have. -/
@[reducible] def SampleT : SampleFormat → Type
  | .unknown => Empty
  | .float => Binary32
  | .double => Binary64
  | .u8 => Uint8T
  | .s16 => Int16T
  | .s24 => Pcm24T
  | .s32 | .s16of32 | .s18of32 | .s20of32 | .s24of32 => Int32T

/-- The low `n` bits of a container as a signed number. -/
def lowBits (n : ℕ) (x : Int32T) : ℤ := (x.setWidth n).toInt

/-- A container whose upper bits repeat the sign of its low `n` bits. -/
def signExtendLow (n : ℕ) (x : Int32T) : Int32T := (x.setWidth n).signExtend 32

/-- The number a sample stands for, in steps of `2 ^ (1 - width)`. -/
def signedValue : (F : SampleFormat) → SampleT F → ℚ
  | .unknown, x => x.elim
  | .float, x => x.val * 2 ^ 23
  | .double, x => x.val * 2 ^ 31
  | .u8, x => ((x.toNat - 128 : ℤ) : ℚ)
  | .s16, x => (x.toInt : ℚ)
  | .s24, x => (x.intValue.toInt : ℚ)
  | .s32, x => (x.toInt : ℚ)
  | .s16of32, x => (lowBits 16 x : ℚ)
  | .s18of32, x => (lowBits 18 x : ℚ)
  | .s20of32, x => (lowBits 20 x : ℚ)
  | .s24of32, x => (lowBits 24 x : ℚ)

/-- The sample with the bits of its container that carry nothing set to the sign. -/
def normalize : (F : SampleFormat) → SampleT F → SampleT F
  | .s16of32, x => signExtendLow 16 x
  | .s18of32, x => signExtendLow 18 x
  | .s20of32, x => signExtendLow 20 x
  | .s24of32, x => signExtendLow 24 x
  | .unknown, x | .float, x | .double, x | .u8, x | .s16, x | .s24, x | .s32, x => x

end StupidAR
