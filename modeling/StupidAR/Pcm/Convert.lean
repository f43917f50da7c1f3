import StupidAR.Pcm.Sample

/-!
# Sample conversions

Every specialization of `convert_sample`, with the shift counts it has in the header.
Integer operands are promoted to 32-bit `int`; a narrowing return keeps the low bits.
-/

namespace StupidAR

open FixedPoint FloatingPoint

/-- `int32_t(x)`, undefined when the integer part is out of range. -/
def int32Cast (x : ℚ) : Option Int32T :=
  if InRange 32 (truncate x) then some (.ofInt 32 (truncate x)) else none

/-- `pcm24_t::max_i32 + 1.0f` -/
def floatScale : ℚ := (Pcm24T.maxI32.toInt : ℚ) + 1

/-- `INT32_MAX + 1.0` -/
def doubleScale : ℚ := (int32Max.toInt : ℚ) + 1

lemma floatScale_eq : floatScale = 2 ^ 23 := by
  rw [floatScale, show Pcm24T.maxI32.toInt = 8388607 by decide]
  norm_num

lemma doubleScale_eq : doubleScale = 2 ^ 31 := by
  rw [doubleScale, show int32Max.toInt = 2147483647 by decide]
  norm_num

/-- Integer <-> floating point: the other conversions are defined in terms of these 4. -/
def convertSampleS24Float (sample : Pcm24T) : Binary32 where
  -- the operands and the quotient are floats, so the division does not round
  val := sample.intValue.toInt / floatScale
  representable := by
    rw [floatScale_eq]
    exact .intCast_div (sample.inRange_intValue.abs_lt_two_pow (by norm_num))
      (by norm_num) (by norm_num)

lemma convertSampleS24Float_val (sample : Pcm24T) :
    (convertSampleS24Float sample).val = sample.intValue.toInt / 2 ^ 23 := by
  rw [← floatScale_eq]
  rfl

def convertSampleFloatS24 (sample : Binary32) : Option Pcm24T :=
  (int32Cast (sample.val * floatScale)).map .valueOf

def convertSampleS32Double (sample : Int32T) : Binary64 where
  val := sample.toInt / doubleScale
  representable := by
    rw [doubleScale_eq]
    exact .intCast_div ((inRange_toInt sample).abs_lt_two_pow (by norm_num))
      (by norm_num) (by norm_num)

lemma convertSampleS32Double_val (sample : Int32T) :
    (convertSampleS32Double sample).val = sample.toInt / 2 ^ 31 := by
  rw [← doubleScale_eq]
  rfl

def convertSampleDoubleS32 (sample : Binary64) : Option Int32T :=
  int32Cast (sample.val * doubleScale)

/-- A signed value biased and returned as `uint8_t`. -/
def toUint8 (v : Int32T) : Uint8T := (v + 128).setWidth 8

/-- The low `32 - up` bits of a container moved to the low `32 - down` bits. -/
def repack (up down : ℕ) (sample : Int32T) : Int32T := (sample <<< up).sshiftRight down

def repackU8 (up : ℕ) (sample : Int32T) : Uint8T := toUint8 (repack up 24 sample)

def repackS16 (up : ℕ) (sample : Int32T) : Int16T := (repack up 16 sample).setWidth 16

/-! Conversions from `U8` -/

def convertSampleU8S16 (sample : Uint8T) : Int16T :=
  (((sample.setWidth 16).signExtend 32 - 128) <<< 8).setWidth 16

def convertSampleU8S16of32 (sample : Uint8T) : Int32T :=
  (convertSampleU8S16 sample).signExtend 32

def convertSampleU8S18of32 (sample : Uint8T) : Int32T :=
  (sample.setWidth 32 - 128) <<< 10

def convertSampleU8S20of32 (sample : Uint8T) : Int32T :=
  (sample.setWidth 32 - 128) <<< 12

def convertSampleU8S24of32 (sample : Uint8T) : Int32T :=
  (sample.setWidth 32 - 128) <<< 16

def convertSampleU8S24 (sample : Uint8T) : Pcm24T :=
  .valueOf (convertSampleU8S24of32 sample)

def convertSampleU8S32 (sample : Uint8T) : Int32T :=
  (sample.setWidth 32 - 128) <<< 24

def convertSampleU8Float (sample : Uint8T) : Binary32 :=
  convertSampleS24Float (convertSampleU8S24 sample)

def convertSampleU8Double (sample : Uint8T) : Binary64 :=
  convertSampleS32Double (convertSampleU8S32 sample)

/-! Conversions from `S16` -/

def convertSampleS16U8 (sample : Int16T) : Uint8T :=
  toUint8 ((sample.signExtend 32).sshiftRight 8)

def convertSampleS16S16 (sample : Int16T) : Int16T :=
  sample

def convertSampleS16S18of32 (sample : Int16T) : Int32T :=
  sample.signExtend 32 <<< 2

def convertSampleS16S20of32 (sample : Int16T) : Int32T :=
  sample.signExtend 32 <<< 4

def convertSampleS16S24of32 (sample : Int16T) : Int32T :=
  sample.signExtend 32 <<< 8

def convertSampleS16S24 (sample : Int16T) : Pcm24T :=
  .valueOf (convertSampleS16S24of32 sample)

def convertSampleS16S32 (sample : Int16T) : Int32T :=
  sample.signExtend 32 <<< 16

def convertSampleS16Float (sample : Int16T) : Binary32 :=
  convertSampleS24Float (convertSampleS16S24 sample)

def convertSampleS16Double (sample : Int16T) : Binary64 :=
  convertSampleS32Double (convertSampleS16S32 sample)

/-! Conversions from `S24` -/

def convertSampleS24U8 (sample : Pcm24T) : Uint8T :=
  toUint8 (sample.intValue.sshiftRight 16)

def convertSampleS24S16 (sample : Pcm24T) : Int16T :=
  (sample.intValue.sshiftRight 8).setWidth 16

def convertSampleS24S16of32 (sample : Pcm24T) : Int32T :=
  (convertSampleS24S16 sample).signExtend 32

def convertSampleS24S18of32 (sample : Pcm24T) : Int32T :=
  sample.intValue.sshiftRight 6

def convertSampleS24S20of32 (sample : Pcm24T) : Int32T :=
  sample.intValue.sshiftRight 4

def convertSampleS24S24of32 (sample : Pcm24T) : Int32T :=
  sample.intValue

def convertSampleS24S32 (sample : Pcm24T) : Int32T :=
  sample.intValue <<< 8

def convertSampleS24Double (sample : Pcm24T) : Binary64 :=
  convertSampleS32Double (convertSampleS24S32 sample)

/-! Conversions from `S16of32` -/

def convertSampleS16of32U8 (sample : Int32T) : Uint8T :=
  repackU8 16 sample

def convertSampleS16of32S16 (sample : Int32T) : Int16T :=
  repackS16 16 sample

def convertSampleS16of32S18of32 (sample : Int32T) : Int32T :=
  repack 16 14 sample

def convertSampleS16of32S20of32 (sample : Int32T) : Int32T :=
  repack 16 12 sample

def convertSampleS16of32S24of32 (sample : Int32T) : Int32T :=
  repack 16 8 sample

def convertSampleS16of32S24 (sample : Int32T) : Pcm24T :=
  .valueOf (convertSampleS16of32S24of32 sample)

def convertSampleS16of32S32 (sample : Int32T) : Int32T :=
  sample <<< 16

def convertSampleS16of32Float (sample : Int32T) : Binary32 :=
  convertSampleS24Float (convertSampleS16of32S24 sample)

def convertSampleS16of32Double (sample : Int32T) : Binary64 :=
  convertSampleS32Double (convertSampleS16of32S32 sample)

/-! Conversions from `S18of32` -/

def convertSampleS18of32U8 (sample : Int32T) : Uint8T :=
  repackU8 14 sample

def convertSampleS18of32S16 (sample : Int32T) : Int16T :=
  repackS16 14 sample

def convertSampleS18of32S16of32 (sample : Int32T) : Int32T :=
  (convertSampleS18of32S16 sample).signExtend 32

def convertSampleS18of32S20of32 (sample : Int32T) : Int32T :=
  repack 14 12 sample

def convertSampleS18of32S24of32 (sample : Int32T) : Int32T :=
  repack 14 8 sample

def convertSampleS18of32S24 (sample : Int32T) : Pcm24T :=
  .valueOf (convertSampleS18of32S24of32 sample)

def convertSampleS18of32S32 (sample : Int32T) : Int32T :=
  sample <<< 14

def convertSampleS18of32Float (sample : Int32T) : Binary32 :=
  convertSampleS24Float (convertSampleS18of32S24 sample)

def convertSampleS18of32Double (sample : Int32T) : Binary64 :=
  convertSampleS32Double (convertSampleS18of32S32 sample)

/-! Conversions from `S20of32` -/

def convertSampleS20of32U8 (sample : Int32T) : Uint8T :=
  repackU8 12 sample

def convertSampleS20of32S16 (sample : Int32T) : Int16T :=
  repackS16 12 sample

def convertSampleS20of32S16of32 (sample : Int32T) : Int32T :=
  (convertSampleS20of32S16 sample).signExtend 32

def convertSampleS20of32S18of32 (sample : Int32T) : Int32T :=
  repack 12 14 sample

def convertSampleS20of32S24of32 (sample : Int32T) : Int32T :=
  repack 12 8 sample

def convertSampleS20of32S24 (sample : Int32T) : Pcm24T :=
  .valueOf (convertSampleS20of32S24of32 sample)

def convertSampleS20of32S32 (sample : Int32T) : Int32T :=
  sample <<< 12

def convertSampleS20of32Float (sample : Int32T) : Binary32 :=
  convertSampleS24Float (convertSampleS20of32S24 sample)

def convertSampleS20of32Double (sample : Int32T) : Binary64 :=
  convertSampleS32Double (convertSampleS20of32S32 sample)

/-! Conversions from `S24of32` -/

def convertSampleS24of32U8 (sample : Int32T) : Uint8T :=
  repackU8 8 sample

def convertSampleS24of32S16 (sample : Int32T) : Int16T :=
  repackS16 8 sample

def convertSampleS24of32S16of32 (sample : Int32T) : Int32T :=
  (convertSampleS24of32S16 sample).signExtend 32

def convertSampleS24of32S18of32 (sample : Int32T) : Int32T :=
  repack 8 14 sample

def convertSampleS24of32S20of32 (sample : Int32T) : Int32T :=
  repack 8 12 sample

def convertSampleS24of32S24 (sample : Int32T) : Pcm24T :=
  .valueOf (repack 8 8 sample)

def convertSampleS24of32S32 (sample : Int32T) : Int32T :=
  sample <<< 8

def convertSampleS24of32Float (sample : Int32T) : Binary32 :=
  convertSampleS24Float (convertSampleS24of32S24 sample)

def convertSampleS24of32Double (sample : Int32T) : Binary64 :=
  convertSampleS32Double (convertSampleS24of32S32 sample)

/-! Conversions from `S32` -/

def convertSampleS32U8 (sample : Int32T) : Uint8T :=
  toUint8 (sample.sshiftRight 24)

def convertSampleS32S16 (sample : Int32T) : Int16T :=
  (sample.sshiftRight 16).setWidth 16

def convertSampleS32S16of32 (sample : Int32T) : Int32T :=
  (convertSampleS32S16 sample).signExtend 32

def convertSampleS32S18of32 (sample : Int32T) : Int32T :=
  sample.sshiftRight 14

def convertSampleS32S20of32 (sample : Int32T) : Int32T :=
  sample.sshiftRight 12

def convertSampleS32S24of32 (sample : Int32T) : Int32T :=
  sample.sshiftRight 8

def convertSampleS32S24 (sample : Int32T) : Pcm24T :=
  .valueOf (convertSampleS32S24of32 sample)

def convertSampleS32S32 (sample : Int32T) : Int32T :=
  sample

def convertSampleS32Float (sample : Int32T) : Binary32 :=
  convertSampleS24Float (convertSampleS32S24 sample)

/-! Conversions from `Float` -/

def convertSampleFloatU8 (sample : Binary32) : Option Uint8T :=
  (convertSampleFloatS24 sample).map convertSampleS24U8

def convertSampleFloatS16 (sample : Binary32) : Option Int16T :=
  (convertSampleFloatS24 sample).map convertSampleS24S16

def convertSampleFloatS16of32 (sample : Binary32) : Option Int32T :=
  (convertSampleFloatS24 sample).map convertSampleS24S16of32

def convertSampleFloatS18of32 (sample : Binary32) : Option Int32T :=
  (convertSampleFloatS24 sample).map convertSampleS24S18of32

def convertSampleFloatS20of32 (sample : Binary32) : Option Int32T :=
  (convertSampleFloatS24 sample).map convertSampleS24S20of32

def convertSampleFloatS24of32 (sample : Binary32) : Option Int32T :=
  (convertSampleFloatS24 sample).map convertSampleS24S24of32

def convertSampleFloatS32 (sample : Binary32) : Option Int32T :=
  (convertSampleFloatS24 sample).map convertSampleS24S32

def convertSampleFloatDouble (sample : Binary32) : Option Binary64 :=
  (convertSampleFloatS32 sample).map convertSampleS32Double

/-! Conversions from `Double` -/

def convertSampleDoubleU8 (sample : Binary64) : Option Uint8T :=
  (convertSampleDoubleS32 sample).map convertSampleS32U8

def convertSampleDoubleS16 (sample : Binary64) : Option Int16T :=
  (convertSampleDoubleS32 sample).map convertSampleS32S16

def convertSampleDoubleS16of32 (sample : Binary64) : Option Int32T :=
  (convertSampleDoubleS32 sample).map convertSampleS32S16of32

def convertSampleDoubleS18of32 (sample : Binary64) : Option Int32T :=
  (convertSampleDoubleS32 sample).map convertSampleS32S18of32

def convertSampleDoubleS20of32 (sample : Binary64) : Option Int32T :=
  (convertSampleDoubleS32 sample).map convertSampleS32S20of32

def convertSampleDoubleS24of32 (sample : Binary64) : Option Int32T :=
  (convertSampleDoubleS32 sample).map convertSampleS32S24of32

def convertSampleDoubleS24 (sample : Binary64) : Option Pcm24T :=
  (convertSampleDoubleS32 sample).map convertSampleS32S24

def convertSampleDoubleFloat (sample : Binary64) : Option Binary32 :=
  (convertSampleDoubleS32 sample).map convertSampleS32Float

/-! The specializations by source and target format; `none` where the header has none. -/

/-- A conversion that is defined on every sample. -/
def total {A B : Type} (f : A → B) : Option (A → Option B) := some fun sample => some (f sample)

def convertFromU8 : (target : SampleFormat) → Option (Uint8T → Option (SampleT target))
  | .float => total convertSampleU8Float
  | .double => total convertSampleU8Double
  | .s16 => total convertSampleU8S16
  | .s24 => total convertSampleU8S24
  | .s32 => total convertSampleU8S32
  | .s16of32 => total convertSampleU8S16of32
  | .s18of32 => total convertSampleU8S18of32
  | .s20of32 => total convertSampleU8S20of32
  | .s24of32 => total convertSampleU8S24of32
  | .unknown | .u8 => none

def convertFromS16 : (target : SampleFormat) → Option (Int16T → Option (SampleT target))
  | .float => total convertSampleS16Float
  | .double => total convertSampleS16Double
  | .u8 => total convertSampleS16U8
  | .s16 => total convertSampleS16S16
  | .s24 => total convertSampleS16S24
  | .s32 => total convertSampleS16S32
  | .s18of32 => total convertSampleS16S18of32
  | .s20of32 => total convertSampleS16S20of32
  | .s24of32 => total convertSampleS16S24of32
  | .unknown | .s16of32 => none

def convertFromS24 : (target : SampleFormat) → Option (Pcm24T → Option (SampleT target))
  | .float => total convertSampleS24Float
  | .double => total convertSampleS24Double
  | .u8 => total convertSampleS24U8
  | .s16 => total convertSampleS24S16
  | .s32 => total convertSampleS24S32
  | .s16of32 => total convertSampleS24S16of32
  | .s18of32 => total convertSampleS24S18of32
  | .s20of32 => total convertSampleS24S20of32
  | .s24of32 => total convertSampleS24S24of32
  | .unknown | .s24 => none

def convertFromS16of32 : (target : SampleFormat) → Option (Int32T → Option (SampleT target))
  | .float => total convertSampleS16of32Float
  | .double => total convertSampleS16of32Double
  | .u8 => total convertSampleS16of32U8
  | .s16 => total convertSampleS16of32S16
  | .s24 => total convertSampleS16of32S24
  | .s32 => total convertSampleS16of32S32
  | .s18of32 => total convertSampleS16of32S18of32
  | .s20of32 => total convertSampleS16of32S20of32
  | .s24of32 => total convertSampleS16of32S24of32
  | .unknown | .s16of32 => none

def convertFromS18of32 : (target : SampleFormat) → Option (Int32T → Option (SampleT target))
  | .float => total convertSampleS18of32Float
  | .double => total convertSampleS18of32Double
  | .u8 => total convertSampleS18of32U8
  | .s16 => total convertSampleS18of32S16
  | .s24 => total convertSampleS18of32S24
  | .s32 => total convertSampleS18of32S32
  | .s16of32 => total convertSampleS18of32S16of32
  | .s20of32 => total convertSampleS18of32S20of32
  | .s24of32 => total convertSampleS18of32S24of32
  | .unknown | .s18of32 => none

def convertFromS20of32 : (target : SampleFormat) → Option (Int32T → Option (SampleT target))
  | .float => total convertSampleS20of32Float
  | .double => total convertSampleS20of32Double
  | .u8 => total convertSampleS20of32U8
  | .s16 => total convertSampleS20of32S16
  | .s24 => total convertSampleS20of32S24
  | .s32 => total convertSampleS20of32S32
  | .s16of32 => total convertSampleS20of32S16of32
  | .s18of32 => total convertSampleS20of32S18of32
  | .s24of32 => total convertSampleS20of32S24of32
  | .unknown | .s20of32 => none

def convertFromS24of32 : (target : SampleFormat) → Option (Int32T → Option (SampleT target))
  | .float => total convertSampleS24of32Float
  | .double => total convertSampleS24of32Double
  | .u8 => total convertSampleS24of32U8
  | .s16 => total convertSampleS24of32S16
  | .s24 => total convertSampleS24of32S24
  | .s32 => total convertSampleS24of32S32
  | .s16of32 => total convertSampleS24of32S16of32
  | .s18of32 => total convertSampleS24of32S18of32
  | .s20of32 => total convertSampleS24of32S20of32
  | .unknown | .s24of32 => none

def convertFromS32 : (target : SampleFormat) → Option (Int32T → Option (SampleT target))
  | .float => total convertSampleS32Float
  | .double => total convertSampleS32Double
  | .u8 => total convertSampleS32U8
  | .s16 => total convertSampleS32S16
  | .s24 => total convertSampleS32S24
  | .s32 => total convertSampleS32S32
  | .s16of32 => total convertSampleS32S16of32
  | .s18of32 => total convertSampleS32S18of32
  | .s20of32 => total convertSampleS32S20of32
  | .s24of32 => total convertSampleS32S24of32
  | .unknown => none

def convertFromFloat : (target : SampleFormat) → Option (Binary32 → Option (SampleT target))
  | .double => some convertSampleFloatDouble
  | .u8 => some convertSampleFloatU8
  | .s16 => some convertSampleFloatS16
  | .s24 => some convertSampleFloatS24
  | .s32 => some convertSampleFloatS32
  | .s16of32 => some convertSampleFloatS16of32
  | .s18of32 => some convertSampleFloatS18of32
  | .s20of32 => some convertSampleFloatS20of32
  | .s24of32 => some convertSampleFloatS24of32
  | .unknown | .float => none

def convertFromDouble : (target : SampleFormat) → Option (Binary64 → Option (SampleT target))
  | .float => some convertSampleDoubleFloat
  | .u8 => some convertSampleDoubleU8
  | .s16 => some convertSampleDoubleS16
  | .s24 => some convertSampleDoubleS24
  | .s32 => some convertSampleDoubleS32
  | .s16of32 => some convertSampleDoubleS16of32
  | .s18of32 => some convertSampleDoubleS18of32
  | .s20of32 => some convertSampleDoubleS20of32
  | .s24of32 => some convertSampleDoubleS24of32
  | .unknown | .double => none

/-- `convert_sample<source, target>`. The outer `none` is a missing specialization, the inner one
undefined behaviour. -/
def convertSample : (source target : SampleFormat) →
    Option (SampleT source → Option (SampleT target))
  | .unknown => fun _ => none
  | .float => convertFromFloat
  | .double => convertFromDouble
  | .u8 => convertFromU8
  | .s16 => convertFromS16
  | .s24 => convertFromS24
  | .s32 => convertFromS32
  | .s16of32 => convertFromS16of32
  | .s18of32 => convertFromS18of32
  | .s20of32 => convertFromS20of32
  | .s24of32 => convertFromS24of32

end StupidAR
