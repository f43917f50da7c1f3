import StupidAR.Pcm.Sample
import Mathlib.Data.Int.ModEq
import Mathlib.Logic.Equiv.Defs

/-!
# Packed 24-bit integers

`pcm24_t` as a codec between the integers from `min_i32` to `max_i32` and triples of bytes.
-/

namespace StupidAR

open FixedPoint

namespace Pcm24T

lemma inRange_iff (v : Int32T) :
    InRange 24 v.toInt ↔ minI32.toInt ≤ v.toInt ∧ v.toInt ≤ maxI32.toInt := by
  rw [InRange, show minI32.toInt = -2 ^ (24 - 1) by decide,
    show maxI32.toInt = 2 ^ (24 - 1) - 1 by decide, Int.le_sub_one_iff]

lemma toInt_intValue_valueOf_bmod (s : Int32T) :
    (valueOf s).intValue.toInt = s.toInt.bmod (2 ^ 24) := by
  rw [toInt_intValue, word_valueOf, toInt_setWidth_bmod (by norm_num)]

lemma valueOf_intValue (d : Pcm24T) : valueOf d.intValue = d :=
  intValue_injective (toInt_intValue_valueOf (inRange_intValue d))

/-- The top byte carries the sign, the other two are unsigned. -/
lemma toInt_intValue_bytes (d : Pcm24T) : d.intValue.toInt =
    (d.data.get 0).toNat + 2 ^ 8 * (d.data.get 1).toNat + 2 ^ 16 * (d.data.get 2).toInt := by
  have hword : d.word = d.data.get 2 ++ d.data.get 1 ++ d.data.get 0 := rfl
  rw [toInt_intValue, hword, BitVec.toInt_append, BitVec.toInt_append]
  norm_num
  ring

/-- The numbers of `int32_t` that 24 bits hold. -/
abbrev Int24 : Type := {v : Int32T // minI32.toInt ≤ v.toInt ∧ v.toInt ≤ maxI32.toInt}

def codec : Pcm24T ≃ Int24 where
  toFun d := ⟨d.intValue, (inRange_iff _).mp (inRange_intValue d)⟩
  invFun v := valueOf v
  left_inv := valueOf_intValue
  right_inv v := Subtype.ext (intValue_valueOf v.2.1 v.2.2)

/-- Packing reduces any number modulo `2 ^ 24`, unpacking inverts it on the 24-bit range and
is inverted by it everywhere. -/
theorem codec_modulo :
    (∀ s : Int32T, InRange 24 (valueOf s).intValue.toInt ∧
      (valueOf s).intValue.toInt ≡ s.toInt [ZMOD 2 ^ 24] ∧
      ((valueOf s).intValue = s ↔ minI32.toInt ≤ s.toInt ∧ s.toInt ≤ maxI32.toInt)) ∧
    (∀ d, valueOf d.intValue = d) ∧
    ((∀ d, (codec d : Int32T) = d.intValue) ∧ ∀ v : Int24, codec.symm v = valueOf v) ∧
    ∀ d : Pcm24T, d.intValue.toInt =
      (d.data.get 0).toNat + 2 ^ 8 * (d.data.get 1).toNat + 2 ^ 16 * (d.data.get 2).toInt := by
  refine ⟨?_, valueOf_intValue, ⟨fun _ => rfl, fun _ => rfl⟩, toInt_intValue_bytes⟩
  intro s
  refine ⟨inRange_intValue _, ?_, ?_⟩
  · rw [toInt_intValue_valueOf_bmod]
    exact Int.bmod_emod
  · rw [← inRange_iff]
    constructor
    · intro h
      rw [← h]
      exact inRange_intValue _
    · intro h
      exact BitVec.eq_of_toInt_eq (toInt_intValue_valueOf h)

end Pcm24T

end StupidAR
