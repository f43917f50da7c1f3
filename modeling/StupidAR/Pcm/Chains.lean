import Mathlib.Order.Bounds.Defs
import StupidAR.Pcm.Quantising

/-!
# Chains of conversions

A renderer converts a sample several times on its way. Whatever the formats it passes, the
result depends on the first, the narrowest and the last of them only.
-/

namespace StupidAR

open FixedPoint FloatingPoint

/-- One or more conversions, each defined by the header, applied one after the other. -/
inductive Chain : SampleFormat → SampleFormat → Type
  | single {F G : SampleFormat} (f : SampleT F → Option (SampleT G))
    (hf : convertSample F G = some f) : Chain F G
  | snoc {F G H : SampleFormat} (c : Chain F G) (g : SampleT G → Option (SampleT H))
    (hg : convertSample G H = some g) : Chain F H

namespace Chain

def run {F : SampleFormat} : {G : SampleFormat} → Chain F G → SampleT F → Option (SampleT G)
  | _, single f _, x => f x
  | _, snoc c g _, x => (c.run x).bind g

/-- The least width of the formats that the chain passes, its ends included. -/
def narrowest {F : SampleFormat} : {G : SampleFormat} → Chain F G → ℕ
  | G, single _ _ => min F.width G.width
  | H, snoc c _ _ => min c.narrowest H.width

def append {F G : SampleFormat} (c : Chain F G) : {H : SampleFormat} → Chain G H → Chain F H
  | _, single g hg => c.snoc g hg
  | _, snoc d g hg => (c.append d).snoc g hg

variable {F G H : SampleFormat}

lemma run_append (c : Chain F G) (d : Chain G H) (x : SampleT F) :
    (c.append d).run x = (c.run x).bind d.run := by
  induction d with
  | single g hg => rfl
  | snoc d g hg ih => rw [append, run, ih, Option.bind_assoc]; rfl

lemma narrowest_le (c : Chain F G) : c.narrowest ≤ F.width ∧ c.narrowest ≤ G.width := by
  induction c with
  | single => exact ⟨min_le_left _ _, min_le_right _ _⟩
  | snoc c _ _ ih => exact ⟨min_le_of_left_le ih.1, min_le_right _ _⟩

lemma narrowest_append (c : Chain F G) (d : Chain G H) :
    (c.append d).narrowest = min c.narrowest d.narrowest := by
  induction d with
  | single g hg =>
    rw [append, narrowest, narrowest, ← min_assoc, min_eq_left c.narrowest_le.2]
  | snoc d g hg ih => rw [append, narrowest, narrowest, ih, min_assoc]

lemma width_pos (c : Chain F G) : 0 < F.width ∧ 0 < G.width ∧ 0 < c.narrowest := by
  induction c with
  | single f hf =>
    have hF := source_width_pos hf
    have hG := width_pos_of_convertSample hf
    exact ⟨hF, hG, lt_min hF hG⟩
  | snoc c g hg ih =>
    have hH := width_pos_of_convertSample hg
    exact ⟨ih.1, hH, lt_min ih.2.2 hH⟩

/-- What a chain makes of a sample whose integer part fits its format. -/
theorem run_encodes (c : Chain F G) {x : SampleT F}
    (h : InRange F.width (truncate (signedValue F x))) :
    ∃ y, c.run x = some y ∧
      Encodes G y (rescaleVia c.narrowest F.width G.width (truncate (signedValue F x))) := by
  induction c with
  | single f hf =>
    obtain ⟨y, hy, henc⟩ := convertSample_encodes hf h
    refine ⟨y, hy, ?_⟩
    rwa [narrowest, rescaleVia_of_min_le _ le_rfl]
  | snoc c g hg ih =>
    obtain ⟨y, hy, henc⟩ := ih
    obtain ⟨hF, hG, hn⟩ := c.width_pos
    have hrange := (h.rescale hF hn).rescale hn hG
    obtain ⟨z, hz, hzenc⟩ := convertSample_encodes_intCast hg henc.value hrange
    refine ⟨z, by rw [run, hy, Option.bind_some, hz], ?_⟩
    rwa [narrowest, ← rescale_rescaleVia _ c.narrowest_le.2]

end Chain

variable {F G : SampleFormat}

lemma inRange_truncate_of_isInteger (hF : F.isInteger = true) (x : SampleT F) :
    InRange F.width (truncate (signedValue F x)) := by
  obtain ⟨v, hv, hrange⟩ := exists_signedValue hF x
  rwa [hv, truncate_intCast]

/-- Two chains between the same formats agree if their narrowest formats have the same
width, whatever else they pass. -/
theorem chain_decided_by_narrowest (c c' : Chain F G) (hn : c.narrowest = c'.narrowest)
    {x : SampleT F} (hx : InRange F.width (truncate (signedValue F x))) :
    ∃ y, c.run x = some y ∧ c'.run x = some y := by
  obtain ⟨y, hy, henc⟩ := c.run_encodes hx
  obtain ⟨y', hy', henc'⟩ := c'.run_encodes hx
  rw [← hn] at henc'
  exact ⟨y, hy, by rw [hy', henc.unique henc']⟩

/-- From `S16` to a byte and back. -/
def throughByte : Chain .s16 .s16 := (Chain.single (G := .u8) _ rfl).snoc _ rfl

/-- The same with packed samples and `Double` on the way. -/
def throughByteAndDouble : Chain .s16 .s16 :=
  (((Chain.single (G := .s24) _ rfl).snoc (H := .u8) _ rfl).snoc (H := .double) _ rfl).snoc _ rfl

theorem chain_decided_by_narrowest_byte :
    throughByte.run 0xff7f#16 = some 0xff00#16 ∧
      throughByteAndDouble.run 0xff7f#16 = some 0xff00#16 := by
  obtain ⟨y, hy, hy'⟩ := chain_decided_by_narrowest throughByte throughByteAndDouble (by decide)
    (inRange_truncate_of_isInteger (F := .s16) rfl 0xff7f#16)
  have hbyte : throughByte.run 0xff7f#16 = some 0xff00#16 := by decide
  exact ⟨hbyte, by rw [hy', ← hy, hbyte]⟩

/-- Going round a loop of conversions again changes nothing more: what the narrowest format
takes is taken the first time. A loop that passes no narrower format takes only what an
integer sample does not have, the fraction and the unused bits. -/
theorem loop_settles (c : Chain F F) {x : SampleT F}
    (hx : InRange F.width (truncate (signedValue F x))) :
    ∃ y, c.run x = some y ∧ c.run y = some y ∧
      (c.narrowest = F.width → signedValue F y = truncate (signedValue F x)) := by
  obtain ⟨y, hy, henc⟩ := c.run_encodes hx
  obtain ⟨y', hy', henc'⟩ := (c.append c).run_encodes hx
  rw [Chain.narrowest_append, min_self] at henc'
  refine ⟨y, hy, ?_, fun hwidth => ?_⟩
  · obtain rfl := henc.unique henc'
    rwa [Chain.run_append, hy, Option.bind_some] at hy'
  · rw [henc.value, hwidth, rescaleVia, rescale_self, rescale_self]

theorem loop_settles_byte : throughByte.run 0xff00#16 = some 0xff00#16 := by
  obtain ⟨y, hy, hsettled, -⟩ :=
    loop_settles throughByte (inRange_truncate_of_isInteger (F := .s16) rfl 0xff7f#16)
  have hbyte : throughByte.run 0xff7f#16 = some 0xff00#16 := by decide
  obtain rfl := Option.some.inj (hbyte.symm.trans hy)
  exact hsettled

/-! ### Narrowing as the adjoint of widening -/

lemma signedValue_convert {f : SampleT F → Option (SampleT G)} (hF : F.isInteger = true)
    (hf : convertSample F G = some f) (x : SampleT F) : ∃ y v, f x = some y ∧
      signedValue F x = (v : ℤ) ∧ signedValue G y = (rescale F.width G.width v : ℤ) := by
  obtain ⟨v, hv, -⟩ := exists_signedValue hF x
  obtain ⟨y, hy, henc⟩ := convertSample_integer_encodes hF hf hv
  exact ⟨y, v, hy, hv, henc.value⟩

/-- Narrowing a sample picks the largest sample of the narrow format that, widened again,
does not lie above it. -/
theorem narrowing_is_greatest (hF : F.isInteger = true) (hG : G.isInteger = true)
    (hwidth : F.width ≤ G.width) {widen : SampleT F → Option (SampleT G)}
    (hwiden : convertSample F G = some widen) {narrow : SampleT G → Option (SampleT F)}
    (hnarrow : convertSample G F = some narrow) (y : SampleT G) :
    ∃ y', narrow y = some y' ∧
      (∀ x, ∃ x', widen x = some x' ∧
        (signedValue G x' ≤ signedValue G y ↔ signedValue F x ≤ signedValue F y')) ∧
      IsGreatest {v | ∃ x x', signedValue F x = v ∧ widen x = some x' ∧
        signedValue G x' ≤ signedValue G y} (signedValue F y') := by
  obtain ⟨y', w, hy', hw, hval⟩ := signedValue_convert hG hnarrow y
  have hadjoint : ∀ x, ∃ x', widen x = some x' ∧
      (signedValue G x' ≤ signedValue G y ↔ signedValue F x ≤ signedValue F y') := by
    intro x
    obtain ⟨x', v, hx', hv, hval'⟩ := signedValue_convert hF hwiden x
    refine ⟨x', hx', ?_⟩
    rw [hval', hw, hv, hval]
    exact_mod_cast rescale_le_iff hwidth
  refine ⟨y', hy', hadjoint, ?_, ?_⟩
  · obtain ⟨x', hx', hiff⟩ := hadjoint y'
    exact ⟨y', x', rfl, hx', hiff.mpr le_rfl⟩
  · rintro _ ⟨x, x', rfl, hx', hle⟩
    obtain ⟨x'', hx'', hiff⟩ := hadjoint x
    rw [hx'] at hx''
    obtain rfl := Option.some.inj hx''
    exact hiff.mp hle

/-- A negative 16-bit sample goes to the byte below it. -/
theorem narrowing_is_greatest_byte :
    IsGreatest {v | ∃ x x', signedValue .u8 x = v ∧ some (convertSampleU8S16 x) = some x' ∧
      signedValue .s16 x' ≤ signedValue .s16 0xff7f#16} (signedValue .u8 127#8) := by
  obtain ⟨y', hy', -, hgreatest⟩ := narrowing_is_greatest (F := .u8) (G := .s16) rfl rfl
    (by decide) rfl rfl 0xff7f#16
  have hbyte : convertSampleS16U8 0xff7f#16 = 127#8 := by decide
  obtain rfl := Option.some.inj hy'
  rwa [hbyte] at hgreatest

end StupidAR
