/-
# Whether the waveforms stay in the range of the DAC

The comments of `source/DAC_files/DAC_micro_hot_plate.c` ask that the values of a table
be "in the range of 0 to 16383 and never negative or greater than 16383".  Every entry
is stored twice, first at full scale and then scaled, and each time a real number is
converted to `uint32_t`.  `InDacRange` is what such a conversion should be: of a number
in the range, and its truncation.

Sine and square are in range, and so is the triangle up to its peak.  Behind the peak
it falls with the slope with which it rose, so it has to be as long before the peak as
behind it: `triangle_inDacRange_iff`.  Scaling never leaves the range.
-/

import GasSensor.HotPlate.Waveform
import Mathlib.Tactic.Linarith

namespace GasSensor

open FloatingPoint

namespace HotPlate

attribute [local instance] Arithmetic.exact

/-- **A well-defined conversion**: `entry` is the truncation of a number in the range of
the DAC. -/
def InDacRange (value : Value) (entry : ℕ) : Prop :=
  ∃ v, value = .finite v ∧ 0 ≤ v ∧ v ≤ 16383 ∧ entry = ⌊v⌋.toNat

/-- The number a generator converts for entry `i`. -/
def rawValue (t : Target) (p : Params) (size i : ℕ) : Value :=
  match p.waveType with
  | 0 => sineValue t p i
  | 1 => .finite (if i < onSize p size then 16383 else 0)
  | _ => triangleValue p size i

/-- The number `scaleDacValues` converts for entry `i`. -/
def scaledValue (t : Target) (p : Params) (i : ℕ) : Value :=
  double.mul (double.div (float.round (rawEntry t p i)) (.finite 16383)) (maxDacValue p)

variable {t : Target} {p : Params}

/-- A number in the range is truncated. -/
theorem toU32_of_mem (i : ℕ) {v : ℚ} (h0 : 0 ≤ v) (h1 : v ≤ 16383) : t.toU32 i (.finite v) = ⌊v⌋.toNat := by
  rw [Target.toU32, if_pos ⟨by linarith, by linarith⟩]

/-- The entries of a generator are the conversions of its numbers. -/
theorem rawEntry_eq_toU32 (h : InRange p) (i : ℕ) :
    rawEntry t p i = t.toU32 i (rawValue t p (tableSize t p) i) := by
  have hd : ¬ p.dutyCycle > 100 := not_lt.2 h.dutyCycle
  unfold rawEntry rawWave rawValue
  match hw : p.waveType with
  | 0 => rfl
  | 1 =>
      simp only [if_neg hd, Option.getD_some, squareEntry]
      split
      · rw [toU32_of_mem i (by norm_num) le_rfl]
        rfl
      · rw [toU32_of_mem i le_rfl (by norm_num)]
        rfl
  | 2 => simp only [if_neg hd, Option.getD_some, triangleEntry]
  | n + 3 => have := h.waveType; omega

/-- Where a number is in range its entry is the truncation. -/
theorem inDacRange_toU32_iff (i : ℕ) {value : Value} :
    InDacRange value (t.toU32 i value) ↔ ∃ v, value = .finite v ∧ 0 ≤ v ∧ v ≤ 16383 := by
  constructor
  · rintro ⟨v, hv, h0, h1, -⟩
    exact ⟨v, hv, h0, h1⟩
  · rintro ⟨v, rfl, h0, h1⟩
    exact ⟨v, rfl, h0, h1, toU32_of_mem i h0 h1⟩

/-- A sine in `[-1, 1]`, lifted and scaled. -/
theorem sine_mem (t : Target) {f : ℚ} (hf : p.desiredFrequency = .finite f) (i : ℕ) :
    ∃ v, sineValue t p i = .finite v ∧ 0 ≤ v ∧ v ≤ 16383 := by
  have hvalue : ∃ x, sineValue t p i = .finite ((t.sin x + 1) * (16383 / 2)) := by
    simp [sineValue, hf, mPi, mPi2, sampleRate, Rounding.div_finite, Rounding.sub_finite, Target.sinOf]
  obtain ⟨x, hvalue⟩ := hvalue
  obtain ⟨hlo, hhi⟩ := t.sin_mem x
  exact ⟨_, hvalue, by linarith, by linarith⟩

/-- The steps up to the peak, for a table that fits. -/
theorem onSize_eq {size : ℕ} (hp : p.dutyCycle ≤ 100) (hsize : size ≤ maxArraySize) :
    onSize p size = size * p.dutyCycle / 100 := by
  have hle : size * p.dutyCycle ≤ maxArraySize * 100 := Nat.mul_le_mul hsize hp
  rw [onSize, Nat.mod_eq_of_lt (hle.trans_lt (by decide))]

/-- An entry of the triangle before the peak is in range. -/
theorem rising_mem {s i : ℕ} (hi : i < s) : 0 ≤ (i : ℚ) * (16383 / s) ∧ (i : ℚ) * (16383 / s) ≤ 16383 := by
  have hs : (0 : ℚ) < s := by exact_mod_cast Nat.zero_lt_of_lt hi
  have hle : (i : ℚ) ≤ s := by exact_mod_cast hi.le
  constructor
  · positivity
  · calc (i : ℚ) * (16383 / s) ≤ s * (16383 / s) := by gcongr
      _ = 16383 := by field_simp

/-- An entry `k` steps behind the peak is in range exactly if the triangle rose for at least
as many steps. -/
theorem falling_mem_iff {s : ℕ} (hs : 0 < s) (k : ℕ) :
    (0 ≤ 16383 - (k : ℚ) * (16383 / s) ∧ 16383 - (k : ℚ) * (16383 / s) ≤ 16383) ↔ k ≤ s := by
  have hs' : (0 : ℚ) < s := by exact_mod_cast hs
  have hnonneg : 0 ≤ (k : ℚ) * (16383 / s) := by positivity
  have hiff : (k : ℚ) * (16383 / s) ≤ 16383 ↔ k ≤ s := by
    rw [mul_div_assoc', div_le_iff₀ hs', mul_comm (k : ℚ), mul_le_mul_iff_right₀ (by norm_num), Nat.cast_le]
  rw [← hiff]
  constructor
  · rintro ⟨h, -⟩
    linarith
  · intro h
    constructor <;> linarith

theorem triangleValue_of_pos {size : ℕ} (h : 0 < onSize p size) (i : ℕ) :
    triangleValue p size i = .finite (if i < onSize p size then (i : ℚ) * (16383 / onSize p size)
      else 16383 - ((i - onSize p size : ℕ) : ℚ) * (16383 / onSize p size)) := by
  have hne : (onSize p size : ℚ) ≠ 0 := by exact_mod_cast h.ne'
  simp only [triangleValue, float_exact, double_exact, Rounding.exact_round, Rounding.div_finite _ _ hne,
    Rounding.convert_finite, Rounding.mul_finite, Rounding.sub_finite, ite_self]
  split <;> rfl

/-- Without a rise the slope is infinite. -/
theorem triangleValue_of_zero {size : ℕ} (h : onSize p size = 0) (i : ℕ) :
    ∀ v, triangleValue p size i ≠ .finite v := by
  intro v
  have hslope : (Rounding.exact.convert (Rounding.exact.div (.finite 16383) (.finite (onSize p size : ℕ))))
      = .infinite false := by
    rw [h]
    rfl
  simp only [triangleValue, float_exact, double_exact, Rounding.exact_round, hslope, ite_self]
  rw [if_neg (by omega)]
  by_cases hi : ((i - onSize p size : ℕ) : ℚ) = 0
  · simp [Rounding.sub, Rounding.mul, Rounding.add, Value.neg, hi]
  · simp [Rounding.sub, Rounding.mul, Rounding.add, Value.neg, hi]

/-- **The triangle is in range exactly if it rises for half of the table at least.** -/
theorem triangle_inDacRange_iff {size : ℕ} (hp : p.dutyCycle ≤ 100) (hlo : 50 ≤ size)
    (hhi : size ≤ maxArraySize) :
    (∀ i < size, ∃ v, triangleValue p size i = .finite v ∧ 0 ≤ v ∧ v ≤ 16383) ↔ 50 ≤ p.dutyCycle := by
  have hon := onSize_eq hp hhi
  constructor
  · intro h
    by_contra hlt
    have hmul : size * p.dutyCycle ≤ size * 49 := Nat.mul_le_mul_left size (by omega)
    -- the last entry is the lowest
    obtain ⟨v, hv, hmem⟩ := h (size - 1) (by omega)
    rcases Nat.eq_zero_or_pos (onSize p size) with hzero | hpos
    · exact triangleValue_of_zero hzero _ _ hv
    · have hbehind : ¬ size - 1 < onSize p size := by omega
      rw [triangleValue_of_pos hpos, if_neg hbehind, Value.finite.injEq] at hv
      rw [← hv] at hmem
      have := (falling_mem_iff hpos _).1 hmem
      omega
  · intro h i hi
    have hmul : size * 50 ≤ size * p.dutyCycle := Nat.mul_le_mul_left size h
    have hpos : 0 < onSize p size := by omega
    refine ⟨_, triangleValue_of_pos hpos i, ?_⟩
    by_cases hrise : i < onSize p size
    · rw [if_pos hrise]
      exact rising_mem hrise
    · rw [if_neg hrise]
      exact (falling_mem_iff hpos _).2 (by omega)

/-- **The waveform of full scale.** -/
theorem rawValue_inDacRange_iff (h : InRange p) :
    (∀ i < tableSize t p, ∃ v, rawValue t p (tableSize t p) i = .finite v ∧ 0 ≤ v ∧ v ≤ 16383) ↔
      (p.waveType = 2 → 50 ≤ p.dutyCycle) := by
  unfold rawValue
  match hw : p.waveType with
  | 0 =>
      obtain ⟨d, hd, -⟩ := lowestFreqPossible_eq
      obtain ⟨f, hf, -⟩ := Value.exists_finite (hd ▸ h.frequency.1) h.frequency.2
      refine iff_of_true (fun i _ => sine_mem t hf i) fun h2 => ?_
      omega
  | 1 =>
      refine iff_of_true (fun i _ => ⟨_, rfl, ?_⟩) fun h2 => ?_
      · split <;> norm_num
      · omega
  | 2 =>
      exact (triangle_inDacRange_iff h.dutyCycle (fifty_le_tableSize h.frequency.1 h.frequency.2) h.tableSize_le).trans
        ⟨fun hduty _ => hduty, fun hduty => hduty rfl⟩
  | n + 3 => have := h.waveType; omega

/-- **Scaling keeps entries in range.**  Up to 23 V the largest code is at most full
scale. -/
theorem scaledValue_mem (h : InRange p) {i : ℕ} (hraw : rawEntry t p i ≤ 16383) :
    ∃ v, scaledValue t p i = .finite v ∧ 0 ≤ v ∧ v ≤ 16383 := by
  have hvolts : p.desiredAmplitude / opampGain ≤ 3 := by
    have := h.amplitude
    change p.desiredAmplitude / 7 ≤ 3
    omega
  have hvalue : scaledValue t p i = .finite ((rawEntry t p i : ℚ) / 16383
      * ((p.desiredAmplitude / opampGain : ℕ) * (16383 / (33 / 10)))) := by
    simp [scaledValue, maxDacValue, Rounding.div_finite]
  have hraw' : (rawEntry t p i : ℚ) ≤ 16383 := by exact_mod_cast hraw
  have hcast : ((p.desiredAmplitude / opampGain : ℕ) : ℚ) ≤ 3 := by exact_mod_cast hvolts
  refine ⟨_, hvalue, by positivity, ?_⟩
  calc (rawEntry t p i : ℚ) / 16383 * ((p.desiredAmplitude / opampGain : ℕ) * (16383 / (33 / 10)))
      ≤ 1 * 16383 := by
        refine mul_le_mul ?_ (by linarith) (by positivity) zero_le_one
        rw [div_le_one (by norm_num)]
        exact hraw'
    _ = 16383 := one_mul _

/-- **The waveforms stay in the range of the DAC except for a triangle that falls longer
than it rises.**  A configuration in range fills the table with `rawEntry` and leaves
`waveEntry` in it.  Below the table size all these entries are truncations of
numbers in 0 to 16383 if and only if the wave is no triangle or its duty cycle is at
least 50. -/
theorem waveform_inDacRange_iff (t : Target) (p : Params) (hp : InRange p) (h : HotPlate) :
    (initializeDacHotPlate t p).1 = assigns p (tableSize t p) (rawEntry t p) ∧
    (∃ h', (initializeDacHotPlate t p).1.foldlM (exec t) h = .ok h' ∧ h'.valueArraySize = tableSize t p ∧
      ∀ i < tableSize t p, h'.values i = waveEntry t p i) ∧
    ((∀ i < tableSize t p, InDacRange (rawValue t p (tableSize t p) i) (rawEntry t p i) ∧
        InDacRange (scaledValue t p i) (waveEntry t p i)) ↔
      (p.waveType = 2 → 50 ≤ p.dutyCycle)) := by
  have hassigns : (initializeDacHotPlate t p).1 = assigns p (tableSize t p) (rawEntry t p) := by
    rw [hp.initializeDacHotPlate_eq]
  refine ⟨hassigns, ?_, ?_⟩
  · rw [hassigns, assigns_run hp.tableSize_le]
    exact ⟨_, rfl, rfl, fun i hi => by rw [hp.waveEntry_eq]; exact if_pos hi⟩
  · rw [← rawValue_inDacRange_iff (t := t) hp]
    refine forall₂_congr fun i _ => ?_
    rw [rawEntry_eq_toU32 hp, inDacRange_toU32_iff]
    refine and_iff_left_of_imp fun hraw => ?_
    obtain ⟨v, hv, h0, h1⟩ := hraw
    have hle : rawEntry t p i ≤ 16383 := by
      rw [rawEntry_eq_toU32 hp, hv, toU32_of_mem i h0 h1]
      have : ⌊v⌋ ≤ 16383 := Int.floor_le_iff.2 (by push_cast; linarith)
      omega
    obtain ⟨w, hw, hw0, hw1⟩ := scaledValue_mem hp hle
    refine ⟨w, hw, hw0, hw1, ?_⟩
    rw [hp.waveEntry_eq]
    exact (congrArg (t.toU32 i) hw).trans (toU32_of_mem i hw0 hw1)

/-- A triangle at the boot frequency and amplitude. -/
def triangle (dutyCycle : ℕ) : Params := { Params.boot with waveType := 2, dutyCycle := dutyCycle }

theorem inRange_triangle {dutyCycle : ℕ} (h : dutyCycle ≤ 100) : InRange (triangle dutyCycle) where
  waveType := le_rfl
  dutyCycle := h
  frequency := by
    change lowestFreqPossible ≤ Params.boot.desiredFrequency ∧ Params.boot.desiredFrequency ≤ _
    decide +kernel
  amplitude := by norm_num [triangle, Params.boot]

/-- The symmetric triangle is in range. -/
theorem triangle50_inDacRange :
    (triangle 50).waveType = 2 ∧ ∀ i < tableSize .saturating (triangle 50),
      InDacRange (rawValue .saturating (triangle 50) (tableSize .saturating (triangle 50)) i)
          (rawEntry .saturating (triangle 50) i) ∧
        InDacRange (scaledValue .saturating (triangle 50) i) (waveEntry .saturating (triangle 50) i) :=
  ⟨rfl, (waveform_inDacRange_iff .saturating (triangle 50) (inRange_triangle (by norm_num)) boot).2.2.2
    fun _ => le_rfl⟩

/-- **A triangle with a short rise falls below zero**, and one without a rise has no
slope. -/
theorem triangle_leaves_range :
    (¬ ∀ i < tableSize .saturating (triangle 25), ∃ v,
      rawValue .saturating (triangle 25) (tableSize .saturating (triangle 25)) i = .finite v ∧ 0 ≤ v ∧ v ≤ 16383) ∧
    rawValue .saturating (triangle 0) (tableSize .saturating (triangle 0)) 0 = .nan := by
  constructor
  · intro h
    have hduty := (rawValue_inDacRange_iff (inRange_triangle (by norm_num))).1 h rfl
    exact absurd hduty (by decide)
  · decide +kernel

end HotPlate
end GasSensor
