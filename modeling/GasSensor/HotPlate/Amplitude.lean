/-
# Whether the waveform has the requested amplitude

`scaleDacValues` of `source/DAC_files/DAC_micro_hot_plate.c` is to "scale the DAC values
to the desired amplitude and opamp gain".  Its factor is `desiredAmplitude / OPAMP_GAIN`
volts, a quotient of unsigned integers: the volts beyond a multiple of the gain are
lost before they are multiplied.

An entry `r` loses `10 * r * (a % 7) / 231` codes that way, on top of what truncation
takes (`withinOneCode_iff`).  At full scale that is less than one code only if nothing
is lost at all: `scaleDacValues_withinOneCode_iff`.
-/

import GasSensor.HotPlate.Waveform
import Mathlib.Tactic.Linarith

namespace GasSensor

open FloatingPoint

namespace HotPlate

attribute [local instance] Arithmetic.exact

/-- **An entry has the requested amplitude** up to one code: `r * a / (OPAMP_GAIN * 3.3)` for
an unscaled entry `r`. -/
def WithinOneCode (p : Params) (r entry : ℕ) : Prop :=
  |(entry : ℚ) - r * p.desiredAmplitude / (opampGain * (33 / 10))| ≤ 1

/-- What integer division and truncation take from an entry `r` is at most one code.  In
units of 1/231 code the truncation takes 7 times a remainder modulo 33, and the
division 10 times the entry for each volt it drops. -/
def SmallLoss (p : Params) (r : ℕ) : Prop :=
  7 * (10 * r * (p.desiredAmplitude / 7) % 33) + 10 * r * (p.desiredAmplitude % 7) ≤ 231

variable {t : Target} {p : Params} {r : ℕ}

theorem maxDacValue_eq : maxDacValue p = .finite ((p.desiredAmplitude / opampGain : ℕ) * (16383 / (33 / 10))) := by
  simp [maxDacValue, Rounding.div_finite]

/-- The word that is stored for an entry. -/
theorem scaleWord_eq (i : ℕ) (ha : p.desiredAmplitude ≤ 23) (hr : r ≤ 16383) :
    scaleWord t i r (maxDacValue p) = 10 * r * (p.desiredAmplitude / 7) / 33 := by
  have hvalue : (r : ℚ) / 16383 * ((p.desiredAmplitude / opampGain : ℕ) * (16383 / (33 / 10)))
      = ((10 * r * (p.desiredAmplitude / 7) : ℕ) : ℚ) / ((33 : ℕ) : ℚ) := by
    unfold opampGain
    push_cast
    ring
  have hle : 10 * r * (p.desiredAmplitude / 7) ≤ 10 * 16383 * 3 :=
    Nat.mul_le_mul (Nat.mul_le_mul_left 10 hr) (by omega)
  have hlt : ((10 * r * (p.desiredAmplitude / 7) : ℕ) : ℚ) / ((33 : ℕ) : ℚ) < 2 ^ 32 := by
    rw [div_lt_iff₀ (by norm_num)]
    have hcast : ((10 * r * (p.desiredAmplitude / 7) : ℕ) : ℚ) ≤ ((10 * 16383 * 3 : ℕ) : ℚ) :=
      Nat.cast_le.2 hle
    refine hcast.trans_lt ?_
    norm_num
  have hnonneg : (0 : ℚ) ≤ ((10 * r * (p.desiredAmplitude / 7) : ℕ) : ℚ) / ((33 : ℕ) : ℚ) := by positivity
  rw [scaleWord, float_exact, double_exact, Rounding.exact_round, Rounding.div_finite _ _ (by norm_num),
    Rounding.exact_round, maxDacValue_eq, Rounding.mul_finite, Rounding.exact_round, hvalue, Target.toU32, if_pos ⟨by linarith, hlt⟩, Rat.floor_natCast_div_natCast]
  omega

/-- **How far an entry is off.** -/
theorem withinOneCode_iff (i : ℕ) (ha : p.desiredAmplitude ≤ 23) (hr : r ≤ 16383) :
    WithinOneCode p r (scaleWord t i r (maxDacValue p)) ↔ SmallLoss p r := by
  rw [scaleWord_eq i ha hr]
  unfold WithinOneCode SmallLoss
  set a := p.desiredAmplitude
  set entry := 10 * r * (a / 7) / 33
  set loss := 7 * (10 * r * (a / 7) % 33) + 10 * r * (a % 7) with hloss
  have hsum : 231 * entry + loss = 10 * r * a := by
    have hrem : 33 * entry + 10 * r * (a / 7) % 33 = 10 * r * (a / 7) := Nat.div_add_mod _ _
    have hvolts : 7 * (a / 7) + a % 7 = a := Nat.div_add_mod a 7
    calc 231 * entry + loss = 7 * (33 * entry + 10 * r * (a / 7) % 33) + 10 * r * (a % 7) := by
          rw [hloss]
          ring
      _ = 10 * r * (7 * (a / 7) + a % 7) := by
          rw [hrem]
          ring
      _ = 10 * r * a := by rw [hvolts]
  have hdiff : (entry : ℚ) - r * a / (opampGain * (33 / 10)) = -((loss : ℚ) / 231) := by
    have hcast : (231 : ℚ) * entry + loss = 10 * r * a := by exact_mod_cast hsum
    have hunit : (r : ℚ) * a / (opampGain * (33 / 10)) = 10 * r * a / 231 := by
      unfold opampGain
      push_cast
      ring
    rw [hunit, ← hcast]
    ring
  rw [hdiff, abs_neg, abs_of_nonneg (by positivity), div_le_one (by norm_num)]
  exact_mod_cast Iff.rfl

/-- Nothing is lost for a multiple of the gain. -/
theorem smallLoss_of_dvd (h : 7 ∣ p.desiredAmplitude) (r : ℕ) : SmallLoss p r := by
  unfold SmallLoss
  have := Nat.mod_lt (10 * r * (p.desiredAmplitude / 7)) (show 0 < 33 by norm_num)
  rw [Nat.mod_eq_zero_of_dvd h]
  omega

/-- From entry 24 on a single lost volt is more than one code. -/
theorem smallLoss_iff_dvd (h : 24 ≤ r) : SmallLoss p r ↔ 7 ∣ p.desiredAmplitude := by
  constructor
  · intro hsmall
    by_contra hdvd
    have hrem : 1 ≤ p.desiredAmplitude % 7 := by omega
    have hmul : 10 * r * 1 ≤ 10 * r * (p.desiredAmplitude % 7) := Nat.mul_le_mul_left (10 * r) hrem
    unfold SmallLoss at hsmall
    omega
  · exact fun hdvd => smallLoss_of_dvd hdvd r

/-- **The waveform has the requested amplitude exactly where the integer division loses
nothing that shows.**  `scaleDacValues` replaces each entry below `size` by its scaled
word.  All of them are within one code of the requested amplitude if and only if
each entry's loss is small; with an entry of at least 24 in the table, if and only if
the amplitude is a multiple of the gain. -/
theorem scaleDacValues_withinOneCode_iff (t : Target) (p : Params) (h : HotPlate) (size : ℕ)
    (ha : p.desiredAmplitude ≤ 23) (hraw : ∀ i < size, h.values i ≤ 16383) :
    (size ≤ maxArraySize → ∃ h', (scaleDacValues p size).foldlM (exec t) h = .ok h' ∧
      ∀ i < size, h'.values i = scaleWord t i (h.values i) (maxDacValue p)) ∧
    ((∀ i < size, WithinOneCode p (h.values i) (scaleWord t i (h.values i) (maxDacValue p))) ↔
      ∀ i < size, SmallLoss p (h.values i)) ∧
    ((∃ i < size, 24 ≤ h.values i) →
      ((∀ i < size, WithinOneCode p (h.values i) (scaleWord t i (h.values i) (maxDacValue p))) ↔
        7 ∣ p.desiredAmplitude)) := by
  have hiff : (∀ i < size, WithinOneCode p (h.values i) (scaleWord t i (h.values i) (maxDacValue p))) ↔
      ∀ i < size, SmallLoss p (h.values i) :=
    forall₂_congr fun i hi => withinOneCode_iff i ha (hraw i hi)
  refine ⟨fun hsize => ⟨_, scaleDacValues_run hsize h, fun i hi => if_pos hi⟩, hiff, ?_⟩
  rintro ⟨i, hi, h24⟩
  rw [hiff]
  constructor
  · exact fun hsmall => (smallLoss_iff_dvd h24).1 (hsmall i hi)
  · exact fun hdvd j _ => smallLoss_of_dvd hdvd _

/-- A table of full-scale entries. -/
def fullScale : HotPlate := { boot with values := fun _ => 16383 }

/-- At the boot amplitude of 21 V a table of full-scale entries comes out right. -/
theorem fullScale_withinOneCode :
    Params.boot.desiredAmplitude = 21 ∧ ∀ i < 12500, WithinOneCode Params.boot (fullScale.values i)
      (scaleWord .saturating i (fullScale.values i) (maxDacValue Params.boot)) :=
  ⟨rfl, ((scaleDacValues_withinOneCode_iff .saturating Params.boot fullScale 12500 (by decide)
    fun _ _ => le_rfl).2.2 ⟨0, by decide, show 24 ≤ 16383 by decide⟩).2 (by decide)⟩

/-- **At 20 V the plate gets 14 V.**  A full-scale entry becomes 9929; 14184 would be right. -/
theorem amplitude20_falls_short :
    scaleWord .saturating 0 16383 (maxDacValue { Params.boot with desiredAmplitude := 20 }) = 9929 ∧
      ¬ WithinOneCode { Params.boot with desiredAmplitude := 20 } 16383 9929 := by
  have hword : scaleWord .saturating 0 16383 (maxDacValue { Params.boot with desiredAmplitude := 20 }) = 9929 :=
    scaleWord_eq 0 (by decide) (by decide)
  refine ⟨hword, fun hwithin => ?_⟩
  rw [← hword, withinOneCode_iff 0 (by decide) (by decide), smallLoss_iff_dvd (by decide)] at hwithin
  exact absurd hwithin (by decide)

end HotPlate
end GasSensor
