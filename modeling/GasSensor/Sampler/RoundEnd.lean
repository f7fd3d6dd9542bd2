/-
# The end of a round

The only interrupt that writes `resistance_array` is the tick that completes
the visit to the last active strip.  `CompletesRound` recognises it from the
state it finds, and `roundValues` and `totalAveragedCurrent` are the values
`calculate_resistance_array` computes with.  `interrupt_resistanceArray` says
what every interrupt leaves in the array.
-/

import GasSensor.Sampler.Visit

namespace GasSensor

open FloatingPoint

namespace Sampler

/-- The interrupt is a tick that completes a round: the timer runs, it is the 30th of its
visit, and the next position is 0. -/
def CompletesRound (modbusFlag : Bool) (p : Params) (s : Sampler) (e : Event) : Prop :=
  Completes modbusFlag p s e ∧ s.ctimer2 ≠ none ∧ (s.currentActiveStripIndex + 1) % p.gStripCount = 0

/-- `V_sens_strip_values` when the tick has stored the visit it completes. -/
def roundValues (s : Sampler) (i : Strip) : ℕ × ℕ :=
  if s.activeStripIndices.read s.currentActiveStripIndex = .ok i.val then (s.voltageAverage, s.gTimestampMs)
  else s.vSensStripValues i

/-- `Total_averaged_current` when the tick has added the visit it completes. -/
def totalAveragedCurrent (p : Params) (s : Sampler) : ℕ :=
  (s.totalAdcSummation + s.currentAverage) % 2 ^ 32 / p.gStripCount

variable {t : Target} {modbusFlag : Bool} {p : Params} {s s' : Sampler} {e : Event} {v i : ℕ}

variable [Arithmetic]

/-- **What an interrupt leaves in the two arrays**: the end of a round computes the
resistances of the active strips from the voltages stored by then, every other interrupt
leaves the resistances. -/
theorem interrupt_resistanceArray (h : s.interrupt t modbusFlag p e = .ok s') :
    (¬ CompletesRound modbusFlag p s e ∧ s'.resistanceArray = s.resistanceArray) ∨
      (CompletesRound modbusFlag p s e ∧ s'.vSensStripValues = s.roundValues ∧ ∀ i, s'.resistanceArray i =
        if p.activeStrips i = true then
          (resistance t (s.roundValues i).1 (totalAveragedCurrent p s), intOfU32 (s.roundValues i).2)
        else s.resistanceArray i) := by
  unfold interrupt at h
  by_cases hc : Completes modbusFlag p s e
  · obtain ⟨rfl, hguard, hge⟩ := hc
    by_cases hstop : s.ctimer2 = none
    · rw [if_pos ⟨rfl, hstop⟩] at h
      obtain rfl := Except.ok.inj h
      exact .inl ⟨fun hround => hround.2.1 hstop, rfl⟩
    rw [if_neg fun hstopped => hstop hstopped.2, step, ctimer2IRQHandler, if_neg hguard, if_neg hge,
      completeVisit_eq_ok] at h
    obtain ⟨-, j, channel, hread, -, rfl⟩ := h
    have hentry : Function.update s.vSensStripValues j (s.voltageAverage, s.gTimestampMs) = s.roundValues := by
      funext i
      rw [roundValues, hread, Function.update_apply]
      by_cases hij : i = j
      · rw [if_pos hij, if_pos (by rw [hij])]
      · rw [if_neg hij, if_neg fun heq => hij (Fin.ext (Except.ok.inj heq).symm)]
    by_cases h0 : (s.currentActiveStripIndex + 1) % p.gStripCount = 0
    · refine .inr ⟨⟨⟨rfl, hguard, hge⟩, hstop, h0⟩, hentry, fun i => ?_⟩
      simp only [visited, hentry, h0, true_and, totalAveragedCurrent]
    · refine .inl ⟨fun hround => h0 hround.2.2, ?_⟩
      simp only [visited, h0, false_and, if_false]
  · refine .inl ⟨fun hround => hc hround.1, ?_⟩
    split at h
    · rw [← Except.ok.inj h]
    · cases e with
      | tick =>
          rcases tick_cases h with rfl | ⟨-, rfl⟩ | ⟨hge, i, channel, rfl⟩
          · rfl
          · rfl
          · -- the handler returned early, so nothing was computed
            have hguard : p.gStripCount = 0 ∧ modbusFlag = false := by
              by_contra hguard
              exact hc ⟨rfl, hguard, hge⟩
            rw [step, ctimer2IRQHandler, if_pos hguard] at h
            rw [← Except.ok.inj h]
      | voltage x => rw [← Except.ok.inj h]; rfl
      | current x => rw [← Except.ok.inj h]; rfl
      | sysTick => rw [← Except.ok.inj h]; rfl

/-- The conversion to `int` is one that C defines. -/
def ResistanceDefined (v i : ℕ) : Prop := i ≠ 0 ∧ resistanceValue v i < .finite (2 ^ 31)

theorem resistanceValue_nonneg (v i : ℕ) : (resistanceValue v i).Nonneg :=
  Rounding.nonneg_add
    (Rounding.nonneg_mul
      (Rounding.nonneg_mul
        (Rounding.nonneg_div (float.nonneg_round (Nat.cast_nonneg v)) (float.nonneg_round (Nat.cast_nonneg i)))
        (not_lt.2 (by norm_num : (0 : ℚ) ≤ 120)))
      (not_lt.2 (by norm_num : (0 : ℚ) ≤ 75)))
    (not_lt.2 (by norm_num : (0 : ℚ) ≤ 1 / 2))

/-- A quotient by zero is infinite or not a number. -/
theorem resistanceValue_zero (v : ℕ) (r : ℚ) : resistanceValue v 0 ≠ .finite r := by
  have hzero : float.round ((0 : ℕ) : ℚ) = .finite 0 := by simpa using float.natCast 0 (by decide)
  rw [resistanceValue, hzero]
  cases float.round v with
  | finite x => by_cases hx : x = 0 <;> simp [Rounding.div, Rounding.mul, Rounding.add, hx]
  | infinite negative => simp [Rounding.div, Rounding.mul, Rounding.add]
  | nan => simp [Rounding.div, Rounding.mul, Rounding.add]

/-- **A defined conversion truncates.** -/
theorem resistance_of_defined (h : ResistanceDefined v i) :
    ∃ r, resistanceValue v i = .finite r ∧ 0 ≤ r ∧ r < 2 ^ 31 ∧ resistance t v i = ⌊r⌋ := by
  obtain ⟨-, hlt⟩ := h
  obtain ⟨r, h0, hr⟩ | hr | hr := (resistanceValue_nonneg v i).cases
  · rw [hr, Value.finite_lt_finite] at hlt
    refine ⟨r, hr, h0, hlt, ?_⟩
    rw [resistance, hr]
    exact if_pos hlt
  · rw [hr] at hlt
    cases hlt
  · rw [hr] at hlt
    cases hlt

theorem resistance_of_not_defined (h : ¬ ResistanceDefined v i) : resistance t v i = t.undefinedInt v i := by
  unfold resistance
  match hr : resistanceValue v i with
  | .finite r =>
      refine if_neg fun hlt => h ⟨?_, hr ▸ hlt⟩
      rintro rfl
      exact resistanceValue_zero v r hr
  | .infinite _ => rfl
  | .nan => rfl

end Sampler
end GasSensor
