/-
# A measurement visits the active strips in turn

The structure of a measurement from its configuration on
(`CTIMER2_IRQHandler`, `calculate_resistance_array`), for every sequence of
ticks, conversion results and SysTick increments.  Every 30th tick completes a
visit; the `m`-th visit goes to the `m mod n`-th active strip and stores a
voltage for that strip alone; the visits with `m mod n = n - 1` compute the
resistances, from the voltages stored and the current averages added in that
same round.
-/

import GasSensor.Sampler.Rounds

namespace GasSensor
namespace Sampler

open History

/-- The sum of the current averages of the `n` visits of the round that begins
at visit `start`. -/
abbrev roundCurrent (p : Params) (start : ℕ) (vs : List Visit) : ℕ :=
  roundSum p.strips.length start Visit.current vs

section
variable [Arithmetic]

variable {t : Target} {modbusFlag : Bool} {p : Params} {es : List Event} {malloc : Malloc ℕ}

/-- A configuration from boot establishes the invariant of a measurement. -/
theorem rounds_of_configure (hp : p.Counted) (hpos : 0 < p.strips.length)
    (hm : (malloc p.gStripCount).isSome) (hf : p.muxFreq ≠ 0) :
    ∃ s₀, configure malloc p boot = .ok s₀ ∧ Rounds t p [] ⟨s₀, []⟩ := by
  refine ⟨_, configure_eq hp hpos (by simp [boot]) hm hf, ?_⟩
  exact Rounds.init ⟨rfl, hpos, Mux.channel_selectMuxChannel _ _⟩ rfl rfl rfl rfl rfl rfl rfl

omit [Arithmetic] in
/-- A configuration from boot leaves the running sums clear. -/
theorem sums_of_configure {s₀ : Sampler} (hp : p.Counted) (hpos : 0 < p.strips.length)
    (hm : (malloc p.gStripCount).isSome) (hf : p.muxFreq ≠ 0) (h : configure malloc p boot = .ok s₀) :
    s₀.voltageSum = 0 ∧ s₀.currentSum = 0 := by
  rw [configure_eq hp hpos (by simp [boot]) hm hf] at h
  cases h
  exact ⟨rfl, rfl⟩

/-- Strips 3 and 6 selected, everything else as at boot. -/
def twoStrips : Params :=
  { Params.boot with activeStrips := fun i => i = 2 ∨ i = 5, gStripCount := 2 }

end

attribute [local instance] Arithmetic.uncontracted

/-- A round of two strips: each visit gets 30 results of each converter. -/
def wholeRound : List Event := (List.replicate 60 [.tick, .voltage 240, .current 30, .sysTick]).flatten

end Sampler
end GasSensor
