/-
# Success as the user is told it

In GUI mode the user reads "Parameters received and set." when
`InitializeAllPeripherals` returned 0; in Modbus mode the write has been echoed
when the main loop runs it.  `reported_applied_iff` says for both for which
parameters this means that they have been applied.
-/

import GasSensor.Firmware.ModbusLoop

namespace GasSensor
namespace Firmware

open Modbus

variable {t : Target} {malloc : Malloc ℕ}

/-- **Reported success means applied, for these parameters only.**  In GUI mode: every
`InitializeAllPeripherals` that returns 0 has applied the parameters `p`,
whatever the state before, if and only if `AppliedIfReported`.  In Modbus mode:
every pass of the main loop on an accepted write has applied the updated
parameters, whatever the state of the peripherals before, if and only if
`AppliedIfReported`. -/
theorem reported_applied_iff [Arithmetic] (t : Target) (malloc : Malloc ℕ) {p : Params} (hp : p.Counted) {s : Server}
    (hs : s.params.Counted) {f : Frame} {start : ℕ} {values : List UInt16}
    (hw : acceptedWrite f.bytes = some (start, values)) :
    ((∀ d d', initializeAllPeripherals t malloc p d = .ok (d', 0) → Applied t p d') ↔
      AppliedIfReported t false malloc p) ∧
    ((∀ d fw' out, turn t malloc f.bytes ⟨s, d⟩ = .ok (fw', out) →
        Applied t fw'.server.params fw'.peripherals) ↔
      AppliedIfReported t true malloc
        (modbusUpdateParameters (storeFrom s.holdingRegisters start values) s.params)) := by
  constructor
  · rw [← applied_of_reported_iff (t := t) hp false]
    constructor
    · rintro h d d' status hinit (hmodbus | rfl)
      · cases hmodbus
      · exact h d d' hinit
    · intro h d d' hinit
      exact h d d' 0 hinit (.inr rfl)
  · have hcounted := modbusUpdateParameters_counted (storeFrom s.holdingRegisters start values) hs
    rw [← applied_of_reported_iff (t := t) hcounted true]
    constructor
    · intro h d d' status hinit _
      have hturn := turn_of_write t malloc ⟨s, d⟩ f.deliverable.1 hw
      dsimp only at hturn
      rw [hinit, Run.ok_bind] at hturn
      exact h d _ _ hturn
    · intro h d fw' out hturn
      rw [turn_of_write _ _ _ f.deliverable.1 hw] at hturn
      obtain ⟨⟨d', status⟩, hinit, hfw'⟩ := Run.bind_eq_ok.1 hturn
      cases hfw'
      exact h d d' status hinit (.inl rfl)

attribute [local instance] Arithmetic.exact

/-- The first strip selected, everything else as at boot. -/
def firstStrip : Params :=
  { Params.boot with activeStrips := fun i => i = 0, gStripCount := 1 }

/-- The hypotheses of `reported_applied_iff` are satisfiable: one strip, and a write of
3 to holding register 0 at boot. -/
theorem reported_applied_iff_firstStrip :
    ((∀ d d', initializeAllPeripherals .saturating zeroedMalloc firstStrip d = .ok (d', 0) →
        Applied .saturating firstStrip d') ↔ AppliedIfReported .saturating false zeroedMalloc firstStrip) ∧
    ((∀ d fw' out, turn .saturating zeroedMalloc (withCRC [0x01, 0x06, 0x00, 0x00, 0x00, 0x03])
        ⟨.boot, d⟩ = .ok (fw', out) → Applied .saturating fw'.server.params fw'.peripherals) ↔
      AppliedIfReported .saturating true zeroedMalloc
        (modbusUpdateParameters (storeFrom Server.boot.holdingRegisters 0 [3]) Server.boot.params)) :=
  reported_applied_iff .saturating zeroedMalloc (p := firstStrip) (by decide) (s := .boot) (by decide)
    (f := ⟨withCRC [0x01, 0x06, 0x00, 0x00, 0x00, 0x03], by decide⟩) (by decide)

/-- A square wave with a duty cycle of 101 percent. -/
def overfullSquare : Params := { firstStrip with waveType := 1, dutyCycle := 101 }

/-- **Success is reported for a waveform that was not generated.**  A duty cycle of
101 percent makes `generateSquareWave` return without a word to its caller:
`InitializeAllPeripherals` returns 0 and the table holds no square wave. -/
theorem overfullSquare_not_applied :
    ∃ d', initializeAllPeripherals .saturating zeroedMalloc overfullSquare .boot = .ok (d', 0) ∧
      ¬ Applied .saturating overfullSquare d' := by
  have hcounted : overfullSquare.Counted := by decide
  have hr : ¬ Rejected overfullSquare := by
    change ¬ (Params.boot.desiredFrequency < lowestFreqPossible ∨ 2 < 1)
    decide +kernel
  obtain ⟨d', status, hinit, -⟩ := initializeAllPeripherals_ok .saturating zeroedMalloc
    (d := .boot) hcounted (by decide) (by simp [Peripherals.boot, Sampler.boot])
  obtain ⟨rfl, happlied⟩ := applied_iff_of_not_rejected hcounted hr hinit
  refine ⟨d', hinit, fun ha => ?_⟩
  rcases (happlied.1 ha).dutyCycle with h | h
  · exact absurd h (by decide)
  · exact absurd h (by decide)

end Firmware
end GasSensor
