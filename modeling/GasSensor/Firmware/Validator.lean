/-
# The register validator against the update

`Modbus_DataErrorPresent` of `source/Modbus_files/modbus.c` checks seven register
values, `Modbus_UpdateParameters` puts them into force.  `Valid` is what the
parameters have to satisfy; besides the documented ranges it asks for an active
strip and a correct strip count.

The validator lets each number through exactly in the range of its register
(`registerInRange_of_modbusDataErrorPresent`), so the documented ranges are kept.
The bound of the strip mask is `pow(2, MAX_STRIP_COUNT)` itself, one more than the
largest mask, and that one value selects no strip: `valid_modbusUpdateParameters_iff`.
-/

import GasSensor.Firmware.Ranges

namespace GasSensor
namespace Modbus

/-- `Modbus_DataErrorPresent`. -/
def modbusDataErrorPresent (buffer : Fin 7 → UInt16) : Bool :=
  decide (buffer 0 > 3) || decide (buffer 1 > 100) || decide (buffer 2 < 2) || decide (buffer 2 > 500) ||
    decide (buffer 3 > 23000) || decide (buffer 4 < 500) || decide (buffer 4 > 1000) ||
    decide (buffer 5 > 8) || decide (buffer 6 > UInt16.ofNat (2 ^ 8))

end Modbus

namespace Firmware

open Modbus

/-- **Valid parameters**: in the documented ranges with a positive duty cycle, at least
one active strip, and the strips counted. -/
structure Valid (p : Params) : Prop extends Documented p where
  dutyCycle_pos : 1 ≤ p.dutyCycle
  strip : ∃ i, p.activeStrips i = true
  counted : p.Counted

variable {buffer : Fin 7 → UInt16} {p : Params}

/-- What the validator lets through. -/
theorem modbusDataErrorPresent_eq_false_iff :
    modbusDataErrorPresent buffer = false ↔
      (buffer 0).toNat ≤ 3 ∧ (buffer 1).toNat ≤ 100 ∧ (2 ≤ (buffer 2).toNat ∧ (buffer 2).toNat ≤ 500) ∧
        (buffer 3).toNat ≤ 23000 ∧ (500 ≤ (buffer 4).toNat ∧ (buffer 4).toNat ≤ 1000) ∧
        (buffer 5).toNat ≤ 8 ∧ (buffer 6).toNat ≤ 256 := by
  simp only [modbusDataErrorPresent, Bool.or_eq_false_iff, decide_eq_false_iff_not, gt_iff_lt,
    UInt16.lt_iff_toNat_lt, not_lt, and_assoc]
  rfl

/-- **What the validator lets through is in the range of its register.** -/
theorem registerInRange_of_modbusDataErrorPresent (h : modbusDataErrorPresent buffer = false) (j : Fin 7) :
    RegisterInRange j (buffer j) := by
  obtain ⟨h0, h1, h2, h3, h4, h5, -⟩ := modbusDataErrorPresent_eq_false_iff.1 h
  match j with
  | 0 => exact .inr h0
  | 1 => exact .inr h1
  | 2 => exact .inr h2
  | 3 => exact .inr (show (buffer 3).toNat < 24000 by omega)
  | 4 => exact .inr h4
  | 5 => exact .inr h5
  | 6 => exact .inr trivial

/-- A mask selects a strip exactly if one of its low eight bits is set. -/
theorem exists_testBit_iff (mask : ℕ) : (∃ i : Strip, mask.testBit i = true) ↔ mask % 2 ^ 8 ≠ 0 := by
  constructor
  · rintro ⟨i, hi⟩ hzero
    have hbit : (mask % 2 ^ 8).testBit i = true := by
      rw [Nat.testBit_mod_two_pow, hi, decide_eq_true i.isLt]
      rfl
    rw [hzero, Nat.zero_testBit] at hbit
    cases hbit
  · intro hne
    obtain ⟨i, hi⟩ := Nat.exists_testBit_of_ne_zero hne
    rw [Nat.testBit_mod_two_pow, Bool.and_eq_true, decide_eq_true_iff] at hi
    exact ⟨⟨i, hi.1⟩, hi.2⟩

/-- **The validator is sound for the update except for one mask.**  Registers it accepts
keep valid parameters valid exactly if the strip mask is not 256. -/
theorem valid_modbusUpdateParameters_iff [Arithmetic] (buffer : Fin 7 → UInt16) (p : Params) (hp : Valid p)
    (h : modbusDataErrorPresent buffer = false) :
    Valid (modbusUpdateParameters buffer p) ↔ buffer 6 ≠ 256 := by
  have hdoc : Documented (modbusUpdateParameters buffer p) :=
    (documented_modbusUpdateParameters_iff buffer hp.toDocumented).2
      (registerInRange_of_modbusDataErrorPresent h)
  have hduty : 1 ≤ (modbusUpdateParameters buffer p).dutyCycle := by
    refine (unlessZero_iff (P := fun d => 1 ≤ d) hp.dutyCycle_pos).2 ?_
    rw [Nat.one_le_iff_ne_zero]
    exact (em (buffer 1 = 0)).imp_right fun hne h0 => hne (UInt16.toNat_inj.1 h0)
  have hstrip : (∃ i, (modbusUpdateParameters buffer p).activeStrips i = true) ↔ buffer 6 ≠ 256 := by
    have h6 : (buffer 6).toNat ≤ 256 := (modbusDataErrorPresent_eq_false_iff.1 h).2.2.2.2.2.2
    refine (unlessZero_iff (P := fun active : Strip → Bool => ∃ i, active i = true) hp.strip).trans ?_
    have heq : buffer 6 = 256 ↔ (buffer 6).toNat = 256 := UInt16.toNat_inj.symm
    rw [exists_testBit_iff, ne_eq, ne_eq, heq, ← UInt16.toNat_inj]
    change (buffer 6).toNat = 0 ∨ (buffer 6).toNat % 256 ≠ 0 ↔ ¬ (buffer 6).toNat = 256
    omega
  constructor
  · exact fun hvalid => hstrip.1 hvalid.strip
  · intro h6
    exact {
      toDocumented := hdoc
      dutyCycle_pos := hduty
      strip := hstrip.2 h6
      counted := modbusUpdateParameters_counted buffer hp.counted }

attribute [local instance] Arithmetic.exact

/-- A measurement of the first strip. -/
def singleStrip : Params :=
  { Params.boot with
    activeStrips := fun i => decide (i = 0)
    gStripCount := 1 }

theorem valid_singleStrip : Valid singleStrip where
  waveType := by decide
  dutyCycle := by decide
  frequency := documented_boot.frequency
  amplitude := by decide
  excitation := documented_boot.excitation
  muxFreq := by decide
  dutyCycle_pos := by decide
  strip := ⟨0, rfl⟩
  counted := by decide

/-- The registers at their initial values, with the given strip mask. -/
def registersWith (mask : UInt16) : Fin 7 → UInt16 := ![1, 50, 50, 21000, 1000, 8, mask]

/-- The largest mask keeps the parameters valid. -/
theorem valid_allStrips : Valid (modbusUpdateParameters (registersWith 255) singleStrip) :=
  (valid_modbusUpdateParameters_iff (registersWith 255) singleStrip valid_singleStrip (by decide)).2 (by decide)

/-- **A mask the validator accepts switches all strips off.** -/
theorem mask256_leaves_no_strip :
    ¬ ∀ (buffer : Fin 7 → UInt16) (p : Params), modbusDataErrorPresent buffer = false → Valid p →
      Valid (modbusUpdateParameters buffer p) := by
  intro h
  obtain ⟨i, hi⟩ := (h (registersWith 256) singleStrip (by decide) valid_singleStrip).strip
  have hoff : ∀ i, (modbusUpdateParameters (registersWith 256) singleStrip).activeStrips i = false := by decide
  rw [hoff i] at hi
  cases hi

end Firmware
end GasSensor
