/-
# Initialising all peripherals

`InitializeAllPeripherals` of `source/main.c` with `SetExcitationVoltage` of
`source/DAC_files/DAC_excitation_voltage.c`: hot plate, multiplexer, sampling
timer, excitation DAC and timestamp are set up one after the other for the
parameters in force.  The stages that set up the power multiplexer and the two
ADCs touch nothing the model keeps and always succeed.

This is the configuration as a whole, without interrupts in between.
-/

import GasSensor.HotPlate.Waveform
import GasSensor.Sampler.Configure

namespace GasSensor

open FloatingPoint

/-- The peripherals with the variables of their drivers. -/
structure Peripherals where
  hotPlate : HotPlate
  sampler : Sampler
  /-- The code DAC0 puts out for the excitation voltage. -/
  dac0 : ℕ

/-- The peripherals when the firmware starts. -/
def Peripherals.boot : Peripherals := ⟨.boot, .boot, 0⟩

namespace Firmware

/-- `bool g_excitation_voltage_on`, which nothing assigns. -/
def gExcitationVoltageOn : Bool := true

/-- `AMPLIFIER_GAIN` of the excitation DAC. -/
def amplifierGain : Value := .finite 3

variable [Arithmetic]

/-- `total_voltage`. -/
def totalVoltage (p : Params) : Value :=
  float.mul p.gExcitationVoltagePerResistor (float.round p.gStripCount)

/-- `dac_output_voltage`. -/
def dacOutputVoltage (p : Params) : Value := float.convert (double.div (totalVoltage p) amplifierGain)

/-- `(dac_output_voltage / 3.3) * 4095`. -/
def excitationCode (p : Params) : Value :=
  double.mul (double.div (dacOutputVoltage p) (double.round (33 / 10))) (.finite 4095)

/-- `SetExcitationVoltage`: the code passed to `DAC_SetData`, or the one DAC0 has. -/
def setExcitationVoltage (t : Target) (p : Params) (dac0 : ℕ) : ℕ :=
  if gExcitationVoltageOn = false then 0
  else if p.gExcitationVoltagePerResistor < .finite (1 / 2) ∨ .finite 1 < p.gExcitationVoltagePerResistor then
    dac0
  else if .finite 8 < totalVoltage p then dac0
  else
    let dacValue := t.toU32 0 (excitationCode p)
    if dacValue > 4095 then dac0 else dacValue

/-- `initialize_excitation_dac`: `DAC_excitation_V_Init` turns the output off, then
`SetExcitationVoltage` sets it. -/
def initializeExcitationDac (t : Target) (p : Params) : ℕ := setExcitationVoltage t p 0

/-- `TimestampInit` and the loop that clears `resistance_array`. -/
def clearMeasurement (s : Sampler) : Sampler :=
  { s with gTimestampMs := 0, resistanceArray := fun _ => (0, 0) }

/-- `InitializeAllPeripherals`, and what it returns. -/
def initializeAllPeripherals (t : Target) (malloc : Malloc ℕ) (p : Params) (d : Peripherals) :
    Except Fault (Peripherals × ℤ) := do
  let (assigns, status) := HotPlate.initializeDacHotPlate t p
  let hotPlate ← assigns.foldlM (HotPlate.exec t) d.hotPlate
  if status ≠ 0 then .ok ({ d with hotPlate := hotPlate }, -1)
  else
    let sampler ← Sampler.initializeMux malloc p d.sampler
    let sampler ← Sampler.adcVoltageTimerSetup p sampler
    .ok (⟨hotPlate, clearMeasurement sampler, initializeExcitationDac t p⟩, 0)

end Firmware
end GasSensor
