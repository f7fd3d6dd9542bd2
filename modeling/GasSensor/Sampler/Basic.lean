/-
# The strip sampler

`source/ADC_files/adc_16_strip.c` and `source/MUX_files/gpio_for_mux.c`.

Timer CTIMER2 interrupts `MUX_freq * 30` times per second.  Each of its ticks
triggers one conversion of the voltage ADC and one of the current ADC; the
results arrive later, in interrupts of lower priority, and are added to two
running sums.  Every 30th tick ends the visit to the strip the multiplexer
selects: the sums are averaged, the voltage average and the time are stored
for the strip, and the multiplexer moves to the next active strip.  When the
last active strip has been visited, the resistances of all active strips are
computed from the stored voltages and the total of the current averages.

`Sampler` holds the file's static variables with the globals only this file
writes; `step` is one interrupt.  A tick that reads outside the block of
active strip numbers, indexes `V_sens_strip_values` out of range or divides by
a zero strip count is a `Fault`.
-/

import GasSensor.Global
import GasSensor.Lib.Memory

namespace GasSensor

open FloatingPoint

/-- The output pins of the multiplexer: `GPIO_PIN_ENABLE` and the three select
lines `GPIO_PIN_S0`, `GPIO_PIN_S1`, `GPIO_PIN_S2`. -/
structure Mux where
  enable : Bool
  s0 : Bool
  s1 : Bool
  s2 : Bool
  deriving DecidableEq

namespace Mux

/-- The channel the select lines encode. -/
def channel (m : Mux) : Strip :=
  ⟨m.s0.toNat + 2 * m.s1.toNat + 4 * m.s2.toNat, by
    cases m.s0 <;> cases m.s1 <;> cases m.s2 <;> decide⟩

/-- `SelectMuxChannel`: the three low bits of the `uint8_t` argument. -/
def selectMuxChannel (m : Mux) (muxChannel : ℕ) : Mux :=
  { m with s0 := muxChannel.testBit 0, s1 := muxChannel.testBit 1, s2 := muxChannel.testBit 2 }

/-- Selecting a strip puts its number on the select lines. -/
@[simp] theorem channel_selectMuxChannel (m : Mux) (i : Strip) :
    (m.selectMuxChannel i).channel = i := by
  have h : ∀ j : Strip, (⟨(Nat.testBit j 0).toNat + 2 * (Nat.testBit j 1).toNat
      + 4 * (Nat.testBit j 2).toNat, by
        cases Nat.testBit j 0 <;> cases Nat.testBit j 1 <;> cases Nat.testBit j 2 <;> decide⟩ : Strip)
      = j := by decide
  exact h i

end Mux

/-- The static variables of `adc_16_strip.c`, the arrays it fills, the
timestamp, the multiplexer pins and the timer. -/
structure Sampler where
  /-- `uint32_t VoltageSum`. -/
  voltageSum : ℕ
  /-- `uint32_t CurrentSum`. -/
  currentSum : ℕ
  /-- `uint32_t resultVoltage`. -/
  resultVoltage : ℕ
  /-- `uint32_t current_adc_result`. -/
  currentAdcResult : ℕ
  /-- `uint32_t Total_adc_summation`. -/
  totalAdcSummation : ℕ
  /-- `uint8_t currentCountIndex`: ticks of the present visit so far. -/
  currentCountIndex : ℕ
  /-- `uint8_t current_active_strip_index`. -/
  currentActiveStripIndex : ℕ
  /-- `uint8_t *active_strip_indices`. -/
  activeStripIndices : Block ℕ
  /-- `uint32_t V_sens_strip_values[8][2]`: average and time of each strip. -/
  vSensStripValues : Strip → ℕ × ℕ
  /-- `int resistance_array[8][2]`: resistance and time of each strip. -/
  resistanceArray : Strip → ℤ × ℤ
  /-- `uint32_t g_timestamp_ms`. -/
  gTimestampMs : ℕ
  mux : Mux
  /-- The match value of CTIMER2 while it runs. -/
  ctimer2 : Option ℕ
  /-- Software triggers given so far to each of the two ADCs. -/
  triggers : ℕ

namespace Sampler

variable [Arithmetic]

/-- `SoftwareAverageCount`. -/
def softwareAverageCount : ℕ := 30

/-- The sampler when the firmware starts. -/
def boot : Sampler where
  voltageSum := 0
  currentSum := 0
  resultVoltage := 0
  currentAdcResult := 0
  totalAdcSummation := 0
  currentCountIndex := 0
  currentActiveStripIndex := 0
  activeStripIndices := .null
  vSensStripValues := fun _ => (0, 0)
  resistanceArray := fun _ => (0, 0)
  gTimestampMs := 0
  mux := ⟨false, false, false, false⟩
  ctimer2 := none
  triggers := 0

/-- `FirstActiveStrip`. -/
def firstActiveStrip (p : Params) : ℤ :=
  match (List.finRange 8).find? p.activeStrips with
  | some i => (i.val : ℤ)
  | none => -1

/-- The loop of `ConvertActiveStrips` over the strips still to look at:
`if (active_strips[i]) active_strip_indices[index++] = i;`. -/
def fillIndices (active : Strip → Bool) : List Strip → ℕ → Block ℕ → Except Fault (Block ℕ)
  | [], _, block => .ok block
  | i :: rest, index, block =>
      if active i then
        block.write index i >>= fun block' => fillIndices active rest (index + 1) block'
      else fillIndices active rest index block

/-- `ConvertActiveStrips`.  When `malloc` fails the function prints a message
and returns with the null pointer in `active_strip_indices`. -/
def convertActiveStrips (malloc : Malloc ℕ) (p : Params) (s : Sampler) : Except Fault Sampler := do
  let _ ← s.activeStripIndices.freeIfNonNull
  match Block.ofMalloc malloc p.gStripCount with
  | .null => .ok { s with activeStripIndices := .null }
  | block =>
      let filled ← fillIndices p.activeStrips (List.finRange 8) 0 block
      .ok { s with activeStripIndices := filled }

/-- `initialize_mux` of `main.c`: `InitMuxGpio` drives the four pins low,
`EnableMux` raises the enable pin, and `FirstActiveStrip`, `-1` if there is
none, is passed on as a `uint8_t`. -/
def initializeMux (malloc : Malloc ℕ) (p : Params) (s : Sampler) : Except Fault Sampler :=
  let mux : Mux := ⟨true, false, false, false⟩
  convertActiveStrips malloc p
    { s with mux := mux.selectMuxChannel (firstActiveStrip p % 256).toNat }

/-- `ADC_Voltage_timer_setup`. -/
def adcVoltageTimerSetup (p : Params) (s : Sampler) : Except Fault Sampler :=
  if p.muxFreq * softwareAverageCount = 0 then .error .divisionByZero
  else .ok { s with
    ctimer2 := some (48000000 / (p.muxFreq * softwareAverageCount))
    currentActiveStripIndex := 0
    currentCountIndex := 0 }

/-- `(float) V / (float) I * 120 * 75 + 0.5`, which is not negative. -/
def resistanceValue (v i : ℕ) : Value :=
  double.add
    (float.mul (float.mul (float.div (float.round v) (float.round i)) (.finite 120)) (.finite 75))
    (.finite (1 / 2))

/-- `(int)((float) V / (float) I * 120 * 75 + 0.5)`. -/
def resistance (t : Target) (v i : ℕ) : ℤ :=
  match resistanceValue v i with
  | .finite r => if r < 2 ^ 31 then ⌊r⌋ else t.undefinedInt v i
  | _ => t.undefinedInt v i

/-- `calculate_resistance_array`.  Its caller has already reduced an index
modulo `g_strip_count`, so the division here is by a positive number. -/
def calculateResistanceArray (t : Target) (p : Params) (s : Sampler) : Sampler :=
  let totalAveragedCurrent := s.totalAdcSummation / p.gStripCount
  { s with
    resistanceArray := fun i =>
      if p.activeStrips i then
        (resistance t (s.vSensStripValues i).1 totalAveragedCurrent,
          intOfU32 (s.vSensStripValues i).2)
      else s.resistanceArray i
    totalAdcSummation := 0 }

/-- `V_sens_strip_values[currentChannel][0] = voltage; ...[1] = time;`. -/
def storeVoltage (s : Sampler) (currentChannel voltage time : ℕ) : Except Fault Sampler :=
  if h : currentChannel < 8 then
    .ok { s with vSensStripValues := Function.update s.vSensStripValues ⟨currentChannel, h⟩ (voltage, time) }
  else .error .outOfBounds

/-- The end of a visit, from reading `currentChannel` to
`(current_active_strip_index + 1) % g_strip_count`. -/
def advance (p : Params) (s : Sampler) : Except Fault Sampler := do
  let currentChannel ← s.activeStripIndices.read s.currentActiveStripIndex
  let s ← storeVoltage s currentChannel s.resultVoltage s.gTimestampMs
  if p.gStripCount = 0 then .error .divisionByZero
  else .ok { s with
    currentSum := 0
    voltageSum := 0
    currentCountIndex := 0
    currentActiveStripIndex := (s.currentActiveStripIndex + 1) % p.gStripCount }

/-- The `else` branch of `CTIMER2_IRQHandler`: the 30th tick of a visit. -/
def completeVisit (t : Target) (p : Params) (s : Sampler) : Except Fault Sampler := do
  let currentAdcResult := s.currentSum / softwareAverageCount
  let s ← advance p { s with
    triggers := s.triggers + 1
    currentAdcResult := currentAdcResult
    resultVoltage := s.voltageSum / softwareAverageCount
    totalAdcSummation := (s.totalAdcSummation + currentAdcResult) % 2 ^ 32 }
  let s := if s.currentActiveStripIndex = 0 then calculateResistanceArray t p s else s
  let channel ← s.activeStripIndices.read s.currentActiveStripIndex
  .ok { s with mux := s.mux.selectMuxChannel channel }

/-- `CTIMER2_IRQHandler`. -/
def ctimer2IRQHandler (t : Target) (modbusFlag : Bool) (p : Params) (s : Sampler) : Except Fault Sampler :=
  if p.gStripCount = 0 ∧ modbusFlag = false then .ok s
  else if s.currentCountIndex < softwareAverageCount - 1 then
    .ok { s with triggers := s.triggers + 1, currentCountIndex := s.currentCountIndex + 1 }
  else completeVisit t p s

/-- `ADC0_IRQHandler` on a conversion result. -/
def adc0IRQHandler (convValue : UInt16) (s : Sampler) : Sampler :=
  { s with voltageSum := (s.voltageSum + convValue.toNat) % 2 ^ 32 }

/-- `ADC1_IRQHandler` on a conversion result. -/
def adc1IRQHandler (convValue : UInt16) (s : Sampler) : Sampler :=
  { s with currentSum := (s.currentSum + convValue.toNat) % 2 ^ 32 }

/-- `SysTick_Handler` of `main.c`. -/
def sysTickHandler (s : Sampler) : Sampler :=
  { s with gTimestampMs := (s.gTimestampMs + 1) % 2 ^ 32 }

/-- The interrupts the sampler answers. -/
inductive Event
  | tick
  | voltage (convValue : UInt16)
  | current (convValue : UInt16)
  | sysTick
  deriving DecidableEq

/-- One interrupt. -/
def step (t : Target) (modbusFlag : Bool) (p : Params) (s : Sampler) : Event → Except Fault Sampler
  | .tick => ctimer2IRQHandler t modbusFlag p s
  | .voltage x => .ok (adc0IRQHandler x s)
  | .current x => .ok (adc1IRQHandler x s)
  | .sysTick => .ok (sysTickHandler s)

/-- One interrupt, if it can happen: CTIMER2 does not interrupt while it is stopped. -/
def interrupt (t : Target) (modbusFlag : Bool) (p : Params) (s : Sampler) (e : Event) :
    Except Fault Sampler :=
  if e = .tick ∧ s.ctimer2 = none then .ok s else step t modbusFlag p s e

end Sampler
end GasSensor
