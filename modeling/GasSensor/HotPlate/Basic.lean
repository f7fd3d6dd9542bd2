/-
# The hot plate waveform

`source/DAC_files/DAC_micro_hot_plate.c` with `initialize_dac_hot_plate` of
`source/main.c`.

The main thread computes a table of up to 12500 DAC codes: it first fills the
table with a waveform of full scale, entry by entry, and then scales it to the
desired amplitude, entry by entry.  Timer CTIMER4 interrupts 25 times per
second and plays the table, one entry each time.

Table and timer are shared with the interrupt, so the functions of the main
thread are given as the list of assignments they execute (`Assign`), and `exec`
is one assignment.  Array accesses are checked.
-/

import GasSensor.Global
import GasSensor.Lib.Memory

namespace GasSensor

open FloatingPoint

/-- The globals the hot plate uses, its timer, and what it has put out. -/
structure HotPlate where
  /-- `uint32_t g_Dac14InputIndex`. -/
  inputIndex : ℕ
  /-- `uint32_t g_Dac14Values[MAX_ARRAY_SIZE]`. -/
  values : ℕ → ℕ
  /-- `uint32_t g_Dac14ValueArraySize`. -/
  valueArraySize : ℕ
  /-- CTIMER4 is running. -/
  ctimer4 : Bool
  /-- The codes passed to `DAC14_SetData`, oldest first. -/
  codes : List ℕ

namespace HotPlate

variable [Arithmetic]

/-- The hot plate when the firmware starts. -/
def boot : HotPlate where
  inputIndex := 0
  values := fun _ => 0
  valueArraySize := 0
  ctimer4 := false
  codes := []

/-- `dac_update_callback`. -/
def dacUpdateCallback (h : HotPlate) : Except Fault HotPlate :=
  if h.inputIndex < maxArraySize then
    if h.valueArraySize = 0 then .error .divisionByZero
    else .ok { h with
      codes := h.codes ++ [h.values h.inputIndex]
      inputIndex := (h.inputIndex + 1) % h.valueArraySize }
  else .error .outOfBounds

/-- `CTIMER4_IRQHandler`, which interrupts once the timer runs. -/
def ctimer4IRQHandler (h : HotPlate) : Except Fault HotPlate :=
  if h.ctimer4 then dacUpdateCallback h else .ok h

/-- The assignments that set up a waveform. -/
inductive Assign
  /-- `g_Dac14ValueArraySize = n;` -/
  | setSize (n : ℕ)
  /-- `values[i] = v;` -/
  | write (i v : ℕ)
  /-- `values[i] = (uint32_t)((float)values[i] / 16383.0 * maxDacValue);` -/
  | scale (i : ℕ) (maxDacValue : Value)
  /-- `SetupTimer();` -/
  | setupTimer

/-- The word the scaling loop stores for entry `i`. -/
def scaleWord (t : Target) (i v : ℕ) (maxDacValue : Value) : ℕ :=
  t.toU32 i (double.mul (double.div (float.round v) (.finite 16383)) maxDacValue)

/-- `values[i] = v;` -/
def store (h : HotPlate) (i v : ℕ) : Except Fault HotPlate :=
  if i < maxArraySize then .ok { h with values := Function.update h.values i v }
  else .error .outOfBounds

/-- One assignment. -/
def exec (t : Target) (h : HotPlate) : Assign → Except Fault HotPlate
  | .setSize n => .ok { h with valueArraySize := n }
  | .write i v => h.store i v
  | .scale i maxDacValue => h.store i (scaleWord t i (h.values i) maxDacValue)
  | .setupTimer => .ok { h with ctimer4 := true }

/-- `maxDacValue` of `scaleDacValues`.  `desiredAmplitude / OPAMP_GAIN` is a
division of unsigned integers. -/
def maxDacValue (p : Params) : Value :=
  float.convert (double.mul (double.round (p.desiredAmplitude / opampGain : ℕ))
    (double.div (.finite 16383) (double.round (33 / 10))))

/-- `scaleDacValues`. -/
def scaleDacValues (p : Params) (size : ℕ) : List Assign :=
  (List.range size).map fun i => .scale i (maxDacValue p)

/-- A loop that fills the table. -/
def fill (size : ℕ) (entry : ℕ → ℕ) : List Assign :=
  (List.range size).map fun i => .write i (entry i)

/-- `M_PI`. -/
def mPi : Value := double.round (314159265358979323846 / 100000000000000000000)

/-- `M_PI_2`. -/
def mPi2 : Value := double.round (157079632679489661923 / 100000000000000000000)

/-- The value that `generateSineWave` converts for entry `i`. -/
def sineValue (t : Target) (p : Params) (i : ℕ) : Value :=
  let deltaAngle := float.convert
    (double.div (double.mul (double.mul (.finite 2) mPi) p.desiredFrequency) (double.round sampleRate))
  let angle := float.mul (float.round i) deltaAngle
  double.mul (double.add (t.sinOf (double.sub angle mPi2)) (.finite 1)) (.finite (16383 / 2))

/-- An entry of the sine table before scaling. -/
def sineEntry (t : Target) (p : Params) (i : ℕ) : ℕ := t.toU32 i (sineValue t p i)

/-- `generateSineWave`. -/
def generateSineWave (t : Target) (p : Params) (size : ℕ) : List Assign :=
  fill size (sineEntry t p) ++ scaleDacValues p size

/-- `uint32_t onSize = (size * dutyCycle) / 100;` -/
def onSize (p : Params) (size : ℕ) : ℕ := size * p.dutyCycle % 2 ^ 32 / 100

/-- An entry of the square table before scaling. -/
def squareEntry (p : Params) (size i : ℕ) : ℕ := if i < onSize p size then 16383 else 0

/-- `generateSquareWave`.  With `onSize` at most `size` its two filling loops
run through the table in order. -/
def generateSquareWave (p : Params) (size : ℕ) : List Assign :=
  if p.dutyCycle > 100 then []
  else fill size (squareEntry p size) ++ scaleDacValues p size

/-- The value that `generateTriangleWave` converts for entry `i`; with
`onSize = 0` the slope is infinite. -/
def triangleValue (p : Params) (size i : ℕ) : Value :=
  let slope := float.convert (double.div (.finite 16383) (double.round (onSize p size)))
  if i < onSize p size then float.mul (float.round i) slope
  else
    let steps := float.round (i - onSize p size : ℕ)
    float.sub (.finite 16383) (if contracts then Rounding.exact.mul steps slope else float.mul steps slope)

/-- An entry of the triangle table before scaling. -/
def triangleEntry (t : Target) (p : Params) (size i : ℕ) : ℕ := t.toU32 i (triangleValue p size i)

/-- `generateTriangleWave`.  Its two filling loops run through the table in
order. -/
def generateTriangleWave (t : Target) (p : Params) (size : ℕ) : List Assign :=
  if p.dutyCycle > 100 then []
  else fill size (triangleEntry t p size) ++ scaleDacValues p size

/-- `SAMPLE_RATE / desiredFrequency`. -/
def samples (p : Params) : Value := float.div (float.round sampleRate) p.desiredFrequency

/-- `(uint32_t)(SAMPLE_RATE / desiredFrequency)`. -/
def tableSize (t : Target) (p : Params) : ℕ := t.toU32 0 (samples p)

/-- `g_Dac14ValueArraySize`, at most `MAX_ARRAY_SIZE`. -/
def arraySize (t : Target) (p : Params) : ℕ := min (tableSize t p) maxArraySize

/-- The assignments to `g_Dac14ValueArraySize`. -/
def setArraySize (t : Target) (p : Params) : List Assign :=
  .setSize (tableSize t p) :: if tableSize t p > maxArraySize then [.setSize maxArraySize] else []

/-- The assignments `initialize_dac_hot_plate` executes, and what it returns. -/
def initializeDacHotPlate (t : Target) (p : Params) : List Assign × ℤ :=
  if p.desiredFrequency < lowestFreqPossible then (setArraySize t p, -1)
  else
    match p.waveType with
    | 0 => (setArraySize t p ++ generateSineWave t p (arraySize t p) ++ [.setupTimer], 0)
    | 1 => (setArraySize t p ++ generateSquareWave p (arraySize t p) ++ [.setupTimer], 0)
    | 2 => (setArraySize t p ++ generateTriangleWave t p (arraySize t p) ++ [.setupTimer], 0)
    | _ => (setArraySize t p, -1)

end HotPlate
end GasSensor
