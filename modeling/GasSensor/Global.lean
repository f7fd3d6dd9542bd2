/-
# Global parameters and the target machine

`source/global.h` and `source/global.c`: the constants, and the parameters a
user sets through the GUI line or through the Modbus holding registers.

Unsigned C integers are natural numbers; where an operation can wrap, the
reduction modulo `2 ^ 32` is written out.  `float` and `double` are rounded by
the `Arithmetic` of the machine, which is that of IEEE 754; with the other one
all results are exact rationals.  What C leaves undefined and the firmware can
run into (a conversion of a value that does not fit) is answered by a `Target`,
and no theorem depends on the answer.
-/

import GasSensor.Lib.FloatingPoint
import Mathlib.Data.Fintype.Basic
import Mathlib.Tactic.Common

namespace GasSensor

open FloatingPoint

/-- The arithmetic of `float` and `double`.  Under IEEE 754 a compiler can contract
`x - y * z`, so that only the difference is rounded. -/
class inductive Arithmetic
  | exact
  | ieee (contracts : Bool)

/-- IEEE 754 without contraction. -/
abbrev Arithmetic.uncontracted : Arithmetic := .ieee false

/-- The arithmetic of `float`. -/
def float [a : Arithmetic] : Rounding :=
  match a with
  | .exact => .exact
  | .ieee _ => binary32.nearest

/-- The arithmetic of `double`. -/
def double [a : Arithmetic] : Rounding :=
  match a with
  | .exact => .exact
  | .ieee _ => binary64.nearest

@[simp] theorem float_exact : @float .exact = .exact := rfl

@[simp] theorem double_exact : @double .exact = .exact := rfl

/-- What holds of exact and of IEEE arithmetic holds of the machine's. -/
theorem rounding_cases [a : Arithmetic] {P : Rounding → Rounding → Prop} (hexact : P .exact .exact)
    (hieee : P binary32.nearest binary64.nearest) : P float double :=
  match a with
  | .exact => hexact
  | .ieee _ => hieee

/-- The compiler contracts `x - y * z`. -/
def contracts [a : Arithmetic] : Bool :=
  match a with
  | .exact => false
  | .ieee c => c

/-- `MAX_ARRAY_SIZE`: the number of entries of the hot plate table. -/
def maxArraySize : ℕ := 12500

/-- `SAMPLE_RATE`: hot plate table entries played per second. -/
def sampleRate : ℕ := 25

/-- `OPAMP_GAIN`: the gain between the 14-bit DAC and the hot plate. -/
def opampGain : ℕ := 7

/-- `LOWEST_FREQ_POSSIBLE`, in Hz. -/
def lowestFreqPossible [Arithmetic] : Value := double.round (2 / 1000)

/-- It is 2 mHz, up to rounding. -/
theorem lowestFreqPossible_eq [Arithmetic] : ∃ d, lowestFreqPossible = .finite d ∧ 2 / 1000 ≤ d :=
  rounding_cases (P := fun _ r => ∃ d, r.round (2 / 1000) = .finite d ∧ 2 / 1000 ≤ d)
    ⟨2 / 1000, by decide +kernel⟩ ⟨1152921504606847 / 576460752303423488, by decide +kernel⟩

/-- A graphene strip, numbered as in the firmware: `MAX_STRIP_COUNT` is 8. -/
abbrev Strip := Fin 8

/-- Strips are written as numerals. -/
instance Strip.neZero : NeZero 8 := ⟨by decide⟩

/-- The parameters of `global.c` that a configuration sets. -/
structure Params where
  /-- `uint32_t waveType`: 0 sine, 1 square, 2 triangle. -/
  waveType : ℕ
  /-- `uint32_t dutyCycle`, in percent. -/
  dutyCycle : ℕ
  /-- `float desiredFrequency`, in Hz. -/
  desiredFrequency : Value
  /-- `uint32_t desiredAmplitude`, in volts. -/
  desiredAmplitude : ℕ
  /-- `float g_excitation_voltage_per_resistor`, in volts. -/
  gExcitationVoltagePerResistor : Value
  /-- `uint16_t MUX_freq`. -/
  muxFreq : ℕ
  /-- `bool active_strips[8]`. -/
  activeStrips : Strip → Bool
  /-- `uint8_t g_strip_count`. -/
  gStripCount : ℕ
  deriving DecidableEq

/-- The initial values of `global.c`. -/
def Params.boot [Arithmetic] : Params where
  waveType := 0
  dutyCycle := 50
  desiredFrequency := float.convert (double.round (5 / 100))
  desiredAmplitude := 21
  gExcitationVoltagePerResistor := .finite 1
  muxFreq := 8
  activeStrips := fun _ => false
  gStripCount := 0

/-- What the C standard and the mathematics library leave to the machine. -/
structure Target where
  /-- What a conversion to `uint32_t` stores when the value is outside its range,
  infinite or not a number.  The first argument tells conversions apart: for an
  entry of the hot plate table it is the index. -/
  undefinedU32 : ℕ → Value → ℕ
  /-- The `int` stored for a resistance `V / I * 120 * 75 + 0.5` that is outside
  `int`, infinite or not a number. -/
  undefinedInt : ℕ → ℕ → ℤ
  undefinedInt_mem : ∀ v i, -2 ^ 31 ≤ undefinedInt v i ∧ undefinedInt v i < 2 ^ 31
  /-- `atoi` of a text whose number does not fit an `int`. -/
  undefinedAtoi : List UInt8 → ℤ
  /-- `atof` of a text that is not a decimal number (`inf`, `nan`, hexadecimal). -/
  atofSpecial : List UInt8 → Value
  /-- `sin`. -/
  sin : ℚ → ℚ
  sin_mem : ∀ x, -1 ≤ sin x ∧ sin x ≤ 1

/-- A target whose conversions saturate.  Its `sin` is a stand-in for runs that
do not evaluate it. -/
def Target.saturating : Target where
  undefinedU32 := fun _ x => if .finite 0 < x then 2 ^ 32 - 1 else 0
  undefinedInt := fun v _ => if v = 0 then 0 else 2 ^ 31 - 1
  undefinedInt_mem := fun v _ => by split <;> decide
  undefinedAtoi := fun _ => 2 ^ 31 - 1
  atofSpecial := fun _ => .nan
  sin := fun _ => 0
  sin_mem := fun _ => ⟨by decide, by decide⟩

/-- `(uint32_t) x`: truncation towards zero.  `i` tells conversions apart. -/
def Target.toU32 (t : Target) (i : ℕ) (x : Value) : ℕ :=
  match x with
  | .finite y => if -1 < y ∧ y < 2 ^ 32 then ⌊y⌋.toNat else t.undefinedU32 i x % 2 ^ 32
  | _ => t.undefinedU32 i x % 2 ^ 32

/-- `sin` of a `double`. -/
def Target.sinOf (t : Target) : Value → Value
  | .finite x => .finite (t.sin x)
  | _ => .nan

/-- `(int) x` of a `uint32_t`, as the compiler in use defines it. -/
def intOfU32 (x : ℕ) : ℤ := if x < 2 ^ 31 then x else (x : ℤ) - 2 ^ 32

/-- The strips of a selection, in increasing order. -/
def stripList (active : Strip → Bool) : List Strip := (List.finRange 8).filter active

@[simp] theorem mem_stripList {active : Strip → Bool} {i : Strip} :
    i ∈ stripList active ↔ active i = true := by
  simp [stripList]

theorem stripList_nodup (active : Strip → Bool) : (stripList active).Nodup :=
  (List.nodup_finRange 8).filter _

/-- The strip numbers come in strictly increasing order. -/
theorem stripList_sortedLT (active : Strip → Bool) : (stripList active).Pairwise (· < ·) :=
  (List.pairwise_lt_finRange 8).filter _

theorem stripList_length_le (active : Strip → Bool) : (stripList active).length ≤ 8 :=
  (List.length_filter_le _ _).trans (List.length_finRange).le

/-- The number of active strips, counted the way both configuration paths count
them: start at 0 and add one for each flag that is set. -/
def countStrips (active : Strip → Bool) : ℕ :=
  (List.finRange 8).foldl (fun n i => if active i then n + 1 else n) 0

theorem countStrips_eq (active : Strip → Bool) : countStrips active = (stripList active).length := by
  have h : ∀ (l : List Strip) (n : ℕ),
      l.foldl (fun n i => if active i then n + 1 else n) n = n + (l.filter active).length := by
    intro l
    induction l with
    | nil => intro n; rfl
    | cons i l ih =>
        intro n
        rw [List.foldl_cons, ih, List.filter_cons]
        split <;> simp [Nat.add_assoc, Nat.add_comm 1]
  simpa [countStrips, stripList] using h (List.finRange 8) 0

end GasSensor
