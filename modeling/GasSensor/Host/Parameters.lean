/-
# From the window to the parameters

`MainWindow.start_measurement` of `source/GUI/test_gui.py` validates what the
user has entered, and `SerialThread.send_parameters` prints it into a line of
seven fields.  `updateParameters` of `source/main.c` takes the line apart.

`updateParameters_sendParameters` is the round trip, from any previous
parameters.  `entered_decoded` is what it gives for the inputs that the
validators accept, and `interfaces_agree` compares the line with the holding
registers for the same values.
-/

import GasSensor.Firmware.Gui
import GasSensor.Firmware.RegisterMap
import GasSensor.Lib.Numerals

namespace GasSensor

namespace Host

open CString FloatingPoint Numeral Firmware

/-- The input fields: what `float` or `int` makes of the text of each, `none` if it raises
`ValueError` or gives no finite number, with the index of the drop-down list and the
buttons of the strips.  A `float` is given as the decimal that its `repr` shows. -/
structure Fields where
  excitationVoltageInput : Option Decimal
  muxFreqInput : Option ℤ
  waveFreqInput : Option Decimal
  waveAmpInput : Option Decimal
  dutyCycleInput : Option ℤ
  waveTypeDropdown : Fin 3
  stripSelection : Strip → Bool

/-- `if not (low <= value <= high): raise ValueError`. -/
def inRange (low high : ℚ) : Option ℚ → Bool
  | some value => low ≤ value ∧ value ≤ high
  | none => false

def validateExcitationVoltage (f : Fields) : Bool :=
  inRange (1 / 2) 1 (f.excitationVoltageInput.map Decimal.value)

def validateMuxFrequency (f : Fields) : Bool := inRange 1 8 (f.muxFreqInput.map (↑))

def validateWaveFrequency (f : Fields) : Bool := inRange (2 / 1000) (1 / 2) (f.waveFreqInput.map Decimal.value)

def validateDacHotPlateVoltage (f : Fields) : Bool := inRange 0 23 (f.waveAmpInput.map Decimal.value)

def validateDutyCycle (f : Fields) : Bool := inRange 0 100 (f.dutyCycleInput.map (↑))

/-- All validators accept. -/
def Fields.Accepted (f : Fields) : Prop :=
  validateExcitationVoltage f = true ∧ validateMuxFrequency f = true ∧ validateWaveFrequency f = true ∧
    validateDacHotPlateVoltage f = true ∧ validateDutyCycle f = true

instance Fields.acceptedDecidable (f : Fields) : Decidable f.Accepted :=
  inferInstanceAs (Decidable (_ ∧ _))

/-- `''.join(map(str, self.strip_selection))`. -/
def stripText (stripSelection : Strip → Bool) : List UInt8 :=
  (List.finRange 8).map fun i => if stripSelection i then 49 else 48

/-- The seven values of a line as they are printed, the line feed after the last. -/
def commandFields (waveType dutyCycle : ℤ) (desiredFrequency desiredAmplitude excitationVoltagePerStrip
    muxFrequency : Decimal) (stripSelection : List UInt8) : List (List UInt8) :=
  [formatInt waveType, formatInt dutyCycle, desiredFrequency.repr, desiredAmplitude.repr,
    excitationVoltagePerStrip.repr, muxFrequency.repr, stripSelection ++ [10]]

/-- `send_parameters`: the values with commas between them. -/
def sendParameters (waveType dutyCycle : ℤ) (desiredFrequency desiredAmplitude excitationVoltagePerStrip
    muxFrequency : Decimal) (stripSelection : List UInt8) : List UInt8 :=
  [44].intercalate (commandFields waveType dutyCycle desiredFrequency desiredAmplitude excitationVoltagePerStrip
    muxFrequency stripSelection)

/-- `start_measurement`, confirmed and with the port open: the line it sends. -/
def startMeasurement (f : Fields) : Option (List UInt8) :=
  if f.Accepted then do
    let dutyCycle ← f.dutyCycleInput
    let desiredFrequency ← f.waveFreqInput
    let desiredAmplitude ← f.waveAmpInput
    let excitationVoltagePerStrip ← f.excitationVoltageInput
    let muxFrequency ← f.muxFreqInput
    some (sendParameters f.waveTypeDropdown.val dutyCycle desiredFrequency desiredAmplitude
      excitationVoltagePerStrip (.ofInt muxFrequency) (stripText f.stripSelection))
  else none

theorem inRange_map {α : Type*} {value : α → ℚ} {input : Option α} {low high : ℚ} :
    inRange low high (input.map value) = true ↔ ∃ x, input = some x ∧ low ≤ value x ∧ value x ≤ high := by
  match input with
  | some x => simp [inRange]
  | none => simp [inRange]

/-- **What the validators let through.** -/
theorem Fields.Accepted.values {f : Fields} (h : f.Accepted) :
    ∃ dutyCycle muxFrequency : ℤ, ∃ frequency amplitude excitation : Decimal,
      f.dutyCycleInput = some dutyCycle ∧ (0 ≤ dutyCycle ∧ dutyCycle ≤ 100) ∧
      f.muxFreqInput = some muxFrequency ∧ (1 ≤ muxFrequency ∧ muxFrequency ≤ 8) ∧
      f.waveFreqInput = some frequency ∧
      f.waveAmpInput = some amplitude ∧ (0 ≤ amplitude.value ∧ amplitude.value ≤ 23) ∧
      f.excitationVoltageInput = some excitation ∧
      startMeasurement f = some (sendParameters f.waveTypeDropdown.val dutyCycle frequency amplitude excitation
        (.ofInt muxFrequency) (stripText f.stripSelection)) := by
  obtain ⟨excitation, he, -⟩ := inRange_map.1 h.1
  obtain ⟨muxFrequency, hm, hmin, hmax⟩ := inRange_map.1 h.2.1
  obtain ⟨frequency, hf, -⟩ := inRange_map.1 h.2.2.1
  obtain ⟨amplitude, ha, hrange⟩ := inRange_map.1 h.2.2.2.1
  obtain ⟨dutyCycle, hd, hlow, hhigh⟩ := inRange_map.1 h.2.2.2.2
  refine ⟨dutyCycle, muxFrequency, frequency, amplitude, excitation, hd, ?_, hm, ?_, hf, ha, hrange, he, ?_⟩
  · exact ⟨by exact_mod_cast hlow, by exact_mod_cast hhigh⟩
  · exact ⟨by exact_mod_cast hmin, by exact_mod_cast hmax⟩
  · rw [startMeasurement, if_pos h, hd, hf, ha, he, hm]
    rfl

section

variable {waveType dutyCycle : ℤ} {frequency amplitude excitation mux : Decimal} {stripSelection : Strip → Bool}

/-- No field of a line is empty or holds a comma or a NUL. -/
theorem commandFields_clean {tok : List UInt8} (h : tok ∈ commandFields waveType dutyCycle frequency amplitude
    excitation mux (stripText stripSelection)) : tok ≠ [] ∧ ∀ b ∈ tok, b ≠ 44 ∧ b ≠ 0 := by
  have hint : ∀ x, formatInt x ≠ [] ∧ ∀ b ∈ formatInt x, b ≠ 44 ∧ b ≠ 0 := fun x =>
    ⟨formatInt_ne_nil x, fun b hb => (Decimal.isNumeral_formatInt x b hb).ne⟩
  have hrepr : ∀ x : Decimal, x.repr ≠ [] ∧ ∀ b ∈ x.repr, b ≠ 44 ∧ b ≠ 0 := fun x =>
    ⟨x.repr_ne_nil, fun b hb => (x.isNumeral_repr b hb).ne⟩
  have hstrips : stripText stripSelection ++ [10] ≠ [] ∧
      ∀ b ∈ stripText stripSelection ++ [10], b ≠ 44 ∧ b ≠ 0 := by
    refine ⟨List.append_ne_nil_of_right_ne_nil _ (List.cons_ne_nil _ _), fun b hb => ?_⟩
    rcases List.mem_append.1 hb with hb | hb
    · obtain ⟨i, -, rfl⟩ := List.mem_map.1 hb
      split <;> decide
    · obtain rfl := List.mem_singleton.1 hb
      decide
  revert tok
  simp only [commandFields, List.forall_mem_cons]
  exact ⟨hint waveType, hint dutyCycle, hrepr frequency, hrepr amplitude, hrepr excitation, hrepr mux, hstrips,
    List.forall_mem_nil _⟩

theorem zero_notMem_sendParameters :
    0 ∉ sendParameters waveType dutyCycle frequency amplitude excitation mux (stripText stripSelection) := by
  intro h
  rcases mem_intercalate h with h | ⟨tok, htok, h⟩
  · exact absurd h (by decide)
  · exact ((commandFields_clean htok).2 0 h).2 rfl

end

/-- `strtok` finds the fields of a line. -/
theorem tokens_sendParameters (waveType dutyCycle : ℤ) (frequency amplitude excitation mux : Decimal)
    (stripSelection : Strip → Bool) :
    tokens 44 (sendParameters waveType dutyCycle frequency amplitude excitation mux (stripText stripSelection))
      = commandFields waveType dutyCycle frequency amplitude excitation mux (stripText stripSelection) :=
  tokens_intercalate fun _ h => ⟨(commandFields_clean h).1, fun hmem => ((commandFields_clean h).2 44 hmem).1 rfl⟩

/-- The flag of strip `i` is the `i`-th character. -/
theorem stripText_getElem? (stripSelection : Strip → Bool) (i : Strip) :
    (stripText stripSelection ++ [10])[i.val]? = some (if stripSelection i then 49 else 48) := by
  rw [List.getElem?_append_left (by simp [stripText]), stripText, List.getElem?_map]
  simp

variable {t : Target} {r : List UInt8}

theorem atoi_formatInt {x : ℤ} (hlow : -2 ^ 31 ≤ x) (hhigh : x < 2 ^ 31) (hr : NoDigit r) :
    t.atoi (formatInt x ++ r) = x := by
  rw [Target.atoi, decimalInt_formatInt x hr, if_pos ⟨hlow, hhigh⟩]

/-- A number that fits an unsigned type is stored as it is. -/
theorem toNat_emod {x k : ℕ} (h : x < 2 ^ k) : ((x : ℤ) % 2 ^ k).toNat = x := by
  have hpow : ((2 ^ k : ℕ) : ℤ) = 2 ^ k := by norm_cast
  rw [← hpow, ← Int.natCast_emod, Int.toNat_natCast, Nat.mod_eq_of_lt h]

section
variable [Arithmetic]

theorem atof_repr (x : Decimal) : t.atof x.repr = double.round x.value := by
  rw [Target.atof, Decimal.decimalRat_repr]
  rfl

/-- A number of volts is truncated. -/
theorem toU32_round {i : ℕ} {x : Decimal} (h0 : 0 ≤ x.value) (h23 : x.value ≤ 23) :
    t.toU32 i (double.round x.value) = (double.round x.value).truncate := by
  obtain ⟨y, hy, hlow, hhigh⟩ := double.exists_round (m := 0) (n := 23) (by decide)
    (by exact_mod_cast h0) (by exact_mod_cast h23)
  push_cast at hlow hhigh
  rw [hy]
  exact if_pos ⟨by linarith, by linarith⟩

/-- **The firmware reads what is printed**, from any previous parameters and with anything
behind the line in the buffer. -/
theorem updateParameters_sendParameters (t : Target) (p : Params) (rest : List UInt8)
    (frequency excitation : Decimal) (stripSelection : Strip → Bool) {waveType dutyCycle mux : ℕ}
    {amplitude : Decimal} (hw : waveType < 2 ^ 31) (hd : dutyCycle < 2 ^ 31) (hm : 0 < mux) (hmux : mux < 2 ^ 16)
    (ha : 0 ≤ amplitude.value) (hamp : amplitude.value ≤ 23) :
    ∃ mem, updateParameters t (sendParameters waveType dutyCycle frequency amplitude excitation (.ofInt mux)
        (stripText stripSelection) ++ 0 :: rest) p
      = .ok ({
          waveType
          dutyCycle
          desiredFrequency := float.convert (double.round frequency.value)
          desiredAmplitude := (double.round amplitude.value).truncate
          gExcitationVoltagePerResistor := float.convert (double.round excitation.value)
          muxFreq := mux
          activeStrips := stripSelection
          gStripCount := countStrips stripSelection }, mem, 0) := by
  have htokens := tokens_sendParameters waveType dutyCycle frequency amplitude excitation (.ofInt mux)
    stripSelection
  obtain ⟨mem, hok⟩ := updateParameters_eq t rest zero_notMem_sendParameters (by rw [htokens]; rfl)
    (stripText_getElem? stripSelection) p
  refine ⟨mem, hok.trans ?_⟩
  have hstrips : (fun i => decide ((if stripSelection i = true then (49 : UInt8) else 48) = 49))
      = stripSelection := by
    funext i
    cases stripSelection i <;> rfl
  have hint : ∀ x : ℕ, x < 2 ^ 31 → t.atoi (formatInt x) = x := by
    intro x hx
    have := atoi_formatInt (t := t) (x := x) (by omega) (by omega) noDigit_nil
    rwa [List.append_nil] at this
  have hmuxFreq : t.atoi (Decimal.ofInt mux).repr = mux := by
    rw [Decimal.repr_ofInt (by omega) (by omega)]
    exact atoi_formatInt (by omega) (by omega) (noDigit_cons (by decide))
  rw [htokens, hstrips]
  simp only [commandFields, numberFields, assignFields_cons, setWaveType, setDutyCycle, setDesiredFrequency,
    setDesiredAmplitude, setExcitationVoltagePerStrip, setMuxFreq, assignFields_nil_fields, hint _ hw, hint _ hd,
    hmuxFreq, atof_repr, toU32_round ha hamp, toNat_emod (hw.trans (show 2 ^ 31 < 2 ^ 32 by norm_num)),
    toNat_emod (hd.trans (show 2 ^ 31 < 2 ^ 32 by norm_num)), toNat_emod hmux]

/-- **The parameters are what the user has entered**, each in the type of its variable: a
`float` is rounded to `double` when it is read and to `float` when it is stored, and in exact
arithmetic it is the number entered. -/
structure Decoded (f : Fields) (q : Params) : Prop where
  waveType : q.waveType = f.waveTypeDropdown.val
  dutyCycle : f.dutyCycleInput = some (q.dutyCycle : ℤ)
  desiredFrequency :
    f.waveFreqInput.map (fun x => float.convert (double.round x.value)) = some q.desiredFrequency
  /-- `desiredAmplitude` is a `uint32_t`. -/
  desiredAmplitude : f.waveAmpInput.map (fun x => (double.round x.value).truncate) = some q.desiredAmplitude
  gExcitationVoltagePerResistor : f.excitationVoltageInput.map
    (fun x => float.convert (double.round x.value)) = some q.gExcitationVoltagePerResistor
  muxFreq : f.muxFreqInput = some (q.muxFreq : ℤ)
  activeStrips : q.activeStrips = f.stripSelection
  gStripCount : q.gStripCount = (stripList f.stripSelection).length

/-- The amplitude in force is the one entered exactly if that is a whole number of volts. -/
theorem Decoded.desiredAmplitude_eq_iff {f : Fields} {q : Params} (h : Decoded f q) (hf : f.Accepted) {x : Decimal}
    (hx : f.waveAmpInput = some x) : (q.desiredAmplitude : ℚ) = x.value ↔ ∃ z : ℤ, x.value = z := by
  have htruncated := h.desiredAmplitude
  rw [hx, Option.map_some, Option.some.injEq] at htruncated
  obtain ⟨y, hy, hlow, hhigh⟩ := inRange_map.1 hf.2.2.2.1
  obtain rfl : x = y := Option.some.inj (hx.symm.trans hy)
  constructor
  · exact fun heq => ⟨q.desiredAmplitude, by rw [← heq, Int.cast_natCast]⟩
  · rintro ⟨z, hz⟩
    rw [hz] at hlow hhigh
    lift z to ℕ using by exact_mod_cast hlow
    have hle : z ≤ 23 := by exact_mod_cast hhigh
    rw [hz, Int.cast_natCast, double.natCast z (by omega), Value.truncate, Int.floor_natCast, Int.toNat_natCast]
      at htruncated
    rw [hz, ← htruncated, Int.cast_natCast]

/-- The line of an accepted input is taken as it was entered. -/
theorem Fields.Accepted.decoded {f : Fields} (h : f.Accepted) :
    ∃ line q, startMeasurement f = some line ∧ Decoded f q ∧
      ∀ t p rest, ∃ mem, updateParameters t (line ++ 0 :: rest) p = .ok (q, mem, 0) := by
  obtain ⟨dutyCycle, mux, frequency, amplitude, excitation, hd, hduty, hm, hmux, hf, ha, hamp, he, hline⟩ :=
    h.values
  lift dutyCycle to ℕ using hduty.1
  lift mux to ℕ using by omega
  refine ⟨_, _, hline, ?_, fun t p rest =>
    updateParameters_sendParameters t p rest frequency excitation f.stripSelection
      (show f.waveTypeDropdown.val < 2 ^ 31 by omega) (show dutyCycle < 2 ^ 31 by omega) (show 0 < mux by omega)
      (by omega) hamp.1 hamp.2⟩
  exact {
    waveType := rfl
    dutyCycle := hd
    desiredFrequency := by rw [hf]; rfl
    desiredAmplitude := by rw [ha]; rfl
    gExcitationVoltagePerResistor := by rw [he]; rfl
    muxFreq := hm
    activeStrips := rfl
    gStripCount := countStrips_eq _ }

/-- **The firmware decodes what the window encodes.**  Every input that all validators accept
is sent as a line that `updateParameters` accepts, from any previous parameters and
whatever stands behind the line, and then the parameters are what the user has entered. -/
theorem entered_decoded (t : Target) {f : Fields} (h : f.Accepted) (p : Params) (rest : List UInt8) :
    ∃ line q mem, startMeasurement f = some line ∧
      updateParameters t (line ++ 0 :: rest) p = .ok (q, mem, 0) ∧ Decoded f q := by
  obtain ⟨line, q, hline, hq, hparse⟩ := h.decoded
  obtain ⟨mem, hok⟩ := hparse t p rest
  exact ⟨line, q, mem, hline, hok, hq⟩

end

section
attribute [local instance] Arithmetic.exact

/-- The strips 1 and 3 with a square wave of 12.5 V. -/
def squareFields : Fields where
  excitationVoltageInput := some ⟨false, 75, 2⟩
  muxFreqInput := some 8
  waveFreqInput := some ⟨false, 2, 3⟩
  waveAmpInput := some ⟨false, 125, 1⟩
  dutyCycleInput := some 50
  waveTypeDropdown := 1
  stripSelection := fun i => i = 0 ∨ i = 2

/-- The hypothesis of `entered_decoded` is satisfiable. -/
theorem entered_decoded_square :
    ∃ line q mem, startMeasurement squareFields = some line ∧
      updateParameters .saturating (line ++ [0]) .boot = .ok (q, mem, 0) ∧ Decoded squareFields q :=
  entered_decoded .saturating (by decide +kernel) .boot []

example : startMeasurement squareFields = some (ascii "1,50,0.002,12.5,0.75,8.0,10100000\n") := by decide +kernel

/-- Values that both interfaces can set, in the units of the register map. -/
structure Setup where
  waveType : ℕ
  dutyCycle : ℕ
  /-- In mHz. -/
  frequency : ℕ
  /-- In mV. -/
  amplitude : ℕ
  /-- In mV. -/
  excitation : ℕ
  muxFreq : ℕ
  strips : Strip → Bool
  waveType_le : waveType ≤ 2
  dutyCycle_mem : 1 ≤ dutyCycle ∧ dutyCycle ≤ 100
  frequency_mem : 2 ≤ frequency ∧ frequency ≤ 500
  amplitude_mem : 1 ≤ amplitude ∧ amplitude ≤ 23000
  excitation_mem : 500 ≤ excitation ∧ excitation ≤ 1000
  muxFreq_mem : 1 ≤ muxFreq ∧ muxFreq ≤ 8
  strips_nonempty : ∃ i, strips i = true

namespace Setup

/-- The thousandth part of a unit. -/
def milli (x : ℕ) : Decimal := ⟨false, x, 3⟩

/-- The values in the window, in Hz and V. -/
def fields (s : Setup) : Fields where
  excitationVoltageInput := some (milli s.excitation)
  muxFreqInput := some s.muxFreq
  waveFreqInput := some (milli s.frequency)
  waveAmpInput := some (milli s.amplitude)
  dutyCycleInput := some s.dutyCycle
  waveTypeDropdown := ⟨s.waveType, Nat.lt_succ_of_le s.waveType_le⟩
  stripSelection := s.strips

/-- The line for the values. -/
def line (s : Setup) : List UInt8 :=
  sendParameters s.waveType s.dutyCycle (milli s.frequency) (milli s.amplitude) (milli s.excitation)
    (.ofInt s.muxFreq) (stripText s.strips)

/-- The holding registers for the values: bit `i` of the last is strip `i + 1`. -/
def registers (s : Setup) : Fin 7 → UInt16
  | 0 => UInt16.ofNat (s.waveType + 1)
  | 1 => UInt16.ofNat s.dutyCycle
  | 2 => UInt16.ofNat s.frequency
  | 3 => UInt16.ofNat s.amplitude
  | 4 => UInt16.ofNat s.excitation
  | 5 => UInt16.ofNat s.muxFreq
  | 6 => UInt16.ofNat (Nat.ofBits s.strips)

theorem milli_value (x : ℕ) : (milli x).value = (x : ℚ) / 1000 := by
  norm_num [milli, Decimal.value, signed]

theorem milli_mem {x low high : ℕ} (h : low ≤ x ∧ x ≤ high) :
    (low : ℚ) / 1000 ≤ (milli x).value ∧ (milli x).value ≤ (high : ℚ) / 1000 := by
  have hlow : (low : ℚ) ≤ x := Nat.cast_le.2 h.1
  have hhigh : (x : ℚ) ≤ high := Nat.cast_le.2 h.2
  rw [milli_value]
  constructor <;> gcongr

/-- The validators accept the values. -/
theorem accepted (s : Setup) : s.fields.Accepted := by
  have he := milli_mem s.excitation_mem
  have hf := milli_mem s.frequency_mem
  have ha := milli_mem s.amplitude_mem
  obtain ⟨hd1, hd100⟩ := s.dutyCycle_mem
  obtain ⟨hm1, hm8⟩ := s.muxFreq_mem
  refine ⟨inRange_map.2 ⟨_, rfl, ?_, ?_⟩, inRange_map.2 ⟨_, rfl, ?_, ?_⟩, inRange_map.2 ⟨_, rfl, ?_, ?_⟩,
    inRange_map.2 ⟨_, rfl, ?_, ?_⟩, inRange_map.2 ⟨_, rfl, ?_, ?_⟩⟩
  · exact le_trans (by norm_num) he.1
  · exact he.2.trans (by norm_num)
  · exact_mod_cast hm1
  · exact_mod_cast hm8
  · exact le_trans (by norm_num) hf.1
  · exact hf.2.trans (by norm_num)
  · exact le_trans (by norm_num) ha.1
  · exact ha.2.trans (by norm_num)
  · exact_mod_cast Nat.zero_le _
  · exact_mod_cast hd100

/-- The window sends the line. -/
theorem startMeasurement_fields (s : Setup) : startMeasurement s.fields = some s.line := by
  rw [startMeasurement, if_pos s.accepted]
  rfl

variable {s : Setup}

/-- A positive value that fits a register is kept by it and put into force. -/
theorem unlessZero_ofNat {α : Type*} {x : ℕ} (h0 : 0 < x) (h : x < 2 ^ 16) (value : ℕ → α) (kept : α) :
    Modbus.unlessZero (UInt16.ofNat x) (value (UInt16.ofNat x).toNat) kept = value x := by
  have htoNat : (UInt16.ofNat x).toNat = x := by
    rw [UInt16.toNat_ofNat', Nat.mod_eq_of_lt h]
  have hne : UInt16.ofNat x ≠ 0 := by
    intro hzero
    rw [hzero] at htoNat
    exact h0.ne htoNat
  rw [unlessZero_of_ne hne, htoNat]

/-- The strip register names at least one strip. -/
theorem ofBits_strips (s : Setup) : 0 < Nat.ofBits s.strips ∧ Nat.ofBits s.strips < 2 ^ 16 := by
  obtain ⟨i, hi⟩ := s.strips_nonempty
  refine ⟨Nat.pos_of_ne_zero fun hzero => ?_, (Nat.ofBits_lt_two_pow _).trans (by norm_num)⟩
  have hbit := Nat.testBit_ofBits_lt s.strips i.val i.isLt
  rw [hzero, Nat.zero_testBit, hi] at hbit
  cases hbit

/-- The registers put the values into force, whatever was in force before. -/
theorem modbusUpdateParameters_registers (s : Setup) (q : Params) :
    Modbus.modbusUpdateParameters s.registers q = {
      waveType := s.waveType
      dutyCycle := s.dutyCycle
      desiredFrequency := .finite (s.frequency / 1000)
      desiredAmplitude := s.amplitude / 1000
      gExcitationVoltagePerResistor := .finite (s.excitation / 1000)
      muxFreq := s.muxFreq
      activeStrips := s.strips
      gStripCount := countStrips s.strips } := by
  have hw := s.waveType_le
  have hd := s.dutyCycle_mem
  have hf := s.frequency_mem
  have ha := s.amplitude_mem
  have he := s.excitation_mem
  have hm := s.muxFreq_mem
  obtain ⟨hbits, hbits16⟩ := s.ofBits_strips
  have hstrips : (fun i : Strip => (Nat.ofBits s.strips).testBit i) = s.strips := by
    funext i
    exact Nat.testBit_ofBits_lt s.strips i.val i.isLt
  unfold Modbus.modbusUpdateParameters
  dsimp only
  rw [Params.mk.injEq]
  refine ⟨?_, ?_, ?_, ?_, ?_, ?_, ?_, ?_⟩
  · exact unlessZero_ofNat (by omega) (by omega) (· - 1) _
  · exact unlessZero_ofNat (by omega) (by omega) id _
  · exact unlessZero_ofNat (by omega) (by omega) (fun n => Value.finite ((n : ℚ) / 1000)) _
  · rw [truncate_thousandth]
    exact unlessZero_ofNat (by omega) (by omega) (· / 1000) _
  · exact unlessZero_ofNat (by omega) (by omega) (fun n => Value.finite ((n : ℚ) / 1000)) _
  · exact unlessZero_ofNat (by omega) (by omega) id _
  · exact (unlessZero_ofNat hbits hbits16 (fun n => fun i : Strip => n.testBit i) _).trans hstrips
  · exact (unlessZero_ofNat hbits hbits16 (fun n => countStrips fun i => n.testBit i) _).trans
      (congrArg countStrips hstrips)

/-- The values of `squareFields`. -/
def square : Setup where
  waveType := 1
  dutyCycle := 50
  frequency := 2
  amplitude := 12500
  excitation := 750
  muxFreq := 8
  strips := squareFields.stripSelection
  waveType_le := by norm_num
  dutyCycle_mem := by norm_num
  frequency_mem := by norm_num
  amplitude_mem := by norm_num
  excitation_mem := by norm_num
  muxFreq_mem := by norm_num
  strips_nonempty := ⟨0, rfl⟩

example : square.line = ascii "1,50,0.002,12.5,0.75,8.0,10100000\n" ∧
    (List.finRange 7).map square.registers = [2, 50, 2, 12500, 750, 8, 5] := by decide +kernel

end Setup

/-- **Both interfaces configure the same system.**  From any previous parameters, `p` of the
one and `q` of the other, the line for the values and the registers for them leave the same
parameters. -/
theorem interfaces_agree (t : Target) (s : Setup) (p q : Params) (rest : List UInt8) :
    ∃ mem, updateParameters t (s.line ++ 0 :: rest) (Gui.resetActiveStrips p)
      = .ok (Modbus.modbusUpdateParameters s.registers q, mem, 0) := by
  have hw := s.waveType_le
  have hd := s.dutyCycle_mem
  have hm := s.muxFreq_mem
  have hamp := Setup.milli_mem s.amplitude_mem
  obtain ⟨mem, hok⟩ := updateParameters_sendParameters t (Gui.resetActiveStrips p) rest (Setup.milli s.frequency)
    (Setup.milli s.excitation) s.strips (show s.waveType < 2 ^ 31 by omega) (show s.dutyCycle < 2 ^ 31 by omega)
    (show 0 < s.muxFreq by omega) (by omega) (le_trans (by norm_num) hamp.1) (hamp.2.trans (by norm_num))
  have hvolts : (Value.finite (Setup.milli s.amplitude).value).truncate = s.amplitude / 1000 := by
    have hfloor := Rat.floor_natCast_div_natCast s.amplitude 1000
    rw [Setup.milli_value, Value.truncate]
    norm_num at hfloor
    omega
  refine ⟨mem, hok.trans ?_⟩
  rw [s.modbusUpdateParameters_registers, double_exact, float_exact, Rounding.exact_round, Rounding.exact_round,
    Rounding.exact_round, hvolts, Setup.milli_value, Setup.milli_value]
  rfl

end

end Host
end GasSensor
