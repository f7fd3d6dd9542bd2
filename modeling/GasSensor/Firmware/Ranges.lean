/-
# Which writes keep the parameters in range

`Modbus_DataErrorPresent` of `source/Modbus_files/modbus.c` documents a range
for each parameter, and nothing calls it.  `Documented` are these ranges, and
`WriteInRange` says which values a write has to carry for them to hold.
`documented_iff` is the comparison over whole runs of the main loop.
-/

import GasSensor.Firmware.RegisterMap

namespace GasSensor
namespace Firmware

open FloatingPoint Modbus

/-- **The documented ranges of the parameters.** -/
structure Documented (p : Params) : Prop where
  waveType : p.waveType ≤ 2
  dutyCycle : p.dutyCycle ≤ 100
  frequency : .finite (1 / 500) ≤ p.desiredFrequency ∧ p.desiredFrequency ≤ .finite (1 / 2)
  amplitude : p.desiredAmplitude ≤ 23
  excitation :
    .finite (1 / 2) ≤ p.gExcitationVoltagePerResistor ∧ p.gExcitationVoltagePerResistor ≤ .finite 1
  muxFreq : 1 ≤ p.muxFreq ∧ p.muxFreq ≤ 8

/-- The values of a holding register that keep its parameter in range.  Zero keeps
the parameter.  The amplitude is truncated to volts, so 23999 mV still counts as
23 V. -/
def RegisterInRange (register : ℕ) (value : UInt16) : Prop :=
  value = 0 ∨
    match register with
    | 0 => value.toNat ≤ 3
    | 1 => value.toNat ≤ 100
    | 2 => 2 ≤ value.toNat ∧ value.toNat ≤ 500
    | 3 => value.toNat < 24000
    | 4 => 500 ≤ value.toNat ∧ value.toNat ≤ 1000
    | 5 => value.toNat ≤ 8
    | _ => True

/-- Each value the frame writes, if it is an accepted write, is in the range of its
register. -/
def WriteInRange (bytes : List UInt8) : Prop :=
  ∀ start values, acceptedWrite bytes = some (start, values) →
    ∀ i value, values[i]? = some value → RegisterInRange (start + i) value

/-- A parameter that may be kept. -/
theorem unlessZero_iff {α : Type*} {P : α → Prop} {register : UInt16} {value kept : α} (h : P kept) :
    P (unlessZero register value kept) ↔ register = 0 ∨ P value := by
  unfold unlessZero
  split
  next h0 => exact ⟨.inr, fun h' => h'.resolve_left h0⟩
  next h0 => exact ⟨fun _ => .inl (not_not.1 h0), fun _ => h⟩

section
variable [Arithmetic]

/-- 2 to 500 mHz. -/
theorem frequency_mem_iff (w : UInt16) :
    (.finite (1 / 500) ≤ thousandth w ∧ thousandth w ≤ .finite (1 / 2)) ↔ 2 ≤ w.toNat ∧ w.toNat ≤ 500 :=
  and_congr
    (le_thousandth_iff (k := 1)
      (rounding_cases (P := fun r _ => ¬ .finite (1 / 500) ≤ r.round (((1 : ℕ) : ℚ) / 1000))
        (by decide +kernel) (by decide +kernel))
      (rounding_cases (P := fun r _ => .finite (1 / 500) ≤ r.round ((((1 : ℕ) : ℚ) + 1) / 1000))
        (by decide +kernel) (by decide +kernel)) w)
    (thousandth_le_iff (k := 500)
      (rounding_cases (P := fun r _ => r.round (((500 : ℕ) : ℚ) / 1000) ≤ .finite (1 / 2))
        (by decide +kernel) (by decide +kernel))
      (rounding_cases (P := fun r _ => ¬ r.round ((((500 : ℕ) : ℚ) + 1) / 1000) ≤ .finite (1 / 2))
        (by decide +kernel) (by decide +kernel)) w)

/-- 500 to 1000 mV. -/
theorem excitation_mem_iff (w : UInt16) :
    (.finite (1 / 2) ≤ thousandth w ∧ thousandth w ≤ .finite 1) ↔ 500 ≤ w.toNat ∧ w.toNat ≤ 1000 :=
  and_congr
    (le_thousandth_iff (k := 499)
      (rounding_cases (P := fun r _ => ¬ .finite (1 / 2) ≤ r.round (((499 : ℕ) : ℚ) / 1000))
        (by decide +kernel) (by decide +kernel))
      (rounding_cases (P := fun r _ => .finite (1 / 2) ≤ r.round ((((499 : ℕ) : ℚ) + 1) / 1000))
        (by decide +kernel) (by decide +kernel)) w)
    (thousandth_le_iff (k := 1000)
      (rounding_cases (P := fun r _ => r.round (((1000 : ℕ) : ℚ) / 1000) ≤ .finite 1)
        (by decide +kernel) (by decide +kernel))
      (rounding_cases (P := fun r _ => ¬ r.round ((((1000 : ℕ) : ℚ) + 1) / 1000) ≤ .finite 1)
        (by decide +kernel) (by decide +kernel)) w)

/-- Up to 23 V and some millivolts. -/
theorem amplitude_le_iff (w : UInt16) : (thousandth w).truncate ≤ 23 ↔ w.toNat < 24000 := by
  rw [truncate_thousandth]
  omega

/-- **Updated parameters are in range exactly when all registers are.** -/
theorem documented_modbusUpdateParameters_iff (buffer : Fin 7 → UInt16) {p : Params} (hp : Documented p) :
    Documented (modbusUpdateParameters buffer p) ↔ ∀ j : Fin 7, RegisterInRange j (buffer j) := by
  have h0 : (modbusUpdateParameters buffer p).waveType ≤ 2 ↔ RegisterInRange 0 (buffer 0) :=
    (unlessZero_iff (P := (· ≤ 2)) hp.waveType).trans
      (or_congr_right (show (buffer 0).toNat - 1 ≤ 2 ↔ (buffer 0).toNat ≤ 3 by omega))
  have h1 : (modbusUpdateParameters buffer p).dutyCycle ≤ 100 ↔ RegisterInRange 1 (buffer 1) :=
    unlessZero_iff (P := (· ≤ 100)) hp.dutyCycle
  have h2 : (.finite (1 / 500) ≤ (modbusUpdateParameters buffer p).desiredFrequency ∧
      (modbusUpdateParameters buffer p).desiredFrequency ≤ .finite (1 / 2)) ↔ RegisterInRange 2 (buffer 2) :=
    (unlessZero_iff (P := fun f : Value => .finite (1 / 500) ≤ f ∧ f ≤ .finite (1 / 2)) hp.frequency).trans
      (or_congr_right (frequency_mem_iff (buffer 2)))
  have h3 : (modbusUpdateParameters buffer p).desiredAmplitude ≤ 23 ↔ RegisterInRange 3 (buffer 3) :=
    (unlessZero_iff (P := (· ≤ 23)) hp.amplitude).trans
      (or_congr_right (amplitude_le_iff (buffer 3)))
  have h4 : (.finite (1 / 2) ≤ (modbusUpdateParameters buffer p).gExcitationVoltagePerResistor ∧
      (modbusUpdateParameters buffer p).gExcitationVoltagePerResistor ≤ .finite 1)
        ↔ RegisterInRange 4 (buffer 4) :=
    (unlessZero_iff (P := fun v : Value => .finite (1 / 2) ≤ v ∧ v ≤ .finite 1) hp.excitation).trans
      (or_congr_right (excitation_mem_iff (buffer 4)))
  have h5 : (1 ≤ (modbusUpdateParameters buffer p).muxFreq ∧ (modbusUpdateParameters buffer p).muxFreq ≤ 8)
      ↔ RegisterInRange 5 (buffer 5) := by
    refine (unlessZero_iff (P := fun f => 1 ≤ f ∧ f ≤ 8) hp.muxFreq).trans ?_
    change _ ↔ buffer 5 = 0 ∨ (buffer 5).toNat ≤ 8
    by_cases hz : buffer 5 = 0
    · simp [hz]
    · have hpos : (buffer 5).toNat ≠ 0 := fun h => hz (UInt16.toNat_inj.1 h)
      simp only [hz, false_or]
      omega
  constructor
  · intro hd j
    match j with
    | 0 => exact h0.1 hd.waveType
    | 1 => exact h1.1 hd.dutyCycle
    | 2 => exact h2.1 hd.frequency
    | 3 => exact h3.1 hd.amplitude
    | 4 => exact h4.1 hd.excitation
    | 5 => exact h5.1 hd.muxFreq
    | 6 => exact .inr trivial
  · intro h
    exact ⟨h0.2 (h 0), h1.2 (h 1), h2.2 (h 2), h3.2 (h 3), h4.2 (h 4), h5.2 (h 5)⟩

omit [Arithmetic] in
/-- A table with values stored is in range exactly when the values are. -/
theorem registersInRange_storeFrom_iff {table : Fin 7 → UInt16} {start : ℕ} {values : List UInt16}
    (htable : ∀ j : Fin 7, RegisterInRange j (table j)) (hle : start + values.length ≤ 7) :
    (∀ j : Fin 7, RegisterInRange j (storeFrom table start values j)) ↔
      ∀ i value, values[i]? = some value → RegisterInRange (start + i) value := by
  constructor
  · intro h i value hi
    have hlt : i < values.length := (List.getElem?_eq_some_iff.1 hi).1
    have := h ⟨start + i, by omega⟩
    rwa [storeFrom, if_pos (Nat.le_add_right start i), List.getD_eq_getElem?_getD, Nat.add_sub_cancel_left,
      hi, Option.getD_some] at this
  · intro h j
    rw [storeFrom]
    split
    next hj =>
      rw [List.getD_eq_getElem?_getD]
      cases hv : values[j.val - start]? with
      | none => exact htable j
      | some value =>
          have := h _ value hv
          rwa [Nat.add_sub_cancel' hj] at this
    next => exact htable j

/-- Registers and parameters are in range. -/
structure InForce (fw : Firmware) : Prop where
  sound : Sound fw
  documented : Documented fw.server.params
  registers : ∀ j : Fin 7, RegisterInRange j (fw.server.holdingRegisters j)

/-- The registers hold values in range when the firmware starts. -/
theorem registerInRange_boot : ∀ j : Fin 7, RegisterInRange j (Server.boot.holdingRegisters j)
  | 0 => .inr (show (1 : UInt16).toNat ≤ 3 by decide)
  | 1 => .inr (show (50 : UInt16).toNat ≤ 100 by decide)
  | 2 => .inr (show 2 ≤ (50 : UInt16).toNat ∧ (50 : UInt16).toNat ≤ 500 by decide)
  | 3 => .inr (show (21000 : UInt16).toNat < 24000 by decide)
  | 4 => .inr (show 500 ≤ (1000 : UInt16).toNat ∧ (1000 : UInt16).toNat ≤ 1000 by decide)
  | 5 => .inr (show (8 : UInt16).toNat ≤ 8 by decide)
  | 6 => .inr trivial

theorem documented_boot : Documented Params.boot where
  waveType := Nat.zero_le 2
  dutyCycle := show 50 ≤ 100 by decide
  frequency :=
    rounding_cases (P := fun r r' => .finite (1 / 500) ≤ r.convert (r'.round (5 / 100)) ∧
      r.convert (r'.round (5 / 100)) ≤ .finite (1 / 2)) (by decide +kernel) (by decide +kernel)
  amplitude := show 21 ≤ 23 by decide
  excitation := show Value.finite (1 / 2) ≤ .finite 1 ∧ Value.finite 1 ≤ .finite 1 by decide +kernel
  muxFreq := show 1 ≤ 8 ∧ 8 ≤ 8 by decide

theorem inForce_boot : InForce boot where
  sound := sound_boot
  documented := documented_boot
  registers := registerInRange_boot

/-- **One pass of the main loop.**  It leaves documented parameters exactly if what it
writes is in range. -/
theorem InForce.turnStep {fw : Firmware} (t : Target) (h : InForce fw) (q : Malloc ℕ × Frame) :
    ∃ fw', turnStep t fw q = .ok fw' ∧ (Documented fw'.server.params ↔ WriteInRange q.2.bytes) ∧
      (WriteInRange q.2.bytes → InForce fw') := by
  obtain ⟨fw', hstep, hsound, hsettings⟩ := turnStep_settings t h.sound q
  refine ⟨fw', hstep, ?_⟩
  have hparams : fw'.server.params = (fw.settings.frame q.2.bytes).params := congrArg Settings.params hsettings
  have hregisters : fw'.server.holdingRegisters = (fw.settings.frame q.2.bytes).registers :=
    congrArg Settings.registers hsettings
  cases hw : acceptedWrite q.2.bytes with
  | none =>
      rw [Settings.frame_of_none hw] at hparams hregisters
      have hin : WriteInRange q.2.bytes := by
        intro start values hsome
        rw [hw] at hsome
        cases hsome
      have hdoc : Documented fw'.server.params := hparams ▸ h.documented
      exact ⟨iff_of_true hdoc hin, fun _ => ⟨hsound, hdoc, hregisters ▸ h.registers⟩⟩
  | some w =>
      obtain ⟨start, values⟩ := w
      rw [Settings.frame_of_some hw] at hparams hregisters
      have hin : WriteInRange q.2.bytes ↔
          ∀ j : Fin 7, RegisterInRange j (storeFrom fw.server.holdingRegisters start values j) := by
        rw [registersInRange_storeFrom_iff h.registers (acceptedWrite_le q.2.deliverable.1 hw)]
        constructor
        · exact fun hwrite => hwrite start values hw
        · intro hvalues start' values' hw'
          rw [hw, Option.some.injEq, Prod.mk.injEq] at hw'
          obtain ⟨rfl, rfl⟩ := hw'
          exact hvalues
      have hiff := documented_modbusUpdateParameters_iff
        (storeFrom fw.server.holdingRegisters start values) h.documented
      rw [← hin] at hiff
      rw [hparams]
      exact ⟨hiff, fun hwrite => ⟨hsound, hparams ▸ hiff.2 hwrite, hregisters ▸ hin.1 hwrite⟩⟩

/-- **The parameters stay in the documented ranges exactly for writes in range.**  From
boot, every pass of the Modbus main loop ends, and the parameters in force are in
the documented ranges in every state of a run if and only if every accepted write
of the run carries only values in the range of their registers. -/
theorem documented_iff (t : Target) (qs : List (Malloc ℕ × Frame)) :
    (∀ rs, rs <+: qs →
      ∃ fw, rs.foldlM (turnStep t) boot = .ok fw ∧ Documented fw.server.params) ↔
    ∀ q ∈ qs, WriteInRange q.2.bytes :=
  Run.foldlM_prefix_iff inForce_boot (fun _ h => h.documented) (fun _ q h => h.turnStep t q) qs

end

attribute [local instance] Arithmetic.uncontracted

/-- A write of the value 5 to holding register 0. -/
def writeWaveType5 : Frame := ⟨withCRC [0x01, 0x06, 0x00, 0x00, 0x00, 0x05], by decide⟩

/-- **A wave type the firmware does not have is put into force.** -/
theorem waveType_four_in_force :
    ∃ fw, [(zeroedMalloc, writeWaveType5)].foldlM (turnStep .saturating) boot = .ok fw ∧
      fw.server.params.waveType = 4 ∧ ¬ Documented fw.server.params := by
  obtain ⟨fw, out, hturn, -⟩ :=
    turn_ok .saturating zeroedMalloc writeWaveType5.deliverable.1 sound_boot
  have hw : acceptedWrite writeWaveType5.bytes = some (0, [5]) := by decide
  have hwave : fw.server.params.waveType = 4 := by
    rw [turn_of_write _ _ _ writeWaveType5.deliverable.1 hw] at hturn
    obtain ⟨⟨d', status⟩, -, hfw⟩ := Run.bind_eq_ok.1 hturn
    cases hfw
    rfl
  refine ⟨fw, ?_, hwave, fun hdoc => ?_⟩
  · rw [List.foldlM_cons, turnStep, hturn]
    rfl
  · have := hdoc.waveType
    omega

end Firmware
end GasSensor
