/-
# The holding registers and the parameters in force

An accepted write stores its registers and then puts all seven registers into
the parameters, whichever of them it addresses; a register that holds 0 leaves
its parameter alone.  `Settings.frame` is this on registers and parameters
alone, and `turnStep_settings` says that the main loop does nothing else to
them.

`registers_describe` compares the two sides in the units of the register map of
`source/Modbus_files/modbus.h`.
-/

import GasSensor.Firmware.ModbusLoop

namespace GasSensor
namespace Firmware

open FloatingPoint Modbus

/-- A register that is not zero replaces the value. -/
theorem unlessZero_of_ne {α : Type*} {register : UInt16} (h : register ≠ 0) (value kept : α) :
    unlessZero register value kept = value :=
  if_pos h

/-- A register that is zero keeps the value. -/
theorem unlessZero_zero {α : Type*} {register : UInt16} (h : register = 0) (value kept : α) :
    unlessZero register value kept = kept :=
  if_neg (not_not.2 h)

/-- The holding registers with the parameters in force. -/
structure Settings where
  registers : Fin 7 → UInt16
  params : Params

/-- The settings of the firmware. -/
def settings (fw : Firmware) : Settings := ⟨fw.server.holdingRegisters, fw.server.params⟩

variable {t : Target} {fw fw' : Firmware} {qs : List (Malloc ℕ × Frame)}

section
variable [Arithmetic] {c : Value} {k : ℕ}

/-- A thousandth is rounded once. -/
theorem thousandth_eq (w : UInt16) : thousandth w = float.round (w.toNat / 1000) := by
  have hlt : w.toNat < 2 ^ 24 := w.toNat_lt.trans (by decide)
  rw [thousandth, float.natCast _ hlt, Rounding.div_finite _ _ (by norm_num)]

/-- A bound that lies between two thousandths. -/
theorem le_thousandth_iff (hlow : ¬ c ≤ float.round (k / 1000)) (hhigh : c ≤ float.round ((k + 1) / 1000))
    (w : UInt16) : c ≤ thousandth w ↔ k < w.toNat := by
  rw [thousandth_eq]
  constructor
  · intro h
    by_contra hle
    refine hlow (Value.le_trans h (float.monotone ?_))
    gcongr
    omega
  · intro h
    refine Value.le_trans hhigh (float.monotone ?_)
    gcongr
    exact_mod_cast h

theorem thousandth_le_iff (hlow : float.round (k / 1000) ≤ c) (hhigh : ¬ float.round ((k + 1) / 1000) ≤ c)
    (w : UInt16) : thousandth w ≤ c ↔ w.toNat ≤ k := by
  rw [thousandth_eq]
  constructor
  · intro h
    by_contra hle
    refine hhigh (Value.le_trans (float.monotone ?_) h)
    gcongr
    exact_mod_cast not_le.1 hle
  · intro h
    refine Value.le_trans (float.monotone ?_) hlow
    gcongr

/-- From 2 thousandths on a frequency is not too low. -/
theorem lowestFreqPossible_le_thousandth_iff (w : UInt16) : lowestFreqPossible ≤ thousandth w ↔ 2 ≤ w.toNat :=
  le_thousandth_iff (k := 1)
    (rounding_cases (P := fun r r' => ¬ r'.round (2 / 1000) ≤ r.round ((1 : ℕ) / 1000))
      (by decide +kernel) (by decide +kernel))
    (rounding_cases (P := fun r r' => r'.round (2 / 1000) ≤ r.round (((1 : ℕ) + 1) / 1000))
      (by decide +kernel) (by decide +kernel)) w

/-- **An amplitude loses its millivolts.** -/
theorem truncate_thousandth (w : UInt16) : (thousandth w).truncate = w.toNat / 1000 := by
  have hbounds : ∀ k < 66, ¬ .finite ((k : ℕ) + 1) ≤ float.round (((1000 * k + 999 : ℕ) : ℚ) / 1000) :=
    rounding_cases (P := fun r _ => ∀ k < 66, ¬ .finite ((k : ℕ) + 1) ≤ r.round (((1000 * k + 999 : ℕ) : ℚ) / 1000))
      (by decide +kernel) (by decide +kernel)
  have hlt := w.toNat_lt
  obtain ⟨x, hx, -, h66⟩ := float.exists_round (m := 0) (n := 66) (by decide) (x := w.toNat / 1000)
    (by push_cast; positivity)
    (by rw [div_le_iff₀ (by norm_num)]; exact_mod_cast (show w.toNat ≤ 66 * 1000 by omega))
  have hvalue : thousandth w = .finite x := (thousandth_eq w).trans hx
  refine eq_of_forall_lt_iff fun k => ?_
  rw [hvalue, Value.lt_truncate_iff, ← hvalue]
  rcases Nat.lt_or_ge k 66 with hk | hk
  · have hround : float.round (((1000 * k + 999 : ℕ) + 1) / 1000) = .finite ((k : ℕ) + 1) := by
      have hnat := float.natCast (k + 1) (by omega)
      push_cast at hnat ⊢
      rw [← hnat]
      congr 1
      ring
    rw [le_thousandth_iff (hbounds k hk) (by rw [hround, Value.finite_le_finite])]
    omega
  · refine iff_of_false (fun hle => ?_) (by omega)
    rw [hvalue, Value.finite_le_finite] at hle
    have : ((k + 1 : ℕ) : ℚ) ≤ (66 : ℕ) := by
      push_cast
      exact hle.trans (by exact_mod_cast h66)
    have := Nat.cast_le.1 this
    omega

end

section
variable [Arithmetic]

namespace Settings

/-- Registers are stored, and all of them are put into the parameters. -/
def write (c : Settings) (start : ℕ) (values : List UInt16) : Settings where
  registers := storeFrom c.registers start values
  params := modbusUpdateParameters (storeFrom c.registers start values) c.params

/-- What a frame does to the settings. -/
def frame (c : Settings) (bytes : List UInt8) : Settings :=
  match acceptedWrite bytes with
  | none => c
  | some (start, values) => c.write start values

variable {c : Settings} {bytes : List UInt8}

theorem frame_of_none (h : acceptedWrite bytes = none) : c.frame bytes = c := by
  rw [frame, h]

theorem frame_of_some {start : ℕ} {values : List UInt16} (h : acceptedWrite bytes = some (start, values)) :
    c.frame bytes = c.write start values := by
  rw [frame, h]

end Settings

/-- **One pass of the main loop** ends and does to the settings what its frame does. -/
theorem turnStep_settings (t : Target) (h : Sound fw) (q : Malloc ℕ × Frame) :
    ∃ fw', turnStep t fw q = .ok fw' ∧ Sound fw' ∧ fw'.settings = fw.settings.frame q.2.bytes := by
  have hb := q.2.deliverable.1
  obtain ⟨fw', out, hturn, hsound⟩ := turn_ok t q.1 hb h
  refine ⟨fw', by rw [turnStep, hturn]; rfl, hsound, ?_⟩
  cases hw : acceptedWrite q.2.bytes with
  | none =>
      obtain ⟨inputRegisters, out', hturn'⟩ := turn_of_no_write t q.1 hb h.unchanged hw
      rw [hturn'] at hturn
      cases hturn
      rw [Settings.frame_of_none hw]
      rfl
  | some w =>
      obtain ⟨start, values⟩ := w
      rw [turn_of_write t q.1 fw hb hw] at hturn
      obtain ⟨⟨d', status⟩, -, hfw'⟩ := Run.bind_eq_ok.1 hturn
      cases hfw'
      rw [Settings.frame_of_some hw]
      rfl

/-- **The settings after a run of the main loop** are those the frames give one after the
other. -/
theorem run_settings (t : Target) (h : Sound fw) (qs : List (Malloc ℕ × Frame)) :
    ∃ fw', qs.foldlM (turnStep t) fw = .ok fw' ∧ Sound fw' ∧
      fw'.settings = qs.foldl (fun c q => c.frame q.2.bytes) fw.settings := by
  induction qs generalizing fw with
  | nil => exact ⟨fw, rfl, h, rfl⟩
  | cons q qs ih =>
      obtain ⟨u, hu, hsound, hsettings⟩ := turnStep_settings t h q
      obtain ⟨fw', hfw', hsound', hsettings'⟩ := ih hsound
      refine ⟨fw', ?_, hsound', ?_⟩
      · rw [List.foldlM_cons, hu, Run.ok_bind, hfw']
      · rw [List.foldl_cons, ← hsettings, hsettings']

/-- The main loop keeps `Sound`. -/
theorem sound_of_run (h : qs.foldlM (turnStep t) boot = .ok fw) : Sound fw := by
  obtain ⟨fw', hfw', hsound, -⟩ := run_settings t sound_boot qs
  rw [h, Except.ok.injEq] at hfw'
  exact hfw' ▸ hsound

/-- Frames that write nothing leave the settings. -/
theorem foldl_frame_of_none {rs : List (Malloc ℕ × Frame)} (h : ∀ r ∈ rs, acceptedWrite r.2.bytes = none)
    (c : Settings) : rs.foldl (fun c q => c.frame q.2.bytes) c = c := by
  induction rs with
  | nil => rfl
  | cons r rs ih =>
      rw [List.foldl_cons, Settings.frame_of_none (h r List.mem_cons_self)]
      exact ih fun r' hr' => h r' (List.mem_cons_of_mem r hr')

end

attribute [local instance] Arithmetic.exact

theorem thousandth_exact (w : UInt16) : thousandth w = .finite (w.toNat / 1000) := thousandth_eq w

/-- **Register `j` describes its parameter** in the units of the register map. -/
def Describes (registers : Fin 7 → UInt16) (p : Params) : Fin 7 → Prop
  | 0 => p.waveType + 1 = (registers 0).toNat
  | 1 => p.dutyCycle = (registers 1).toNat
  | 2 => ∃ f, p.desiredFrequency = .finite f ∧ 1000 * f = (registers 2).toNat
  | 3 => 1000 * p.desiredAmplitude = (registers 3).toNat
  | 4 => ∃ v, p.gExcitationVoltagePerResistor = .finite v ∧ 1000 * v = (registers 4).toNat
  | 5 => p.muxFreq = (registers 5).toNat
  | 6 => ∀ i : Strip, p.activeStrips i = (registers 6).toNat.testBit i

/-- The parameter of register `j` is the same. -/
def SameParameter (p p' : Params) : Fin 7 → Prop
  | 0 => p'.waveType = p.waveType
  | 1 => p'.dutyCycle = p.dutyCycle
  | 2 => p'.desiredFrequency = p.desiredFrequency
  | 3 => p'.desiredAmplitude = p.desiredAmplitude
  | 4 => p'.gExcitationVoltagePerResistor = p.gExcitationVoltagePerResistor
  | 5 => p'.muxFreq = p.muxFreq
  | 6 => p'.activeStrips = p.activeStrips ∧ p'.gStripCount = p.gStripCount

variable {registers : Fin 7 → UInt16}

/-- A register that is not zero describes its parameter once it is in force.  The
amplitude is stored in whole volts. -/
theorem describes_modbusUpdateParameters (p : Params) {j : Fin 7} (h : registers j ≠ 0)
    (hvolts : j = 3 → 1000 ∣ (registers 3).toNat) :
    Describes registers (modbusUpdateParameters registers p) j := by
  match j with
  | 0 =>
      have hpos : (registers 0).toNat ≠ 0 := fun h0 => h (UInt16.toNat_inj.1 h0)
      change unlessZero (registers 0) ((registers 0).toNat - 1) p.waveType + 1 = _
      rw [unlessZero_of_ne h]
      omega
  | 1 => exact unlessZero_of_ne h _ _
  | 2 => exact ⟨_, (unlessZero_of_ne h _ _).trans (thousandth_exact _), mul_div_cancel₀ _ (by norm_num)⟩
  | 3 =>
      change 1000 * unlessZero (registers 3) _ p.desiredAmplitude = _
      rw [unlessZero_of_ne h, truncate_thousandth]
      exact Nat.mul_div_cancel' (hvolts rfl)
  | 4 => exact ⟨_, (unlessZero_of_ne h _ _).trans (thousandth_exact _), mul_div_cancel₀ _ (by norm_num)⟩
  | 5 => exact unlessZero_of_ne h _ _
  | 6 => exact fun i => congrFun (unlessZero_of_ne h _ p.activeStrips) i

/-- A register that is zero leaves its parameter. -/
theorem sameParameter_modbusUpdateParameters (p : Params) {j : Fin 7} (h : registers j = 0) :
    SameParameter p (modbusUpdateParameters registers p) j := by
  match j with
  | 0 | 1 | 2 | 3 | 4 | 5 => exact unlessZero_zero h _ _
  | 6 => exact ⟨unlessZero_zero h _ _, unlessZero_zero h _ _⟩

/-- **The holding registers describe the configuration in force**, as far as they are not
zero: in every run of the main loop, after an accepted write and whatever frames that
write nothing follow.  An amplitude is described if it is a whole number of volts.  A
register that holds 0 leaves its parameter as it was before the write. -/
theorem registers_describe (hrun : qs.foldlM (turnStep t) boot = .ok fw) {q : Malloc ℕ × Frame}
    (hq : (acceptedWrite q.2.bytes).isSome) {rs : List (Malloc ℕ × Frame)}
    (hrs : ∀ r ∈ rs, acceptedWrite r.2.bytes = none) :
    ∃ fw', (q :: rs).foldlM (turnStep t) fw = .ok fw' ∧ ∀ j : Fin 7,
      (fw'.server.holdingRegisters j ≠ 0 → (j = 3 → 1000 ∣ (fw'.server.holdingRegisters 3).toNat) →
        Describes fw'.server.holdingRegisters fw'.server.params j) ∧
      (fw'.server.holdingRegisters j = 0 → SameParameter fw.server.params fw'.server.params j) := by
  obtain ⟨⟨start, values⟩, hw⟩ := Option.isSome_iff_exists.1 hq
  obtain ⟨fw', hfw', -, hsettings⟩ := run_settings t (sound_of_run hrun) (q :: rs)
  rw [List.foldl_cons, foldl_frame_of_none hrs, Settings.frame_of_some hw] at hsettings
  have hregisters : fw'.server.holdingRegisters = storeFrom fw.server.holdingRegisters start values :=
    congrArg Settings.registers hsettings
  have hparams : fw'.server.params = modbusUpdateParameters fw'.server.holdingRegisters fw.server.params := by
    rw [hregisters]
    exact congrArg Settings.params hsettings
  refine ⟨fw', hfw', fun j => ?_⟩
  rw [hparams]
  exact ⟨describes_modbusUpdateParameters _, sameParameter_modbusUpdateParameters _⟩

/-- The hypotheses of `registers_describe` are satisfiable: a write of 3 to register 0 right
after boot. -/
theorem registers_describe_writeWaveType :
    ∃ fw', [(zeroedMalloc, (⟨withCRC [0x01, 0x06, 0x00, 0x00, 0x00, 0x03], by decide⟩ : Frame))].foldlM
        (turnStep .saturating) boot = .ok fw' ∧ ∀ j : Fin 7,
      (fw'.server.holdingRegisters j ≠ 0 → (j = 3 → 1000 ∣ (fw'.server.holdingRegisters 3).toNat) →
        Describes fw'.server.holdingRegisters fw'.server.params j) ∧
      (fw'.server.holdingRegisters j = 0 → SameParameter boot.server.params fw'.server.params j) :=
  registers_describe (show ([] : List (Malloc ℕ × Frame)).foldlM (turnStep .saturating) boot = .ok boot from rfl)
    (by decide) (fun r hr => absurd hr List.not_mem_nil)

/-- A write of the value 0 to holding register 0. -/
def writeWaveType0 : Frame := ⟨withCRC [0x01, 0x06, 0x00, 0x00, 0x00, 0x00], by decide⟩

/-- **A register that holds 0 describes nothing.**  After this write register 0 reads 0, and
no wave type is described by that. -/
theorem writeWaveType0_not_described :
    ∃ fw, [(zeroedMalloc, writeWaveType0)].foldlM (turnStep .saturating) boot = .ok fw ∧
      (acceptedWrite writeWaveType0.bytes).isSome ∧
      ¬ ∀ j, Describes fw.server.holdingRegisters fw.server.params j := by
  obtain ⟨fw, hfw, -, hsettings⟩ := run_settings .saturating sound_boot [(zeroedMalloc, writeWaveType0)]
  have hw : acceptedWrite writeWaveType0.bytes = some (0, [0]) := by decide
  refine ⟨fw, hfw, by rw [hw]; rfl, fun h => ?_⟩
  rw [List.foldl_cons, Settings.frame_of_some hw] at hsettings
  have hzero : fw.server.holdingRegisters 0 = 0 := congrFun (congrArg Settings.registers hsettings) 0
  have h0 : fw.server.params.waveType + 1 = (fw.server.holdingRegisters 0).toNat := h 0
  rw [hzero] at h0
  exact Nat.succ_ne_zero _ h0

end Firmware
end GasSensor
