/-
# Reported success and what has been applied

After a configuration the user is told that the parameters are set: in GUI mode
when `InitializeAllPeripherals` returns 0, in Modbus mode by the response to the
write, before `InitializeAllPeripherals` runs and whatever it returns.
`Applied` says that the peripherals really follow the parameters, `Applicable`
is the condition on the parameters and on `malloc`, and
`reported_applied_iff` compares the two.
-/

import GasSensor.Firmware.Initialize

namespace GasSensor
namespace Firmware

open FloatingPoint HotPlate Sampler

variable [Arithmetic]

/-- **The peripherals follow the parameters.** -/
structure Applied (t : Target) (p : Params) (d : Peripherals) : Prop where
  size : 1 ≤ d.hotPlate.valueArraySize ∧ d.hotPlate.valueArraySize ≤ maxArraySize
  waveform : ∃ w, waveform t p d.hotPlate.valueArraySize = some w ∧
    ∀ i < d.hotPlate.valueArraySize, d.hotPlate.values i = w i
  excitation : ∃ r, excitationCode p = .finite r ∧ (d.dac0 : ℤ) = ⌊r⌋
  strips : d.sampler.activeStripIndices = .live (p.strips.map Fin.val)
  timer : d.sampler.ctimer2 = some (48000000 / (p.muxFreq * softwareAverageCount)) ∧
    d.sampler.currentActiveStripIndex = 0 ∧ d.sampler.currentCountIndex = 0

/-- `initialize_dac_hot_plate` returns -1. -/
def Rejected (p : Params) : Prop := p.desiredFrequency < lowestFreqPossible ∨ 2 < p.waveType

/-- A period has a sample.  The number of samples for a frequency that is not a number is
up to the machine. -/
def HasSample (t : Target) (p : Params) : Prop :=
  .finite 1 ≤ float.div (.finite sampleRate) p.desiredFrequency ∨
    (p.desiredFrequency = .nan ∧ t.undefinedU32 0 .nan % 2 ^ 32 ≠ 0)

/-- **The parameters can be put into force.**  An excitation voltage out of range
leaves DAC0 at 0, which is right only where the code would be 0 anyway. -/
structure Applicable (t : Target) (malloc : Malloc ℕ) (p : Params) : Prop where
  accepted : ¬ Rejected p
  frequency : HasSample t p
  dutyCycle : p.waveType = 0 ∨ p.dutyCycle ≤ 100
  excitation : (.finite (1 / 2) ≤ p.gExcitationVoltagePerResistor ∧ p.gExcitationVoltagePerResistor ≤ .finite 1) ∨
    (.finite 0 ≤ excitationCode p ∧ excitationCode p < .finite 1)
  memory : (malloc p.gStripCount).isSome

/-- The user has been told that the parameters are set, given what
`InitializeAllPeripherals` returned. -/
def Reported (modbusFlag : Bool) (status : ℤ) : Prop := modbusFlag = true ∨ status = 0

variable {t : Target} {malloc : Malloc ℕ} {p : Params} {d : Peripherals}

omit [Arithmetic] in
/-- In exact arithmetic the code of DAC0 is the excitation voltage in its steps. -/
theorem excitationCode_exact {v : ℚ} (hv : p.gExcitationVoltagePerResistor = .finite v) :
    @excitationCode .exact p = .finite (v * p.gStripCount / 3 / (33 / 10) * 4095) := by
  simp [excitationCode, dacOutputVoltage, totalVoltage, amplifierGain, hv, Rounding.div_finite]

theorem rejected_iff : Rejected p ↔ (initializeDacHotPlate t p).2 ≠ 0 := by
  rw [Ne, initializeDacHotPlate_snd, Rejected, not_and_or, not_not, not_le]

/-- A rejected configuration ends after the hot plate. -/
theorem initializeAllPeripherals_of_rejected (h : Rejected p) {hotPlate : HotPlate}
    (hrun : (initializeDacHotPlate t p).1.foldlM (HotPlate.exec t) d.hotPlate = .ok hotPlate) :
    initializeAllPeripherals t malloc p d = .ok ({ d with hotPlate := hotPlate }, -1) := by
  have hstatus := (rejected_iff (t := t)).1 h
  simp only [initializeAllPeripherals, hrun, Run.ok_bind]
  exact if_pos hstatus

/-- Every other configuration goes on with the sampler and the excitation. -/
theorem initializeAllPeripherals_of_not_rejected (h : ¬ Rejected p) {hotPlate : HotPlate}
    (hrun : (initializeDacHotPlate t p).1.foldlM (HotPlate.exec t) d.hotPlate = .ok hotPlate) :
    initializeAllPeripherals t malloc p d = configure malloc p d.sampler >>= fun sampler =>
      .ok (⟨hotPlate, clearMeasurement sampler, initializeExcitationDac t p⟩, 0) := by
  have hstatus := mt (rejected_iff (t := t)).2 h
  simp only [initializeAllPeripherals, hrun, Run.ok_bind]
  rw [if_neg hstatus, configure, bind_assoc]

/-- **What `InitializeAllPeripherals` can do** when it ends: stop after the hot plate, or
configure the sampler and reset clock and resistances. -/
theorem initializeAllPeripherals_cases {d' : Peripherals} {status : ℤ}
    (h : initializeAllPeripherals t malloc p d = .ok (d', status)) :
    (Rejected p ∧ status = -1 ∧ d' = { d with hotPlate := d'.hotPlate }) ∨
      (¬ Rejected p ∧ status = 0 ∧ ∃ s', configure malloc p d.sampler = .ok s' ∧
        d'.sampler = clearMeasurement s') := by
  obtain ⟨hotPlate, hrun, -⟩ := initializeDacHotPlate_run t p d.hotPlate
  by_cases hr : Rejected p
  · rw [initializeAllPeripherals_of_rejected hr hrun] at h
    cases h
    exact .inl ⟨hr, rfl, rfl⟩
  · rw [initializeAllPeripherals_of_not_rejected hr hrun] at h
    obtain ⟨s', hs', h⟩ := Run.bind_eq_ok.1 h
    cases h
    exact .inr ⟨hr, rfl, s', hs', rfl⟩

/-- With a multiplexer frequency and no dangling pointer a configuration ends, and
leaves no dangling pointer. -/
theorem initializeAllPeripherals_ok (t : Target) (malloc : Malloc ℕ) {p : Params} {d : Peripherals}
    (hp : p.Counted) (hf : p.muxFreq ≠ 0) (hd : d.sampler.activeStripIndices ≠ .freed) :
    ∃ d' status, initializeAllPeripherals t malloc p d = .ok (d', status) ∧
      d'.sampler.activeStripIndices ≠ .freed := by
  obtain ⟨hotPlate, hrun, -⟩ := initializeDacHotPlate_run t p d.hotPlate
  by_cases hr : Rejected p
  · exact ⟨_, _, initializeAllPeripherals_of_rejected hr hrun, hd⟩
  · obtain ⟨s', hs'⟩ := configure_total malloc hp hf hd
    rw [initializeAllPeripherals_of_not_rejected hr hrun, hs', Run.ok_bind]
    refine ⟨_, _, rfl, ?_⟩
    have hblock := (configure_ok hp hs').2.2.2.2
    change s'.activeStripIndices ≠ .freed
    rw [hblock]
    split <;> simp

/-- The waveform is defined exactly for a wave type and duty cycle the generators
accept. -/
theorem rawWave_isSome_iff (t : Target) (p : Params) (size : ℕ) :
    (rawWave t p size).isSome ↔ p.waveType ≤ 2 ∧ (p.waveType = 0 ∨ p.dutyCycle ≤ 100) := by
  unfold rawWave
  match hw : p.waveType with
  | 0 => simp
  | 1 | 2 =>
      by_cases hd : p.dutyCycle > 100
      · simp [hd, not_le.2 hd]
      · simp [hd, not_lt.1 hd]
  | n + 3 => simp

/-- A voltage per strip in range keeps the output in range. -/
theorem excitation_mem (hn : p.gStripCount ≤ 8) (hlow : .finite (1 / 2) ≤ p.gExcitationVoltagePerResistor)
    (hhigh : p.gExcitationVoltagePerResistor ≤ .finite 1) :
    ¬ .finite 8 < totalVoltage p ∧ ∃ r, excitationCode p = .finite r ∧ 0 ≤ r ∧ r ≤ 4095 := by
  obtain ⟨v, hv, hv0, hv1⟩ := Value.exists_finite hlow hhigh
  have hcount : (p.gStripCount : ℚ) ≤ 8 := by exact_mod_cast hn
  obtain ⟨total, htotal, ht0, ht8⟩ := float.exists_round (m := 0) (n := 8) (by decide)
    (x := v * p.gStripCount) (by push_cast; positivity) (by push_cast; nlinarith)
  push_cast at ht0 ht8
  obtain ⟨third, hthird, h0, h3⟩ := double.exists_round (m := 0) (n := 3) (by decide)
    (x := total / 3) (by push_cast; positivity) (by push_cast; linarith)
  push_cast at h0 h3
  obtain ⟨output, houtput, ho0, ho3⟩ := float.exists_round (m := 0) (n := 3) (by decide)
    (x := third) (by exact_mod_cast h0) (by exact_mod_cast h3)
  push_cast at ho0 ho3
  obtain ⟨reference, hreference, hr3, hr4⟩ := double.exists_round (m := 3) (n := 4) (by decide)
    (x := 33 / 10) (by norm_num) (by norm_num)
  push_cast at hr3 hr4
  obtain ⟨share, hshare, hs0, hs1⟩ := double.exists_round (m := 0) (n := 1) (by decide)
    (x := output / reference) (by push_cast; positivity)
    (by push_cast; rw [div_le_one (by linarith)]; linarith)
  push_cast at hs0 hs1
  obtain ⟨code, hcode, hc0, hc1⟩ := double.exists_round (m := 0) (n := 4095) (by decide)
    (x := share * 4095) (by push_cast; positivity) (by push_cast; linarith)
  push_cast at hc0 hc1
  have htotalVoltage : totalVoltage p = .finite total := by
    rw [totalVoltage, hv, float.natCast _ (by omega), Rounding.mul_finite, htotal]
  have houtputVoltage : dacOutputVoltage p = .finite output := by
    rw [dacOutputVoltage, htotalVoltage, amplifierGain, Rounding.div_finite _ _ (by norm_num), hthird,
      Rounding.convert_finite, houtput]
  refine ⟨?_, code, ?_, hc0, hc1⟩
  · rw [htotalVoltage]
    exact not_lt.2 ht8
  · rw [excitationCode, houtputVoltage, hreference, Rounding.div_finite _ _ (by linarith), hshare,
      Rounding.mul_finite, hcode]

/-- `initialize_excitation_dac` puts out the code of the excitation voltage exactly
for a voltage in range, or where that code is 0. -/
theorem initializeExcitationDac_eq_iff (hn : p.gStripCount ≤ 8) :
    (∃ r, excitationCode p = .finite r ∧ (initializeExcitationDac t p : ℤ) = ⌊r⌋) ↔
      (.finite (1 / 2) ≤ p.gExcitationVoltagePerResistor ∧ p.gExcitationVoltagePerResistor ≤ .finite 1) ∨
        (.finite 0 ≤ excitationCode p ∧ excitationCode p < .finite 1) := by
  have hon : ¬ gExcitationVoltageOn = false := by decide
  by_cases hin : .finite (1 / 2) ≤ p.gExcitationVoltagePerResistor ∧ p.gExcitationVoltagePerResistor ≤ .finite 1
  · obtain ⟨htotal, r, hcode, h0, h1⟩ := excitation_mem hn hin.1 hin.2
    have hrange : ¬ (p.gExcitationVoltagePerResistor < .finite (1 / 2) ∨
        .finite 1 < p.gExcitationVoltagePerResistor) :=
      not_or.2 ⟨Value.not_lt_of_le hin.1, Value.not_lt_of_le hin.2⟩
    have hfloor : 0 ≤ ⌊r⌋ := Int.floor_nonneg.2 h0
    have hfloor_le : ⌊r⌋ ≤ 4095 := Int.floor_le_iff.2 (by push_cast; linarith)
    have hset : initializeExcitationDac t p = ⌊r⌋.toNat := by
      have hword : t.toU32 0 (.finite r) = ⌊r⌋.toNat := if_pos ⟨by linarith, h1.trans_lt (by norm_num)⟩
      rw [initializeExcitationDac, setExcitationVoltage, if_neg hon, if_neg hrange, if_neg htotal, hcode]
      dsimp only
      rw [hword, if_neg (by omega)]
    refine iff_of_true ⟨r, hcode, ?_⟩ (.inl hin)
    rw [hset, Int.toNat_of_nonneg hfloor]
  by_cases hrange : p.gExcitationVoltagePerResistor < .finite (1 / 2) ∨
      .finite 1 < p.gExcitationVoltagePerResistor
  · have hset : initializeExcitationDac t p = 0 := by
      rw [initializeExcitationDac, setExcitationVoltage, if_neg hon, if_pos hrange]
    rw [hset, or_iff_right hin]
    constructor
    · rintro ⟨r, hcode, hr⟩
      rw [Nat.cast_zero, eq_comm, Int.floor_eq_zero_iff, Set.mem_Ico] at hr
      rw [hcode]
      exact hr
    · rintro ⟨hlow, hhigh⟩
      match hcode : excitationCode p with
      | .finite r =>
          rw [hcode] at hlow hhigh
          refine ⟨r, rfl, ?_⟩
          rw [Nat.cast_zero, eq_comm, Int.floor_eq_zero_iff, Set.mem_Ico]
          exact ⟨hlow, hhigh⟩
      | .infinite true =>
          rw [hcode] at hlow
          cases hlow
      | .infinite false =>
          rw [hcode] at hhigh
          cases hhigh
      | .nan =>
          rw [hcode] at hhigh
          cases hhigh
  · -- only a voltage that is not a number passes both comparisons
    have hnan : p.gExcitationVoltagePerResistor = .nan := by
      by_contra hne
      obtain ⟨hlow, hhigh⟩ := not_or.1 hrange
      exact hin ⟨Value.le_of_not_lt (by simp) hne hlow, Value.le_of_not_lt hne (by simp) hhigh⟩
    have hcode : excitationCode p = .nan := by
      rw [excitationCode, dacOutputVoltage, totalVoltage, hnan]
      cases float.round p.gStripCount <;> cases double.round (33 / 10) <;> rfl
    rw [hcode, hnan]
    refine iff_of_false ?_ ?_
    · rintro ⟨r, hr, -⟩
      cases hr
    · rintro (⟨h, -⟩ | ⟨h, -⟩) <;> cases h

/-- The table has an entry exactly if a period has a sample. -/
theorem one_le_arraySize_iff (h : ¬ Rejected p) : 1 ≤ arraySize t p ↔ HasSample t p := by
  have hlow : ¬ p.desiredFrequency < lowestFreqPossible := (not_or.1 h).1
  by_cases hnan : p.desiredFrequency = .nan
  · have hsize : tableSize t p = t.undefinedU32 0 .nan % 2 ^ 32 := by
      rw [tableSize, samples_eq, hnan]
      rfl
    have hnot : ¬ Value.finite 1 ≤ float.div (.finite sampleRate) p.desiredFrequency := by
      rw [hnan]
      exact id
    rw [HasSample, or_iff_right hnot, and_iff_right hnan, arraySize, hsize, le_min_iff]
    exact (and_iff_left (by decide)).trans Nat.one_le_iff_ne_zero
  · obtain ⟨d, hd, -⟩ := lowestFreqPossible_eq
    have hle : lowestFreqPossible ≤ p.desiredFrequency := Value.le_of_not_lt (by rw [hd]; simp) hnan hlow
    rw [HasSample, or_iff_left fun hc => hnan hc.1, ← samples_eq, ← one_le_tableSize_iff (t := t) hle,
      arraySize, min_eq_left (tableSize_le hle)]

/-- A configuration that is not rejected and does not fault is applied exactly for
applicable parameters. -/
theorem applied_iff_of_not_rejected (hp : p.Counted) (h : ¬ Rejected p) {d' : Peripherals} {status : ℤ}
    (hinit : initializeAllPeripherals t malloc p d = .ok (d', status)) :
    status = 0 ∧ (Applied t p d' ↔ Applicable t malloc p) := by
  obtain ⟨hfreq, hwave⟩ := not_or.1 h
  obtain ⟨hotPlate, hrun, hsize, -, hentries⟩ := initializeDacHotPlate_run t p d.hotPlate
  rw [initializeAllPeripherals_of_not_rejected h hrun, Run.bind_eq_ok] at hinit
  obtain ⟨sampler, hsampler, hd'⟩ := hinit
  obtain ⟨-, htimer, hidx, hcnt, hblock⟩ := configure_ok hp hsampler
  have hn : p.gStripCount ≤ 8 := by
    rw [hp.eq_length]
    exact stripList_length_le _
  cases hd'
  refine ⟨rfl, fun ha => ?_, fun ha => ?_⟩
  · obtain ⟨w, hw, -⟩ := ha.waveform
    have hsome : (rawWave t p hotPlate.valueArraySize).isSome := by
      rw [waveform] at hw
      rw [← Option.isSome_map, hw]
      rfl
    refine ⟨h, (one_le_arraySize_iff h).1 (hsize ▸ ha.size.1), ((rawWave_isSome_iff t p _).1 hsome).2,
      (initializeExcitationDac_eq_iff hn).1 ha.excitation, ?_⟩
    by_contra hm
    have hstrips : sampler.activeStripIndices = .live (p.strips.map Fin.val) := ha.strips
    rw [hblock, if_neg hm] at hstrips
    cases hstrips
  · obtain ⟨raw, hraw⟩ := Option.isSome_iff_exists.1
      ((rawWave_isSome_iff t p (arraySize t p)).2 ⟨not_lt.1 hwave, ha.dutyCycle⟩)
    have hw : waveform t p (arraySize t p)
        = some fun i => scaleWord t i (raw i) (maxDacValue p) := by rw [waveform, hraw]; rfl
    exact {
      size := by
        change 1 ≤ hotPlate.valueArraySize ∧ hotPlate.valueArraySize ≤ maxArraySize
        rw [hsize]
        exact ⟨(one_le_arraySize_iff h).2 ha.frequency, min_le_right _ _⟩
      waveform := ⟨_, by rw [← hsize] at hw; exact hw, fun i hi =>
        hentries hfreq _ hw i (by rw [← hsize]; exact hi)⟩
      excitation := (initializeExcitationDac_eq_iff hn).2 ha.excitation
      strips := hblock.trans (if_pos ha.memory)
      timer := ⟨htimer, hidx, hcnt⟩ }

/-- Rejected parameters are not applied from every state: the table keeps whatever
it held. -/
theorem not_applied_of_rejected (t : Target) (malloc : Malloc ℕ) (h : Rejected p) :
    ∃ d d', initializeAllPeripherals t malloc p d = .ok (d', -1) ∧ ¬ Applied t p d' := by
  -- a table that differs from the waveform in its first entry
  let wave : ℕ → ℕ := (waveform t p (arraySize t p)).getD fun _ => 0
  let table : HotPlate := { HotPlate.boot with values := fun i => wave i + 1 }
  obtain ⟨hotPlate, hrun, hsize, hvalues, -⟩ := initializeDacHotPlate_run t p table
  refine ⟨⟨table, .boot, 0⟩, _, initializeAllPeripherals_of_rejected h hrun, fun ha => ?_⟩
  have hpos : 0 < hotPlate.valueArraySize := ha.size.1
  obtain ⟨w, hw, hentries⟩ : ∃ w, waveform t p hotPlate.valueArraySize = some w ∧
      ∀ i < hotPlate.valueArraySize, hotPlate.values i = w i := ha.waveform
  rcases h with hf | hwave
  · have h0 := hentries 0 hpos
    have hsame : wave = w := by
      change (waveform t p (arraySize t p)).getD (fun _ => 0) = w
      rw [← hsize, hw, Option.getD_some]
    rw [hvalues hf, ← hsame] at h0
    exact absurd h0 (Nat.succ_ne_self _)
  · have hsome : (rawWave t p hotPlate.valueArraySize).isSome := by
      rw [waveform] at hw
      rw [← Option.isSome_map, hw]
      rfl
    have := ((rawWave_isSome_iff t p _).1 hsome).1
    omega

/-- A configuration with parameters the code divides by zero for never ends. -/
theorem not_ok_of_muxFreq_eq_zero (hp : p.Counted) (h : ¬ Rejected p) (h0 : p.muxFreq = 0)
    {d' : Peripherals} {status : ℤ} :
    initializeAllPeripherals t malloc p d ≠ .ok (d', status) := by
  intro hinit
  obtain ⟨hotPlate, hrun, -⟩ := initializeDacHotPlate_run t p d.hotPlate
  rw [initializeAllPeripherals_of_not_rejected h hrun, Run.bind_eq_ok] at hinit
  obtain ⟨sampler, hsampler, -⟩ := hinit
  exact (configure_ok hp hsampler).1 h0

/-- The parameters for which every configuration that is reported is applied: the
applicable ones, and those that are never reported.  A zero multiplexer frequency
divides by zero, and in GUI mode a rejected configuration is not reported. -/
def AppliedIfReported (t : Target) (modbusFlag : Bool) (malloc : Malloc ℕ) (p : Params) : Prop :=
  Applicable t malloc p ∨ (¬ Rejected p ∧ p.muxFreq = 0) ∨ (modbusFlag = false ∧ Rejected p)

/-- **Reported success means applied, for these parameters only**, whatever the state
before. -/
theorem applied_of_reported_iff (hp : p.Counted) (modbusFlag : Bool) :
    (∀ d d' status, initializeAllPeripherals t malloc p d = .ok (d', status) →
      Reported modbusFlag status → Applied t p d') ↔ AppliedIfReported t modbusFlag malloc p := by
  constructor
  · intro h
    by_cases hr : Rejected p
    · cases modbusFlag with
      | false => exact .inr (.inr ⟨rfl, hr⟩)
      | true =>
          obtain ⟨d, d', hinit, hnot⟩ := not_applied_of_rejected t malloc hr
          exact absurd (h d d' _ hinit (.inl rfl)) hnot
    · by_cases h0 : p.muxFreq = 0
      · exact .inr (.inl ⟨hr, h0⟩)
      obtain ⟨sampler, hsampler⟩ := configure_total malloc (s := Sampler.boot) hp h0
        (by simp [Sampler.boot])
      obtain ⟨hotPlate, hrun, -⟩ := initializeDacHotPlate_run t p HotPlate.boot
      have hinit : initializeAllPeripherals t malloc p .boot
          = .ok (⟨hotPlate, clearMeasurement sampler, initializeExcitationDac t p⟩, 0) := by
        rw [initializeAllPeripherals_of_not_rejected hr hrun]
        change (configure malloc p Sampler.boot >>= _) = _
        rw [hsampler, Run.ok_bind]
      exact .inl ((applied_iff_of_not_rejected hp hr hinit).2.1 (h _ _ _ hinit (.inr rfl)))
  · rintro (ha | ⟨hr, h0⟩ | ⟨hgui, hr⟩) d d' status hinit hrep
    · exact (applied_iff_of_not_rejected hp ha.accepted hinit).2.2 ha
    · exact absurd hinit (not_ok_of_muxFreq_eq_zero hp hr h0)
    · obtain ⟨hotPlate, hrun, -⟩ := initializeDacHotPlate_run t p d.hotPlate
      rw [initializeAllPeripherals_of_rejected hr hrun] at hinit
      cases hinit
      rcases hrep with hmodbus | hstatus
      · rw [hgui] at hmodbus
        cases hmodbus
      · exact absurd hstatus (by decide)

end Firmware
end GasSensor
