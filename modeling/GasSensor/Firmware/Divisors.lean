/-
# Whether a configuration divides by zero

`InitializeAllPeripherals` of `source/main.c` divides by `desiredFrequency`, for a triangle
by `onSize`, and by `MUX_freq * SoftwareAverageCount`; the interrupt that plays the table
divides by `g_Dac14ValueArraySize`.  The frequency is compared with its lower bound after
the division, a duty cycle of 0 passes its check, and the others are not checked.

`noDivisionByZero_iff_divisorsNonzero` is the comparison for given parameters, and
`configurations_noDivisionByZero_iff` for the lines of the command loop and for runs of
the Modbus main loop, in which neither frequency is ever zero.
-/

import GasSensor.Firmware.Fields
import GasSensor.Firmware.LiveLoop
import GasSensor.Firmware.Ranges

namespace GasSensor
namespace Firmware

open CString FloatingPoint HotPlate Sampler Modbus

section
variable [Arithmetic]

/-- `generateTriangleWave` is called and gets as far as `16383.0 / onSize`. -/
def ReachesSlope (p : Params) : Prop :=
  ¬ p.desiredFrequency < lowestFreqPossible ∧ p.waveType = 2 ∧ p.dutyCycle ≤ 100

/-- **`InitializeAllPeripherals` does not divide by zero**, and if it returns 0 neither does
the interrupt that plays the table. -/
structure NoDivisionByZero (t : Target) (malloc : Malloc ℕ) (p : Params) (d : Peripherals) : Prop where
  /-- `SAMPLE_RATE / desiredFrequency`. -/
  frequency : p.desiredFrequency ≠ .finite 0
  /-- `16383.0 / onSize`. -/
  onSize : ReachesSlope p → HotPlate.onSize p (arraySize t p) ≠ 0
  /-- `48000000 / (MUX_freq * SoftwareAverageCount)`, after `initialize_dac_hot_plate` returned 0. -/
  product : (initializeDacHotPlate t p).2 = 0 → p.muxFreq * softwareAverageCount % 2 ^ 32 ≠ 0
  /-- `(g_Dac14InputIndex + 1) % g_Dac14ValueArraySize`. -/
  arraySize : ∀ d', initializeAllPeripherals t malloc p d = .ok (d', 0) → d'.hotPlate.valueArraySize ≠ 0

/-- The samples in a period.  For a frequency that is not a number their number is up to the
machine, and at most `MAX_ARRAY_SIZE`. -/
def periodSamples (t : Target) (p : Params) : ℕ :=
  if p.desiredFrequency = .nan then min (t.undefinedU32 0 .nan % 2 ^ 32) maxArraySize
  else (float.div (.finite sampleRate) p.desiredFrequency).truncate

/-- **The waveform fits**: a period has a sample, and the rising part of a triangle too. -/
structure WaveFits (t : Target) (p : Params) : Prop where
  period : 1 ≤ periodSamples t p
  triangle : p.waveType = 2 → p.dutyCycle ≤ 100 → 100 ≤ periodSamples t p * p.dutyCycle

/-- **The parameters for which no divisor is zero.** -/
structure DivisorsNonzero (t : Target) (p : Params) : Prop where
  frequency : p.desiredFrequency ≠ .finite 0
  muxFreq : ¬ Rejected p → p.muxFreq ≠ 0
  fits : ¬ Rejected p → WaveFits t p

variable {t : Target} {malloc : Malloc ℕ} {p : Params} {d : Peripherals}

/-- Of a waveform that is not rejected the table holds one period. -/
theorem arraySize_eq_periodSamples (t : Target) (h : ¬ Rejected p) : arraySize t p = periodSamples t p := by
  have hlow : ¬ p.desiredFrequency < lowestFreqPossible := (not_or.1 h).1
  unfold periodSamples
  split
  next hnan =>
      rw [arraySize, tableSize, samples_eq, hnan]
      rfl
  next hnan =>
      obtain ⟨d, hd, -⟩ := lowestFreqPossible_eq
      have hle : lowestFreqPossible ≤ p.desiredFrequency := Value.le_of_not_lt (by rw [hd]; simp) hnan hlow
      obtain ⟨x, hx, -, hsize, hmax⟩ := tableSize_eq (t := t) hle
      rw [arraySize, min_eq_left hmax, hsize, ← samples_eq, hx]
      rfl

/-- A triangle rises for at least one sample exactly if duty cycle and period are long
enough. -/
theorem onSize_ne_zero_iff (t : Target) (h : ¬ Rejected p) (hd : p.dutyCycle ≤ 100) :
    HotPlate.onSize p (arraySize t p) ≠ 0 ↔ 100 ≤ periodSamples t p * p.dutyCycle := by
  have hle : arraySize t p ≤ 12500 := min_le_right _ _
  have hprod : arraySize t p * p.dutyCycle ≤ 12500 * 100 := Nat.mul_le_mul hle hd
  rw [← arraySize_eq_periodSamples t h, HotPlate.onSize, Nat.mod_eq_of_lt (by omega), Nat.div_ne_zero_iff]
  exact and_iff_right (by decide)

omit [Arithmetic] in
/-- The product is below `2 ^ 32`, so it is zero only with the frequency. -/
theorem product_ne_zero_iff (h : p.muxFreq < 2 ^ 16) :
    p.muxFreq * softwareAverageCount % 2 ^ 32 ≠ 0 ↔ p.muxFreq ≠ 0 := by
  rw [softwareAverageCount, Nat.mod_eq_of_lt (by omega)]
  omega

/-- What a configuration leaves as the size of the table. -/
theorem valueArraySize_eq {d' : Peripherals} {status : ℤ}
    (h : initializeAllPeripherals t malloc p d = .ok (d', status)) :
    d'.hotPlate.valueArraySize = arraySize t p := by
  obtain ⟨hotPlate, hrun, hsize, -⟩ := initializeDacHotPlate_run t p d.hotPlate
  by_cases hr : Rejected p
  · rw [initializeAllPeripherals_of_rejected hr hrun] at h
    cases h
    exact hsize
  · rw [initializeAllPeripherals_of_not_rejected hr hrun] at h
    obtain ⟨s', -, h⟩ := Run.bind_eq_ok.1 h
    cases h
    exact hsize

/-- With such parameters no configuration divides by zero, whatever it starts from. -/
theorem DivisorsNonzero.noDivisionByZero (h : DivisorsNonzero t p) (hmux : p.muxFreq < 2 ^ 16)
    (malloc : Malloc ℕ) (d : Peripherals) : NoDivisionByZero t malloc p d where
  frequency := h.frequency
  onSize := by
    rintro ⟨hf, hwave, hduty⟩
    have hr : ¬ Rejected p := not_or.2 ⟨hf, by omega⟩
    exact (onSize_ne_zero_iff t hr hduty).2 ((h.fits hr).triangle hwave hduty)
  product := by
    intro hstatus
    exact (product_ne_zero_iff hmux).2 (h.muxFreq fun hr => rejected_iff.1 hr hstatus)
  arraySize := by
    intro d' hok
    have hr : ¬ Rejected p := by
      rcases initializeAllPeripherals_cases hok with ⟨-, hstatus, -⟩ | ⟨hr, -⟩
      · exact absurd hstatus (by decide)
      · exact hr
    rw [valueArraySize_eq hok, arraySize_eq_periodSamples t hr]
    exact Nat.one_le_iff_ne_zero.1 (h.fits hr).period

/-- **No configuration divides by zero, for these parameters only.** -/
theorem noDivisionByZero_iff_divisorsNonzero (hp : p.Counted) (hmux : p.muxFreq < 2 ^ 16)
    (hd : d.sampler.activeStripIndices ≠ .freed) :
    NoDivisionByZero t malloc p d ↔ DivisorsNonzero t p := by
  refine ⟨fun h => ?_, fun h => h.noDivisionByZero hmux malloc d⟩
  have hmuxFreq : ¬ Rejected p → p.muxFreq ≠ 0 := fun hr =>
    (product_ne_zero_iff hmux).1 (h.product (not_not.1 (mt rejected_iff.2 hr)))
  refine ⟨h.frequency, hmuxFreq, fun hr => ⟨?_, fun hwave hduty => ?_⟩⟩
  · obtain ⟨d', status, hok, -⟩ := initializeAllPeripherals_ok t malloc hp (hmuxFreq hr) hd
    rcases initializeAllPeripherals_cases hok with ⟨hr', -⟩ | ⟨-, rfl, -⟩
    · exact absurd hr' hr
    · have hsize := h.arraySize d' hok
      rw [valueArraySize_eq hok, arraySize_eq_periodSamples t hr] at hsize
      exact Nat.one_le_iff_ne_zero.2 hsize
  · exact (onSize_ne_zero_iff t hr hduty).1 (h.onSize ⟨(not_or.1 hr).1, hwave, hduty⟩)

/-- The numbers a line with seven fields assigns, with the strips of the start. -/
def lineNumbers (t : Target) (line : List UInt8) : Params :=
  assignFields t numberFields (tokens 44 (line.takeWhile (· ≠ 0))) .boot

/-- An accepted line leaves its numbers, and the strips are counted. -/
theorem numbers_of_accepted {line stale mem : List UInt8} {p' : Params}
    (h : updateParameters t (line ++ 0 :: stale) p = .ok (p', mem, 0)) :
    p'.Counted ∧ p' = { lineNumbers t line with
      activeStrips := p'.activeStrips
      gStripCount := p'.gStripCount } := by
  have hseven := le_of_accepted h
  obtain ⟨-, hcounted, hnumbers⟩ := updateParameters_line_of_le t line hseven h
  refine ⟨hcounted, hnumbers.trans ?_⟩
  exact assignFields_forget t (le_trans (by decide) hseven) p .boot p'.activeStrips p'.gStripCount

/-- A multiplexer frequency from a line has 16 bits. -/
theorem lineNumbers_muxFreq {line : List UInt8} (h : 7 ≤ (tokens 44 (line.takeWhile (· ≠ 0))).length) :
    (lineNumbers t line).muxFreq < 2 ^ 16 := by
  unfold lineNumbers
  match tokens 44 (line.takeWhile (· ≠ 0)), h with
  | _ :: _ :: _ :: _ :: _ :: tok :: _, _ =>
      change (t.atoi tok % 2 ^ 16).toNat < 2 ^ 16
      omega

/-- Strips are no divisors. -/
theorem divisorsNonzero_strips_iff (active : Strip → Bool) (count : ℕ) :
    DivisorsNonzero t { p with activeStrips := active, gStripCount := count } ↔ DivisorsNonzero t p :=
  ⟨fun h => ⟨h.frequency, h.muxFreq, fun hr => ⟨(h.fits hr).period, (h.fits hr).triangle⟩⟩,
    fun h => ⟨h.frequency, h.muxFreq, fun hr => ⟨(h.fits hr).period, (h.fits hr).triangle⟩⟩⟩

/-- **The configuration after a line.**  However the line is accepted and whatever state the
peripherals are in, no divisor is zero exactly if none is for its numbers. -/
theorem line_noDivisionByZero_iff (t : Target) (line : List UInt8) :
    (∀ stale p p' mem malloc d, updateParameters t (line ++ 0 :: stale) p = .ok (p', mem, 0) →
      NoDivisionByZero t malloc p' d) ↔
    (7 ≤ (tokens 44 (line.takeWhile (· ≠ 0))).length → DivisorsNonzero t (lineNumbers t line)) := by
  constructor
  · intro h hseven
    obtain ⟨p', mem, hok⟩ := exists_accepted t line hseven .boot
    obtain ⟨hcounted, hp'⟩ := numbers_of_accepted hok
    have hsafe := h _ _ _ _ zeroedMalloc .boot hok
    have hmux : p'.muxFreq < 2 ^ 16 := hp' ▸ lineNumbers_muxFreq hseven
    rw [noDivisionByZero_iff_divisorsNonzero hcounted hmux (by simp [Peripherals.boot, Sampler.boot]), hp',
      divisorsNonzero_strips_iff] at hsafe
    exact hsafe
  · intro h stale p p' mem malloc d hok
    have hseven := le_of_accepted hok
    obtain ⟨-, hp'⟩ := numbers_of_accepted hok
    have hmux : p'.muxFreq < 2 ^ 16 := hp' ▸ lineNumbers_muxFreq hseven
    have hdivisors : DivisorsNonzero t p' := by
      rw [hp', divisorsNonzero_strips_iff]
      exact h hseven
    exact hdivisors.noDivisionByZero hmux malloc d

/-- **The configuration after a frame** does not divide by zero, if there is one. -/
def ConfiguresSafely (t : Target) (fw : Firmware) : LiveEvent → Prop
  | .frame malloc f => ∀ server frames,
      modbusHandleRequest fw.peripherals.sampler.resistanceArray f.bytes f.bytes.length fw.server
        = .ok (server, frames) →
      server.modbusParamChanged = true → NoDivisionByZero t malloc server.params fw.peripherals
  | .interrupt _ => True

/-- The waveform that an accepted write puts into force fits, or is rejected. -/
def WriteFits (t : Target) (fw : Firmware) : LiveEvent → Prop
  | .frame _ f => ∀ start values, acceptedWrite f.bytes = some (start, values) →
      ¬ Rejected (fw.settings.write start values).params → WaveFits t (fw.settings.write start values).params
  | .interrupt _ => True

/-- **The invariant of the divisors in Modbus mode.**  A register that holds 0 keeps its
parameter, so neither frequency is ever zero. -/
structure Positive (fw : Firmware) : Prop where
  sound : Sound fw
  frequency : ¬ fw.server.params.desiredFrequency ≤ .finite 0
  muxFreq : fw.server.params.muxFreq < 2 ^ 16

theorem positive_boot : Positive boot where
  sound := sound_boot
  frequency := rounding_cases (P := fun r r' => ¬ r.convert (r'.round (5 / 100)) ≤ .finite 0)
    (by decide +kernel) (by decide +kernel)
  muxFreq := show 8 < 2 ^ 16 by decide

/-- Updating leaves a positive frequency. -/
theorem modbusUpdateParameters_frequency (buffer : Fin 7 → UInt16) (hp : ¬ p.desiredFrequency ≤ .finite 0) :
    ¬ (modbusUpdateParameters buffer p).desiredFrequency ≤ .finite 0 := by
  refine (unlessZero_iff (P := fun f : Value => ¬ f ≤ .finite 0) hp).2 (or_iff_not_imp_left.2 fun hne => ?_)
  have hiff := thousandth_le_iff (k := 0) (c := .finite 0)
    (rounding_cases (P := fun r _ => r.round ((0 : ℕ) / 1000) ≤ .finite 0) (by decide +kernel) (by decide +kernel))
    (rounding_cases (P := fun r _ => ¬ r.round (((0 : ℕ) + 1) / 1000) ≤ .finite 0)
      (by decide +kernel) (by decide +kernel)) (buffer 2)
  rw [hiff]
  exact fun h0 => hne (UInt16.toNat_inj.1 (Nat.le_zero.1 h0))

/-- Updating leaves a multiplexer frequency of 16 bits. -/
theorem modbusUpdateParameters_muxFreq_lt (buffer : Fin 7 → UInt16) (hp : p.muxFreq < 2 ^ 16) :
    (modbusUpdateParameters buffer p).muxFreq < 2 ^ 16 :=
  (unlessZero_iff (P := (· < 2 ^ 16)) hp).2 (.inr (buffer 5).toNat_lt)

variable {fw fw' : Firmware} {e : LiveEvent}

/-- Every event keeps the invariant. -/
theorem Positive.liveStep (h : Positive fw) (hstep : liveStep t fw e = .ok fw') : Positive fw' := by
  have hsound := h.sound.liveStep hstep
  match e with
  | .frame malloc f =>
      rcases turnStep_cases h.sound hstep with ⟨-, hsettings, -⟩ | ⟨start, values, -, hsettings, -⟩
      · have hparams : fw'.server.params = fw.server.params := congrArg Settings.params hsettings
        exact ⟨hsound, hparams ▸ h.frequency, hparams ▸ h.muxFreq⟩
      · have hparams : fw'.server.params = (fw.settings.write start values).params :=
          congrArg Settings.params hsettings
        refine ⟨hsound, ?_, ?_⟩
        · rw [hparams]
          exact modbusUpdateParameters_frequency _ h.frequency
        · rw [hparams]
          exact modbusUpdateParameters_muxFreq_lt _ h.muxFreq
  | .interrupt e =>
      obtain ⟨s', -, hfw'⟩ := Run.bind_eq_ok.1 hstep
      cases hfw'
      exact ⟨hsound, h.frequency, h.muxFreq⟩

/-- In Modbus mode only the waveform can make a divisor zero. -/
theorem Positive.divisorsNonzero_iff (h : Positive fw) (t : Target) (start : ℕ) (values : List UInt16) :
    DivisorsNonzero t (fw.settings.write start values).params ↔
      (¬ Rejected (fw.settings.write start values).params → WaveFits t (fw.settings.write start values).params) := by
  have hfrequency := modbusUpdateParameters_frequency
    (storeFrom fw.server.holdingRegisters start values) h.frequency
  have hmuxFreq := modbusUpdateParameters_muxFreq
    (storeFrom fw.server.holdingRegisters start values) h.sound.muxFreq
  exact ⟨fun hd => hd.fits, fun hfits => ⟨fun h0 => hfrequency (h0 ▸ Value.finite_le_finite.2 le_rfl), fun _ => hmuxFreq, hfits⟩⟩

/-- **One frame**: its configuration does not divide by zero exactly if the waveform fits. -/
theorem Positive.configuresSafely_iff (h : Positive fw) (t : Target) (e : LiveEvent) :
    ConfiguresSafely t fw e ↔ WriteFits t fw e := by
  match e with
  | .interrupt e => exact Iff.rfl
  | .frame malloc f =>
      have hb := f.deliverable.1
      cases hw : acceptedWrite f.bytes with
      | none =>
          obtain ⟨inputRegisters, out, hreq⟩ := modbusHandleRequest_of_no_write
            fw.peripherals.sampler.resistanceArray fw.server hb hw
          refine iff_of_true ?_ ?_
          · intro server frames hok hchanged
            rw [hreq] at hok
            cases hok
            exact absurd (h.sound.unchanged.symm.trans hchanged) (by decide)
          · intro start values hsome
            rw [hw] at hsome
            cases hsome
      | some w =>
          obtain ⟨start, values⟩ := w
          have hreq : modbusHandleRequest fw.peripherals.sampler.resistanceArray f.bytes f.bytes.length fw.server
              = _ := modbusHandleRequest_of_write hb hw
          have hcounted := modbusUpdateParameters_counted
            (storeFrom fw.server.holdingRegisters start values) h.sound.counted
          have hmux := modbusUpdateParameters_muxFreq_lt
            (storeFrom fw.server.holdingRegisters start values) h.muxFreq
          have hiff : NoDivisionByZero t malloc (fw.settings.write start values).params fw.peripherals ↔ _ :=
            (noDivisionByZero_iff_divisorsNonzero hcounted hmux h.sound.block).trans
              (h.divisorsNonzero_iff t start values)
          constructor
          · intro hsafe start' values' hsome
            rw [hw, Option.some.injEq, Prod.mk.injEq] at hsome
            obtain ⟨rfl, rfl⟩ := hsome
            exact hiff.1 (hsafe _ _ hreq rfl)
          · intro hfits server frames hok _
            rw [hreq] at hok
            cases hok
            exact hiff.2 (hfits start values hw)

/-- **When configurations divide by zero.**  After a line, whatever was in force before: a
divisor is zero exactly if one is for the numbers of the line.  In Modbus mode, whatever
frames come and whenever interrupts do: exactly if an accepted write puts a waveform
into force that is not rejected and does not fit. -/
theorem configurations_noDivisionByZero_iff (t : Target) :
    (∀ line, (∀ stale p p' mem malloc d, updateParameters t (line ++ 0 :: stale) p = .ok (p', mem, 0) →
        NoDivisionByZero t malloc p' d) ↔
      (7 ≤ (tokens 44 (line.takeWhile (· ≠ 0))).length → DivisorsNonzero t (lineNumbers t line))) ∧
    ∀ es, Run.AtEveryAttempt (liveStep t) (fun _ fw e => ConfiguresSafely t fw e) boot es ↔
      Run.AtEveryAttempt (liveStep t) (fun _ fw e => WriteFits t fw e) boot es :=
  ⟨line_noDivisionByZero_iff t, Run.atEveryAttempt_congr (I := fun _ => Positive) positive_boot
    (fun _ _ _ _ h hstep => h.liveStep hstep) fun _ _ e h => h.configuresSafely_iff t e⟩

end

attribute [local instance] Arithmetic.uncontracted

/-- `0,50,1,7,1,0,11111111`: a multiplexer frequency of 0. -/
def zeroMuxLine : List UInt8 :=
  [48, 44, 53, 48, 44, 49, 44, 55, 44, 49, 44, 48, 44, 49, 49, 49, 49, 49, 49, 49, 49, 10]

/-- **A line that divides by zero**: it is accepted, the hot plate is set up, and the divisor of
the match value is 0. -/
theorem zeroMuxLine_divides :
    ¬ ∀ line stale p p' mem malloc d, updateParameters .saturating (line ++ 0 :: stale) p = .ok (p', mem, 0) →
      NoDivisionByZero .saturating malloc p' d := by
  intro h
  obtain ⟨p', mem, hok⟩ := exists_accepted .saturating zeroMuxLine (by decide) .boot
  have hsafe := h _ _ _ _ _ zeroedMalloc .boot hok
  obtain ⟨-, hp'⟩ := numbers_of_accepted hok
  have hnumbers : (¬ (lineNumbers .saturating zeroMuxLine).desiredFrequency < lowestFreqPossible ∧
      (lineNumbers .saturating zeroMuxLine).waveType ≤ 2) ∧ (lineNumbers .saturating zeroMuxLine).muxFreq = 0 := by
    decide +kernel
  have hstatus : (initializeDacHotPlate .saturating p').2 = 0 := by
    rw [initializeDacHotPlate_snd, hp']
    exact hnumbers.1
  have hmux : p'.muxFreq = 0 := by
    rw [hp']
    exact hnumbers.2
  exact hsafe.product hstatus (by rw [hmux, Nat.zero_mul, Nat.zero_mod])

end Firmware
end GasSensor
