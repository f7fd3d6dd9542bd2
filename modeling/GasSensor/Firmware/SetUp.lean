/-
# What the peripherals stay set up for

A configuration sets up the table of the hot plate, DAC0, the block of active strip
numbers and the two timers.  `SetUp` says that these follow some parameters, and
`Undisturbed` that they are as they were: an interrupt, whether of the sampler or of
CTIMER4, leaves them so.

A configuration that is not rejected sets them up exactly for applicable parameters
(`setUp_iff_of_initialized`).
-/

import GasSensor.Firmware.LiveLoop
import GasSensor.HotPlate.Playback

namespace GasSensor

variable [Arithmetic]

namespace Sampler

variable {t : Target} {modbusFlag : Bool} {p : Params} {s s' : Sampler} {e : Event}

/-- No interrupt changes the period of the timer. -/
theorem interrupt_ctimer2 (h : s.interrupt t modbusFlag p e = .ok s') : s'.ctimer2 = s.ctimer2 := by
  rcases interrupt_cases h with rfl | h
  · rfl
  · cases e with
    | tick => rcases tick_cases h with rfl | ⟨-, rfl⟩ | ⟨-, i, channel, rfl⟩ <;> rfl
    | voltage x => cases h; rfl
    | current x => cases h; rfl
    | sysTick => cases h; rfl

end Sampler

namespace Firmware

open FloatingPoint HotPlate Sampler Modbus

/-- `malloc` has memory for every number of strips. -/
def HasMemory (malloc : Malloc ℕ) : Prop := ∀ n ≤ 8, (malloc n).isSome

omit [Arithmetic] in
theorem hasMemory_zeroedMalloc : HasMemory zeroedMalloc := fun _ _ => rfl

variable {t : Target} {malloc : Malloc ℕ} {p : Params} {d d' : Peripherals}

omit [Arithmetic] in
theorem HasMemory.isSome (hm : HasMemory malloc) (hp : p.Counted) : (malloc p.gStripCount).isSome := by
  refine hm _ ?_
  rw [hp.eq_length]
  exact stripList_length_le _

/-- **The peripherals are set up for the parameters.**  Unlike `Applied` this holds at any moment of a
measurement. -/
structure SetUp (t : Target) (p : Params) (d : Peripherals) : Prop where
  size : 1 ≤ d.hotPlate.valueArraySize ∧ d.hotPlate.valueArraySize ≤ maxArraySize
  waveform : ∃ w, waveform t p d.hotPlate.valueArraySize = some w ∧
    ∀ i < d.hotPlate.valueArraySize, d.hotPlate.values i = w i
  playing : d.hotPlate.ctimer4 = true
  excitation : ∃ r, excitationCode p = .finite r ∧ (d.dac0 : ℤ) = ⌊r⌋
  strips : d.sampler.activeStripIndices = .live (p.strips.map Fin.val)
  timer : d.sampler.ctimer2 = some (48000000 / (p.muxFreq * softwareAverageCount))

/-- The set-up is as it was. -/
structure Undisturbed (d d' : Peripherals) : Prop where
  valueArraySize : d'.hotPlate.valueArraySize = d.hotPlate.valueArraySize
  values : d'.hotPlate.values = d.hotPlate.values
  ctimer4 : d'.hotPlate.ctimer4 = d.hotPlate.ctimer4
  dac0 : d'.dac0 = d.dac0
  activeStripIndices : d'.sampler.activeStripIndices = d.sampler.activeStripIndices
  ctimer2 : d'.sampler.ctimer2 = d.sampler.ctimer2

omit [Arithmetic] in
theorem Undisturbed.refl (d : Peripherals) : Undisturbed d d := ⟨rfl, rfl, rfl, rfl, rfl, rfl⟩

omit [Arithmetic] in
theorem Undisturbed.trans {d'' : Peripherals} (h : Undisturbed d d') (h' : Undisturbed d' d'') : Undisturbed d d'' where
  valueArraySize := h'.valueArraySize.trans h.valueArraySize
  values := h'.values.trans h.values
  ctimer4 := h'.ctimer4.trans h.ctimer4
  dac0 := h'.dac0.trans h.dac0
  activeStripIndices := h'.activeStripIndices.trans h.activeStripIndices
  ctimer2 := h'.ctimer2.trans h.ctimer2

/-- What the peripherals are set up for is read off the set-up. -/
theorem Undisturbed.setUp_iff (h : Undisturbed d d') : SetUp t p d' ↔ SetUp t p d := by
  constructor
  · rintro ⟨hsize, hwave, hplaying, hexcitation, hstrips, htimer⟩
    rw [h.valueArraySize] at hsize hwave
    rw [h.values] at hwave
    exact ⟨hsize, hwave, h.ctimer4 ▸ hplaying, h.dac0 ▸ hexcitation, h.activeStripIndices ▸ hstrips,
      h.ctimer2 ▸ htimer⟩
  · rintro ⟨hsize, hwave, hplaying, hexcitation, hstrips, htimer⟩
    rw [← h.valueArraySize] at hsize hwave
    rw [← h.values] at hwave
    exact ⟨hsize, hwave, h.ctimer4.trans hplaying, by rw [h.dac0]; exact hexcitation, h.activeStripIndices.trans hstrips,
      h.ctimer2.trans htimer⟩

/-- An interrupt of the sampler. -/
theorem undisturbed_of_interrupt {modbusFlag : Bool} {q : Params} {e : Sampler.Event} {s : Sampler}
    (h : d.sampler.interrupt t modbusFlag q e = .ok s) : Undisturbed d { d with sampler := s } :=
  ⟨rfl, rfl, rfl, rfl, interrupt_activeStripIndices h, interrupt_ctimer2 h⟩

omit [Arithmetic] in
/-- An interrupt of CTIMER4. -/
theorem undisturbed_of_ctimer4 {hotPlate : HotPlate} (h : d.hotPlate.ctimer4IRQHandler = .ok hotPlate) :
    Undisturbed d { d with hotPlate := hotPlate } := by
  unfold ctimer4IRQHandler dacUpdateCallback at h
  split at h
  · split at h
    · split at h
      · cases h
      · cases h
        exact ⟨rfl, rfl, rfl, rfl, rfl, rfl⟩
    · cases h
  · cases h
    exact .refl _

/-- **A configuration that is not rejected sets the peripherals up** exactly if its parameters are
applicable, whatever the peripherals were set up for before. -/
theorem setUp_iff_of_initialized (hp : p.Counted) (hr : ¬ Rejected p) {status : ℤ}
    (h : initializeAllPeripherals t malloc p d = .ok (d', status)) : SetUp t p d' ↔ Applicable t malloc p := by
  rw [← (applied_iff_of_not_rejected hp hr h).2]
  obtain ⟨hlow, hwave⟩ := not_or.1 hr
  obtain ⟨hotPlate, hrun, -⟩ := initializeDacHotPlate_run t p d.hotPlate
  have hplaying : hotPlate.ctimer4 = true := by
    obtain ⟨before, hbefore⟩ := initializeDacHotPlate_timer t hlow (not_lt.1 hwave)
    rw [hbefore, Run.foldlM_concat, Run.bind_eq_ok] at hrun
    obtain ⟨u, -, hu⟩ := hrun
    cases hu
    rfl
  rw [initializeAllPeripherals_of_not_rejected hr hrun, Run.bind_eq_ok] at h
  obtain ⟨s, hs, hd'⟩ := h
  obtain ⟨-, htimer, hidx, hcnt, -⟩ := configure_ok hp hs
  cases hd'
  constructor
  · exact fun ha => ⟨ha.size, ha.waveform, ha.excitation, ha.strips, htimer, hidx, hcnt⟩
  · exact fun ha => ⟨ha.size, ha.waveform, hplaying, ha.excitation, ha.strips, htimer⟩

/-- With memory `malloc` decides nothing. -/
theorem applicable_iff_of_hasMemory (hp : p.Counted) (hm : HasMemory malloc) :
    Applicable t malloc p ↔ Applicable t zeroedMalloc p :=
  ⟨fun h => ⟨h.accepted, h.frequency, h.dutyCycle, h.excitation, rfl⟩,
    fun h => ⟨h.accepted, h.frequency, h.dutyCycle, h.excitation, hm.isSome hp⟩⟩

end Firmware
end GasSensor
