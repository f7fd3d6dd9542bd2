/-
# What keeps the device running

`Serviceable` is what the interrupts rely on and keep: that the sampler follows the
parameters or has nothing to do, and that the read index of the hot plate addresses its
table.  It also keeps an account of the codes the hot plate can put out.

A configuration with `Workable` parameters sets the peripherals up and leaves them
serviceable (`Workable.initializeAllPeripherals_ok`).
-/

import GasSensor.Firmware.SetUp

namespace GasSensor

variable [Arithmetic]

namespace HotPlate

variable {t : Target} {p : Params} {h h' : HotPlate} {W : ℕ → Prop}

/-- The table holds only codes that satisfy `W`, and only these have been put out. -/
structure Codes (W : ℕ → Prop) (h : HotPlate) : Prop where
  values : ∀ i, W (h.values i)
  codes : ∀ c ∈ h.codes, W c

omit [Arithmetic] in
theorem codes_boot (h0 : W 0) : Codes W boot := ⟨fun _ => h0, List.forall_mem_nil _⟩

omit [Arithmetic] in
/-- A callback puts out an entry of the table, or one of what it held before where the index
is beyond the size. -/
theorem Codes.ctimer4IRQHandler (hc : Codes W h) (hplay : h.ctimer4IRQHandler = .ok h') : Codes W h' := by
  unfold HotPlate.ctimer4IRQHandler dacUpdateCallback at hplay
  split at hplay
  · split at hplay
    · split at hplay
      · cases hplay
      · cases hplay
        exact ⟨hc.values, List.forall_mem_append.2 ⟨hc.codes, List.forall_mem_singleton.2 (hc.values _)⟩⟩
    · cases hplay
  · cases hplay
    exact hc

/-- A configuration writes the entries of its waveform. -/
theorem Codes.configure (hc : Codes W h) (hp : InRange p) (hW : ∀ i < tableSize t p, W (waveEntry t p i))
    (hrun : (initializeDacHotPlate t p).1.foldlM (exec t) h = .ok h') : Codes W h' := by
  rw [hp.initializeDacHotPlate_eq, assigns_run hp.tableSize_le, Except.ok.injEq] at hrun
  subst hrun
  refine ⟨fun i => ?_, hc.codes⟩
  dsimp only
  split
  next hi =>
    rw [← hp.waveEntry_eq]
    exact hW i hi
  next => exact hc.values i

end HotPlate

namespace Firmware

open FloatingPoint HotPlate

/-- **What the interrupts rely on and keep**, with `W` the codes the table may hold.  Without a
strip the tick handler returns at once in GUI mode, and divides by zero in Modbus mode. -/
structure Serviceable (modbusFlag : Bool) (W : ℕ → Prop) (p : Params) (d : Peripherals) : Prop where
  counted : p.Counted
  block : d.sampler.activeStripIndices ≠ .freed
  sampler : d.sampler.ctimer2 = none ∨ (p.gStripCount = 0 ∧ modbusFlag = false) ∨ Sampler.Aligned p d.sampler
  index : d.hotPlate.inputIndex < maxArraySize
  size : d.hotPlate.valueArraySize ≤ maxArraySize
  playing : d.hotPlate.ctimer4 = true → 0 < d.hotPlate.valueArraySize
  codes : Codes W d.hotPlate

/-- Parameters that a configuration takes, given that there is memory. -/
structure Workable (p : Params) : Prop where
  counted : p.Counted
  hotPlate : HotPlate.InRange p
  excitation : .finite (1 / 2) ≤ p.gExcitationVoltagePerResistor ∧ p.gExcitationVoltagePerResistor ≤ .finite 1
  muxFreq : p.muxFreq ≠ 0

variable {t : Target} {malloc : Malloc ℕ} {p : Params} {d : Peripherals} {modbusFlag : Bool} {W : ℕ → Prop}

theorem serviceable_boot (h0 : W 0) : Serviceable modbusFlag W .boot .boot where
  counted := rfl
  block := nofun
  sampler := .inl rfl
  index := by decide
  size := Nat.zero_le _
  playing := nofun
  codes := codes_boot h0

/-- An interrupt of the sampler. -/
theorem Serviceable.interrupt (h : Serviceable modbusFlag W p d) (t : Target) (e : Sampler.Event) :
    ∃ s, d.sampler.interrupt t modbusFlag p e = .ok s ∧ Serviceable modbusFlag W p { d with sampler := s } := by
  have hkeep : ∀ s, d.sampler.interrupt t modbusFlag p e = .ok s →
      s.ctimer2 = none ∨ (p.gStripCount = 0 ∧ modbusFlag = false) ∨ Sampler.Aligned p s → Serviceable modbusFlag W p { d with sampler := s } := by
    intro s hs hsampler
    refine ⟨h.counted, ?_, hsampler, h.index, h.size, h.playing, h.codes⟩
    change s.activeStripIndices ≠ .freed
    rw [Sampler.interrupt_activeStripIndices hs]
    exact h.block
  rcases h.sampler with hstop | hzero | ha
  · obtain ⟨s, hs, hnone⟩ := Sampler.interrupt_of_stopped t modbusFlag p hstop e
    exact ⟨s, hs, hkeep s hs (.inl hnone)⟩
  · -- without a strip the tick handler returns at once
    obtain ⟨s, hs⟩ : ∃ s, d.sampler.interrupt t modbusFlag p e = .ok s := by
      match e with
      | .tick =>
          by_cases hstop : d.sampler.ctimer2 = none
          · exact ⟨_, if_pos ⟨rfl, hstop⟩⟩
          · exact ⟨d.sampler, (if_neg fun hc => hstop hc.2).trans (if_pos hzero)⟩
      | .voltage x => exact ⟨_, if_neg (by simp)⟩
      | .current x => exact ⟨_, if_neg (by simp)⟩
      | .sysTick => exact ⟨_, if_neg (by simp)⟩
    exact ⟨s, hs, hkeep s hs (.inr (.inl hzero))⟩
  · obtain ⟨s, hs, ha'⟩ := Sampler.interrupt_aligned t modbusFlag h.counted ha e
    exact ⟨s, hs, hkeep s hs (.inr (.inr ha'))⟩

/-- The interrupt of CTIMER4. -/
theorem Serviceable.ctimer4 (h : Serviceable modbusFlag W p d) :
    ∃ hotPlate, d.hotPlate.ctimer4IRQHandler = .ok hotPlate ∧ Serviceable modbusFlag W p { d with hotPlate := hotPlate } := by
  by_cases htimer : d.hotPlate.ctimer4 = true
  · have hpos := h.playing htimer
    have hplay := callback_ok .saturating htimer h.index hpos
    refine ⟨_, hplay, h.counted, h.block, h.sampler, ?_, h.size, h.playing, h.codes.ctimer4IRQHandler hplay⟩
    exact (Nat.mod_lt _ hpos).trans_le h.size
  · exact ⟨d.hotPlate, if_neg htimer, h⟩

theorem Workable.applicable (hp : Workable p) (t : Target) (hm : HasMemory malloc) : Applicable t malloc p where
  accepted := not_or.2 ⟨Value.not_lt_of_le hp.hotPlate.frequency.1, not_lt.2 hp.hotPlate.waveType⟩
  frequency := .inl (samples_eq (p := p) ▸ Value.le_trans (by norm_num)
    (fifty_le_samples hp.hotPlate.frequency.1 hp.hotPlate.frequency.2))
  dutyCycle := .inr hp.hotPlate.dutyCycle
  excitation := .inl hp.excitation
  memory := hm.isSome hp.counted

/-- **A configuration that is taken** is in force, and leaves peripherals that can be interrupted. -/
theorem Workable.initializeAllPeripherals_ok (hp : Workable p) (hm : HasMemory malloc) (t : Target) {q : Params}
    (hd : Serviceable modbusFlag W q d)
    (hstrips : modbusFlag = true → p.gStripCount ≠ 0) (hW : ∀ i < tableSize t p, W (waveEntry t p i)) :
    ∃ d', initializeAllPeripherals t malloc p d = .ok (d', 0) ∧ Serviceable modbusFlag W p d' ∧ SetUp t p d' := by
  have happlicable := hp.applicable t hm
  obtain ⟨hotPlate, hrun, hidx, -, hplaying⟩ := hp.hotPlate.playing (t := t) d.hotPlate hd.index
  obtain ⟨s, hs⟩ := Sampler.configure_total malloc hp.counted hp.muxFreq hd.block
  have hinit : initializeAllPeripherals t malloc p d
      = .ok (⟨hotPlate, clearMeasurement s, initializeExcitationDac t p⟩, 0) := by
    rw [initializeAllPeripherals_of_not_rejected happlicable.accepted hrun, hs, Run.ok_bind]
  refine ⟨_, hinit, ⟨hp.counted, ?_, ?_, hidx.trans_lt hd.index, ?_, fun _ => ?_, hd.codes.configure hp.hotPlate hW hrun⟩,
    (setUp_iff_of_initialized hp.counted happlicable.accepted hinit).2 happlicable⟩
  · change s.activeStripIndices ≠ .freed
    rw [(Sampler.configure_ok hp.counted hs).2.2.2.2, if_pos happlicable.memory]
    exact nofun
  · rcases Nat.eq_zero_or_pos p.strips.length with hzero | hpos
    · rw [← hp.counted.eq_length] at hzero
      exact .inr (.inl ⟨hzero, Bool.eq_false_iff.2 fun hflag => hstrips hflag hzero⟩)
    · have ha := Sampler.aligned_of_configure hp.counted hpos happlicable.memory hs
      exact .inr (.inr ⟨ha.indices, ha.position, ha.mux⟩)
  · exact hplaying.size.trans_le hp.hotPlate.tableSize_le
  · exact hp.hotPlate.tableSize_pos.trans_eq hplaying.size.symm

end Firmware
end GasSensor
