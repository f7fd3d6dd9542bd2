/-
# The Modbus main loop with the sampler running

`main` of `source/main.c` with `ModbusFlag` set, whose `HandleModbusFrame` waits
for bytes most of the time.  A run of `liveStep` is any sequence of frames with
the interrupts of the sampler between them, none of them inside the handling of
a frame.

`turnStep_cases` is everything a frame can do, `Sampler.interrupt_aligned`
everything an interrupt can do to a sampler that follows its parameters.
-/

import GasSensor.Firmware.RegisterMap
import GasSensor.Sampler.Visit

namespace GasSensor

variable [Arithmetic]

namespace Sampler

variable {t : Target} {modbusFlag : Bool} {p : Params} {s s' : Sampler} {e : Event}

/-- An interrupt that can happen is a step; one that cannot changes nothing. -/
theorem interrupt_cases (h : s.interrupt t modbusFlag p e = .ok s') :
    s' = s ∨ s.step t modbusFlag p e = .ok s' := by
  unfold interrupt at h
  split at h
  · exact .inl (Except.ok.inj h).symm
  · exact .inr h

/-- No interrupt replaces the block of active strip numbers. -/
theorem interrupt_activeStripIndices (h : s.interrupt t modbusFlag p e = .ok s') :
    s'.activeStripIndices = s.activeStripIndices := by
  rcases interrupt_cases h with rfl | h
  · rfl
  · exact step_activeStripIndices h

/-- While its timer is stopped an interrupt succeeds and leaves it stopped. -/
theorem interrupt_of_stopped (t : Target) (modbusFlag : Bool) (p : Params) (h : s.ctimer2 = none) (e : Event) :
    ∃ s', s.interrupt t modbusFlag p e = .ok s' ∧ s'.ctimer2 = none := by
  match e with
  | .tick => exact ⟨s, if_pos ⟨rfl, h⟩, h⟩
  | .voltage x => exact ⟨adc0IRQHandler x s, if_neg (by simp), h⟩
  | .current x => exact ⟨adc1IRQHandler x s, if_neg (by simp), h⟩
  | .sysTick => exact ⟨sysTickHandler s, if_neg (by simp), h⟩

/-- **A sampler that follows its parameters** goes on to do so whatever interrupts it. -/
theorem interrupt_aligned (t : Target) (modbusFlag : Bool) (hp : p.Counted) (h : Aligned p s) (e : Event) :
    ∃ s', s.interrupt t modbusFlag p e = .ok s' ∧ Aligned p s' := by
  have hpos : 0 < p.strips.length := Nat.zero_lt_of_lt h.position
  have hn : p.gStripCount ≠ 0 := by rw [hp.eq_length]; omega
  match e with
  | .tick =>
      by_cases hstop : s.ctimer2 = none
      · exact ⟨s, if_pos ⟨rfl, hstop⟩, h⟩
      have hstep : s.interrupt t modbusFlag p .tick = ctimer2IRQHandler t modbusFlag p s :=
        if_neg fun hc => hstop hc.2
      rw [hstep]
      by_cases hlt : s.currentCountIndex < softwareAverageCount - 1
      · exact ⟨_, tick_of_lt hn hlt, h.indices, h.position, h.mux⟩
      · exact ⟨_, tick_of_ge hp h hlt, h.afterVisit⟩
  | .voltage x => exact ⟨adc0IRQHandler x s, if_neg (by simp), h.indices, h.position, h.mux⟩
  | .current x => exact ⟨adc1IRQHandler x s, if_neg (by simp), h.indices, h.position, h.mux⟩
  | .sysTick => exact ⟨sysTickHandler s, if_neg (by simp), h.indices, h.position, h.mux⟩

end Sampler

namespace Firmware

open Modbus

/-- What happens while the main loop waits for bytes. -/
inductive LiveEvent
  /-- A frame is complete and handled to its end. -/
  | frame (malloc : Malloc ℕ) (f : Frame)
  /-- An interrupt of the sampler. -/
  | interrupt (e : Sampler.Event)

/-- One event. -/
def liveStep (t : Target) (fw : Firmware) : LiveEvent → Except Fault Firmware
  | .frame malloc f => turnStep t fw (malloc, f)
  | .interrupt e => fw.peripherals.sampler.interrupt t true fw.server.params e >>= fun s =>
      .ok { fw with peripherals := { fw.peripherals with sampler := s } }

variable {t : Target} {malloc : Malloc ℕ} {f : Frame} {fw fw' : Firmware} {e : LiveEvent}

/-- **What a frame can do**: leave settings and peripherals, or, if it is an accepted write,
store its registers, put them into force and initialise the peripherals. -/
theorem turnStep_cases (h : Sound fw) (hstep : turnStep t fw (malloc, f) = .ok fw') :
    (acceptedWrite f.bytes = none ∧ fw'.settings = fw.settings ∧ fw'.peripherals = fw.peripherals) ∨
      ∃ start values, acceptedWrite f.bytes = some (start, values) ∧
        fw'.settings = fw.settings.write start values ∧
        ∃ status, initializeAllPeripherals t malloc fw'.server.params fw.peripherals
          = .ok (fw'.peripherals, status) := by
  have hb := f.deliverable.1
  cases hw : acceptedWrite f.bytes with
  | none =>
      obtain ⟨inputRegisters, out, hturn⟩ := turn_of_no_write t malloc hb h.unchanged hw
      rw [turnStep, hturn, Run.ok_map, Except.ok.injEq] at hstep
      subst hstep
      exact .inl ⟨rfl, rfl, rfl⟩
  | some w =>
      obtain ⟨start, values⟩ := w
      rw [turnStep, turn_of_write t malloc fw hb hw] at hstep
      obtain ⟨d', status, hinit, -⟩ := initializeAllPeripherals_ok t malloc
        (modbusUpdateParameters_counted (storeFrom fw.server.holdingRegisters start values) h.counted)
        (modbusUpdateParameters_muxFreq _ h.muxFreq) h.block
      rw [hinit, Run.ok_bind, Run.ok_map, Except.ok.injEq] at hstep
      subst hstep
      exact .inr ⟨start, values, rfl, rfl, status, hinit⟩

/-- Every event keeps the invariant of the main loop. -/
theorem Sound.liveStep (h : Sound fw) (hstep : liveStep t fw e = .ok fw') : Sound fw' := by
  match e with
  | .frame malloc f =>
      obtain ⟨u, hu, hsound, -⟩ := turnStep_settings t h (malloc, f)
      obtain rfl := Except.ok.inj (hu.symm.trans hstep)
      exact hsound
  | .interrupt e =>
      obtain ⟨s', hs', hfw'⟩ := Run.bind_eq_ok.1 hstep
      obtain rfl := Except.ok.inj hfw'
      refine ⟨h.counted, h.muxFreq, ?_, h.unchanged⟩
      change s'.activeStripIndices ≠ .freed
      rw [Sampler.interrupt_activeStripIndices hs']
      exact h.block

end Firmware
end GasSensor
