/-
# The main loop in Modbus mode

`main` of `source/main.c` with `ModbusFlag` set: handle a frame, and if it
changed a parameter run `InitializeAllPeripherals`, ignoring what it returns.
`turn` is one pass of the loop on a delivered frame.

`Sound` holds in every state the loop reaches: the strip count counts the strip
flags, the multiplexer frequency is not zero, and the block of active strip
numbers is not a dangling pointer.  From it no pass faults (`turn_ok`).
-/

import GasSensor.Firmware.Applied
import GasSensor.Modbus.Respond

namespace GasSensor

open Modbus

/-- The whole firmware between two passes of its main loop. -/
structure Firmware where
  server : Server
  peripherals : Peripherals

namespace Firmware

variable [Arithmetic]

/-- The firmware when it starts. -/
def boot : Firmware := ⟨.boot, .boot⟩

/-- One pass of the Modbus main loop, with the frames it transmits. -/
def turn (t : Target) (malloc : Malloc ℕ) (bytes : List UInt8) (fw : Firmware) :
    Except Fault (Firmware × List (List UInt8)) := do
  let (server, frames) ← modbusHandleRequest fw.peripherals.sampler.resistanceArray bytes bytes.length
    fw.server
  if server.modbusParamChanged then
    let (peripherals, _) ← initializeAllPeripherals t malloc server.params fw.peripherals
    .ok (⟨{ server with modbusParamChanged := false }, peripherals⟩, frames)
  else .ok (⟨server, fw.peripherals⟩, frames)

/-- A pass without its frames, as a step of a run. -/
def turnStep (t : Target) (fw : Firmware) (q : Malloc ℕ × Frame) : Except Fault Firmware :=
  Prod.fst <$> turn t q.1 q.2.bytes fw

/-- Updating keeps the strip count equal to the number of strip flags. -/
theorem modbusUpdateParameters_counted (buffer : Fin 7 → UInt16) {p : Params} (hp : p.Counted) :
    (modbusUpdateParameters buffer p).Counted := by
  unfold Params.Counted modbusUpdateParameters unlessZero
  by_cases h : buffer 6 ≠ 0
  · simp only [if_pos h]
  · simp only [if_neg h]
    exact hp

/-- Updating never makes the multiplexer frequency zero. -/
theorem modbusUpdateParameters_muxFreq (buffer : Fin 7 → UInt16) {p : Params} (hp : p.muxFreq ≠ 0) :
    (modbusUpdateParameters buffer p).muxFreq ≠ 0 := by
  change unlessZero (buffer 5) (buffer 5).toNat p.muxFreq ≠ 0
  unfold unlessZero
  split
  next h => exact fun h0 => h (UInt16.toNat_inj.1 h0)
  next => exact hp

/-- **The invariant of the Modbus main loop.** -/
structure Sound (fw : Firmware) : Prop where
  counted : fw.server.params.Counted
  muxFreq : fw.server.params.muxFreq ≠ 0
  block : fw.peripherals.sampler.activeStripIndices ≠ .freed
  unchanged : fw.server.modbusParamChanged = false

theorem sound_boot : Sound boot where
  counted := Params.counted_boot
  muxFreq := show 8 ≠ 0 by decide
  block := by simp [boot, Peripherals.boot, Sampler.boot]
  unchanged := rfl

variable {t : Target} {malloc : Malloc ℕ} {fw : Firmware} {bytes : List UInt8}

/-- A pass with an accepted write: the registers are stored and put into the
parameters, the request is echoed, and the peripherals are initialised. -/
theorem turn_of_write (t : Target) (malloc : Malloc ℕ) (fw : Firmware) {start : ℕ}
    {values : List UInt16} (hb : Complete bytes)
    (h : acceptedWrite bytes = some (start, values)) :
    turn t malloc bytes fw
      = initializeAllPeripherals t malloc
          (modbusUpdateParameters (storeFrom fw.server.holdingRegisters start values) fw.server.params)
          fw.peripherals >>= fun (peripherals, _) =>
        .ok (⟨{ fw.server.applyRegisters (storeFrom fw.server.holdingRegisters start values) with
            modbusParamChanged := false }, peripherals⟩, [withCRC (bytes.take 6)]) := by
  rw [turn, modbusHandleRequest_of_write hb h]
  rfl

/-- A pass with any other frame leaves registers, parameters and peripherals. -/
theorem turn_of_no_write (t : Target) (malloc : Malloc ℕ) (hb : Complete bytes)
    (hfw : fw.server.modbusParamChanged = false) (h : acceptedWrite bytes = none) :
    ∃ inputRegisters out, turn t malloc bytes fw
      = .ok (⟨{ fw.server with inputRegisters := inputRegisters }, fw.peripherals⟩, out) := by
  obtain ⟨inputRegisters, out, hreq⟩ :=
    modbusHandleRequest_of_no_write fw.peripherals.sampler.resistanceArray fw.server hb h
  refine ⟨inputRegisters, out, ?_⟩
  rw [turn, hreq, Run.ok_bind]
  exact if_neg (by rw [hfw]; decide)

/-- **No pass of the Modbus main loop faults**, and each keeps the invariant. -/
theorem turn_ok (t : Target) (malloc : Malloc ℕ) (hb : Complete bytes) (h : Sound fw) :
    ∃ fw' out, turn t malloc bytes fw = .ok (fw', out) ∧ Sound fw' := by
  cases hw : acceptedWrite bytes with
  | none =>
      obtain ⟨inputRegisters, out, hturn⟩ := turn_of_no_write t malloc hb h.unchanged hw
      exact ⟨_, out, hturn, h.counted, h.muxFreq, h.block, h.unchanged⟩
  | some w =>
      have hcounted := modbusUpdateParameters_counted
        (storeFrom fw.server.holdingRegisters w.1 w.2) h.counted
      have hmux := modbusUpdateParameters_muxFreq
        (storeFrom fw.server.holdingRegisters w.1 w.2) h.muxFreq
      obtain ⟨d', status, hinit, hblock⟩ :=
        initializeAllPeripherals_ok t malloc hcounted hmux h.block
      rw [turn_of_write _ _ _ hb hw, hinit]
      exact ⟨_, _, rfl, hcounted, hmux, hblock, rfl⟩

end Firmware
end GasSensor
