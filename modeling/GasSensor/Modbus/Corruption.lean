/-
# Frames with a wrong checksum

`Modbus_HandleRequest` computes checksums of what it transmits and none of what
it receives.  `SameBody` relates two frames that differ at most in their last
two bytes, and `modbusHandleRequest_congr` says that the server cannot tell
them apart: no handler reads those bytes.
-/

import GasSensor.Modbus.Bounds

namespace GasSensor
namespace Modbus

/-- Two frames of one length that agree before the checksum. -/
structure SameBody (buffer buffer' : List UInt8) : Prop where
  length : buffer.length = buffer'.length
  body : buffer.take (buffer.length - 2) = buffer'.take (buffer.length - 2)

variable {resistanceArray : Strip → ℤ × ℤ} {buffer buffer' : List UInt8} {s : Server}

/-- **The server does not look at the last two bytes of a frame.** -/
theorem modbusHandleRequest_congr [Arithmetic] (hb : Complete buffer) (h : SameBody buffer buffer') :
    modbusHandleRequest resistanceArray buffer buffer.length s
      = modbusHandleRequest resistanceArray buffer' buffer'.length s := by
  rw [← h.length]
  exact modbusHandleRequest_of_take_eq resistanceArray hb h.body

/-! ### The checksum of a request is not checked -/

/-- The frame with the bytes before its checksum kept and the checksum put
right. -/
def Frame.corrected (f : Frame) : List UInt8 := withCRC (f.bytes.take (f.bytes.length - 2))

theorem Frame.corrected_hasCRC (f : Frame) : HasCRC f.corrected := hasCRC_withCRC _

theorem Frame.sameBody_corrected (f : Frame) : SameBody f.bytes f.corrected := by
  have h8 : 8 ≤ f.bytes.length := f.deliverable.1.1
  have hlen : (f.bytes.take (f.bytes.length - 2)).length = f.bytes.length - 2 := by
    rw [List.length_take]
    omega
  constructor
  · rw [corrected, withCRC_length, hlen]
    omega
  · rw [corrected, withCRC, List.take_left' hlen]

section
variable [Arithmetic]

/-- Handling the frame transmits nothing and leaves the holding registers, the
parameters and the flag as they were. -/
def HasNoEffect (resistanceArray : Strip → ℤ × ℤ) (s : Server) (f : Frame) : Prop :=
  ∃ s', modbusHandleRequest resistanceArray f.bytes f.bytes.length s = .ok (s', []) ∧
    s'.holdingRegisters = s.holdingRegisters ∧ s'.params = s.params ∧
    s'.modbusParamChanged = s.modbusParamChanged

/-- **A wrong checksum goes unnoticed.**  A frame for another address changes
nothing.  Whatever its last two bytes are, a frame is handled exactly like the
same frame with the right checksum.  Only an accepted write changes the holding
registers, the parameters or the flag. -/
theorem modbusHandleRequest_ignores_crc (resistanceArray : Strip → ℤ × ℤ) (s : Server) (f : Frame) :
    (f.address ≠ modbusAddress →
      modbusHandleRequest resistanceArray f.bytes f.bytes.length s = .ok (s, [])) ∧
    modbusHandleRequest resistanceArray f.bytes f.bytes.length s
      = modbusHandleRequest resistanceArray f.corrected f.corrected.length s ∧
    (acceptedWrite f.bytes = none → ∃ s' out,
      modbusHandleRequest resistanceArray f.bytes f.bytes.length s = .ok (s', out) ∧
      s'.holdingRegisters = s.holdingRegisters ∧ s'.params = s.params ∧
      s'.modbusParamChanged = s.modbusParamChanged) := by
  refine ⟨fun ha => ?_, modbusHandleRequest_congr f.deliverable.1 f.sameBody_corrected, fun hw => ?_⟩
  · rw [modbusHandleRequest_eq _ s f.deliverable.1.1]
    exact if_pos ha
  · obtain ⟨inputRegisters, out, h⟩ :=
      modbusHandleRequest_of_no_write resistanceArray s f.deliverable.1 hw
    exact ⟨_, out, h, rfl, rfl, rfl⟩

end

attribute [local instance] Arithmetic.uncontracted

/-- A write of the value 3 to holding register 0 whose checksum was lost. -/
def corruptedWrite : Frame := ⟨[0x01, 0x06, 0x00, 0x00, 0x00, 0x03, 0x00, 0x00], by decide⟩

/-- Frames with a wrong checksum are not without effect: this one stores the 3,
selects the triangle wave and is echoed. -/
theorem corruptedWrite_has_effect :
    ¬ ∀ f : Frame, ¬ HasCRC f.bytes → HasNoEffect (fun _ => (0, 0)) .boot f := by
  intro h
  obtain ⟨s', hs', -⟩ := h corruptedWrite (by unfold HasCRC; decide)
  have hwrite : acceptedWrite corruptedWrite.bytes = some (0, [3]) := by decide
  rw [modbusHandleRequest_of_write corruptedWrite.deliverable.1 hwrite] at hs'
  cases hs'

end Modbus
end GasSensor
