/-
# Which byte sequences the server handles as a frame

The receive loop `HandleModbusFrame` of `source/Modbus_files/modbus.c` collects
bytes in a buffer of 256 bytes and, from the eighth byte on, compares their
number with the length it expects from the function code.  `Frame` is a byte
sequence the loop can pass to `Modbus_HandleRequest`; `delivered_iff` says that
these are exactly the sequences it does pass on.
-/

import GasSensor.Modbus.Server

namespace GasSensor
namespace Modbus

/-- `MODBUS_BUFFER_LENGTH`. -/
def modbusBufferLength : ℕ := 256

/-- `expectedLength`: 8 bytes, or 9 and the byte count of a write-multiple
request. -/
def expectedLength (rxBuffer : List UInt8) : ℕ :=
  if rxBuffer.getD 1 0 = funcWriteMultipleRegisters then 9 + (rxBuffer.getD 6 0).toNat else 8

/-- The received bytes are a complete frame. -/
def Complete (rxBuffer : List UInt8) : Prop :=
  8 ≤ rxBuffer.length ∧ rxBuffer.length = expectedLength rxBuffer

instance (rxBuffer : List UInt8) : Decidable (Complete rxBuffer) := inferInstanceAs (Decidable (_ ∧ _))

/-- A complete write-multiple frame carries as many bytes as its byte count
says. -/
theorem Complete.length_eq {rxBuffer : List UInt8} (h : Complete rxBuffer)
    (hcode : rxBuffer.getD 1 0 = funcWriteMultipleRegisters) :
    rxBuffer.length = 9 + (rxBuffer.getD 6 0).toNat := by
  have hlen := h.2
  rwa [expectedLength, if_pos hcode] at hlen

/-- How one call of `HandleModbusFrame` ends on the bytes still to arrive. -/
inductive Received
  /-- The call waits for another byte. -/
  | waiting
  /-- The call returns without a frame, a byte having been read. -/
  | dropped (rest : List UInt8)
  /-- The call passes a frame to `Modbus_HandleRequest` and returns. -/
  | frame (bytes rest : List UInt8)
  deriving DecidableEq

/-- The loop of `HandleModbusFrame` with `rxBuffer` received so far.  The loop
condition reads a byte and then looks at `ModbusParamChanged`. -/
def handleModbusFrame (modbusParamChanged : Bool) : List UInt8 → List UInt8 → Received
  | _, [] => .waiting
  | rxBuffer, byte :: rest =>
      if modbusParamChanged then .dropped rest
      else
        let rxBuffer := if rxBuffer.length < modbusBufferLength then rxBuffer ++ [byte] else rxBuffer
        if Complete rxBuffer then .frame rxBuffer rest
        else handleModbusFrame modbusParamChanged rxBuffer rest

/-- A byte sequence `HandleModbusFrame` can deliver. -/
def Deliverable (bytes : List UInt8) : Prop := Complete bytes ∧ bytes.length ≤ modbusBufferLength

instance (bytes : List UInt8) : Decidable (Deliverable bytes) := inferInstanceAs (Decidable (_ ∧ _))

/-- In the words of the protocol: 8 bytes with another function byte than 0x10, or a
write-multiple frame with its 9 bytes and as many as its byte count, which fit the buffer. -/
theorem deliverable_iff {bytes : List UInt8} : Deliverable bytes ↔
    bytes.getD 1 0 ≠ funcWriteMultipleRegisters ∧ bytes.length = 8 ∨
      bytes.getD 1 0 = funcWriteMultipleRegisters ∧ bytes.length = 9 + (bytes.getD 6 0).toNat ∧
        bytes.length ≤ modbusBufferLength := by
  unfold Deliverable Complete expectedLength
  by_cases hf : bytes.getD 1 0 = funcWriteMultipleRegisters
  · simp only [hf, if_true, ne_eq, not_true_eq_false, false_and, true_and, false_or]
    omega
  · simp only [hf, if_false, ne_eq, not_false_eq_true, true_and, false_and, or_false]
    constructor
    · rintro ⟨⟨-, h⟩, -⟩
      exact h
    · intro h
      rw [h]
      decide

/-- A frame as `Modbus_HandleRequest` receives it. -/
structure Frame where
  bytes : List UInt8
  deliverable : Deliverable bytes

/-- Every frame the loop delivers is deliverable. -/
theorem deliverable_of_frame {rxBuffer input bytes rest : List UInt8}
    (hrx : rxBuffer.length ≤ modbusBufferLength)
    (h : handleModbusFrame false rxBuffer input = .frame bytes rest) : Deliverable bytes := by
  induction input generalizing rxBuffer with
  | nil => cases h
  | cons byte input ih =>
      have hlen : (if rxBuffer.length < modbusBufferLength then rxBuffer ++ [byte] else rxBuffer).length
          ≤ modbusBufferLength := by
        split
        · rw [List.length_append, List.length_singleton]; omega
        · exact hrx
      rw [handleModbusFrame, if_neg Bool.false_ne_true] at h
      by_cases hc : Complete (if rxBuffer.length < modbusBufferLength then rxBuffer ++ [byte] else rxBuffer)
      · rw [if_pos hc] at h
        cases h
        exact ⟨hc, hlen⟩
      · rw [if_neg hc] at h
        exact ih hlen h

/-- No proper beginning of a deliverable sequence is already complete: the
length expected from the first bytes does not change any more. -/
theorem not_complete_of_more {rxBuffer more : List UInt8} (hmore : more ≠ [])
    (h : Complete (rxBuffer ++ more)) : ¬ Complete rxBuffer := by
  rintro ⟨h8, he⟩
  have hexp : expectedLength (rxBuffer ++ more) = expectedLength rxBuffer := by
    simp only [expectedLength, List.getD_eq_getElem?_getD]
    rw [List.getElem?_append_left (by omega), List.getElem?_append_left (by omega)]
  have hpos : 0 < more.length := List.length_pos_iff.2 hmore
  have := h.2
  rw [hexp, List.length_append] at this
  omega

/-- The loop delivers a deliverable sequence as soon as its last byte is in. -/
theorem frame_of_deliverable {rxBuffer more : List UInt8} (rest : List UInt8) (hmore : more ≠ [])
    (h : Deliverable (rxBuffer ++ more)) :
    handleModbusFrame false rxBuffer (more ++ rest) = .frame (rxBuffer ++ more) rest := by
  induction more generalizing rxBuffer with
  | nil => exact absurd rfl hmore
  | cons byte more ih =>
      have hlen : rxBuffer.length < modbusBufferLength := by
        have := h.2
        rw [List.length_append, List.length_cons] at this
        omega
      rw [List.append_cons] at h ⊢
      rw [List.cons_append, handleModbusFrame, if_neg Bool.false_ne_true, if_pos hlen]
      by_cases hnil : more = []
      · subst hnil
        rw [List.append_nil] at h ⊢
        rw [if_pos h.1]
        rfl
      · rw [if_neg (not_complete_of_more hnil h.1)]
        exact ih hnil h

/-- **The frames of the server.**  A byte sequence is handed to
`Modbus_HandleRequest` for some input if and only if it is deliverable. -/
theorem delivered_iff {bytes : List UInt8} :
    (∃ input rest, handleModbusFrame false [] input = .frame bytes rest) ↔ Deliverable bytes := by
  constructor
  · rintro ⟨input, rest, h⟩
    exact deliverable_of_frame (Nat.zero_le _) h
  · intro h
    have hne : bytes ≠ [] := by
      rintro rfl
      exact absurd h.1.1 (by decide)
    exact ⟨bytes ++ [], [], frame_of_deliverable [] hne h⟩

namespace Frame

/-- The address byte. -/
def address (f : Frame) : UInt8 := f.bytes.getD 0 0

/-- The function code. -/
def functionCode (f : Frame) : UInt8 := f.bytes.getD 1 0

end Frame
end Modbus
end GasSensor
