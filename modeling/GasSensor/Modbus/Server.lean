/-
# The Modbus server

`source/Modbus_files/modbus.c`: the request handlers behind
`Modbus_HandleRequest` and `Modbus_UpdateParameters`.

A handler reads the request buffer, changes the holding registers, the input
registers, the parameters and `ModbusParamChanged`, and passes at most one
frame to `LPUART_WriteBlocking`.  Buffers are accessed with bounds checks.  An
array that is filled store by store (`txBuffer[0] = ...; txBuffer[1] = ...;`)
is filled by `writeFrom`.
-/

import GasSensor.Global
import GasSensor.Modbus.Crc
import Mathlib.Data.Fin.VecNotation

namespace GasSensor

open FloatingPoint

namespace Modbus

/-- `FUNC_READ_HOLDING_REGISTERS`. -/
def funcReadHoldingRegisters : UInt8 := 0x03

/-- `FUNC_READ_INPUT_REGISTERS`. -/
def funcReadInputRegisters : UInt8 := 0x04

/-- `FUNC_WRITE_SINGLE_REGISTER`. -/
def funcWriteSingleRegister : UInt8 := 0x06

/-- `FUNC_WRITE_MULTIPLE_REGISTERS`. -/
def funcWriteMultipleRegisters : UInt8 := 0x10

/-- `ERROR_ILLEGAL_FUNCTION`. -/
def errorIllegalFunction : UInt8 := 0x01

/-- `ERROR_ILLEGAL_DATA_ADDRESS`. -/
def errorIllegalDataAddress : UInt8 := 0x02

/-- `MODBUS_ADDRESS`. -/
def modbusAddress : UInt8 := 0x01

/-- Holding registers are written as numerals. -/
instance neZero_seven : NeZero 7 := ⟨by decide⟩

/-- The globals of the server: the 7 holding registers, the 8 input registers,
the live parameters and the flag that asks the main loop to reconfigure. -/
structure Server where
  holdingRegisters : Fin 7 → UInt16
  inputRegisters : Fin 8 → UInt16
  params : Params
  modbusParamChanged : Bool

variable [Arithmetic]

/-- The server when the firmware starts. -/
def Server.boot : Server where
  holdingRegisters := ![1, 50, 50, 21000, 1000, 8, 8]
  inputRegisters := fun _ => 0
  params := .boot
  modbusParamChanged := false

/-- What a handler returns: the server and the frames transmitted, in order. -/
abbrev Reply := Except Fault (Server × List (List UInt8))

/-- `if (buffer[i] != 0) parameter = value;`: a zero register keeps the parameter. -/
def unlessZero {α : Type*} (register : UInt16) (value kept : α) : α :=
  if register ≠ 0 then value else kept

/-- `(float)buffer[i] / 1000.0f`. -/
def thousandth (register : UInt16) : Value := float.div (float.round register.toNat) (.finite 1000)

/-- `Modbus_UpdateParameters`.  `desiredAmplitude` is a `uint32_t`, so the
quotient of the millivolts by 1000 is truncated to volts. -/
def modbusUpdateParameters (buffer : Fin 7 → UInt16) (p : Params) : Params :=
  let strips : Strip → Bool := fun i => (buffer 6).toNat.testBit i
  { waveType := unlessZero (buffer 0) ((buffer 0).toNat - 1) p.waveType
    dutyCycle := unlessZero (buffer 1) (buffer 1).toNat p.dutyCycle
    desiredFrequency := unlessZero (buffer 2) (thousandth (buffer 2)) p.desiredFrequency
    desiredAmplitude := unlessZero (buffer 3) (thousandth (buffer 3)).truncate p.desiredAmplitude
    gExcitationVoltagePerResistor :=
      unlessZero (buffer 4) (thousandth (buffer 4)) p.gExcitationVoltagePerResistor
    muxFreq := unlessZero (buffer 5) (buffer 5).toNat p.muxFreq
    activeStrips := unlessZero (buffer 6) strips p.activeStrips
    gStripCount := unlessZero (buffer 6) (countStrips strips) p.gStripCount }

/-- Storing registers and applying them: `memcpy` of the holding registers, then
`Modbus_UpdateParameters`, which ends with `ModbusParamChanged = true`. -/
def Server.applyRegisters (s : Server) (holdingRegisters : Fin 7 → UInt16) : Server :=
  { s with
    holdingRegisters := holdingRegisters
    params := modbusUpdateParameters holdingRegisters s.params
    modbusParamChanged := true }

/-- `Modbus_SendError`. -/
def modbusSendError (address function errorCode : UInt8) : Except Fault (List UInt8) := do
  let frame ← writeFrom (List.replicate 5 0) 0 [address, function ||| 0x80, errorCode]
  let crc ← crcOf frame 3
  writeFrom frame 3 (crcBytes crc)

/-- A register of a table of `n` registers. -/
def readTable {n : ℕ} (table : Fin n → UInt16) (i : ℕ) : Except Fault UInt16 :=
  if h : i < n then .ok (table ⟨i, h⟩) else .error .outOfBounds

/-- `uint8_t responseLength = 3 + registerCount * 2 + 2;`. -/
def responseLength (registerCount : ℕ) : ℕ := (3 + registerCount * 2 + 2) % 256

/-- The response part both read handlers share: a variable length array of
`responseLength` bytes, filled with the header, the registers and
the CRC. -/
def sendRegisters {n : ℕ} (table : Fin n → UInt16) (address function : UInt8)
    (startAddress registerCount : ℕ) : Except Fault (List UInt8) := do
  let txBuffer ← writeFrom (List.replicate (responseLength registerCount) 0) 0
    [address, function, UInt8.ofNat (registerCount * 2)]
  let txBuffer ← (List.range registerCount).foldlM (fun tx i => do
    let w ← readTable table (startAddress + i)
    writeFrom tx (3 + i * 2) [hiByte w, loByte w]) txBuffer
  let crc ← crcOf txBuffer (3 + registerCount * 2)
  writeFrom txBuffer (3 + registerCount * 2) (crcBytes crc)

/-- `Modbus_HandleReadHoldingRegister`. -/
def modbusHandleReadHoldingRegister (buffer : List UInt8) (s : Server) : Reply := do
  let startAddress := (word (← readAt buffer 2) (← readAt buffer 3)).toNat
  let registerCount := (word (← readAt buffer 4) (← readAt buffer 5)).toNat
  if startAddress + registerCount ≤ 7 then
    let frame ← sendRegisters s.holdingRegisters (← readAt buffer 0) (← readAt buffer 1)
      startAddress registerCount
    .ok (s, [frame])
  else
    let frame ← modbusSendError (← readAt buffer 0) (← readAt buffer 1) errorIllegalDataAddress
    .ok (s, [frame])

/-- `Modbus_HandleReadInputRegister`.  An in-range request first copies the
resistances into the 16-bit input registers. -/
def modbusHandleReadInputRegister (resistanceArray : Strip → ℤ × ℤ) (buffer : List UInt8)
    (s : Server) : Reply := do
  let startAddress := (word (← readAt buffer 2) (← readAt buffer 3)).toNat
  let registerCount := (word (← readAt buffer 4) (← readAt buffer 5)).toNat
  if startAddress + registerCount ≤ 8 then
    let s := { s with inputRegisters := fun i => UInt16.ofNat ((resistanceArray i).1 % 65536).toNat }
    let frame ← sendRegisters s.inputRegisters (← readAt buffer 0) (← readAt buffer 1)
      startAddress registerCount
    .ok (s, [frame])
  else
    let frame ← modbusSendError (← readAt buffer 0) (← readAt buffer 1) errorIllegalDataAddress
    .ok (s, [frame])

/-- `holdingRegisters[address] = value;` -/
def writeTable (table : Fin 7 → UInt16) (address : ℕ) (value : UInt16) : Except Fault (Fin 7 → UInt16) :=
  if h : address < 7 then .ok (Function.update table ⟨address, h⟩ value) else .error .outOfBounds

/-- The echo of a write request: its first six bytes with their CRC. -/
def sendEcho (buffer : List UInt8) : Except Fault (List UInt8) := do
  let txBuffer ← memcpy (List.replicate 8 0) buffer 6
  let crc ← crcOf txBuffer 6
  writeFrom txBuffer 6 (crcBytes crc)

/-- `Modbus_HandleWriteSingleRegister`. -/
def modbusHandleWriteSingleRegister (buffer : List UInt8) (length : ℕ) (s : Server) : Reply := do
  if length < 8 then .ok (s, [])
  else
    let address := (word (← readAt buffer 2) (← readAt buffer 3)).toNat
    let value := word (← readAt buffer 4) (← readAt buffer 5)
    if address < 7 then
      let holdingRegisters ← writeTable s.holdingRegisters address value
      let frame ← sendEcho buffer
      .ok (s.applyRegisters holdingRegisters, [frame])
    else
      let frame ← modbusSendError (← readAt buffer 0) (← readAt buffer 1) errorIllegalDataAddress
      .ok (s, [frame])

/-- `Modbus_HandleWriteMultipleRegisters`. -/
def modbusHandleWriteMultipleRegisters (buffer : List UInt8) (length : ℕ) (s : Server) : Reply := do
  if length < 9 then .ok (s, [])
  else
    let startAddress := (word (← readAt buffer 2) (← readAt buffer 3)).toNat
    let registerCount := (word (← readAt buffer 4) (← readAt buffer 5)).toNat
    let byteCount := (← readAt buffer 6).toNat
    if registerCount < 1 ∨ registerCount > 123 ∨ byteCount ≠ registerCount * 2 then
      let frame ← modbusSendError (← readAt buffer 0) (← readAt buffer 1) errorIllegalDataAddress
      .ok (s, [frame])
    else if startAddress + registerCount ≤ 7 then
      let holdingRegisters ← (List.range registerCount).foldlM (fun table i => do
        let value := word (← readAt buffer (7 + i * 2)) (← readAt buffer (8 + i * 2))
        writeTable table (startAddress + i) value) s.holdingRegisters
      let frame ← sendEcho buffer
      .ok (s.applyRegisters holdingRegisters, [frame])
    else
      let frame ← modbusSendError (← readAt buffer 0) (← readAt buffer 1) errorIllegalDataAddress
      .ok (s, [frame])

/-- `Modbus_HandleRequest`. -/
def modbusHandleRequest (resistanceArray : Strip → ℤ × ℤ) (buffer : List UInt8) (length : ℕ)
    (s : Server) : Reply := do
  if length < 8 then .ok (s, [])
  else
    let address ← readAt buffer 0
    let functionCode ← readAt buffer 1
    if address ≠ modbusAddress then .ok (s, [])
    else if functionCode = funcReadInputRegisters then
      modbusHandleReadInputRegister resistanceArray buffer s
    else if functionCode = funcReadHoldingRegisters then modbusHandleReadHoldingRegister buffer s
    else if functionCode = funcWriteSingleRegister then
      modbusHandleWriteSingleRegister buffer length s
    else if functionCode = funcWriteMultipleRegisters then
      modbusHandleWriteMultipleRegisters buffer length s
    else
      let frame ← modbusSendError (← readAt buffer 0) functionCode errorIllegalFunction
      .ok (s, [frame])

end Modbus
end GasSensor
