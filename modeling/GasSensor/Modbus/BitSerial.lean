/-
# The table-driven checksum is CRC-16/MODBUS

`Modbus_CRC16` of `source/Modbus_files/modbus.c` takes a byte in one step, with a table
of 256 words.  `bitSerialCRC16` is the definition of the checksum, a bit at a time, and
`crcStep_eq` says that a step of the code is eight steps of it: the table holds what
eight steps make of each byte (`wCRCTable_eq`), and the rest is the rule for tables of
`ShiftRegister`.
-/

import GasSensor.Modbus.Crc
import GasSensor.Lib.ShiftRegister

namespace GasSensor
namespace Modbus

/-- Shift right by one, and add 0xA001 if the bit shifted out was 1. -/
def bitStep (crc : UInt16) : UInt16 := if crc &&& 1 = 1 then (crc >>> 1) ^^^ 0xA001 else crc >>> 1

/-- Add a byte to the low byte, and shift eight times. -/
def bitSerialStep (crc : UInt16) (data : UInt8) : UInt16 := bitStep^[8] (crc ^^^ data.toUInt16)

/-- **CRC-16/MODBUS**, a bit at a time. -/
def bitSerialCRC16 (bytes : List UInt8) : UInt16 := bytes.foldl bitSerialStep 0xFFFF

/-- The feedback polynomial of the register. -/
def generator : BitVec 16 := 0xA001

theorem bitStep_toBitVec (crc : UInt16) :
    (bitStep crc).toBitVec = ShiftRegister.step generator crc.toBitVec := by
  have hlow : crc &&& 1 = 1 ↔ crc.toBitVec.getLsbD 0 = true := by
    rw [← UInt16.toBitVec_inj, UInt16.toBitVec_and, BitVec.getLsbD, Nat.testBit_zero, decide_eq_true_iff,
      ← BitVec.toNat_inj, BitVec.toNat_and]
    change crc.toBitVec.toNat &&& 1 = 1 ↔ _
    rw [Nat.and_one_is_mod]
  rw [bitStep, ShiftRegister.step, ShiftRegister.feed, Bool.xor_false]
  by_cases h : crc.toBitVec.getLsbD 0 = true
  · rw [if_pos (hlow.2 h), if_pos h, UInt16.toBitVec_xor, UInt16.toBitVec_shiftRight]
    rfl
  · rw [if_neg fun h' => h (hlow.1 h'), if_neg h, UInt16.toBitVec_shiftRight]
    rfl

theorem bitStep_iterate_toBitVec (n : ℕ) (crc : UInt16) :
    (bitStep^[n] crc).toBitVec = (ShiftRegister.step generator)^[n] crc.toBitVec :=
  Function.Semiconj.iterate_right bitStep_toBitVec n crc

/-- **All 256 words of the table** are what eight steps make of their index. -/
theorem wCRCTable_eq (data : UInt8) : wCRCTable.getD data.toNat 0 = bitStep^[8] data.toUInt16 := by
  have htable : wCRCTable = (List.range 256).map fun i => bitStep^[8] (UInt16.ofNat i) := by decide +kernel
  rw [htable, List.getD_eq_getElem?_getD, List.getElem?_map, List.getElem?_range data.toNat_lt, Option.map_some,
    Option.getD_some, UInt16.ofNat_uInt8ToNat]

/-- A byte has no bits behind the eighth. -/
theorem toUInt16_ushiftRight (data : UInt8) : data.toUInt16.toBitVec >>> 8 = 0#16 := by
  refine BitVec.eq_of_getLsbD_eq fun i _ => ?_
  rw [BitVec.getLsbD_ushiftRight, UInt8.toBitVec_toUInt16]
  simp

/-- **A step of the code is eight steps of the definition.** -/
theorem crcStep_eq (wCRCWord : UInt16) (data : UInt8) : crcStep wCRCWord data = bitSerialStep wCRCWord data := by
  set nTemp := data ^^^ wCRCWord.toUInt8 with hnTemp
  have hlow : ∀ i < 8, nTemp.toUInt16.toBitVec.getLsbD i = (wCRCWord ^^^ data.toUInt16).toBitVec.getLsbD i := by
    intro i hi
    rw [hnTemp, UInt8.toBitVec_toUInt16, UInt8.toBitVec_xor, UInt16.toBitVec_toUInt8, UInt16.toBitVec_xor,
      UInt8.toBitVec_toUInt16, BitVec.getLsbD_setWidth, BitVec.getLsbD_xor, BitVec.getLsbD_xor,
      BitVec.getLsbD_setWidth, BitVec.getLsbD_setWidth, decide_eq_true hi,
      decide_eq_true (show i < 16 by omega), Bool.true_and, Bool.true_and, Bool.true_and, Bool.xor_comm]
  have hhigh : (wCRCWord ^^^ data.toUInt16).toBitVec >>> 8 = (wCRCWord >>> 8).toBitVec := by
    rw [UInt16.toBitVec_xor, BitVec.ushiftRight_xor_distrib, toUInt16_ushiftRight,
      BitVec.xor_zero, UInt16.toBitVec_shiftRight]
    rfl
  apply UInt16.toBitVec_inj.1
  rw [bitSerialStep, bitStep_iterate_toBitVec, ShiftRegister.step_iterate_split hlow (toUInt16_ushiftRight nTemp),
    hhigh,
    ← bitStep_iterate_toBitVec, ← wCRCTable_eq, ← UInt16.toBitVec_xor]
  rfl

/-- The checksums agree. -/
theorem modbusCRC16_eq (nData : List UInt8) : modbusCRC16 nData = bitSerialCRC16 nData := by
  have hstep : crcStep = bitSerialStep := by
    funext wCRCWord data
    exact crcStep_eq wCRCWord data
  rw [modbusCRC16, bitSerialCRC16, hstep]

/-- Taking in the low byte of the checksum clears it, and the high byte the rest. -/
theorem crcStep_crcBytes (crc : UInt16) : (crcBytes crc).foldl crcStep crc = 0 := by
  have hlo : loByte crc = crc.toUInt8 := by
    apply UInt8.toNat_inj.1
    rw [loByte, UInt8.toNat_ofNat', UInt16.toNat_toUInt8]
    omega
  have hhi : hiByte crc = (crc >>> 8).toUInt8 := by
    apply UInt8.toNat_inj.1
    rw [hiByte, UInt8.toNat_ofNat', UInt16.toNat_toUInt8, UInt16.toNat_shiftRight]
    rw [Nat.shiftRight_eq_div_pow]
    rfl
  have hself : ∀ c : UInt16, crcStep c c.toUInt8 = c >>> 8 := by
    intro c
    rw [crcStep, UInt8.xor_self]
    exact UInt16.xor_zero
  have hshift : (crc >>> 8) >>> 8 = 0 := by
    apply UInt16.toNat_inj.1
    rw [UInt16.toNat_shiftRight, UInt16.toNat_shiftRight]
    have := crc.toNat_lt
    change (crc.toNat >>> 8) >>> 8 = 0
    rw [Nat.shiftRight_eq_div_pow, Nat.shiftRight_eq_div_pow]
    omega
  rw [crcBytes, List.foldl_cons, List.foldl_cons, List.foldl_nil, hlo, hself, hhi, hself, hshift]

/-- **`Modbus_CRC16` is CRC-16/MODBUS.**  On every byte sequence it is the bit-serial
checksum, and the checksum of a sequence with its own checksum behind it, low byte
first, is 0. -/
theorem modbusCRC16_is_bitSerial (nData : List UInt8) :
    modbusCRC16 nData = bitSerialCRC16 nData ∧ modbusCRC16 (withCRC nData) = 0 := by
  refine ⟨modbusCRC16_eq nData, ?_⟩
  rw [withCRC, modbusCRC16, List.foldl_append]
  exact crcStep_crcBytes (modbusCRC16 nData)

end Modbus
end GasSensor
