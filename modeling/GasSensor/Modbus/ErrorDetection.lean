/-
# Which transmission errors the checksum detects

`Modbus_CRC16` of `source/Modbus_files/modbus.c` as a shift register that the bits of a
frame are fed into in the order in which they are transmitted, lowest bit of each byte
first (`modbusCRC16_toBitVec`).  Its polynomial has the highest bit set and three
ones, and the register takes at least 2048 steps to come back to a single one
(`step_iterate_generator_ne_one`).  So the detection rules of `ShiftRegister` apply:
`modbusCRC16_ne`.
-/

import GasSensor.Modbus.BitSerial

namespace GasSensor
namespace Modbus

/-- The bits of a byte in transmission order. -/
def bitsOfByte (data : UInt8) : List Bool := (List.range 8).map data.toBitVec.getLsbD

/-- The bits of a byte sequence in transmission order. -/
def bitsOf (bytes : List UInt8) : List Bool := bytes.flatMap bitsOfByte

/-- **The bitwise difference** of two byte sequences in transmission order. -/
def difference (a b : List UInt8) : List Bool := List.zipWith xor (bitsOf a) (bitsOf b)

variable {a b : List UInt8}

@[simp] theorem bitsOfByte_length (data : UInt8) : (bitsOfByte data).length = 8 := by
  simp [bitsOfByte]

@[simp] theorem bitsOf_length (bytes : List UInt8) : (bitsOf bytes).length = 8 * bytes.length := by
  simp [bitsOf, List.length_flatMap, Nat.mul_comm]

theorem bitsOfByte_inj {x y : UInt8} : bitsOfByte x = bitsOfByte y ↔ x = y := by
  constructor
  · intro h
    rw [bitsOfByte, bitsOfByte, List.map_inj_left] at h
    exact UInt8.toBitVec_inj.1 (BitVec.eq_of_getLsbD_eq fun i hi => h i (List.mem_range.2 hi))
  · rintro rfl
    rfl

theorem bitsOf_inj (hlen : a.length = b.length) : bitsOf a = bitsOf b ↔ a = b := by
  constructor
  · intro h
    induction a generalizing b with
    | nil => exact (List.length_eq_zero_iff.1 hlen.symm).symm
    | cons x a ih =>
        match b, hlen with
        | y :: b, hlen =>
            have happend : bitsOfByte x ++ bitsOf a = bitsOfByte y ++ bitsOf b := h
            obtain ⟨hbyte, hrest⟩ := List.append_inj happend (by simp)
            rw [bitsOfByte_inj.1 hbyte, ih (Nat.succ.inj hlen) hrest]
  · rintro rfl
    rfl

/-- Sequences whose difference has no one are equal. -/
theorem true_mem_difference (hlen : a.length = b.length) (hne : a ≠ b) : true ∈ difference a b := by
  by_contra hnone
  refine hne ((bitsOf_inj hlen).1 (List.ext_getElem (by simp [hlen]) fun i ha hb => ?_))
  have hmem : ((bitsOf a)[i] ^^ (bitsOf b)[i]) ∈ difference a b :=
    List.mem_iff_getElem.2 ⟨i, by simpa [difference, hlen] using hb, by simp [difference]⟩
  by_contra hbit
  have hxor : ((bitsOf a)[i] ^^ (bitsOf b)[i]) = true := bne_iff_ne.2 hbit
  rw [hxor] at hmem
  exact hnone hmem

theorem difference_length (hlen : a.length = b.length) : (difference a b).length = 8 * a.length := by
  simp [difference, hlen]

/-- A byte is fed in bit by bit. -/
theorem crcStep_toBitVec (wCRCWord : UInt16) (data : UInt8) :
    (crcStep wCRCWord data).toBitVec
      = ShiftRegister.remainder generator wCRCWord.toBitVec (bitsOfByte data) := by
  have hbits : (List.range 8).map data.toUInt16.toBitVec.getLsbD = bitsOfByte data := by
    refine List.map_congr_left fun i hi => ?_
    have h8 := List.mem_range.1 hi
    rw [UInt8.toBitVec_toUInt16, BitVec.getLsbD_setWidth, decide_eq_true (by omega), Bool.true_and]
  rw [crcStep_eq, bitSerialStep, bitStep_iterate_toBitVec, UInt16.toBitVec_xor,
    ShiftRegister.step_iterate_word (toUInt16_ushiftRight data), hbits]

/-- **The checksum is a remainder.** -/
theorem modbusCRC16_toBitVec (nData : List UInt8) :
    (modbusCRC16 nData).toBitVec = ShiftRegister.remainder generator 0xFFFF (bitsOf nData) := by
  have hfold : ∀ (bytes : List UInt8) (c : UInt16), (bytes.foldl crcStep c).toBitVec
      = ShiftRegister.remainder generator c.toBitVec (bitsOf bytes) := by
    intro bytes
    induction bytes with
    | nil => exact fun _ => rfl
    | cons data bytes ih =>
        intro c
        rw [List.foldl_cons, ih, crcStep_toBitVec, ← ShiftRegister.remainder_append]
        rfl
  exact hfold nData 0xFFFF

/-- Sequences of one length with the same checksum differ by what leaves no remainder. -/
theorem modbusCRC16_eq_iff (hlen : a.length = b.length) :
    modbusCRC16 a = modbusCRC16 b ↔ ShiftRegister.remainder generator 0#16 (difference a b) = 0#16 := by
  rw [← UInt16.toBitVec_inj, modbusCRC16_toBitVec, modbusCRC16_toBitVec,
    ShiftRegister.remainder_eq_iff _ _ (by simp [hlen])]
  rfl

theorem generator_high : generator.getLsbD (16 - 1) = true := by decide

theorem generator_parity : ShiftRegister.parity generator = 1 := by decide

/-- The register avoids a single one for `n` steps from `c` on. -/
def avoidsOne : ℕ → BitVec 16 → Bool
  | 0, _ => true
  | n + 1, c => c != 1#16 && avoidsOne n (ShiftRegister.step generator c)

theorem avoidsOne_iff (n : ℕ) (c : BitVec 16) :
    avoidsOne n c = true ↔ ∀ k < n, (ShiftRegister.step generator)^[k] c ≠ 1#16 := by
  induction n generalizing c with
  | zero => exact iff_of_true rfl fun k hk => absurd hk (Nat.not_lt_zero k)
  | succ n ih =>
      rw [avoidsOne, Bool.and_eq_true, bne_iff_ne, ih]
      constructor
      · rintro ⟨h0, h⟩ k hk
        cases k with
        | zero => exact h0
        | succ k => exact h k (Nat.lt_of_succ_lt_succ hk)
      · intro h
        exact ⟨h 0 (Nat.succ_pos n), fun k hk => h (k + 1) (Nat.succ_lt_succ hk)⟩

/-- **The register does not come back to a single one within 2047 steps.** -/
theorem step_iterate_generator_ne_one (n : ℕ) (hpos : 0 < n) (hn : n < 2048) :
    (ShiftRegister.step generator)^[n] 1#16 ≠ 1#16 := by
  have havoid : avoidsOne 2047 (ShiftRegister.step generator 1#16) = true := by decide +kernel
  obtain ⟨k, rfl⟩ := Nat.exists_eq_add_of_lt hpos
  rw [Nat.zero_add, Function.iterate_succ_apply]
  exact (avoidsOne_iff 2047 _).1 havoid k (by omega)

/-- **What `Modbus_CRC16` detects.**  Two different byte sequences of one length have
different checksums if they differ within 16 consecutive bits, in an odd number of
bits, or, up to 256 bytes, in exactly two. -/
theorem modbusCRC16_ne (a b : List UInt8) (hlen : a.length = b.length) (hne : a ≠ b) :
    ((∃ k, ∀ i, (difference a b)[i]? = some true → k ≤ i ∧ i < k + 16) → modbusCRC16 a ≠ modbusCRC16 b) ∧
    (Odd ((difference a b).count true) → modbusCRC16 a ≠ modbusCRC16 b) ∧
    ((difference a b).count true = 2 → a.length ≤ 256 → modbusCRC16 a ≠ modbusCRC16 b) := by
  rw [ne_eq, modbusCRC16_eq_iff hlen]
  refine ⟨?_, ?_, ?_⟩
  · rintro ⟨k, hburst⟩
    exact ShiftRegister.remainder_ne_zero_of_burst generator_high (true_mem_difference hlen hne) hburst
  · exact ShiftRegister.remainder_ne_zero_of_odd generator_parity
  · intro htwo hle
    refine ShiftRegister.remainder_ne_zero_of_two generator_high (fun n hpos hn => ?_) htwo
    rw [difference_length hlen] at hn
    exact step_iterate_generator_ne_one n hpos (by omega)

/-- The three kinds of errors: `01 03` arrives as `01 FC`, with one bit wrong, and with the first
and the last bit wrong. -/
theorem modbusCRC16_ne_small :
    modbusCRC16 [0x01, 0x03] ≠ modbusCRC16 [0x01, 0xFC] ∧ modbusCRC16 [0x01, 0x03] ≠ modbusCRC16 [0x01, 0x02] ∧
      modbusCRC16 [0x01, 0x03] ≠ modbusCRC16 [0x00, 0x83] := by
  refine ⟨?_, ?_, ?_⟩
  · refine (modbusCRC16_ne [0x01, 0x03] [0x01, 0xFC] rfl (by decide)).1 ⟨0, fun i hi => ?_⟩
    have hlt : i < (difference [0x01, 0x03] [0x01, 0xFC]).length := (List.getElem?_eq_some_iff.1 hi).1
    exact ⟨Nat.zero_le i, hlt⟩
  · exact (modbusCRC16_ne [0x01, 0x03] [0x01, 0x02] rfl (by decide)).2.1 (by decide)
  · exact (modbusCRC16_ne [0x01, 0x03] [0x00, 0x83] rfl (by decide)).2.2 (by decide) (by decide)

end Modbus
end GasSensor
